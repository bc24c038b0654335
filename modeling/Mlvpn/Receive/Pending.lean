import Mlvpn.Receive.Delivery

/-! # Waiting packets have a timeout

A packet that waits in the pool is injected by the next packet, by a status
change or, at the latest, by the timer `reorder_drain_timeout`.  Every path
through the receive path that leaves packets in the pool starts the timer,
except one: a packet that comes too late for the window keeps its entry, and
`mlvpn_rtun_recv_data` returns before it reaches the timer.
-/

namespace Mlvpn.Receive

open Reorder Library Library.Machine

variable {s s' : Receive}

/-- Packets wait only while the drain timer runs. -/
def Pending (s : Receive) : Prop := s.freebuf.used > 0 → s.drainTimeout.active = true

theorem pending_of_unused (unused : s.freebuf.used = 0) : Pending s :=
  fun used => absurd unused (Nat.pos_iff_ne_zero.mp used)

theorem drainUsed_timer (fuel drained : Nat) :
    (drainUsed fuel drained s).2.drainTimeout = s.drainTimeout := by
  induction fuel generalizing s drained with
  | zero => rfl
  | succ fuel ih =>
      unfold drainUsed
      split
      next => rfl
      next => exact ih _

theorem injectDrained_timer (drained : List (Option Nat))
    (done : injectDrained drained s = some s') : s'.drainTimeout = s.drainTimeout := by
  induction drained generalizing s with
  | nil =>
      cases done
      rfl
  | cons pointer rest ih =>
      cases pointer with
      | none => cases done
      | some entry =>
          obtain ⟨freebuf, freed, later⟩ := Option.bind_eq_some_iff.mp done
          have timer := ih later
          exact timer

theorem stopIfUnused_period : (stopIfUnused s).drainTimeout.period = s.drainTimeout.period := by
  unfold stopIfUnused
  split <;> rfl

/-- The drain by age leaves nothing behind. -/
theorem reorderDrainAll_timer {n : Nat} (done : reorderDrainAll s = some (n, s')) :
    s'.freebuf.used = 0 ∧ s'.drainTimeout.period = s.drainTimeout.period := by
  unfold reorderDrainAll at done
  dsimp only at done
  split at done
  next => cases done
  next =>
    cases done
    have timer := drainUsed_timer (s := s) s.freebuf.usedHead.length 0
    constructor
    · rw [(stopIfUnused_buffer _).2]
      rfl
    · rw [stopIfUnused_period]
      exact congrArg Timer.period timer

theorem reorderDrainOrdered_timer {n : Nat} (done : reorderDrainOrdered s = some (n, s')) :
    s'.drainTimeout.period = s.drainTimeout.period := by
  unfold reorderDrainOrdered at done
  split at done
  next => cases done
  next =>
    obtain ⟨s₁, injected, same⟩ := Option.map_eq_some_iff.mp done
    cases same
    have timer := injectDrained_timer _ injected
    rw [stopIfUnused_period]
    exact congrArg Timer.period timer

/-- What waits at the end of `mlvpn_rtun_recv_data` has a timeout. -/
theorem restartIfUsed_pending {n : Nat} (repeats : 0 < s.drainTimeout.period) :
    Pending (restartIfUsed (n, s)).2 ∧
      (restartIfUsed (n, s)).2.drainTimeout.period = s.drainTimeout.period := by
  unfold restartIfUsed
  split
  next =>
    refine ⟨fun _ => ?_, rfl⟩
    exact decide_eq_true (ne_of_gt repeats)
  next unused => exact ⟨fun used => absurd used unused, rfl⟩

/-- The timer after a packet has been offered to the reorder buffer. -/
theorem recvEntry_pending {b : ReorderBuffer Nat} {entry n : Nat} {r : Reception}
    (repeats : 0 < s.drainTimeout.period) (done : recvEntry s b entry r = some (n, s')) :
    s'.drainTimeout.period = s.drainTimeout.period ∧
      ((reorderInsert b entry r.pkt.seq).1 = -2 →
        s'.drainTimeout = s.drainTimeout ∧ s'.freebuf = s.freebuf) ∧
      ((reorderInsert b entry r.pkt.seq).1 ≠ -2 → Pending s') := by
  unfold recvEntry at done
  split at done
  next =>
    dsimp only at done
    split at done
    next full =>
      obtain ⟨⟨m, s₁⟩, drained, same⟩ := Option.map_eq_some_iff.mp done
      have period := (reorderDrainAll_timer drained).2
      obtain ⟨pending, kept⟩ := restartIfUsed_pending (s := s₁) (n := m) (by rwa [period])
      rw [same] at pending kept
      refine ⟨kept.trans period, fun late => ?_, fun _ => pending⟩
      exact absurd (late.symm.trans full) (by decide)
    next =>
      split at done
      next late =>
        cases done
        exact ⟨rfl, fun _ => ⟨rfl, rfl⟩, fun timely => absurd late timely⟩
      next timely =>
        obtain ⟨⟨m, s₁⟩, drained, same⟩ := Option.map_eq_some_iff.mp done
        have period := reorderDrainOrdered_timer drained
        obtain ⟨pending, kept⟩ := restartIfUsed_pending (s := s₁) (n := m) (by rwa [period])
        rw [same] at pending kept
        exact ⟨kept.trans period, fun late => absurd late timely, fun _ => pending⟩
  next => cases done

/-- After a packet, what waits has a timeout, unless the packet was late and
    found the timer stopped. -/
theorem recvData_pending {tun n : Nat} {pkt : Pkt} (h : Owned s) (pending : Pending s)
    (repeats : 0 < s.drainTimeout.period) (done : recvData s tun pkt = some (n, s')) :
    s'.drainTimeout.period = s.drainTimeout.period ∧
      (Pending s' ↔ (Late s pkt → s.drainTimeout.active = true)) := by
  rcases recvData_cases h tun pkt with
    ⟨timely, called⟩ | ⟨b, entry, freebuf, buffer, got, allocated, late, called⟩
  · rw [called] at done
    cases done
    exact ⟨rfl, fun _ isLate => absurd isLate timely, fun _ => pending⟩
  · rw [called] at done
    let s₁ : Receive :=
      { s with
        received := s.received ++ [s.arrival tun pkt]
        freebuf := freebuf.store entry (s.arrival tun pkt) }
    obtain ⟨period, refused, taken⟩ := recvEntry_pending (s := s₁) repeats done
    refine ⟨period, ?_⟩
    by_cases isLate : Late s pkt
    · obtain ⟨timer, pool⟩ := refused (late.mp isLate)
      have used : s'.freebuf.used > 0 := by
        obtain ⟨wf, _, usedHead, _⟩ := h.pool.get got
        have count : freebuf.used = freebuf.usedHead.length := wf.count
        rw [usedHead, List.length_append, List.length_singleton] at count
        have same : s'.freebuf.used = s₁.freebuf.used := congrArg Freebuffer.used pool
        have stored : s₁.freebuf.used = freebuf.used := rfl
        omega
      have active : s'.drainTimeout.active = s.drainTimeout.active := congrArg Timer.active timer
      simp only [Pending, used, active, isLate, forall_const]
    · have waits : Pending s' := taken fun refused' => isLate (late.mpr refused')
      exact ⟨fun _ isLate' => absurd isLate' isLate, fun _ => waits⟩

/-- The events the timer is meant for: its period stays positive, and a new
    size fits the allocation. -/
def Usual : Event → Prop
  | .adjust period => 0 < period
  | .reload size => Fits size
  | _ => True

instance (e : Event) : Decidable (Usual e) :=
  match e with
  | .adjust _ => inferInstanceAs (Decidable (_ < _))
  | .reload _ => inferInstanceAs (Decidable (Fits _))
  | .recv _ _ => isTrue trivial
  | .timeout => isTrue trivial
  | .statusChange => isTrue trivial
  | .tuntapWrite => isTrue trivial

/-- A packet that comes too late finds the timer running. -/
def Armed (s : Receive) : Event → Prop
  | .recv _ pkt => Late s pkt → s.drainTimeout.active = true
  | _ => True

theorem step_pending {e : Event} (h : Owned s) (pending : Pending s)
    (repeats : 0 < s.drainTimeout.period) (usual : Usual e) (done : step s e = some s') :
    0 < s'.drainTimeout.period ∧ (Pending s' ↔ Armed s e) := by
  have always (kept : s'.drainTimeout.period = s.drainTimeout.period) (waits : Pending s') :
      0 < s'.drainTimeout.period ∧ (Pending s' ↔ True) :=
    ⟨by rwa [kept], iff_true_intro waits⟩
  cases e with
  | recv tun pkt =>
      obtain ⟨⟨n, s₁⟩, received, rfl⟩ := Option.map_eq_some_iff.mp done
      obtain ⟨period, iff⟩ := recvData_pending h pending repeats received
      exact ⟨by rwa [period], iff⟩
  | timeout =>
      rcases reorderDrainTimeout_cases done with rfl | ⟨n, s₁, drained, rfl⟩
      · exact always rfl pending
      · obtain ⟨unused, period⟩ := reorderDrainAll_timer drained
        refine always (stopIfUnused_period.trans period) (pending_of_unused ?_)
        rw [(stopIfUnused_buffer s₁).2]
        exact unused
  | statusChange =>
      rcases statusDrain_cases done with ⟨_, rfl⟩ | ⟨n, s₁, drained, rfl⟩
      · exact always rfl pending
      · obtain ⟨unused, period⟩ := reorderDrainAll_timer drained
        exact always period (pending_of_unused unused)
  | reload size =>
      cases done
      have same : (configReorderBufferSize s size).drainTimeout = s.drainTimeout ∧
          (configReorderBufferSize s size).freebuf = s.freebuf := by
        unfold configReorderBufferSize
        split <;> exact ⟨rfl, rfl⟩
      refine always (congrArg Timer.period same.1) ?_
      simp only [Pending, same]
      exact pending
  | adjust period =>
      cases done
      exact ⟨usual, iff_true_intro pending⟩
  | tuntapWrite =>
      obtain ⟨sbuf, ioWrite, rfl⟩ := tuntapWrite_cases done
      exact always rfl pending

theorem Usual.fitting {e : Event} (usual : Usual e) : Fitting s e := by
  cases e <;> first | exact usual | trivial

/-- The receive path with a reorder buffer and a drain timer of its own. -/
def reordering (size : UInt32) (period : ℚ) : Receive :=
  { configReorderBufferSize init size with drainTimeout := ⟨false, period⟩ }

/-- Over every run with a positive period, waiting packets have a timeout in
    every state exactly if every late packet finds the timer running. -/
theorem waiting_pending_iff {size : UInt32} {period : ℚ} (fits : Fits size)
    (repeats : 0 < period) (events : List Event) (usual : ∀ e ∈ events, Usual e) :
    ((∃ t, run step (reordering size period) events = some t) ∧
        Always step Pending (reordering size period) events) ↔
      Meets step Armed (reordering size period) events := by
  have owned : Owned (reordering size period) := by
    obtain ⟨loaded, _⟩ := configReorderBufferSize_owned owned_init fits
    refine { loaded with idle := fun none => ⟨(loaded.idle none).1, rfl⟩ }
  refine run_always_iff_meets
    (I := fun s events => Owned s ∧ 0 < s.drainTimeout.period ∧ ∀ e ∈ events, Usual e)
    ?_ events ⟨owned, repeats, usual⟩ ?_
  · rintro s e rest ⟨owned, repeats, usual⟩ pending
    have here := usual e List.mem_cons_self
    obtain ⟨s', done, owned', _⟩ := step_accounts owned here.fitting
    refine ⟨fun _ => ⟨s', done⟩, ?_⟩
    intro s'' done'
    obtain rfl : s' = s'' := Option.some.inj (done.symm.trans done')
    obtain ⟨repeats', iff⟩ := step_pending owned pending repeats here done
    exact ⟨⟨owned', repeats', fun e member => usual e (List.mem_cons_of_mem _ member)⟩, iff⟩
  · apply pending_of_unused
    unfold reordering configReorderBufferSize
    split <;> rfl

/-- A data packet to be reordered. -/
def numbered (seq : UInt64) : Event :=
  .recv 0 { Pkt.zero with type := .data, reorder := true, seq := seq }

instance (s : Receive) (pkt : Pkt) : Decidable (Late s pkt) :=
  decidable_of_iff
    (pkt.reorder = true ∧ s.freebuf.freeHead ≠ [] ∧
      ∃ b ∈ s.reorderBuffer, b.isInitialized = true ∧
        b.orderBuf.size ≤ (pkt.seq - b.minSeqn).toNat ∧
        2 * b.orderBuf.size % 2 ^ 32 ≤ (pkt.seq - b.minSeqn).toNat)
    (by simp only [Late, Option.mem_def])

instance (s : Receive) (e : Event) : Decidable (Armed s e) :=
  match e with
  | .recv _ _ => inferInstanceAs (Decidable (_ → _))
  | .adjust _ => isTrue trivial
  | .reload _ => isTrue trivial
  | .timeout => isTrue trivial
  | .statusChange => isTrue trivial
  | .tuntapWrite => isTrue trivial

/-- Packet 12 waits for packet 11, so that the late packet 5 finds the timer running. -/
theorem waiting_pending_behind_gap :
    Always step Pending (reordering 2 1) [numbered 10, numbered 12, numbered 5, .timeout] :=
  ((waiting_pending_iff (by decide) (by decide) _ (by decide)).mpr (by decide +kernel)).2

/-- Two slots: packet 10 is drained at once, and packet 5 keeps an entry of the
    pool although it has been injected, with no timer to free it. -/
theorem waiting_without_timeout :
    (run step (reordering 2 1) [numbered 10, numbered 5]).map
        (fun t => (t.freebuf.used, t.drainTimeout.active)) = some (1, false) ∧
      ¬ Always step Pending (reordering 2 1) [numbered 10, numbered 5] := by
  have stranded : (run step (reordering 2 1) [numbered 10, numbered 5]).map
      (fun t => (t.freebuf.used, t.drainTimeout.active)) = some (1, false) := by
    decide +kernel
  refine ⟨stranded, fun always => ?_⟩
  obtain ⟨t, reached, same⟩ := Option.map_eq_some_iff.mp stranded
  obtain ⟨used, active⟩ := Prod.mk.inj same
  have pending : Pending t := always.last reached
  have running := pending (by rw [used]; decide)
  rw [active] at running
  cases running

end Mlvpn.Receive
