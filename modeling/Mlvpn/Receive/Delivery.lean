import Mlvpn.Receive.Ledger

/-! # Delivery over whole runs

Every event of the receive path is an entry of its ledger.  A packet is passed
on, or kept and perhaps released at once, or, when it comes too late for the
window, passed on and kept as well.
-/

namespace Mlvpn.Receive

open Reorder Library Library.Machine

variable {s : Receive}

theorem freebufferGet_eq_none_iff {fb : Freebuffer Reception} :
    freebufferGet fb = none ↔ fb.freeHead = [] := by
  cases free : fb.freeHead <;> simp [freebufferGet, free]

/-- What becomes of a packet in the pool, by the answer of the reorder buffer. -/
theorem recvEntry_accounts {b : ReorderBuffer Nat} {entry : Nat} {r : Reception}
    (allocated : b.Allocated)
    (held : Owned { s with reorderBuffer := some (reorderInsert b entry r.pkt.seq).2 }) :
    ∃ n s', recvEntry s b entry r = some (n, s') ∧ Owned s' ∧
      ((reorderInsert b entry r.pkt.seq).1 = -2 →
        ledger s' = { ledger s with delivered := s.injected ++ [r] }) ∧
      ((reorderInsert b entry r.pkt.seq).1 ≠ -2 →
        ∃ out, (ledger s).Releases (ledger s') out) := by
  simp only [recvEntry, allocated, if_true]
  generalize reorderInsert b entry r.pkt.seq = answer at held ⊢
  obtain ⟨ret, b'⟩ := answer
  dsimp only at held ⊢
  by_cases full : ret = -1
  · have reset : Owned { s with reorderBuffer := some (reorderReset b') } :=
      { held with
        lends := fun b'' found => by
          cases found
          exact (held.lends b' rfl).reset _
        idle := fun none => by cases none }
    obtain ⟨s', drained, owned, released, buffer, _⟩ := reorderDrainAll_releases reset rfl
    have present : s'.reorderBuffer ≠ none := by
      rw [buffer]
      exact Option.some_ne_none _
    obtain ⟨s'', restarted, again, same⟩ :=
      restartIfUsed_owned s.freebuf.usedHead.length owned present
    refine ⟨s.freebuf.usedHead.length, s'', ?_, again, fun late => ?_,
      fun _ => ⟨_, same ▸ released⟩⟩
    · simp only [full, if_true, drained, Option.map_some, restarted]
    · exact absurd (late.symm.trans full) (by decide)
  · by_cases late : ret = -2
    · refine ⟨1, injectTuntap { s with reorderBuffer := some b' } r, ?_, ?_, fun _ => rfl,
        fun timely => absurd late timely⟩
      · rw [if_neg full, if_pos late]
      · exact { held with queued := held.queued.injectTuntap r }
    · obtain ⟨n, s', out, drained, owned, released, present⟩ := reorderDrainOrdered_releases held rfl
      obtain ⟨s'', restarted, again, same⟩ := restartIfUsed_owned n owned present
      refine ⟨n, s'', ?_, again, fun refused => absurd refused late,
        fun _ => ⟨out, same ▸ released⟩⟩
      simp only [full, late, if_false, drained, Option.map_some, restarted]

/-- A packet is passed on, or is given an entry and offered to the reorder buffer,
    which refuses it exactly if it is late. -/
theorem recvData_cases (h : Owned s) (tun : Nat) (pkt : Pkt) :
    (¬ Late s pkt ∧ recvData s tun pkt = some (1, injectTuntap
        { s with received := s.received ++ [s.arrival tun pkt] } (s.arrival tun pkt))) ∨
      ∃ b entry freebuf, s.reorderBuffer = some b ∧
        freebufferGet s.freebuf = some (entry, freebuf) ∧ b.Allocated ∧
        (Late s pkt ↔ (reorderInsert b entry pkt.seq).1 = -2) ∧
        recvData s tun pkt = recvEntry
          { s with
            received := s.received ++ [s.arrival tun pkt]
            freebuf := freebuf.store entry (s.arrival tun pkt) } b entry (s.arrival tun pkt) := by
  cases buffer : s.reorderBuffer with
  | none =>
      refine .inl ⟨?_, by simp only [recvData, buffer]⟩
      rintro ⟨_, _, b, found, _⟩
      rw [buffer] at found
      cases found
  | some b =>
      by_cases ordered : pkt.reorder = true
      · cases got : freebufferGet s.freebuf with
        | none =>
            refine .inl ⟨?_, by simp only [recvData, buffer, ordered, if_true, got]⟩
            rintro ⟨_, free, _⟩
            exact absurd (freebufferGet_eq_none_iff.mp got) free
        | some result =>
            obtain ⟨entry, freebuf⟩ := result
            have free : s.freebuf.freeHead ≠ [] := fun empty => by
              rw [freebufferGet_eq_none_iff.mpr empty] at got
              cases got
            obtain ⟨allocated, live, wf, _⟩ := h.lends b buffer
            have positive : 0 < b.orderBuf.size := by
              have := wf.rings.size
              omega
            refine .inr ⟨b, entry, freebuf, rfl, rfl, allocated, ?_, ?_⟩
            · rw [reorderInsert_late_iff positive]
              constructor
              · rintro ⟨_, _, b', found, far⟩
                rw [buffer] at found
                cases found
                exact far
              · exact fun far => ⟨ordered, free, b, buffer, far⟩
            · simp only [recvData, buffer, ordered, if_true, got]
      · refine .inl ⟨?_, by simp only [recvData, buffer, ordered]; rfl⟩
        rintro ⟨reorder, _⟩
        exact absurd reorder ordered

/-- What one packet does to the ledger. -/
theorem recvData_accounts (h : Owned s) (tun : Nat) (pkt : Pkt) :
    ∃ n s', recvData s tun pkt = some (n, s') ∧ Owned s' ∧
      (Late s pkt → ledger s' = (ledger s).passAndKeep (s.arrival tun pkt)) ∧
      (¬ Late s pkt → ledger s' = (ledger s).pass (s.arrival tun pkt) ∨
        ∃ out, ((ledger s).keep (s.arrival tun pkt)).Releases (ledger s') out) := by
  rcases recvData_cases h tun pkt with
    ⟨timely, called⟩ | ⟨b, entry, freebuf, buffer, got, allocated, late, called⟩
  · obtain ⟨owned, passed⟩ := inject_arrival h (s.arrival tun pkt)
    exact ⟨1, _, called, owned, fun isLate => absurd isLate timely, fun _ => .inl passed⟩
  · obtain ⟨held, kept⟩ := hold_arrival h buffer got (s.arrival tun pkt)
    let s₁ : Receive :=
      { s with
        received := s.received ++ [s.arrival tun pkt]
        freebuf := freebuf.store entry (s.arrival tun pkt) }
    obtain ⟨n, s', done, owned, refused, taken⟩ := recvEntry_accounts (s := s₁) allocated held
    rw [called]
    refine ⟨n, s', done, owned, fun isLate => ?_, fun timely => .inr ?_⟩
    · have same : ledger s₁ = (ledger s).keep (s.arrival tun pkt) := kept
      rw [refused (late.mp isLate), same]
      rfl
    · obtain ⟨out, released⟩ := taken fun isLate => timely (late.mpr isLate)
      exact ⟨out, kept ▸ released⟩

/-- A timeout drains only where there is a buffer: its timer is not active otherwise. -/
theorem reorderDrainTimeout_releases (h : Owned s) :
    ∃ s' out, reorderDrainTimeout s = some s' ∧ Owned s' ∧
      (ledger s).Releases (ledger s') out := by
  rw [reorderDrainTimeout]
  by_cases active : s.drainTimeout.active = true
  · have present : s.reorderBuffer ≠ none := fun none => by
      have inactive := (h.idle none).2
      rw [active] at inactive
      cases inactive
    obtain ⟨b, buffer⟩ := Option.ne_none_iff_exists'.mp present
    have armed : Owned { s with drainTimeout := s.drainTimeout.again } :=
      { h with idle := fun none => absurd none present }
    obtain ⟨s', drained, owned, released, _⟩ := reorderDrainAll_releases armed buffer
    have same : ledger (stopIfUnused s') = ledger s' := stopIfUnused_ledger s'
    refine ⟨stopIfUnused s', (ledger s).held, ?_, owned.stopIfUnused, same ▸ released⟩
    rw [if_pos active, drained, Option.map_some]
  · exact ⟨s, [], by rw [if_neg active], h, .refl _⟩

theorem statusDrain_releases (h : Owned s) :
    ∃ s', statusDrain s = some s' ∧ Owned s' ∧
      (ledger s).Releases (ledger s') (ledger s).held ∧ s'.freebuf.usedHead = [] := by
  cases buffer : s.reorderBuffer with
  | none =>
      have empty := (h.idle buffer).1
      have nothing : (ledger s).held = [] := by rw [ledger, empty, List.map_nil]
      refine ⟨s, by simp only [statusDrain, buffer], h, ?_, empty⟩
      rw [nothing]
      exact .refl _
  | some b =>
      obtain ⟨s', drained, owned, released, present, empty⟩ := reorderDrainAll_releases h buffer
      refine ⟨{ s' with reorderBuffer := s'.reorderBuffer.map reorderReset }, ?_, ?_, released, empty⟩
      · simp only [statusDrain, buffer, drained, Option.map_some]
      · rw [present]
        exact
          { owned with
            lends := fun b' found => by
              cases found
              exact (owned.lends _ present).reset _
            idle := fun none => by cases none }

theorem configReorderBufferSize_owned (h : Owned s) {size : UInt32} (fits : Fits size) :
    Owned (configReorderBufferSize s size) ∧ ledger (configReorderBufferSize s size) = ledger s := by
  rw [configReorderBufferSize]
  split
  · refine ⟨?_, rfl⟩
    by_cases positive : size > 0
    · simp only [positive, if_true]
      exact
        { h with
          lends := fun b found => by
            cases found
            exact Lends.create positive fits
          idle := fun none => by cases none
          fits := fits }
    · simp only [positive, if_false]
      exact { h with fits := fits }
  · exact ⟨h, rfl⟩

theorem tuntapWrite_owned (h : Owned s) :
    ∃ s', step s .tuntapWrite = some s' ∧ Owned s' ∧ ledger s' = ledger s := by
  by_cases writing : s.ioWrite = true
  · have filled := h.queued.writing writing
    let sbuf := (pktbufferRead s.sbuf).2
    have queued : Queued sbuf (decide (¬ cbIsEmpty sbuf)) :=
      ⟨h.queued.wf.read, fun active => of_decide_eq_true active⟩
    refine ⟨{ s with sbuf := sbuf, ioWrite := decide (¬ cbIsEmpty sbuf) }, ?_,
      { h with queued := queued }, rfl⟩
    simp only [step, writing, if_true, filled, if_false, sbuf]
  · exact ⟨s, by simp only [step, writing]; rfl, h, rfl⟩

/-- A configured size fits the allocation. -/
def Fitting (_ : Receive) : Event → Prop
  | .reload size => Fits size
  | _ => True

/-- Besides, no packet is late. -/
def Timely (s : Receive) : Event → Prop
  | .recv _ pkt => ¬ Late s pkt
  | .reload size => Fits size
  | _ => True

instance (s : Receive) : ∀ e, Decidable (Timely s e)
  | .recv _ pkt => inferInstanceAs (Decidable (¬ Late s pkt))
  | .reload size => inferInstanceAs (Decidable (Fits size))
  | .timeout | .statusChange | .adjust _ | .tuntapWrite => isTrue trivial

theorem Timely.fitting {e : Event} (timely : Timely s e) : Fitting s e := by
  cases e <;> first | exact timely | trivial

/-- No event aborts the process, and each is an entry of the ledger. -/
theorem step_accounts (h : Owned s) {e : Event} (fitting : Fitting s e) :
    ∃ s', step s e = some s' ∧ Owned s' ∧
      ((∃ out, (ledger s).Releases (ledger s') out) ∨
        ∃ tun pkt, e = .recv tun pkt ∧
          (Late s pkt → ledger s' = (ledger s).passAndKeep (s.arrival tun pkt)) ∧
          (¬ Late s pkt → ledger s' = (ledger s).pass (s.arrival tun pkt) ∨
            ∃ out, ((ledger s).keep (s.arrival tun pkt)).Releases (ledger s') out)) := by
  cases e with
  | recv tun pkt =>
      obtain ⟨n, s', done, owned, entry⟩ := recvData_accounts h tun pkt
      exact ⟨s', by rw [step, done]; rfl, owned, .inr ⟨tun, pkt, rfl, entry⟩⟩
  | timeout =>
      obtain ⟨s', out, done, owned, released⟩ := reorderDrainTimeout_releases h
      exact ⟨s', done, owned, .inl ⟨out, released⟩⟩
  | statusChange =>
      obtain ⟨s', done, owned, released, _⟩ := statusDrain_releases h
      exact ⟨s', done, owned, .inl ⟨_, released⟩⟩
  | reload size =>
      obtain ⟨owned, same⟩ := configReorderBufferSize_owned h fitting
      exact ⟨_, rfl, owned, .inl ⟨[], same ▸ .refl _⟩⟩
  | adjust period =>
      refine ⟨_, rfl, { h with idle := h.idle }, .inl ⟨[], .refl _⟩⟩
  | tuntapWrite =>
      obtain ⟨s', done, owned, same⟩ := tuntapWrite_owned h
      exact ⟨s', done, owned, .inl ⟨[], same ▸ .refl _⟩⟩

/-- A size that wraps the allocation leaves the first insertion undefined. -/
theorem run_reload_recv_none (h : Owned s) {size : UInt32} (wraps : ¬ Fits size) {tun : Nat}
    {pkt : Pkt} (ordered : pkt.reorder = true) (free : s.freebuf.freeHead ≠ []) :
    run step s [.reload size, .recv tun pkt] = none := by
  have changed : size ≠ s.reorderBufferSize := fun same => wraps (same ▸ h.fits)
  have positive : size > 0 := by
    by_contra zero
    have isZero : size.toNat = 0 := Nat.eq_zero_of_not_pos zero
    rw [Fits, isZero] at wraps
    exact wraps (by decide)
  have cut : ¬ (reorderCreate size.toNat : ReorderBuffer Nat).Allocated := by
    have small : size.toNat < 2 ^ 32 := size.toNat_lt
    simp only [ReorderBuffer.Allocated, reorderCreate, reorderInit, lt_irrefl, if_false,
      CirBuffer.zeroed_size]
    rw [le_reorderBufsize_iff small]
    exact wraps
  obtain ⟨⟨entry, freebuf⟩, got⟩ : ∃ result, freebufferGet s.freebuf = some result :=
    Option.ne_none_iff_exists'.mp fun none => free (freebufferGet_eq_none_iff.mp none)
  simp only [run, step, configReorderBufferSize, changed, ne_eq, not_false_eq_true, if_true,
    positive, Option.bind_some, recvData, ordered, got, recvEntry, cut, if_false, Option.map_none,
    Option.bind_none]

/-- Receptions are numbered in their order. -/
def Numbered (l : Ledger Reception) : Prop :=
  l.received.map Reception.rid = List.range l.received.length

theorem Numbered.nodup {l : Ledger Reception} (h : Numbered l) : l.received.Nodup := by
  refine List.Nodup.of_map Reception.rid ?_
  rw [h]
  exact List.nodup_range

theorem Numbered.arrive {l : Ledger Reception} (h : Numbered (ledger s)) (tun : Nat) (pkt : Pkt)
    (received : l.received = s.received ++ [s.arrival tun pkt]) : Numbered l := by
  have numbers : s.received.map Reception.rid = List.range s.received.length := h
  rw [Numbered, received, List.map_append, numbers, List.map_singleton, List.length_append,
    List.length_singleton, List.range_succ]
  rfl

/-- Every reception has been injected or is held once. -/
theorem step_balanced {e : Event}
    (h : Owned s ∧ Numbered (ledger s) ∧ (ledger s).Balanced) (timely : Timely s e) :
    ∃ s', step s e = some s' ∧ Owned s' ∧ Numbered (ledger s') ∧ (ledger s').Balanced := by
  obtain ⟨owned, numbered, balanced⟩ := h
  obtain ⟨s', done, owned', ⟨out, released⟩ | ⟨tun, pkt, rfl, _, entry⟩⟩ :=
    step_accounts owned timely.fitting
  · refine ⟨s', done, owned', ?_, balanced.releases released⟩
    rw [Numbered, released.received]
    exact numbered
  · refine ⟨s', done, owned', ?_⟩
    rcases entry timely with passed | ⟨out, released⟩
    · rw [passed]
      exact ⟨numbered.arrive tun pkt rfl, balanced.pass _⟩
    · exact ⟨numbered.arrive tun pkt released.received, (balanced.keep _).releases released⟩

/-- Every reception has been injected or is held. -/
theorem step_covered {e : Event} (h : Owned s ∧ (ledger s).Covered) (fitting : Fitting s e) :
    ∃ s', step s e = some s' ∧ Owned s' ∧ (ledger s').Covered := by
  obtain ⟨owned, covered⟩ := h
  obtain ⟨s', done, owned', ⟨out, released⟩ | ⟨tun, pkt, rfl, late, timely⟩⟩ :=
    step_accounts owned fitting
  · exact ⟨s', done, owned', covered.releases released⟩
  · refine ⟨s', done, owned', ?_⟩
    by_cases isLate : Late s pkt
    · rw [late isLate]
      exact covered.passAndKeep _
    · rcases timely isLate with passed | ⟨out, released⟩
      · rw [passed]
        exact covered.pass _
      · exact (covered.keep _).releases released

/-- While no packet is late, nothing is injected twice; and a late packet is
    injected again by the next drain on a status change. -/
theorem injected_at_most_once_of_timely {events : List Event}
    (timely : Meets step Timely init events) :
    ∃ t, run step init events = some t ∧ t.injected.Nodup ∧
      ∀ tun pkt, Late t pkt →
        ∃ u, run step t [.recv tun pkt, .statusChange] = some u ∧ ¬ u.injected.Nodup := by
  obtain ⟨t, reached, owned, numbered, balanced⟩ :=
    run_succeeds (I := fun s => Owned s ∧ Numbered (ledger s) ∧ (ledger s).Balanced)
      (fun _ _ h allowed => step_balanced h allowed) events ⟨owned_init, rfl, .refl _⟩ timely
  refine ⟨t, reached, balanced.nodup numbered.nodup, fun tun pkt late => ?_⟩
  obtain ⟨n, s₁, received, owned₁, entry, _⟩ := recvData_accounts owned tun pkt
  obtain ⟨s₂, drained, _, released, empty⟩ := statusDrain_releases owned₁
  refine ⟨s₂, ?_, ?_⟩
  · simp only [run, step, received, Option.map_some, Option.bind_some, drained]
  · rw [entry late] at released
    refine Ledger.passAndKeep_twice released ?_
    rw [ledger, empty, List.map_nil]

/-- Two slots: after packet 10, packet 5 is behind the window.  It is injected at
    once, and again when a tunnel goes up or down. -/
def lateRun : List Event :=
  [.reload 2, .recv 0 { Pkt.zero with type := .data, reorder := true, seq := 10 },
    .recv 0 { Pkt.zero with type := .data, reorder := true, seq := 5 }, .statusChange]

theorem injected_twice_when_late :
    (run step init lateRun).map (fun t => t.injected.map Reception.rid) = some [0, 1, 1] := by
  decide +kernel

/-- Four slots: after packet 10, packet 12 is early.  It waits until a tunnel goes up or down. -/
def earlyRun : List Event :=
  [.reload 4, .recv 0 { Pkt.zero with type := .data, reorder := true, seq := 10 },
    .recv 0 { Pkt.zero with type := .data, reorder := true, seq := 12 }, .statusChange]

theorem injected_at_most_once_early :
    ∃ t, run step init earlyRun = some t ∧ t.injected.map Reception.rid = [0, 1] ∧ t.injected.Nodup := by
  have timely : Meets step Timely init earlyRun := by decide +kernel
  obtain ⟨t, reached, nodup, _⟩ := injected_at_most_once_of_timely timely
  have both : (run step init earlyRun).map (fun t => t.injected.map Reception.rid) = some [0, 1] := by
    decide +kernel
  rw [reached] at both
  exact ⟨t, reached, Option.some.inj both, nodup⟩

/-- With every configured size within the allocation, no reception is lost: the
    next drain by age injects all that have not been injected. -/
theorem no_loss_of_fitting {events : List Event} (fitting : Meets step Fitting init events) :
    ∃ t, run step init events = some t ∧
      (∀ r ∈ t.received, r ∈ t.injected ∨ ∃ p ∈ t.freebuf.usedHead, t.freebuf.mem p = r) ∧
      (t.reorderBuffer ≠ none →
        ∃ n u, reorderDrainAll t = some (n, u) ∧ ∀ r ∈ t.received, r ∈ u.injected) ∧
      ∀ size tun pkt, ¬ Fits size → pkt.reorder = true → t.freebuf.freeHead ≠ [] →
        run step t [.reload size, .recv tun pkt] = none := by
  obtain ⟨t, reached, owned, covered⟩ :=
    run_succeeds (I := fun s => Owned s ∧ (ledger s).Covered)
      (fun _ _ h allowed => step_covered h allowed) events
      ⟨owned_init, fun r member => by cases member⟩ fitting
  refine ⟨t, reached, fun r member => ?_, fun present => ?_, fun size tun pkt wraps ordered free => ?_⟩
  · exact (covered r member).imp_right List.mem_map.mp
  · obtain ⟨b, buffer⟩ := Option.ne_none_iff_exists'.mp present
    obtain ⟨u, drained, _, released, _⟩ := reorderDrainAll_releases owned buffer
    refine ⟨_, u, drained, fun r member => ?_⟩
    have delivered : u.injected = t.injected ++ (ledger t).held := released.delivered
    rw [delivered]
    exact List.mem_append.mpr (covered r member)
  · exact run_reload_recv_none owned wraps ordered free

theorem no_loss_after_reload :
    ∃ t, run step init (.reload 4 :: lateRun) = some t ∧
      ∀ r ∈ t.received, r ∈ t.injected ∨ ∃ p ∈ t.freebuf.usedHead, t.freebuf.mem p = r := by
  have fitting : Meets step Fitting init (.reload 4 :: lateRun) :=
    ⟨(by decide : Fits 4), fun _ _ => ⟨(by decide : Fits 2), fun _ _ => ⟨trivial, fun _ _ =>
      ⟨trivial, fun _ _ => ⟨trivial, fun _ _ => trivial⟩⟩⟩⟩⟩
  obtain ⟨t, reached, kept, _⟩ := no_loss_of_fitting fitting
  exact ⟨t, reached, kept⟩

/-- `2 ^ 28` slots are allocated 72 bytes, and the order ring starts `2 ^ 31` bytes
    behind them: the first packet is neither injected nor held, but lost to an
    undefined store. -/
theorem lost_when_allocation_wraps :
    (reorderCreate (268435456 : UInt32).toNat : ReorderBuffer Nat).memsize = 72 ∧
      run step init
        [.reload 268435456,
          .recv 0 { Pkt.zero with type := .data, reorder := true, seq := 10 }] = none :=
  ⟨by decide, run_reload_recv_none owned_init (by decide) rfl (by decide +kernel)⟩

end Mlvpn.Receive
