import Mlvpn.Receive.Delivery

/-! # The pool under the rings

The reorder buffer holds pointers into a pool that has lists of its own, and the
two are reset independently of each other.  `PoolSafe` is read off both: the
lists share out the 512 entries, and what the rings can still hand out is in use.
A pointer that were not would end the process in `freebufferFree`.
-/

namespace Mlvpn

open Reorder Library.MaskedRing Library.Machine

/-- The pointers a buffer can still hand out: the ready ring from tail to head,
    as a drain walks it, and the slots of the order ring that are not null. -/
def Reorder.ReorderBuffer.pointers {α : Type*} (b : ReorderBuffer α) : List (Option α) :=
  (drainReady b.orderBuf.size b.readyBuf).1 ++
    ((List.range b.orderBuf.size).filterMap b.orderBuf.pkts).map some

namespace Reorder.BufferWf

variable {α : Type*} {b : ReorderBuffer α} {live : List α}

theorem slots_nodup (h : BufferWf b live) :
    ((List.range b.orderBuf.size).filterMap b.orderBuf.pkts).Nodup := by
  apply List.nodup_range.filterMap
  intro i j p atI atJ
  exact h.rings.once i j p atI atJ

theorem pointers_eq (h : BufferWf b live) :
    b.pointers = (live ++ (List.range b.orderBuf.size).filterMap b.orderBuf.pkts).map some := by
  have short : live.length ≤ b.orderBuf.size := by
    have length := h.rings.holds.short
    have period := period_le b.orderBuf.mask
    have size := h.rings.size
    omega
  unfold ReorderBuffer.pointers
  rw [(drainReady_rings b.orderBuf.size h.rings).1, List.take_of_length_le short, List.map_append]

/-- The rings share no pointer, and hold none twice. -/
theorem pointers_nodup (h : BufferWf b live) :
    (live ++ (List.range b.orderBuf.size).filterMap b.orderBuf.pkts).Nodup := by
  apply h.rings.nodup.append h.slots_nodup
  intro p ready waiting
  obtain ⟨i, _, found⟩ := List.mem_filterMap.mp waiting
  exact h.rings.apart p ready i found

theorem pointers_reachable (h : BufferWf b live) {p : α} (member : some p ∈ b.pointers) :
    Reachable b.orderBuf live p := by
  rw [h.pointers_eq] at member
  obtain ⟨q, member, same⟩ := List.mem_map.mp member
  cases same
  rcases List.mem_append.mp member with ready | waiting
  · exact .inl ready
  · obtain ⟨i, _, found⟩ := List.mem_filterMap.mp waiting
    exact .inr ⟨i, found⟩

end Reorder.BufferWf

namespace Receive

variable {s s' : Receive}

/-- The rings of the reorder buffer, or that there is none. -/
def Ringed (s : Receive) (n : Option Nat) : Prop := Option.Rel ReorderBuffer.Rings s.reorderBuffer n

theorem Ringed.change {n : Option Nat} (ringed : s.Ringed n) {b b' : ReorderBuffer Nat}
    (before : s.reorderBuffer = some b) (after : s'.reorderBuffer = some b')
    (kept : ∀ n, b.Rings n → b'.Rings n) : s'.Ringed n := by
  unfold Ringed at ringed ⊢
  rw [before] at ringed
  rw [after]
  cases ringed with
  | some rings => exact .some (kept _ rings)

theorem Ringed.congr {n : Option Nat} (ringed : s.Ringed n) (same : s'.reorderBuffer = s.reorderBuffer) :
    s'.Ringed n := by
  unfold Ringed at ringed ⊢
  rwa [same]

/-- What stays while packets move from the pool to the tuntap device: the record
    of the arrivals, the number of entries, and the sizes of the rings. -/
structure Kept (s s' : Receive) : Prop where
  received : s'.received = s.received
  entries : s'.freebuf.size = s.freebuf.size
  option : s'.reorderBufferSize = s.reorderBufferSize
  rings : ∀ n, s.Ringed n → s'.Ringed n

theorem Kept.trans {s'' : Receive} (first : Kept s s') (second : Kept s' s'') : Kept s s'' where
  received := second.received.trans first.received
  entries := second.entries.trans first.entries
  option := second.option.trans first.option
  rings n ringed := second.rings n (first.rings n ringed)

/-- The reorder buffer is not touched. -/
theorem Kept.aside (received : s'.received = s.received) (entries : s'.freebuf.size = s.freebuf.size)
    (option : s'.reorderBufferSize = s.reorderBufferSize)
    (buffer : s'.reorderBuffer = s.reorderBuffer) : Kept s s' :=
  ⟨received, entries, option, fun _ ringed => ringed.congr buffer⟩

/-- The reorder buffer is another one, with rings of the same sizes. -/
theorem Kept.change {b b' : ReorderBuffer Nat} (before : s.reorderBuffer = some b)
    (kept : ∀ n, b.Rings n → b'.Rings n) : Kept s { s with reorderBuffer := some b' } :=
  ⟨rfl, rfl, rfl, fun _ ringed => ringed.change before rfl kept⟩

theorem drainUsed_kept (fuel drained : Nat) : Kept s (drainUsed fuel drained s).2 := by
  induction fuel generalizing s drained with
  | zero => exact .aside rfl rfl rfl rfl
  | succ fuel ih =>
      unfold drainUsed
      split
      next => exact .aside rfl rfl rfl rfl
      next entry freebuf taken =>
        have first : Kept s (injectTuntap { s with freebuf := freebuf } (s.freebuf.mem entry)) :=
          .aside rfl (Freebuffer.drainUsed_size taken) rfl rfl
        exact first.trans (ih _)

theorem injectDrained_kept (drained : List (Option Nat))
    (done : injectDrained drained s = some s') : Kept s s' := by
  induction drained generalizing s with
  | nil =>
      cases done
      exact .aside rfl rfl rfl rfl
  | cons pointer rest ih =>
      cases pointer with
      | none => cases done
      | some entry =>
          obtain ⟨freebuf, freed, later⟩ := Option.bind_eq_some_iff.mp done
          have first : Kept s { injectTuntap s (s.freebuf.mem entry) with freebuf := freebuf } :=
            .aside rfl (Freebuffer.free_size freed) rfl rfl
          exact first.trans (ih later)

theorem stopIfUnused_kept : Kept s (stopIfUnused s) := by
  unfold stopIfUnused
  split <;> exact .aside rfl rfl rfl rfl

theorem reorderDrainAll_kept {n : Nat} (done : reorderDrainAll s = some (n, s')) : Kept s s' := by
  unfold reorderDrainAll at done
  dsimp only at done
  split at done
  next => cases done
  next b given =>
    cases done
    have drained := drainUsed_kept (s := s) s.freebuf.usedHead.length 0
    refine drained.trans (Kept.trans ?_ stopIfUnused_kept)
    exact ⟨rfl, rfl, rfl, fun _ ringed => ringed.change given rfl fun _ rings => rings.reset⟩

theorem reorderDrainOrdered_kept {n : Nat} (done : reorderDrainOrdered s = some (n, s')) :
    Kept s s' := by
  unfold reorderDrainOrdered at done
  split at done
  next => cases done
  next b given =>
    obtain ⟨s₁, injected, same⟩ := Option.map_eq_some_iff.mp done
    cases same
    have drained : Kept s { s with reorderBuffer := some (reorderDrain b 1024).2 } :=
      .change given fun _ rings => rings.drain 1024
    exact (drained.trans (injectDrained_kept _ injected)).trans stopIfUnused_kept

theorem restartIfUsed_kept (result : Nat × Receive) : Kept result.2 (restartIfUsed result).2 := by
  unfold restartIfUsed
  split <;> exact .aside rfl rfl rfl rfl

theorem recvEntry_kept {b : ReorderBuffer Nat} {entry n : Nat} {r : Reception}
    (given : s.reorderBuffer = some b) (done : recvEntry s b entry r = some (n, s')) : Kept s s' := by
  unfold recvEntry at done
  split at done
  next =>
    have inserted : ∀ n, b.Rings n → (reorderInsert b entry r.pkt.seq).2.Rings n :=
      fun _ rings => rings.insert entry r.pkt.seq
    dsimp only at done
    split at done
    next =>
      obtain ⟨⟨m, s₁⟩, drained, same⟩ := Option.map_eq_some_iff.mp done
      have restarted := restartIfUsed_kept (m, s₁)
      rw [same] at restarted
      have kept := Kept.change given fun n rings => (inserted n rings).reset
      exact (kept.trans (reorderDrainAll_kept drained)).trans restarted
    next =>
      split at done
      next =>
        cases done
        exact (Kept.change given inserted).trans (.aside rfl rfl rfl rfl)
      next =>
        obtain ⟨⟨m, s₁⟩, drained, same⟩ := Option.map_eq_some_iff.mp done
        have restarted := restartIfUsed_kept (m, s₁)
        rw [same] at restarted
        exact ((Kept.change given inserted).trans (reorderDrainOrdered_kept drained)).trans restarted
  next => cases done

/-- Every packet that arrives is counted, whatever becomes of it. -/
theorem recvData_kept {tun n : Nat} {pkt : Pkt} (done : recvData s tun pkt = some (n, s')) :
    Kept { s with received := s.received ++ [s.arrival tun pkt] } s' := by
  unfold recvData at done
  dsimp only at done
  split at done
  next =>
    cases done
    exact .aside rfl rfl rfl rfl
  next b given =>
    split at done
    next =>
      split at done
      next =>
        cases done
        exact .aside rfl rfl rfl rfl
      next taken =>
        have entries := Freebuffer.get_size taken
        have kept := recvEntry_kept (by exact given) done
        exact ⟨kept.received, kept.entries.trans entries, kept.option, kept.rings⟩
    next =>
      cases done
      exact .aside rfl rfl rfl rfl

/-- What happens between two configurations changes neither the option nor the rings. -/
theorem step_rings {e : Event} (fixed : ∀ size, e ≠ .reload size) (done : step s e = some s') :
    s'.reorderBufferSize = s.reorderBufferSize ∧ ∀ n, s.Ringed n → s'.Ringed n := by
  cases e with
  | recv tun pkt =>
      obtain ⟨⟨n, s₁⟩, received, rfl⟩ := Option.map_eq_some_iff.mp done
      have kept := recvData_kept received
      exact ⟨kept.option, fun n ringed => kept.rings n (ringed.congr rfl)⟩
  | timeout =>
      rcases reorderDrainTimeout_cases done with rfl | ⟨n, s₁, drained, rfl⟩
      · exact ⟨rfl, fun _ => id⟩
      · have kept := (reorderDrainAll_kept drained).trans stopIfUnused_kept
        exact ⟨kept.option, fun n ringed => kept.rings n (ringed.congr rfl)⟩
  | statusChange =>
      rcases statusDrain_cases done with ⟨_, rfl⟩ | ⟨n, s₁, drained, rfl⟩
      · exact ⟨rfl, fun _ => id⟩
      · have kept := reorderDrainAll_kept drained
        refine ⟨kept.option, fun n ringed => ?_⟩
        have drained : s₁.Ringed n := kept.rings n ringed
        cases given : s₁.reorderBuffer with
        | none => exact drained.congr given.symm
        | some b => exact drained.change given rfl fun _ rings => rings.reset
  | reload size => exact absurd rfl (fixed size)
  | adjust period =>
      cases done
      exact ⟨rfl, fun _ ringed => ringed.congr rfl⟩
  | tuntapWrite =>
      obtain ⟨sbuf, ioWrite, rfl⟩ := tuntapWrite_cases done
      exact ⟨rfl, fun _ ringed => ringed.congr rfl⟩

/-- No event adds an entry to the pool or loses one. -/
theorem step_entries {e : Event} (done : step s e = some s') :
    s'.freebuf.size = s.freebuf.size := by
  cases e with
  | recv tun pkt =>
      obtain ⟨⟨n, s₁⟩, received, rfl⟩ := Option.map_eq_some_iff.mp done
      exact (recvData_kept received).entries
  | timeout =>
      rcases reorderDrainTimeout_cases done with rfl | ⟨n, s₁, drained, rfl⟩
      · rfl
      · exact stopIfUnused_kept.entries.trans (reorderDrainAll_kept drained).entries
  | statusChange =>
      rcases statusDrain_cases done with ⟨_, rfl⟩ | ⟨n, s₁, drained, rfl⟩
      · rfl
      · exact (reorderDrainAll_kept drained).entries
  | reload size =>
      cases done
      unfold configReorderBufferSize
      split <;> rfl
  | adjust period =>
      cases done
      rfl
  | tuntapWrite =>
      obtain ⟨sbuf, ioWrite, rfl⟩ := tuntapWrite_cases done
      rfl

/-- The pool and the rings agree on which entries are in use. -/
structure PoolSafe (s : Receive) : Prop where
  disjoint : s.freebuf.freeHead.Disjoint s.freebuf.usedHead
  shared : (s.freebuf.freeHead ++ s.freebuf.usedHead).Perm (List.range 512)
  count : s.freebuf.used = s.freebuf.usedHead.length
  indices : ∀ b, s.reorderBuffer = some b → b.Allocated ∧
    b.orderBuf.head < b.orderBuf.size ∧ b.readyBuf.head < b.orderBuf.size ∧
    b.readyBuf.tail < b.orderBuf.size ∧
    ∀ position, position &&& b.orderBuf.mask < b.orderBuf.size
  pointers : ∀ b, s.reorderBuffer = some b → ∃ entries : List Nat,
    b.pointers = entries.map some ∧ entries.Nodup ∧ ∀ p ∈ entries, p ∈ s.freebuf.usedHead

theorem Owned.poolSafe (h : Owned s) (entries : s.freebuf.size = 512) : PoolSafe s where
  disjoint := List.disjoint_of_nodup_append h.pool.nodup
  shared := entries ▸ h.pool.shared
  count := h.pool.count
  indices := by
    intro b buffer
    obtain ⟨allocated, live, wf, _⟩ := h.lends b buffer
    obtain ⟨_, head, readyHead, readyTail⟩ := wf.rings.indices_lt 0
    exact ⟨allocated, head, readyHead, readyTail, fun position => (wf.rings.indices_lt position).1⟩
  pointers := by
    intro b buffer
    obtain ⟨_, live, wf, inUse⟩ := h.lends b buffer
    refine ⟨_, wf.pointers_eq, wf.pointers_nodup, fun p member => ?_⟩
    apply inUse p
    apply wf.pointers_reachable
    rw [wf.pointers_eq]
    exact List.mem_map_of_mem member

/-- While every configured size fits the allocation, no run aborts and the pool
    is safe after each of its events; a size that does not fit leaves the next
    insertion outside of the rings. -/
theorem pool_safe_of_fitting {events : List Event} (fitting : Meets step Fitting init events) :
    ∃ t, run step init events = some t ∧ PoolSafe t ∧
      ∀ size tun pkt, ¬ Fits size → pkt.reorder = true → t.freebuf.freeHead ≠ [] →
        run step t [.reload size, .recv tun pkt] = none := by
  obtain ⟨t, reached, owned, entries⟩ :=
    run_succeeds (I := fun s => Owned s ∧ s.freebuf.size = 512)
      (fun s e h allowed => by
        obtain ⟨s', done, owned, _⟩ := step_accounts h.1 allowed
        exact ⟨s', done, owned, (step_entries done).trans h.2⟩)
      events ⟨owned_init, rfl⟩ fitting
  refine ⟨t, reached, owned.poolSafe entries, fun size tun pkt wraps ordered free => ?_⟩
  exact run_reload_recv_none owned wraps ordered free

/-- Three slots, whose mask skips one of them; a duplicate, an overflow, a timeout
    and a larger buffer. -/
def poolRun : List Event :=
  [.reload 3, .adjust 1, .recv 0 { Pkt.zero with type := .data, reorder := true, seq := 10 },
    .recv 0 { Pkt.zero with type := .data, reorder := true, seq := 12 },
    .recv 1 { Pkt.zero with type := .data, reorder := true, seq := 12 },
    .recv 1 { Pkt.zero with type := .data, reorder := true, seq := 15 },
    .reload 5, .timeout, .statusChange]

theorem pool_safe_at_three : ∃ t, run step init poolRun = some t ∧ PoolSafe t := by
  have fitting : Meets step Fitting init poolRun :=
    ⟨(by decide : Fits 3), fun _ _ => ⟨trivial, fun _ _ => ⟨trivial, fun _ _ => ⟨trivial, fun _ _ =>
      ⟨trivial, fun _ _ => ⟨trivial, fun _ _ => ⟨(by decide : Fits 5), fun _ _ =>
        ⟨trivial, fun _ _ => ⟨trivial, fun _ _ => trivial⟩⟩⟩⟩⟩⟩⟩⟩⟩
  obtain ⟨t, reached, safe, _⟩ := pool_safe_of_fitting fitting
  exact ⟨t, reached, safe⟩

/-- A size of `-1` is read as `2 ^ 32 - 1`: 56 bytes are allocated, fewer than the
    structure has, and the first packet is stored far behind them. -/
theorem pool_unsafe_at_minus_one :
    (reorderCreate (4294967295 : UInt32).toNat : ReorderBuffer Nat).memsize = 56 ∧
      run step init
        [.reload 4294967295,
          .recv 0 { Pkt.zero with type := .data, reorder := true, seq := 10 }] = none :=
  ⟨by decide, run_reload_recv_none owned_init (by decide) rfl (by decide +kernel)⟩

end Receive

end Mlvpn
