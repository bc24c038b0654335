import Mlvpn.Library.Ledger
import Mlvpn.Library.Machine
import Mlvpn.Receive.Path
import Mlvpn.Reorder.Rings

/-! # What becomes of a received packet

The receive path read as a ledger: the packets handed to `recvData`, those
handed to `injectTuntap`, and those in used entries of the pool.  The reorder
buffer is a second set of pointers into the pool, and `Owned` keeps the two
together: every pointer the buffer can hand out is in use.
-/

namespace Mlvpn.Receive

open Reorder Library

variable {s s' : Receive}

/-- The queue of the tuntap device, and its watcher. -/
structure Queued (sbuf : Pktbuffer) (ioWrite : Bool) : Prop where
  wf : sbuf.Wf
  writing : ioWrite = true → ¬ cbIsEmpty sbuf

theorem Queued.write {sbuf : Pktbuffer} {ioWrite : Bool} (queued : Queued sbuf ioWrite)
    (fill : Pkt → Pkt) : Queued (pktbufferWrite sbuf fill) true :=
  ⟨(queued.wf.write fill).1, fun _ => (queued.wf.write fill).2⟩

theorem Queued.injectTuntap (queued : Queued s.sbuf s.ioWrite) (r : Reception) :
    Queued (injectTuntap s r).sbuf (injectTuntap s r).ioWrite := by
  simp only [Receive.injectTuntap]
  exact queued.write _

/-- The entries `out` have left the pool for the tuntap queue, and nothing else
    has changed. -/
structure Injects (s s' : Receive) (out : List Nat) : Prop where
  pool : s'.freebuf.Wf
  queued : Queued s'.sbuf s'.ioWrite
  mem : s'.freebuf.mem = s.freebuf.mem
  used : s.freebuf.usedHead.Perm (out ++ s'.freebuf.usedHead)
  injected : s'.injected = s.injected ++ out.map s.freebuf.mem
  received : s'.received = s.received
  buffer : s'.reorderBuffer = s.reorderBuffer
  size : s'.reorderBufferSize = s.reorderBufferSize
  timer : s'.drainTimeout = s.drainTimeout

theorem Injects.refl (pool : s.freebuf.Wf) (queued : Queued s.sbuf s.ioWrite) : Injects s s [] :=
  ⟨pool, queued, rfl, .refl _, (List.append_nil _).symm, rfl, rfl, rfl, rfl⟩

/-- One entry, and then the others. -/
theorem Injects.cons {entry : Nat} {out : List Nat} {freebuf : Freebuffer Reception}
    (perm : s.freebuf.usedHead.Perm (entry :: freebuf.usedHead))
    (mem : freebuf.mem = s.freebuf.mem)
    (rest : Injects { injectTuntap s (s.freebuf.mem entry) with freebuf := freebuf } s' out) :
    Injects s s' (entry :: out) where
  pool := rest.pool
  queued := rest.queued
  mem := rest.mem.trans mem
  used := perm.trans (rest.used.cons entry)
  injected := by
    rw [rest.injected]
    simp only [injectTuntap, mem, List.map_cons, List.append_assoc, List.singleton_append]
  received := rest.received
  buffer := rest.buffer
  size := rest.size
  timer := rest.timer

/-- The drain by age empties the pool. -/
theorem drainUsed_injects (fuel drained : Nat) (pool : s.freebuf.Wf) (queued : Queued s.sbuf s.ioWrite)
    (enough : s.freebuf.usedHead.length = fuel) :
    (drainUsed fuel drained s).1 = drained + fuel ∧
      Injects s (drainUsed fuel drained s).2 s.freebuf.usedHead := by
  induction fuel generalizing s drained with
  | zero =>
      rw [List.eq_nil_of_length_eq_zero enough]
      exact ⟨rfl, .refl pool queued⟩
  | succ fuel ih =>
      cases taken : freebufferDrainUsed s.freebuf with
      | none =>
          cases used : s.freebuf.usedHead with
          | nil =>
              rw [used] at enough
              cases enough
          | cons entry rest =>
              rw [freebufferDrainUsed, used] at taken
              cases taken
      | some result =>
          obtain ⟨entry, freebuf⟩ := result
          obtain ⟨pool', used, mem⟩ := pool.drainUsed taken
          have shorter : freebuf.usedHead.length = fuel := by
            rw [used, List.length_cons] at enough
            omega
          obtain ⟨count, rest⟩ := ih (drained + 1)
            (s := injectTuntap { s with freebuf := freebuf } (s.freebuf.mem entry)) pool'
            (queued.injectTuntap (s.freebuf.mem entry)) shorter
          simp only [drainUsed, taken]
          refine ⟨by rw [count]; omega, ?_⟩
          rw [used]
          exact Injects.cons (by rw [used]) mem rest

/-- More turns than used entries change nothing: the loop has stopped. -/
theorem drainUsed_enough {fuel drained : Nat} (enough : s.freebuf.usedHead.length ≤ fuel) :
    drainUsed (fuel + 1) drained s = drainUsed fuel drained s := by
  induction fuel generalizing s drained with
  | zero =>
      have empty : s.freebuf.usedHead = [] := List.eq_nil_of_length_eq_zero (by omega)
      simp only [drainUsed, freebufferDrainUsed, empty]
  | succ fuel ih =>
      cases used : s.freebuf.usedHead with
      | nil => simp only [drainUsed, freebufferDrainUsed, used]
      | cons entry rest =>
          rw [used, List.length_cons] at enough
          rw [drainUsed, drainUsed]
          simp only [freebufferDrainUsed, used]
          exact ih (by simp only [injectTuntap]; omega)

/-- Pointers in use can be injected and freed: the process does not abort. -/
theorem injectDrained_injects (out : List Nat) (pool : s.freebuf.Wf) (queued : Queued s.sbuf s.ioWrite)
    (distinct : out.Nodup) (inUse : ∀ p ∈ out, p ∈ s.freebuf.usedHead) :
    ∃ s', injectDrained (out.map some) s = some s' ∧ Injects s s' out := by
  induction out generalizing s with
  | nil => exact ⟨s, rfl, .refl pool queued⟩
  | cons entry out ih =>
      obtain ⟨fresh, distinct⟩ := List.nodup_cons.mp distinct
      have member : entry ∈ s.freebuf.usedHead := inUse entry List.mem_cons_self
      obtain ⟨freebuf, freed, pool', used, mem⟩ := pool.free member
      have inUse' : ∀ p ∈ out, p ∈ freebuf.usedHead := by
        intro p later
        rw [used]
        have other : p ≠ entry := fun same => fresh (same ▸ later)
        exact (List.mem_erase_of_ne other).mpr (inUse p (List.mem_cons_of_mem entry later))
      obtain ⟨s', done, rest⟩ := ih
        (s := { injectTuntap s (s.freebuf.mem entry) with freebuf := freebuf }) pool'
        (queued.injectTuntap (s.freebuf.mem entry)) distinct inUse'
      refine ⟨s', ?_, ?_⟩
      · simp only [List.map_cons, injectDrained, freed, Option.bind_some]
        exact done
      · refine Injects.cons ?_ mem rest
        rw [used]
        exact List.perm_cons_erase member

/-- A buffer in its allocation that hands out used entries only. -/
def Lends (used : List Nat) (b : ReorderBuffer Nat) : Prop :=
  b.Allocated ∧ ∃ live, BufferWf b live ∧ ∀ p, Reachable b.orderBuf live p → p ∈ used

/-- A configured size whose rings fit the `unsigned int` of the allocation. -/
def Fits (size : UInt32) : Prop := 72 + 2 * size.toNat * 8 < 2 ^ 32

instance (size : UInt32) : Decidable (Fits size) := inferInstanceAs (Decidable (_ < _))

namespace Lends

variable {used : List Nat} {b : ReorderBuffer Nat}

theorem create {size : UInt32} (positive : size > 0) (fits : Fits size) :
    Lends used (reorderCreate size.toNat) := by
  have small : size.toNat < 2 ^ 32 := size.toNat_lt
  have wf : BufferWf (reorderCreate size.toNat : ReorderBuffer Nat) [] :=
    BufferWf.create positive small
  have created : (reorderCreate size.toNat : ReorderBuffer Nat).orderBuf = .zeroed size.toNat := by
    simp only [reorderCreate, reorderInit, lt_irrefl, if_false]
  refine ⟨?_, [], wf, fun p reached => ?_⟩
  · rw [ReorderBuffer.Allocated, wf.memsize, created]
    exact (le_reorderBufsize_iff small).mpr fits
  · rw [created] at reached
    exact absurd reached (not_reachable_zeroed _ p)

theorem reset (h : Lends used b) (used' : List Nat) : Lends used' (reorderReset b) := by
  obtain ⟨allocated, live, wf, _⟩ := h
  obtain ⟨fresh, empty⟩ := wf.reset
  exact ⟨wf.reset_layout.allocated allocated, [], fresh, fun p reached => absurd reached (empty p)⟩

theorem insert (h : Lends used b) {entry : Nat} (fresh : entry ∉ used) (seq : UInt64) :
    Lends (used ++ [entry]) (reorderInsert b entry seq).2 := by
  obtain ⟨allocated, live, wf, inUse⟩ := h
  obtain ⟨live', wf', reached⟩ := wf.insert (fun found => fresh (inUse entry found)) seq
  refine ⟨(reorderInsert_layout b entry seq).allocated allocated, live', wf', fun p found => ?_⟩
  rcases reached p found with rfl | old
  · exact List.mem_append_right _ (List.mem_singleton_self p)
  · exact List.mem_append_left _ (inUse p old)

/-- An ordered drain hands out distinct used entries, and lends the others. -/
theorem drain (h : Lends used b) (maxPkts : Nat) :
    ∃ out : List Nat, (reorderDrain b maxPkts).1 = out.map some ∧ out.Nodup ∧
      (∀ p ∈ out, p ∈ used) ∧
      ∀ used', used.Perm (out ++ used') → Lends used' (reorderDrain b maxPkts).2 := by
  obtain ⟨allocated, live, wf, inUse⟩ := h
  obtain ⟨out, live', output, distinct, members, wf', kept⟩ := wf.drain maxPkts
  refine ⟨out, output, distinct, fun p member => inUse p (members p member), ?_⟩
  intro used' shared
  refine ⟨(reorderDrain_layout b maxPkts).allocated allocated, live', wf', fun p found => ?_⟩
  obtain ⟨notOut, reached⟩ := kept p found
  rcases List.mem_append.mp (shared.mem_iff.mp (inUse p reached)) with out | rest
  · exact absurd out notOut
  · exact rest

end Lends

/-- The invariant of the receive path. -/
structure Owned (s : Receive) : Prop where
  pool : s.freebuf.Wf
  queued : Queued s.sbuf s.ioWrite
  lends : ∀ b, s.reorderBuffer = some b → Lends s.freebuf.usedHead b
  idle : s.reorderBuffer = none → s.freebuf.usedHead = [] ∧ s.drainTimeout.active = false
  fits : Fits s.reorderBufferSize

/-- The receive path as a ledger of receptions. -/
def ledger (s : Receive) : Ledger Reception :=
  ⟨s.received, s.injected, s.freebuf.usedHead.map s.freebuf.mem⟩

theorem Injects.releases {out : List Nat} (h : Injects s s' out) :
    (ledger s).Releases (ledger s') (out.map s.freebuf.mem) where
  received := h.received
  delivered := h.injected
  held := by
    have perm := h.used.map s.freebuf.mem
    rw [List.map_append] at perm
    simpa only [ledger, h.mem] using perm

theorem owned_init : Owned init where
  pool := Freebuffer.wf_init _ _
  queued := ⟨Pktbuffer.wf_init (by decide), fun writing => by cases writing⟩
  lends := fun b found => by cases found
  idle := fun _ => ⟨rfl, rfl⟩
  fits := by decide

theorem Owned.stopIfUnused (h : Owned s) : Owned (stopIfUnused s) := by
  rw [Receive.stopIfUnused]
  split
  · exact { h with idle := fun none => ⟨(h.idle none).1, rfl⟩ }
  · exact h

theorem stopIfUnused_ledger (s : Receive) : ledger (stopIfUnused s) = ledger s := by
  rw [stopIfUnused]
  split <;> rfl

theorem stopIfUnused_buffer (s : Receive) :
    (stopIfUnused s).reorderBuffer = s.reorderBuffer ∧ (stopIfUnused s).freebuf = s.freebuf := by
  rw [stopIfUnused]
  split <;> exact ⟨rfl, rfl⟩

/-- The drain by age injects all that is held. -/
theorem reorderDrainAll_releases (h : Owned s) {b : ReorderBuffer Nat}
    (buffer : s.reorderBuffer = some b) :
    ∃ s', reorderDrainAll s = some (s.freebuf.usedHead.length, s') ∧ Owned s' ∧
      (ledger s).Releases (ledger s') (ledger s).held ∧
      s'.reorderBuffer = some (reorderReset b) ∧ s'.freebuf.usedHead = [] := by
  obtain ⟨count, drained⟩ := drainUsed_injects s.freebuf.usedHead.length 0 h.pool h.queued rfl
  rw [reorderDrainAll]
  generalize drainUsed s.freebuf.usedHead.length 0 s = result at count drained ⊢
  obtain ⟨n, s₁⟩ := result
  simp only [Nat.zero_add] at count drained
  have empty : s₁.freebuf.usedHead = [] := by
    have lengths := drained.used.length_eq
    rw [List.length_append] at lengths
    exact List.eq_nil_of_length_eq_zero (by omega)
  have kept : s₁.reorderBuffer = some b := drained.buffer.trans buffer
  have unchanged : freebufferReset s₁.freebuf = s₁.freebuf := drained.pool.reset_of_nil empty
  simp only [kept, unchanged]
  let s₂ : Receive := { s₁ with reorderBuffer := some (reorderReset b) }
  have owned : Owned s₂ :=
    { pool := drained.pool
      queued := drained.queued
      lends := fun b' found => by
        cases found
        exact (h.lends b buffer).reset _
      idle := fun none => by cases none
      fits := drained.size ▸ h.fits }
  have same : ledger (Receive.stopIfUnused s₂) = ledger s₁ := stopIfUnused_ledger s₂
  refine ⟨_, by rw [count], owned.stopIfUnused, ?_, ?_, ?_⟩
  · rw [same]
    exact drained.releases
  · exact (stopIfUnused_buffer s₂).1
  · rw [(stopIfUnused_buffer s₂).2]
    exact empty

/-- The ordered drain injects what the buffer hands out. -/
theorem reorderDrainOrdered_releases (h : Owned s) {b : ReorderBuffer Nat}
    (buffer : s.reorderBuffer = some b) :
    ∃ n s' out, reorderDrainOrdered s = some (n, s') ∧ Owned s' ∧
      (ledger s).Releases (ledger s') out ∧ s'.reorderBuffer ≠ none := by
  obtain ⟨out, output, distinct, inUse, lends⟩ := (h.lends b buffer).drain 1024
  obtain ⟨s₁, done, injects⟩ := injectDrained_injects
    (s := { s with reorderBuffer := some (reorderDrain b 1024).2 }) out h.pool h.queued distinct inUse
  have owned : Owned s₁ :=
    { pool := injects.pool
      queued := injects.queued
      lends := fun b' found => by
        rw [injects.buffer] at found
        cases found
        exact lends _ injects.used
      idle := fun none => by
        rw [injects.buffer] at none
        cases none
      fits := injects.size ▸ h.fits }
  refine ⟨out.length, Receive.stopIfUnused s₁, out.map s.freebuf.mem, ?_, owned.stopIfUnused, ?_, ?_⟩
  · simp only [reorderDrainOrdered, buffer, output, done, Option.map_some, List.length_map]
  · rw [stopIfUnused_ledger]
    exact injects.releases
  · rw [(stopIfUnused_buffer s₁).1, injects.buffer]
    exact Option.some_ne_none _

theorem restartIfUsed_owned (n : Nat) (h : Owned s) (buffer : s.reorderBuffer ≠ none) :
    ∃ s', restartIfUsed (n, s) = (n, s') ∧ Owned s' ∧ ledger s' = ledger s := by
  rw [restartIfUsed]
  split
  · exact ⟨_, rfl, { h with idle := fun none => absurd none buffer }, rfl⟩
  · exact ⟨_, rfl, h, rfl⟩

/-- A packet that does not wait. -/
theorem inject_arrival (h : Owned s) (r : Reception) :
    Owned (injectTuntap { s with received := s.received ++ [r] } r) ∧
      ledger (injectTuntap { s with received := s.received ++ [r] } r) = (ledger s).pass r :=
  ⟨{ h with queued := h.queued.injectTuntap r }, rfl⟩

/-- A packet that is given an entry of the pool and offered to the buffer. -/
theorem hold_arrival (h : Owned s) {b : ReorderBuffer Nat} (buffer : s.reorderBuffer = some b)
    {entry : Nat} {freebuf : Freebuffer Reception}
    (got : freebufferGet s.freebuf = some (entry, freebuf)) (r : Reception) :
    let s₁ : Receive :=
      { s with
        received := s.received ++ [r]
        freebuf := freebuf.store entry r
        reorderBuffer := some (reorderInsert b entry r.pkt.seq).2 }
    Owned s₁ ∧ ledger s₁ = (ledger s).keep r := by
  intro s₁
  obtain ⟨pool, fresh, used, mem⟩ := h.pool.get got
  have others : ∀ p ∈ s.freebuf.usedHead, (freebuf.store entry r).mem p = s.freebuf.mem p := by
    intro p member
    have other : p ≠ entry := fun same => fresh (same ▸ member)
    simp only [Freebuffer.store, Function.update_of_ne other, mem]
  have newest : (freebuf.store entry r).mem entry = r := Function.update_self _ _ _
  refine ⟨{ h with pool := pool.store entry r, lends := ?_, idle := fun none => by cases none }, ?_⟩
  · intro b' found
    cases found
    change Lends freebuf.usedHead _
    rw [used]
    exact (h.lends b buffer).insert fresh _
  · change Ledger.mk _ _ (freebuf.usedHead.map (freebuf.store entry r).mem) = _
    rw [used, List.map_append, List.map_congr_left others, List.map_singleton, newest]
    rfl

/-- The drain timer has run out, or it was not active. -/
theorem reorderDrainTimeout_cases (done : reorderDrainTimeout s = some s') :
    s' = s ∨ ∃ n s₁, reorderDrainAll { s with drainTimeout := s.drainTimeout.again } = some (n, s₁) ∧
      s' = stopIfUnused s₁ := by
  unfold reorderDrainTimeout at done
  split at done
  next =>
    obtain ⟨⟨n, s₁⟩, drained, rfl⟩ := Option.map_eq_some_iff.mp done
    exact .inr ⟨n, s₁, drained, rfl⟩
  next =>
    cases done
    exact .inl rfl

/-- A change of status drains the buffer, if there is one. -/
theorem statusDrain_cases (done : statusDrain s = some s') :
    s.reorderBuffer = none ∧ s' = s ∨ ∃ n s₁, reorderDrainAll s = some (n, s₁) ∧
      s' = { s₁ with reorderBuffer := s₁.reorderBuffer.map reorderReset } := by
  unfold statusDrain at done
  split at done
  next none =>
    cases done
    exact .inl ⟨none, rfl⟩
  next =>
    obtain ⟨⟨n, s₁⟩, drained, rfl⟩ := Option.map_eq_some_iff.mp done
    exact .inr ⟨n, s₁, drained, rfl⟩

/-- A write to the device concerns only what waits for it. -/
theorem tuntapWrite_cases (done : step s .tuntapWrite = some s') :
    ∃ sbuf ioWrite, s' = { s with sbuf := sbuf, ioWrite := ioWrite } := by
  simp only [step] at done
  split_ifs at done
  next =>
    cases done
    exact ⟨_, _, rfl⟩
  next =>
    cases done
    exact ⟨s.sbuf, s.ioWrite, rfl⟩

/-- The sequence number of a packet is too far from the window, while an entry
    of the pool is free for it. -/
def Late (s : Receive) (pkt : Pkt) : Prop :=
  pkt.reorder = true ∧ s.freebuf.freeHead ≠ [] ∧
    ∃ b, s.reorderBuffer = some b ∧ b.isInitialized = true ∧
      b.orderBuf.size ≤ (pkt.seq - b.minSeqn).toNat ∧
      2 * b.orderBuf.size % 2 ^ 32 ≤ (pkt.seq - b.minSeqn).toNat

instance (s : Receive) (pkt : Pkt) : Decidable (Late s pkt) :=
  inferInstanceAs (Decidable (_ ∧ _ ∧ ∃ b ∈ s.reorderBuffer, _ ∧ _ ∧ _))

end Mlvpn.Receive
