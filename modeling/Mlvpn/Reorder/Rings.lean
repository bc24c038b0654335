import Mlvpn.Reorder.Buffer

/-! # The rings at every size

A size that is not a power of two gives a mask with holes: slots alias, others
are never visited, and packets can be overwritten or left behind.  What survives
at every size is ownership.  The pointers in the order ring and in the live part
of the ready ring are pairwise distinct, and no operation brings back one that
has left them.
-/

namespace Mlvpn.Reorder

open Library.MaskedRing

variable {α : Type*}

/-- `live` lists the ready ring from tail to head. -/
structure Rings (order ready : CirBuffer α) (live : List α) : Prop where
  size : order.size = order.mask + 1
  readyMask : ready.mask = order.mask
  headLe : order.head ≤ order.mask
  outside : ∀ i, order.mask < i → order.pkts i = none
  holds : Holds (period order.mask) ready.pkts ready.tail ready.head live
  nodup : live.Nodup
  apart : ∀ p ∈ live, ∀ i, order.pkts i ≠ some p
  once : ∀ i j p, order.pkts i = some p → order.pkts j = some p → i = j

/-- A pointer the buffer can still hand out. -/
def Reachable (order : CirBuffer α) (live : List α) (p : α) : Prop :=
  p ∈ live ∨ ∃ i, order.pkts i = some p

namespace Rings

variable {order ready : CirBuffer α} {live : List α}

/-- Every index that the program reads or writes at is inside the rings. -/
theorem indices_lt (h : Rings order ready live) (position : Nat) :
    position &&& order.mask < order.size ∧ order.head < order.size ∧
      ready.head < order.size ∧ ready.tail < order.size := by
  have small := period_le order.mask
  have head := h.holds.headLt
  have tail := h.holds.tailLt
  have masked : position &&& order.mask ≤ order.mask := Nat.and_le_right
  have first := h.headLe
  rw [h.size]
  omega

theorem advance (h : Rings order ready live) : Rings order.advance ready live :=
  { h with headLe := next_le _ _ }

/-- Emptying a slot forgets its pointer and no other. -/
theorem erase (h : Rings order ready live) (i : Nat) : Rings (order.write i none) ready live where
  size := h.size
  readyMask := h.readyMask
  headLe := h.headLe
  outside := by
    intro j high
    cases found : (order.write i none).pkts j with
    | none => rfl
    | some p => rw [← h.outside j high, (CirBuffer.write_none_iff.mp found).2]
  holds := h.holds
  nodup := h.nodup
  apart := fun p member j found => h.apart p member j (CirBuffer.write_none_iff.mp found).2
  once := fun j k p hj hk =>
    h.once j k p (CirBuffer.write_none_iff.mp hj).2 (CirBuffer.write_none_iff.mp hk).2

theorem erased_reachable {i : Nat} {p : α}
    (found : Reachable (order.write i none) live p) : Reachable order live p := by
  rcases found with member | ⟨j, found⟩
  · exact .inl member
  · exact .inr ⟨j, (CirBuffer.write_none_iff.mp found).2⟩

theorem erased_absent (h : Rings order ready live) {i : Nat} {p : α}
    (there : order.pkts i = some p) : ¬ Reachable (order.write i none) live p := by
  rintro (member | ⟨j, found⟩)
  · exact h.apart p member i there
  · obtain ⟨other, found⟩ := CirBuffer.write_none_iff.mp found
    exact other (h.once j i p found there)

/-- Store a pointer the rings do not hold; whatever was in the slot is forgotten. -/
theorem store (h : Rings order ready live) {p : α} (fresh : ¬ Reachable order live p) {i : Nat}
    (inside : i ≤ order.mask) : Rings (order.write i (some p)) ready live where
  size := h.size
  readyMask := h.readyMask
  headLe := h.headLe
  outside := by
    intro j high
    have other : j ≠ i := by
      have high' : order.mask < j := high
      omega
    simp only [CirBuffer.write, Function.update_of_ne other]
    exact h.outside j high
  holds := h.holds
  nodup := h.nodup
  apart := by
    intro q member j found
    rcases CirBuffer.write_some_iff.mp found with ⟨_, rfl⟩ | ⟨_, found⟩
    · exact fresh (.inl member)
    · exact h.apart q member j found
  once := by
    intro j k q hj hk
    rcases CirBuffer.write_some_iff.mp hj with ⟨sameJ, isP⟩ | ⟨_, foundJ⟩ <;>
      rcases CirBuffer.write_some_iff.mp hk with ⟨sameK, isP'⟩ | ⟨_, foundK⟩
    · rw [sameJ, sameK]
    · exact absurd (.inr ⟨k, isP ▸ foundK⟩) fresh
    · exact absurd (.inr ⟨j, isP' ▸ foundJ⟩) fresh
    · exact h.once j k q foundJ foundK

theorem stored_reachable {i : Nat} {p q : α}
    (found : Reachable (order.write i (some p)) live q) : q = p ∨ Reachable order live q := by
  rcases found with member | ⟨j, found⟩
  · exact .inr (.inl member)
  · rcases CirBuffer.write_some_iff.mp found with ⟨_, same⟩ | ⟨_, found⟩
    · exact .inl same
    · exact .inr (.inr ⟨j, found⟩)

theorem full_iff (h : Rings order ready live) :
    ready.full ↔ live.length + 1 = period order.mask := by
  rw [CirBuffer.full, h.readyMask]
  exact h.holds.full_iff (isPeriod_period _)

theorem push (h : Rings order ready live) {p : α} (fresh : ¬ Reachable order live p)
    (room : ¬ ready.full) : Rings order (ready.write ready.head (some p)).advance (live ++ [p]) := by
  have short := h.holds.short
  have notFull : live.length + 1 ≠ period order.mask := fun full => room (h.full_iff.mpr full)
  refine ⟨h.size, h.readyMask, h.headLe, h.outside, ?_, ?_, ?_, h.once⟩
  · have pushed := h.holds.push (isPeriod_period _) (by omega) p
    simpa only [CirBuffer.advance, CirBuffer.write, h.readyMask] using pushed
  · have outsideLive : p ∉ live := fun member => fresh (.inl member)
    exact h.nodup.append (List.nodup_singleton p) (by simpa using outsideLive)
  · intro q member i found
    rcases List.mem_append.mp member with old | new
    · exact h.apart q old i found
    · exact fresh (.inr ⟨i, List.mem_singleton.mp new ▸ found⟩)

theorem overwrite (h : Rings order ready live) (p : Option α) :
    Rings order (ready.write ready.head p) live :=
  { h with holds := h.holds.overwrite_head p }

theorem zeroed {size : Nat} (positive : 0 < size) (small : size < 2 ^ 32) :
    Rings (CirBuffer.zeroed size : CirBuffer α) (CirBuffer.zeroed size) [] where
  size := by simp only [CirBuffer.zeroed]; omega
  readyMask := rfl
  headLe := Nat.zero_le _
  outside := fun _ _ => rfl
  holds := Holds.empty _ (isPeriod_period _).pos
  nodup := List.nodup_nil
  apart := by simp
  once := by simp [CirBuffer.zeroed]

end Rings

theorem not_reachable_zeroed (size : Nat) (p : α) :
    ¬ Reachable (CirBuffer.zeroed size) ([] : List α) p := by
  simp [Reachable, CirBuffer.zeroed]

/-- What the overflow path may do to the rings: move pointers or forget them. -/
structure Moves (s s' : Moving α) (live live' : List α) : Prop where
  rings : Rings s'.orderBuf s'.readyBuf live'
  mask : s'.orderBuf.mask = s.orderBuf.mask
  kept : ∀ p, Reachable s'.orderBuf live' p → Reachable s.orderBuf live p

theorem Moves.trans {s s' s'' : Moving α} {live live' live'' : List α}
    (first : Moves s s' live live') (second : Moves s' s'' live' live'') :
    Moves s s'' live live'' :=
  ⟨second.rings, second.mask.trans first.mask, fun p found => first.kept p (second.kept p found)⟩

theorem moveReady_moves (fuel : Nat) {s : Moving α} {live : List α}
    (h : Rings s.orderBuf s.readyBuf live) : ∃ live', Moves s (moveReady fuel s) live live' := by
  induction fuel generalizing s live with
  | zero => exact ⟨live, h, rfl, fun _ found => found⟩
  | succ fuel ih =>
      cases found : s.orderBuf.pkts s.orderBuf.head with
      | none =>
          simp only [moveReady, found]
          exact ⟨live, h, rfl, fun _ found => found⟩
      | some p =>
          let order := s.orderBuf.write s.orderBuf.head none
          have erased : Rings order s.readyBuf live := h.erase _
          have absent : ¬ Reachable order live p := h.erased_absent found
          have keptErased : ∀ q, Reachable order live q → Reachable s.orderBuf live q :=
            fun _ => Rings.erased_reachable
          have same : (s.readyBuf.write s.readyBuf.head (some p)).full ↔ s.readyBuf.full := Iff.rfl
          simp only [moveReady, found, same]
          by_cases full : s.readyBuf.full
          · simp only [full, if_true]
            exact ⟨live, (erased.overwrite (some p)).advance, rfl, keptErased⟩
          · simp only [full, if_false]
            have pushed := erased.push absent full
            obtain ⟨live', moved⟩ := ih (s :=
              { orderBuf := order.advance
                readyBuf := (s.readyBuf.write s.readyBuf.head (some p)).advance
                adv := s.adv + 1 }) pushed.advance
            refine ⟨live', moved.rings, moved.mask, fun q reached => ?_⟩
            rcases moved.kept q reached with member | there
            · rcases List.mem_append.mp member with old | new
              · exact keptErased q (.inl old)
              · exact .inr ⟨_, List.mem_singleton.mp new ▸ found⟩
            · exact keptErased q (.inr there)

theorem skipGap_moves {s : Moving α} {live : List α} (h : Rings s.orderBuf s.readyBuf live) :
    Moves s (skipGap s) live live := by
  by_cases blocked : s.orderBuf.pkts s.orderBuf.head = none
  · simp only [skipGap, blocked, if_true]
    exact ⟨h.advance, rfl, fun _ found => found⟩
  · simp only [skipGap, blocked, if_false]
    exact ⟨h, rfl, fun _ found => found⟩

theorem fillLoop_moves (n fuel : Nat) {s : Moving α} {live : List α}
    (h : Rings s.orderBuf s.readyBuf live) : ∃ live', Moves s (fillLoop n fuel s) live live' := by
  induction fuel generalizing s live with
  | zero => exact ⟨live, h, rfl, fun _ found => found⟩
  | succ fuel ih =>
      by_cases more : s.adv < n ∧ ¬ s.readyBuf.full
      · simp only [fillLoop, more, not_false_eq_true, and_self, if_true]
        have skipped := skipGap_moves h
        obtain ⟨live₁, moved⟩ := moveReady_moves s.orderBuf.size skipped.rings
        obtain ⟨live₂, rest⟩ := ih moved.rings
        exact ⟨live₂, skipped.trans (moved.trans rest)⟩
      · simp only [fillLoop, more, if_false]
        exact ⟨live, h, rfl, fun _ found => found⟩

/-- A buffer whose rings own their pointers and which a reset finds large enough. -/
structure BufferWf (b : ReorderBuffer α) (live : List α) : Prop where
  rings : Rings b.orderBuf b.readyBuf live
  small : b.orderBuf.size < 2 ^ 32
  memsize : b.memsize = reorderBufsize b.orderBuf.size

namespace BufferWf

variable {b : ReorderBuffer α} {live : List α}

theorem create {size : Nat} (positive : 0 < size) (small : size < 2 ^ 32) :
    BufferWf (reorderCreate size : ReorderBuffer α) [] := by
  simp only [reorderCreate, reorderInit, lt_irrefl, if_false]
  exact ⟨Rings.zeroed positive small, small, rfl⟩

theorem reset_eq (h : BufferWf b live) : reorderReset b = reorderCreate b.orderBuf.size := by
  simp only [reorderReset, reorderCreate, reorderInit, h.memsize, lt_irrefl, if_false]

theorem reset_layout (h : BufferWf b live) : SameLayout b (reorderReset b) := by
  rw [h.reset_eq]
  simp only [reorderCreate, reorderInit, lt_irrefl, if_false]
  exact ⟨h.memsize.symm, CirBuffer.zeroed_size _⟩

theorem reset (h : BufferWf b live) :
    BufferWf (reorderReset b) [] ∧ ∀ p, ¬ Reachable (reorderReset b).orderBuf [] p := by
  have positive : 0 < b.orderBuf.size := by have := h.rings.size; omega
  rw [h.reset_eq]
  refine ⟨create positive h.small, fun p => ?_⟩
  simp only [reorderCreate, reorderInit, lt_irrefl, if_false]
  exact not_reachable_zeroed _ p

theorem begin_ (h : BufferWf b live) (seq : UInt64) :
    BufferWf (reorderBegin b seq) live ∧ (reorderBegin b seq).orderBuf = b.orderBuf := by
  rw [reorderBegin]
  split
  · exact ⟨h, rfl⟩
  · exact ⟨⟨h.rings, h.small, h.memsize⟩, rfl⟩

theorem storeAt (h : BufferWf b live) {p : α} (fresh : ¬ Reachable b.orderBuf live p)
    (offset : Nat) :
    BufferWf (storeAt b offset p) live ∧
      ∀ q, Reachable (Reorder.storeAt b offset p).orderBuf live q →
        q = p ∨ Reachable b.orderBuf live q :=
  ⟨⟨h.rings.store fresh Nat.and_le_right, h.small, h.memsize⟩, fun _ => Rings.stored_reachable⟩

theorem fillOverflow (h : BufferWf b live) (n : Nat) :
    ∃ live', BufferWf (reorderFillOverflow b n).2 live' ∧
      ∀ q, Reachable (reorderFillOverflow b n).2.orderBuf live' q →
        Reachable b.orderBuf live q := by
  obtain ⟨live', moved⟩ := fillLoop_moves n n
    (s := { orderBuf := b.orderBuf, readyBuf := b.readyBuf, adv := 0 }) h.rings
  have size : (reorderFillOverflow b n).2.orderBuf.size = b.orderBuf.size := by
    rw [h.rings.size, ← moved.mask]
    exact moved.rings.size
  exact ⟨live', ⟨moved.rings, size ▸ h.small, size ▸ h.memsize⟩, moved.kept⟩

/-- Whatever an insertion returns, the rings own at most the new pointer more. -/
theorem insert (h : BufferWf b live) {p : α} (fresh : ¬ Reachable b.orderBuf live p)
    (seq : UInt64) :
    ∃ live', BufferWf (reorderInsert b p seq).2 live' ∧
      ∀ q, Reachable (reorderInsert b p seq).2.orderBuf live' q →
        q = p ∨ Reachable b.orderBuf live q := by
  obtain ⟨begun, sameOrder⟩ := h.begin_ seq
  simp only [reorderInsert]
  generalize reorderBegin b seq = b₀ at begun sameOrder ⊢
  rw [← sameOrder] at fresh ⊢
  split
  · exact ⟨live, begun.storeAt fresh _⟩
  · split
    · obtain ⟨live', filled, kept⟩ := begun.fillOverflow ((seq - b₀.minSeqn).toNat + 1 - b₀.orderBuf.size)
      split
      · exact ⟨live', filled, fun q reached => .inr (kept q reached)⟩
      · obtain ⟨stored, reached⟩ := filled.storeAt (fun found => fresh (kept p found)) _
        exact ⟨live', stored, fun q found => (reached q found).imp_right (kept q)⟩
    · exact ⟨live, begun, fun q reached => .inr reached⟩

end BufferWf

theorem drainReady_rings (wanted : Nat) {order ready : CirBuffer α} {live : List α}
    (h : Rings order ready live) :
    (drainReady wanted ready).1 = (live.take wanted).map some ∧
      Rings order (drainReady wanted ready).2 (live.drop wanted) := by
  have period : IsPeriod ready.mask (period order.mask) := by
    rw [h.readyMask]
    exact isPeriod_period _
  obtain ⟨output, tail, same, holds⟩ := drainReady_spec wanted period h.holds
  rw [same]
  exact ⟨output,
    { h with
      holds := holds
      nodup := h.nodup.sublist (List.drop_sublist _ _)
      apart := fun p member => h.apart p (List.mem_of_mem_drop member) }⟩

/-- The order ring hands out distinct pointers and keeps none of them. -/
theorem drainOrder_rings (wanted : Nat) {b : ReorderBuffer α} {live : List α}
    (h : BufferWf b live) :
    ∃ out : List α, (drainOrder wanted b).1 = out.map some ∧ out.Nodup ∧
      (∀ p ∈ out, p ∉ live ∧ ∃ i, b.orderBuf.pkts i = some p) ∧
      BufferWf (drainOrder wanted b).2 live ∧
      ∀ p, Reachable (drainOrder wanted b).2.orderBuf live p →
        p ∉ out ∧ Reachable b.orderBuf live p := by
  induction wanted generalizing b with
  | zero =>
      exact ⟨[], rfl, List.nodup_nil, by simp, h, fun p reached => ⟨by simp, reached⟩⟩
  | succ wanted ih =>
      cases found : b.orderBuf.pkts b.orderBuf.head with
      | none =>
          simp only [drainOrder, found]
          exact ⟨[], rfl, List.nodup_nil, by simp, h, fun p reached => ⟨by simp, reached⟩⟩
      | some p =>
          let order := b.orderBuf.write b.orderBuf.head none
          let later : ReorderBuffer α := { b with orderBuf := order.advance, minSeqn := b.minSeqn + 1 }
          have absent : ¬ Reachable order live p := h.rings.erased_absent found
          have cleared : BufferWf later live :=
            ⟨(h.rings.erase _).advance, h.small, h.memsize⟩
          obtain ⟨out, output, nodup, members, wf, kept⟩ := ih cleared
          have fresh : p ∉ out := fun member => absent (.inr (members p member).2)
          have step : drainOrder (wanted + 1) b =
              (some p :: (drainOrder wanted later).1, (drainOrder wanted later).2) := by
            simp only [drainOrder, found, later, order]
          rw [step]
          refine ⟨p :: out, by rw [output, List.map_cons], List.nodup_cons.mpr ⟨fresh, nodup⟩, ?_,
            wf, ?_⟩
          · intro q member
            rcases List.mem_cons.mp member with rfl | member
            · exact ⟨fun isLive => h.rings.apart q isLive _ found, _, found⟩
            · obtain ⟨notLive, i, there⟩ := members q member
              exact ⟨notLive, i, (CirBuffer.write_none_iff.mp there).2⟩
          · intro q reached
            obtain ⟨notOut, there⟩ := kept q reached
            refine ⟨?_, Rings.erased_reachable there⟩
            intro member
            rcases List.mem_cons.mp member with rfl | member
            · exact absent there
            · exact notOut member

/-- A drain hands out distinct pointers of the rings, which then hold them no more. -/
theorem BufferWf.drain {b : ReorderBuffer α} {live : List α} (h : BufferWf b live)
    (maxPkts : Nat) :
    ∃ (out : List α) (live' : List α), (reorderDrain b maxPkts).1 = out.map some ∧ out.Nodup ∧
      (∀ p ∈ out, Reachable b.orderBuf live p) ∧
      BufferWf (reorderDrain b maxPkts).2 live' ∧
      ∀ p, Reachable (reorderDrain b maxPkts).2.orderBuf live' p →
        p ∉ out ∧ Reachable b.orderBuf live p := by
  obtain ⟨fromReady, rings⟩ := drainReady_rings maxPkts h.rings
  let b' : ReorderBuffer α := { b with readyBuf := (drainReady maxPkts b.readyBuf).2 }
  have wf : BufferWf b' (live.drop maxPkts) := ⟨rings, h.small, h.memsize⟩
  obtain ⟨out, output, nodup, members, wf', kept⟩ :=
    drainOrder_rings (maxPkts - (drainReady maxPkts b.readyBuf).1.length) wf
  have parts : (live.take maxPkts ++ live.drop maxPkts).Nodup := by
    rw [List.take_append_drop]
    exact h.rings.nodup
  have fromLive : ∀ p ∈ live.take maxPkts, p ∈ live := fun p member => List.mem_of_mem_take member
  refine ⟨live.take maxPkts ++ out, live.drop maxPkts, ?_, ?_, ?_, wf', ?_⟩
  · rw [List.map_append, ← output, ← fromReady]
    rfl
  · refine (parts.of_append_left).append nodup ?_
    intro p taken member
    obtain ⟨_, i, there⟩ := members p member
    exact h.rings.apart p (fromLive p taken) i there
  · intro p member
    rcases List.mem_append.mp member with taken | ordered
    · exact .inl (fromLive p taken)
    · exact .inr (members p ordered).2
  · intro p reached
    obtain ⟨notOut, there⟩ := kept p reached
    refine ⟨?_, there.imp_left List.mem_of_mem_drop⟩
    intro member
    rcases List.mem_append.mp member with taken | ordered
    · rcases there with dropped | ⟨i, found⟩
      · exact List.disjoint_of_nodup_append parts taken dropped
      · exact h.rings.apart p (fromLive p taken) i found
    · exact notOut ordered

end Mlvpn.Reorder
