import Mlvpn.Reorder.Buffer

/-! # What the mask addresses

`mlvpn_reorder_init` takes `size - 1` for a mask, whatever the size.  No operation
changes a mask, so the slots that the two heads and the offsets of the window fall
on are settled when the buffer is created.
-/

namespace Mlvpn.Reorder

open Library.MaskedRing

variable {α : Type*} {n : Nat}

/-- A buffer that was created for `n` packets, after any use of it. -/
inductive Used (n : Nat) : ReorderBuffer α → Prop
  | create : Used n (reorderCreate n)
  | insert {b : ReorderBuffer α} (pkt : α) (seq : UInt64) :
      Used n b → Used n (reorderInsert b pkt seq).2
  | drain {b : ReorderBuffer α} (maxPkts : Nat) : Used n b → Used n (reorderDrain b maxPkts).2
  | reset {b : ReorderBuffer α} : Used n b → Used n (reorderReset b)

/-- Both masks are the size less one. -/
structure Masked (n : Nat) (order ready : CirBuffer α) : Prop where
  size : order.size = n
  order : order.mask = n - 1
  ready : ready.mask = n - 1

theorem Masked.zeroed (positive : 0 < n) (small : n < 2 ^ 32) :
    Masked n (.zeroed n : CirBuffer α) (.zeroed n) := by
  have mask : (n + 2 ^ 32 - 1) % 2 ^ 32 = n - 1 := by omega
  exact ⟨rfl, mask, mask⟩

theorem moveReady_masked (fuel : Nat) {s : Moving α} (h : Masked n s.orderBuf s.readyBuf) :
    Masked n (moveReady fuel s).orderBuf (moveReady fuel s).readyBuf := by
  induction fuel generalizing s with
  | zero => exact h
  | succ fuel ih =>
      simp only [moveReady]
      split
      · exact h
      · split
        · exact ⟨h.size, h.order, h.ready⟩
        · exact ih ⟨h.size, h.order, h.ready⟩

theorem skipGap_masked {s : Moving α} (h : Masked n s.orderBuf s.readyBuf) :
    Masked n (skipGap s).orderBuf (skipGap s).readyBuf := by
  rw [skipGap]
  split
  · exact ⟨h.size, h.order, h.ready⟩
  · exact h

theorem fillLoop_masked (needed fuel : Nat) {s : Moving α} (h : Masked n s.orderBuf s.readyBuf) :
    Masked n (fillLoop needed fuel s).orderBuf (fillLoop needed fuel s).readyBuf := by
  induction fuel generalizing s with
  | zero => exact h
  | succ fuel ih =>
      rw [fillLoop]
      split
      · exact ih (moveReady_masked _ (skipGap_masked h))
      · exact h

theorem reorderInsert_masked {b : ReorderBuffer α} (pkt : α) (seq : UInt64)
    (h : Masked n b.orderBuf b.readyBuf) :
    Masked n (reorderInsert b pkt seq).2.orderBuf (reorderInsert b pkt seq).2.readyBuf := by
  have begun : Masked n (reorderBegin b seq).orderBuf (reorderBegin b seq).readyBuf := by
    rw [reorderBegin]
    split <;> exact h
  simp only [reorderInsert]
  generalize reorderBegin b seq = b at begun ⊢
  split
  · exact ⟨begun.size, begun.order, begun.ready⟩
  · split
    · have filled := fillLoop_masked ((seq - b.minSeqn).toNat + 1 - b.orderBuf.size)
        ((seq - b.minSeqn).toNat + 1 - b.orderBuf.size)
        (s := { orderBuf := b.orderBuf, readyBuf := b.readyBuf, adv := 0 }) begun
      split
      · exact filled
      · exact ⟨filled.size, filled.order, filled.ready⟩
    · exact begun

theorem drainReady_mask (wanted : Nat) (ready : CirBuffer α) :
    (drainReady wanted ready).2.mask = ready.mask := by
  induction wanted generalizing ready with
  | zero => rfl
  | succ wanted ih =>
      rw [drainReady]
      split
      · rfl
      · exact ih _

theorem drainOrder_masked (wanted : Nat) {b : ReorderBuffer α}
    (h : Masked n b.orderBuf b.readyBuf) :
    Masked n (drainOrder wanted b).2.orderBuf (drainOrder wanted b).2.readyBuf := by
  induction wanted generalizing b with
  | zero => exact h
  | succ wanted ih =>
      simp only [drainOrder]
      split
      · exact h
      · exact ih ⟨h.size, h.order, h.ready⟩

theorem Used.masked {b : ReorderBuffer α} (positive : 0 < n) (small : n < 2 ^ 32)
    (used : Used n b) : Masked n b.orderBuf b.readyBuf := by
  induction used with
  | create =>
      simp only [reorderCreate, reorderInit, lt_irrefl, if_false]
      exact Masked.zeroed positive small
  | insert pkt seq _ ih => exact reorderInsert_masked pkt seq ih
  | drain maxPkts _ ih =>
      exact drainOrder_masked _ ⟨ih.size, ih.order, (drainReady_mask _ _).trans ih.ready⟩
  | reset _ ih =>
      rw [reorderReset, reorderInit]
      split
      · exact ih
      · rw [ih.size]
        exact Masked.zeroed positive small

/-- The offsets of a window of `n` fall on different slots, and `n` advances visit every slot
    once, for every head of either ring, just when `n` is a power of two. -/
theorem ring_covers_iff (n : Nat) (positive : 0 < n) (small : n < 2 ^ 32) (b : ReorderBuffer α)
    (used : Used n b) :
    (Covers b.orderBuf.mask n b.orderBuf.head ∧ Covers b.readyBuf.mask n b.readyBuf.head) ↔
      n.isPowerOfTwo := by
  have masked := used.masked positive small
  obtain ⟨mask, rfl⟩ : ∃ mask, n = mask + 1 := ⟨n - 1, by omega⟩
  rw [masked.order, masked.ready, Nat.add_sub_cancel, covers_iff, covers_iff, and_self]

/-- After packet 10, packet 15 moves the window by two slots, and packet 10 to the ready ring. -/
def overtaken : ReorderBuffer Nat := (reorderInsert (reorderInsert (reorderCreate 4) 1 10).2 2 15).2

theorem ring_covers_four :
    overtaken.orderBuf.head = 2 ∧ overtaken.readyBuf.head = 1 ∧
      Covers overtaken.orderBuf.mask 4 overtaken.orderBuf.head ∧
      Covers overtaken.readyBuf.mask 4 overtaken.readyBuf.head :=
  ⟨by decide +kernel, by decide +kernel, (ring_covers_iff 4 (by decide) (by decide) overtaken
    (.insert 2 15 (.insert 1 10 .create))).mpr ⟨2, rfl⟩⟩

/-- A ring for three packets: offsets 0 and 1 share slot 0, and three advances stay there. -/
theorem ring_of_three_aliases :
    let ring := (reorderCreate 3 : ReorderBuffer Nat).orderBuf
    (ring.head + 0) &&& ring.mask = (ring.head + 1) &&& ring.mask ∧
      ∀ k < 3, (next ring.mask)^[k + 1] ring.head = 0 := by
  decide

end Mlvpn.Reorder
