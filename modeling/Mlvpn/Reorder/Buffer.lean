import Mlvpn.Library.MaskedRing
import Mathlib.Data.Finset.Card

/-! # The reorder buffer

`reorder.c`: two circular buffers of packet pointers.  `orderBuf` is indexed by
the distance of a sequence number from `minSeqn`; `readyBuf` keeps the packets
that an overflow pushed out of the window until the next drain.  Both lie
behind the structure in one allocation, whose size is an `unsigned int`
(`Allocated`).

The buffer never looks inside a packet except for its sequence number, so the
pointer type is a parameter and an insertion is given the `seq` field it reads.
Slots are a function of the index: an access beyond `size` would be a plain
read here, and `Mlvpn.Reorder.Rings.indices_lt` excludes it.
-/

namespace Mlvpn.Reorder

open Library.MaskedRing

/-- `struct cir_buffer`; `none` is the null pointer. -/
structure CirBuffer (α : Type*) where
  size : Nat
  mask : Nat
  head : Nat
  tail : Nat
  pkts : Nat → Option α

/-- `struct mlvpn_reorder_buffer`. -/
structure ReorderBuffer (α : Type*) where
  minSeqn : UInt64
  memsize : Nat
  readyBuf : CirBuffer α
  orderBuf : CirBuffer α
  isInitialized : Bool

variable {α : Type*}

/-- A zeroed ring.  The mask is an unsigned difference. -/
def CirBuffer.zeroed (size : Nat) : CirBuffer α :=
  { size := size, mask := (size + 2 ^ 32 - 1) % 2 ^ 32, head := 0, tail := 0, pkts := fun _ => none }

@[simp] theorem CirBuffer.zeroed_size (size : Nat) :
    (CirBuffer.zeroed size : CirBuffer α).size = size := rfl

/-- Bytes for the structure (72 on LP64) and two rings of 8-byte pointers, in
    the `unsigned int` of the source. -/
def reorderBufsize (size : Nat) : Nat := (72 + 2 * size % 2 ^ 32 * 8) % 2 ^ 32

def reorderInit (b : ReorderBuffer α) (bufsize size : Nat) : ReorderBuffer α :=
  if bufsize < reorderBufsize size then b
  else
    { minSeqn := 0
      memsize := bufsize
      readyBuf := .zeroed size
      orderBuf := .zeroed size
      isInitialized := false }

/-- `mlvpn_reorder_create`, on memory cleared by `calloc`. -/
def reorderCreate (size : Nat) : ReorderBuffer α :=
  reorderInit
    { minSeqn := 0, memsize := 0, isInitialized := false
      readyBuf := { size := 0, mask := 0, head := 0, tail := 0, pkts := fun _ => none }
      orderBuf := { size := 0, mask := 0, head := 0, tail := 0, pkts := fun _ => none } }
    (reorderBufsize size) size

def reorderReset (b : ReorderBuffer α) : ReorderBuffer α :=
  reorderInit b b.memsize b.orderBuf.size

/-- The order ring, which comes last, ends inside the allocation. -/
def ReorderBuffer.Allocated (b : ReorderBuffer α) : Prop :=
  72 + 2 * b.orderBuf.size * 8 ≤ b.memsize

instance (b : ReorderBuffer α) : Decidable b.Allocated := inferInstanceAs (Decidable (_ ≤ _))

theorem le_reorderBufsize_iff {size : Nat} (small : size < 2 ^ 32) :
    72 + 2 * size * 8 ≤ reorderBufsize size ↔ 72 + 2 * size * 8 < 2 ^ 32 := by
  rw [reorderBufsize]
  omega

/-- A size too large for the `unsigned int` leaves every slot of the order ring,
    which starts `8 * size` bytes after the structure, outside the allocation. -/
theorem order_slot_outside {b : ReorderBuffer α} (small : b.orderBuf.size < 2 ^ 32)
    (memsize : b.memsize = reorderBufsize b.orderBuf.size) (cut : ¬ b.Allocated) (i : Nat) :
    b.memsize < 72 + 8 * (b.orderBuf.size + i) + 8 := by
  rw [ReorderBuffer.Allocated, memsize, le_reorderBufsize_iff small] at cut
  rw [memsize, reorderBufsize]
  omega

/-- Advance the head over one slot. -/
def CirBuffer.advance (c : CirBuffer α) : CirBuffer α := { c with head := next c.mask c.head }

def CirBuffer.write (c : CirBuffer α) (i : Nat) (p : Option α) : CirBuffer α :=
  { c with pkts := Function.update c.pkts i p }

theorem CirBuffer.write_none_iff {c : CirBuffer α} {i j : Nat} {p : α} :
    (c.write i none).pkts j = some p ↔ j ≠ i ∧ c.pkts j = some p := by
  by_cases same : j = i
  · simp [write, same]
  · simp [write, same]

theorem CirBuffer.write_some_iff {c : CirBuffer α} {i j : Nat} {p q : α} :
    (c.write i (some p)).pkts j = some q ↔ (j = i ∧ q = p) ∨ (j ≠ i ∧ c.pkts j = some q) := by
  by_cases same : j = i
  · simp [write, same, eq_comm]
  · simp [write, same]

/-- The ring has no slot left: its head is one short of its tail. -/
def CirBuffer.full (c : CirBuffer α) : Prop := next c.mask c.head = c.tail

instance (c : CirBuffer α) : Decidable c.full := inferInstanceAs (Decidable (_ = _))

/-- The two rings while an overflow moves packets between them, with
    `order_head_adv`. -/
structure Moving (α : Type*) where
  orderBuf : CirBuffer α
  readyBuf : CirBuffer α
  adv : Nat

/-- The inner loop of `mlvpn_reorder_fill_overflow`.  Each turn empties a slot
    of the order ring, so `size` turns are enough (`moveReady_turns`). -/
def moveReady : Nat → Moving α → Moving α
  | 0, s => s
  | fuel + 1, s =>
      match s.orderBuf.pkts s.orderBuf.head with
      | none => s
      | some p =>
          let readyBuf := s.readyBuf.write s.readyBuf.head (some p)
          let orderBuf := (s.orderBuf.write s.orderBuf.head none).advance
          -- the packet just written is dropped here: the head stays below it
          if readyBuf.full then { orderBuf := orderBuf, readyBuf := readyBuf, adv := s.adv + 1 }
          else
            moveReady fuel
              { orderBuf := orderBuf, readyBuf := readyBuf.advance, adv := s.adv + 1 }

/-- If the order ring is blocked on a missing packet, skip it. -/
def skipGap (s : Moving α) : Moving α :=
  if s.orderBuf.pkts s.orderBuf.head = none then
    { s with orderBuf := s.orderBuf.advance, adv := s.adv + 1 }
  else s

/-- The outer loop of `mlvpn_reorder_fill_overflow`.  Each turn advances, so
    `n` turns are enough (`fillLoop_enough`). -/
def fillLoop (n : Nat) : Nat → Moving α → Moving α
  | 0, s => s
  | fuel + 1, s =>
      if s.adv < n ∧ ¬ s.readyBuf.full then
        fillLoop n fuel (moveReady s.orderBuf.size (skipGap s))
      else s

/-- `mlvpn_reorder_fill_overflow`: the positions moved, and the buffer after it. -/
def reorderFillOverflow (b : ReorderBuffer α) (n : Nat) : Nat × ReorderBuffer α :=
  let s := fillLoop n n { orderBuf := b.orderBuf, readyBuf := b.readyBuf, adv := 0 }
  (s.adv,
    { b with
      orderBuf := s.orderBuf
      readyBuf := s.readyBuf
      minSeqn := b.minSeqn + UInt64.ofNat s.adv })

/-- Write a packet `offset` slots after the head of the order ring. -/
def storeAt (b : ReorderBuffer α) (offset : Nat) (pkt : α) : ReorderBuffer α :=
  { b with orderBuf := b.orderBuf.write ((b.orderBuf.head + offset) &&& b.orderBuf.mask) (some pkt) }

/-- The first packet fixes the lowest sequence number of the window. -/
def reorderBegin (b : ReorderBuffer α) (seq : UInt64) : ReorderBuffer α :=
  if b.isInitialized then b else { b with minSeqn := seq, isInitialized := true }

/-- `mlvpn_reorder_insert`.  `2 * size` is an `unsigned int` product. -/
def reorderInsert (b : ReorderBuffer α) (pkt : α) (seq : UInt64) : Int × ReorderBuffer α :=
  let b := reorderBegin b seq
  let offset := (seq - b.minSeqn).toNat
  if offset < b.orderBuf.size then
    (0, storeAt b offset pkt)
  else if offset < 2 * b.orderBuf.size % 2 ^ 32 then
    let needed := offset + 1 - b.orderBuf.size
    let filled := reorderFillOverflow b needed
    if filled.1 < needed then (-1, filled.2)
    else (0, storeAt filled.2 (seq - filled.2.minSeqn).toNat pkt)
  else (-2, b)

/-- The first loop of `mlvpn_reorder_drain`, with the packets still wanted. -/
def drainReady : Nat → CirBuffer α → List (Option α) × CirBuffer α
  | 0, ready => ([], ready)
  | wanted + 1, ready =>
      if ready.tail = ready.head then ([], ready)
      else
        let rest := drainReady wanted { ready with tail := next ready.mask ready.tail }
        (ready.pkts ready.tail :: rest.1, rest.2)

/-- The second loop of `mlvpn_reorder_drain`, with the packets still wanted. -/
def drainOrder : Nat → ReorderBuffer α → List (Option α) × ReorderBuffer α
  | 0, b => ([], b)
  | wanted + 1, b =>
      match b.orderBuf.pkts b.orderBuf.head with
      | none => ([], b)
      | some p =>
          let rest := drainOrder wanted
            { b with
              orderBuf := (b.orderBuf.write b.orderBuf.head none).advance
              minSeqn := b.minSeqn + 1 }
          (some p :: rest.1, rest.2)

/-- `mlvpn_reorder_drain`: at most `maxPkts` pointers, and the buffer after it. -/
def reorderDrain (b : ReorderBuffer α) (maxPkts : Nat) : List (Option α) × ReorderBuffer α :=
  let fromReady := drainReady maxPkts b.readyBuf
  let fromOrder := drainOrder (maxPkts - fromReady.1.length) { b with readyBuf := fromReady.2 }
  (fromReady.1 ++ fromOrder.1, fromOrder.2)

/-- The ready ring is drained oldest first, and only its tail moves. -/
theorem drainReady_spec {e : Nat} (wanted : Nat) {c : CirBuffer α} {items : List α}
    (period : IsPeriod c.mask e) (h : Holds e c.pkts c.tail c.head items) :
    (drainReady wanted c).1 = (items.take wanted).map some ∧
      ∃ tail, (drainReady wanted c).2 = { c with tail := tail } ∧
        Holds e c.pkts tail c.head (items.drop wanted) := by
  induction wanted generalizing c items with
  | zero => exact ⟨rfl, c.tail, rfl, h⟩
  | succ wanted ih =>
      cases items with
      | nil =>
          have stopped : c.tail = c.head := h.eq_iff_nil.mpr rfl
          rw [drainReady, if_pos stopped]
          exact ⟨rfl, c.tail, rfl, h⟩
      | cons p items =>
          have going : ¬ c.tail = c.head := fun same => by
            have := h.eq_iff_nil.mp same
            cases this
          obtain ⟨oldest, rest⟩ := h.pop period
          obtain ⟨output, tail, same, remaining⟩ := ih (c := { c with tail := next c.mask c.tail })
            period rest
          simp only [drainReady, going, if_false, oldest, output, same]
          exact ⟨rfl, tail, rfl, remaining⟩

/-- The number of packets in a ring, which bounds the turns of the inner loop. -/
def occupied (c : CirBuffer α) : Nat :=
  ((Finset.range c.size).filter fun i => (c.pkts i).isSome).card

theorem occupied_le (c : CirBuffer α) : occupied c ≤ c.size := by
  have bound := Finset.card_filter_le (Finset.range c.size) fun i => (c.pkts i).isSome
  rwa [Finset.card_range] at bound

theorem occupied_write_none {c : CirBuffer α} {i : Nat} {p : α} (inside : i < c.size)
    (found : c.pkts i = some p) : occupied (c.write i none) + 1 = occupied c := by
  have member : i ∈ (Finset.range c.size).filter fun i => (c.pkts i).isSome := by
    simp [inside, found]
  have erased : ((Finset.range c.size).filter fun j => ((c.write i none).pkts j).isSome) =
      ((Finset.range c.size).filter fun j => (c.pkts j).isSome).erase i := by
    ext j
    rw [Finset.mem_erase, Finset.mem_filter, Finset.mem_filter]
    by_cases same : j = i
    · simp [CirBuffer.write, same]
    · simp [CirBuffer.write, same]
  have card := Finset.card_erase_add_one member
  rwa [← erased] at card

/-- More turns than occupied slots change nothing: the inner loop has stopped. -/
theorem moveReady_enough {fuel : Nat} {s : Moving α} (masked : s.orderBuf.mask < s.orderBuf.size)
    (headLt : s.orderBuf.head < s.orderBuf.size) (enough : occupied s.orderBuf ≤ fuel) :
    moveReady (fuel + 1) s = moveReady fuel s := by
  induction fuel generalizing s with
  | zero =>
      have empty : s.orderBuf.pkts s.orderBuf.head = none := by
        cases found : s.orderBuf.pkts s.orderBuf.head with
        | none => rfl
        | some p =>
            have counted := occupied_write_none headLt found
            omega
      simp only [moveReady, empty]
  | succ fuel ih =>
      cases found : s.orderBuf.pkts s.orderBuf.head with
      | none => simp only [moveReady, found]
      | some p =>
          have counted := occupied_write_none headLt found
          let s' : Moving α :=
            { orderBuf := (s.orderBuf.write s.orderBuf.head none).advance
              readyBuf := (s.readyBuf.write s.readyBuf.head (some p)).advance
              adv := s.adv + 1 }
          have nextLt : s'.orderBuf.head < s'.orderBuf.size := by
            have := next_le s.orderBuf.mask s.orderBuf.head
            simp only [s', CirBuffer.advance, CirBuffer.write]
            omega
          have stopped : moveReady (fuel + 1) s' = moveReady fuel s' := by
            refine ih masked nextLt ?_
            change occupied (s.orderBuf.write s.orderBuf.head none) ≤ fuel
            omega
          rw [moveReady, moveReady]
          simp only [found]
          split
          · rfl
          · exact stopped

/-- The turns that `fillLoop` allows the inner loop are enough. -/
theorem moveReady_turns {s : Moving α} (masked : s.orderBuf.mask < s.orderBuf.size)
    (headLt : s.orderBuf.head < s.orderBuf.size) (extra : Nat) :
    moveReady (s.orderBuf.size + extra) s = moveReady s.orderBuf.size s := by
  induction extra with
  | zero => rfl
  | succ extra ih =>
      have enough : occupied s.orderBuf ≤ s.orderBuf.size + extra :=
        (occupied_le _).trans (Nat.le_add_right ..)
      exact (moveReady_enough masked headLt enough).trans ih

theorem le_moveReady (fuel : Nat) (s : Moving α) : s.adv ≤ (moveReady fuel s).adv := by
  induction fuel generalizing s with
  | zero => exact le_refl _
  | succ fuel ih =>
      simp only [moveReady]
      split
      · exact le_refl _
      · split
        · exact Nat.le_succ _
        · refine le_trans (Nat.le_succ _) (le_trans ?_ (ih _))
          exact le_refl _

/-- A turn of the outer loop moves the window. -/
theorem lt_turn {s : Moving α} (positive : 0 < s.orderBuf.size) :
    s.adv < (moveReady s.orderBuf.size (skipGap s)).adv := by
  by_cases blocked : s.orderBuf.pkts s.orderBuf.head = none
  · have skipped : (skipGap s).adv = s.adv + 1 := by simp only [skipGap, blocked, if_true]
    have later := le_moveReady s.orderBuf.size (skipGap s)
    omega
  · obtain ⟨p, found⟩ := Option.ne_none_iff_exists'.mp blocked
    obtain ⟨fuel, size⟩ := Nat.exists_eq_succ_of_ne_zero (Nat.pos_iff_ne_zero.mp positive)
    rw [skipGap, if_neg blocked, size, Nat.succ_eq_add_one, moveReady]
    simp only [found]
    split
    · exact Nat.lt_succ_self _
    · refine lt_of_lt_of_le ?_ (le_moveReady fuel _)
      exact Nat.lt_succ_self _

/-- The sizes of the two rings, which the loops keep. -/
def Moving.sizes (s : Moving α) : Nat × Nat := (s.orderBuf.size, s.readyBuf.size)

theorem moveReady_sizes (fuel : Nat) (s : Moving α) : (moveReady fuel s).sizes = s.sizes := by
  induction fuel generalizing s with
  | zero => rfl
  | succ fuel ih =>
      simp only [moveReady]
      split
      · rfl
      · split
        · rfl
        · exact ih _

theorem skipGap_sizes (s : Moving α) : (skipGap s).sizes = s.sizes := by
  rw [skipGap]
  split <;> rfl

/-- More than `n` turns change nothing: the outer loop has stopped. -/
theorem fillLoop_enough {n fuel : Nat} {s : Moving α} (positive : 0 < s.orderBuf.size)
    (enough : n ≤ s.adv + fuel) : fillLoop n (fuel + 1) s = fillLoop n fuel s := by
  induction fuel generalizing s with
  | zero =>
      have done : ¬ (s.adv < n ∧ ¬ s.readyBuf.full) := by omega
      simp only [fillLoop, done, if_false]
  | succ fuel ih =>
      have onward := lt_turn positive
      have same : (moveReady s.orderBuf.size (skipGap s)).orderBuf.size = s.orderBuf.size :=
        congrArg Prod.fst ((moveReady_sizes _ _).trans (skipGap_sizes s))
      have kept : 0 < (moveReady s.orderBuf.size (skipGap s)).orderBuf.size := by rwa [same]
      have rest := ih kept (by omega)
      rw [fillLoop, rest, ← fillLoop]

/-- An insertion is refused exactly when the number is a whole window beyond the
    window, or behind it. -/
theorem reorderInsert_late_iff {b : ReorderBuffer α} {pkt : α} {seq : UInt64}
    (positive : 0 < b.orderBuf.size) :
    (reorderInsert b pkt seq).1 = -2 ↔
      b.isInitialized = true ∧ b.orderBuf.size ≤ (seq - b.minSeqn).toNat ∧
        2 * b.orderBuf.size % 2 ^ 32 ≤ (seq - b.minSeqn).toNat := by
  cases initialized : b.isInitialized with
  | false =>
      have first : (seq - seq).toNat < b.orderBuf.size := by
        rwa [UInt64.sub_self]
      simp only [reorderInsert, reorderBegin, initialized, Bool.false_eq_true, if_false, first,
        if_true, false_and, iff_false]
      decide
  | true =>
      simp only [reorderInsert, reorderBegin, initialized, if_true, true_and]
      split
      · constructor
        · intro refused
          simp at refused
        · omega
      · split
        · constructor
          · intro refused
            split at refused <;> simp at refused
          · omega
        · exact ⟨fun _ => ⟨by omega, by omega⟩, fun _ => rfl⟩

theorem fillLoop_sizes (n fuel : Nat) (s : Moving α) : (fillLoop n fuel s).sizes = s.sizes := by
  induction fuel generalizing s with
  | zero => rfl
  | succ fuel ih =>
      rw [fillLoop]
      split
      · rw [ih, moveReady_sizes, skipGap_sizes]
      · rfl

/-- The two buffers are the same allocation, read in the same way. -/
structure SameLayout (b b' : ReorderBuffer α) : Prop where
  memsize : b'.memsize = b.memsize
  size : b'.orderBuf.size = b.orderBuf.size

theorem SameLayout.allocated {b b' : ReorderBuffer α} (same : SameLayout b b')
    (allocated : b.Allocated) : b'.Allocated := by
  rw [ReorderBuffer.Allocated, same.memsize, same.size]
  exact allocated

theorem reorderInsert_layout (b : ReorderBuffer α) (pkt : α) (seq : UInt64) :
    SameLayout b (reorderInsert b pkt seq).2 := by
  have begun : SameLayout b (reorderBegin b seq) := by
    rw [reorderBegin]
    split <;> exact ⟨rfl, rfl⟩
  simp only [reorderInsert]
  split
  · exact ⟨begun.memsize, begun.size⟩
  · split
    · have filled : SameLayout b (reorderFillOverflow (reorderBegin b seq)
          ((seq - (reorderBegin b seq).minSeqn).toNat + 1 - (reorderBegin b seq).orderBuf.size)).2 :=
        ⟨begun.memsize, (congrArg Prod.fst (fillLoop_sizes _ _ _)).trans begun.size⟩
      split <;> exact ⟨filled.memsize, filled.size⟩
    · exact begun

theorem drainOrder_layout (wanted : Nat) (b : ReorderBuffer α) :
    SameLayout b (drainOrder wanted b).2 := by
  induction wanted generalizing b with
  | zero => exact ⟨rfl, rfl⟩
  | succ wanted ih =>
      simp only [drainOrder]
      split
      · exact ⟨rfl, rfl⟩
      · exact ⟨(ih _).memsize, (ih _).size⟩

theorem reorderDrain_layout (b : ReorderBuffer α) (maxPkts : Nat) :
    SameLayout b (reorderDrain b maxPkts).2 := by
  have drained := drainOrder_layout (maxPkts - (drainReady maxPkts b.readyBuf).1.length)
    { b with readyBuf := (drainReady maxPkts b.readyBuf).2 }
  exact ⟨drained.memsize, drained.size⟩

/-- Both rings have `n` slots. -/
def ReorderBuffer.Rings (b : ReorderBuffer α) (n : Nat) : Prop := b.orderBuf.size = n ∧ b.readyBuf.size = n

theorem drainReady_size (wanted : Nat) (ready : CirBuffer α) : (drainReady wanted ready).2.size = ready.size := by
  induction wanted generalizing ready with
  | zero => rfl
  | succ wanted ih =>
      simp only [drainReady]
      split
      · rfl
      · exact ih _

theorem drainOrder_readyBuf (wanted : Nat) (b : ReorderBuffer α) : (drainOrder wanted b).2.readyBuf = b.readyBuf := by
  induction wanted generalizing b with
  | zero => rfl
  | succ wanted ih =>
      simp only [drainOrder]
      split
      · rfl
      · exact ih _

namespace ReorderBuffer.Rings

variable {b : ReorderBuffer α} {n : Nat}

theorem create (n : Nat) : (reorderCreate n : ReorderBuffer α).Rings n := by
  unfold reorderCreate reorderInit
  rw [if_neg (Nat.lt_irrefl _)]
  simp [Rings]

theorem reset (rings : b.Rings n) : (reorderReset b).Rings n := by
  unfold reorderReset reorderInit
  split
  · exact rings
  · simp [Rings, rings.1]

theorem insert (rings : b.Rings n) (pkt : α) (seq : UInt64) : (reorderInsert b pkt seq).2.Rings n := by
  refine ⟨(reorderInsert_layout b pkt seq).size.trans rings.1, ?_⟩
  have begun : (reorderBegin b seq).readyBuf.size = n := by
    rw [reorderBegin]
    split <;> exact rings.2
  simp only [reorderInsert]
  split
  · exact begun
  · split
    · split <;> exact (congrArg Prod.snd (fillLoop_sizes _ _ _)).trans begun
    · exact begun

theorem drain (rings : b.Rings n) (maxPkts : Nat) : (reorderDrain b maxPkts).2.Rings n := by
  refine ⟨(reorderDrain_layout b maxPkts).size.trans rings.1, ?_⟩
  simp only [reorderDrain, drainOrder_readyBuf, drainReady_size]
  exact rings.2

end ReorderBuffer.Rings

end Mlvpn.Reorder
