import Mlvpn.Reorder.Ledger
import Mlvpn.Library.Machine

/-! # Insertions and drains in any order

A session is a buffer with the results its callers have seen.  Every call keeps
a ledger of the session (`Tracked`), and from the ledger the window and the
drained packets are in order, whatever the insertions returned.
-/

namespace Mlvpn.Reorder

open Library.MaskedRing Library.Machine

variable {α : Type*} {n : Nat}

/-- A call on the buffer. -/
inductive Call (α : Type*) where
  | insert (pkt : α)
  | drain (maxPkts : Nat)

/-- The buffer with what its callers have seen: the results of the insertions
    and the drained pointers, oldest first, and how far the window has moved. -/
structure Session (α : Type*) where
  buffer : ReorderBuffer α
  inserted : List (α × Int)
  drained : List (Option α)
  advance : Nat

namespace Session

def start (n : Nat) : Session α :=
  { buffer := reorderCreate n, inserted := [], drained := [], advance := 0 }

/-- The number of the first packet inserted. -/
def origin (seq : α → UInt64) (s : Session α) : UInt64 :=
  (s.inserted.head?.map fun entry => seq entry.1).getD 0

/-- One call.  It is undefined (`none`) if it touches an order ring that is not
    inside the allocation: `order_slot_outside`. -/
def call (seq : α → UInt64) (s : Session α) : Call α → Option (Session α)
  | .insert pkt =>
      if s.buffer.Allocated then
        let inserted := reorderInsert s.buffer pkt (seq pkt)
        let before := (reorderBegin s.buffer (seq pkt)).minSeqn
        some
          { s with
            buffer := inserted.2
            inserted := s.inserted ++ [(pkt, inserted.1)]
            advance := s.advance + (inserted.2.minSeqn - before).toNat }
      else none
  | .drain maxPkts =>
      if maxPkts = 0 ∨ s.buffer.Allocated then
        let drained := reorderDrain s.buffer maxPkts
        some
          { s with
            buffer := drained.2
            drained := s.drained ++ drained.1
            advance := s.advance + (drained.2.minSeqn - s.buffer.minSeqn).toNat }
      else none

end Session

/-- A session whose buffer has seen a packet, read as a span with its ledger. -/
structure Tracks (seq : α → UInt64) (n : Nat) (s : Session α) (ledger : Nat → Option α)
    (first : Nat) (out : List α) (a : Span α) : Prop where
  initialized : s.buffer.isInitialized = true
  holds : BufferHolds n s.buffer a
  recorded : Recorded ledger first out a
  drained : s.drained = out.map some
  numbered : ∀ x p, ledger x = some p → seq p = UInt64.ofNat x
  below : ∀ x, x < first → ledger x = none
  advance : a.next = first + s.advance

/-- A session whose buffer has seen no packet. -/
structure Untouched (n : Nat) (s : Session α) : Prop where
  blank : Represents n s.buffer none
  inserted : s.inserted = []
  drained : s.drained = []
  advance : s.advance = 0

/-- The session with the ledger of its packets. -/
def Tracked (seq : α → UInt64) (n : Nat) (s : Session α) (ledger : Nat → Option α) : Prop :=
  (Untouched n s ∧ ledger = fun _ => none) ∨
    (s.inserted ≠ [] ∧ ∃ out a, Tracks seq n s ledger (s.origin seq).toNat out a)

theorem start_untouched (power : n.isPowerOfTwo) (small : n ≤ 2 ^ 31) :
    Untouched n (Session.start n : Session α) :=
  ⟨reorderCreate_represents power small, rfl, rfl, rfl⟩

theorem advance_distance {m m' : Nat} (low : m ≤ m') (near : m' < m + 2 ^ 64) :
    (UInt64.ofNat m' - UInt64.ofNat m).toNat = m' - m := by
  rw [UInt64.toNat_sub, UInt64.toNat_ofNat', UInt64.toNat_ofNat']
  omega

/-- The first packet makes an untouched buffer a span that starts at its number. -/
theorem Untouched.begin_tracks {s : Session α} (h : Untouched n s) (seq : α → UInt64) (pkt : α) :
    Tracks seq n { s with buffer := reorderBegin s.buffer (seq pkt) } (fun _ => none)
      (seq pkt).toNat [] { next := (seq pkt).toNat, held := fun _ => none, ready := [] } := by
  obtain ⟨fresh, order, ready⟩ := h.blank
  have begun : reorderBegin s.buffer (seq pkt) =
      { s.buffer with minSeqn := seq pkt, isInitialized := true } := by
    simp only [reorderBegin, fresh, Bool.false_eq_true, if_false]
  rw [begun]
  refine ⟨rfl, ⟨order _, ready, UInt64.ofNat_toNat.symm⟩,
    ⟨le_refl _, (between_self _ _).symm, fun _ _ => rfl⟩, h.drained, ?_, fun _ _ => rfl, ?_⟩
  · intro x p found
    cases found
  · simp only [h.advance, Nat.add_zero]

theorem Tracks.insert {seq : α → UInt64} {s : Session α} {ledger : Nat → Option α} {first : Nat}
    {out : List α} {a : Span α} (power : n.isPowerOfTwo) (small : n ≤ 2 ^ 31)
    (h : Tracks seq n s ledger first out a) (pkt : α) (inserted : List (α × Int)) :
    let result := reorderInsert s.buffer pkt (seq pkt)
    ∃ ledger' x a', Kept (s.buffer.Overflows (seq pkt)) ledger ledger' ∧
      UInt64.ofNat x = seq pkt ∧
      Tracks seq n
        { buffer := result.2, inserted := inserted, drained := s.drained
          advance := s.advance + (result.2.minSeqn - s.buffer.minSeqn).toNat }
        (entered result.1 ledger' x pkt) first out a' := by
  intro result
  obtain ⟨ledger', a', kept, initialized, holds, recorded, low, high⟩ :=
    insert_recorded power h.initialized h.holds h.recorded pkt (seq pkt)
  have number := ofNat_numberOf a.next (seq pkt)
  refine ⟨ledger', _, a', kept, number, initialized, holds, recorded, h.drained, ?_, ?_, ?_⟩
  · intro x p found
    by_cases here : result.1 = 0 ∧ x = numberOf a.next (seq pkt)
    · rw [entered, if_pos here.1, here.2, Function.update_self, Option.some.injEq] at found
      rw [here.2, number, found]
    · apply h.numbered x p
      apply kept.sub
      rw [← found, entered]
      split
      · next zero => exact (Function.update_of_ne (fun same => here ⟨zero, same⟩) _ _).symm
      · rfl
  · intro x under
    have started := h.recorded.low
    have above : x ≠ numberOf a.next (seq pkt) := by
      rw [numberOf]
      omega
    have absent : ledger' x = none := by
      cases entry : ledger' x with
      | none => rfl
      | some p =>
          have found := kept.sub entry
          rw [h.below x under] at found
          cases found
    rw [entered]
    split
    · rw [Function.update_of_ne above, absent]
    · exact absent
  · have moved : (result.2.minSeqn - s.buffer.minSeqn).toNat = a'.next - a.next := by
      rw [holds.seqn, h.holds.seqn]
      exact advance_distance low (by omega)
    have before := h.advance
    simp only [moved]
    omega

theorem Tracks.drain {seq : α → UInt64} {s : Session α} {ledger : Nat → Option α} {first : Nat}
    {out : List α} {a : Span α} (power : n.isPowerOfTwo) (small : n ≤ 2 ^ 31)
    (h : Tracks seq n s ledger first out a) (maxPkts : Nat) :
    let result := reorderDrain s.buffer maxPkts
    ∃ out' a', Tracks seq n
      { buffer := result.2, inserted := s.inserted, drained := s.drained ++ result.1
        advance := s.advance + (result.2.minSeqn - s.buffer.minSeqn).toNat }
      ledger first out' a' := by
  intro result
  obtain ⟨items, a', output, initialized, holds, recorded, low, high⟩ :=
    drain_recorded power h.holds h.recorded maxPkts
  refine ⟨_, a', initialized.trans h.initialized, holds, recorded, ?_, h.numbered, h.below, ?_⟩
  · rw [h.drained, List.map_append, output]
  · have moved : (result.2.minSeqn - s.buffer.minSeqn).toNat = a'.next - a.next := by
      rw [holds.seqn, h.holds.seqn]
      exact advance_distance low (by omega)
    have before := h.advance
    simp only [moved]
    omega

theorem Session.origin_concat {seq : α → UInt64} {s s' : Session α} {entry : α × Int}
    (inserted : s'.inserted = s.inserted ++ [entry]) :
    s'.origin seq = if s.inserted = [] then seq entry.1 else s.origin seq := by
  cases before : s.inserted with
  | nil => simp only [origin, inserted, before, List.nil_append, List.head?_cons, Option.map_some,
      Option.getD_some, if_true]
  | cons oldest rest => simp only [origin, inserted, before, List.cons_append, List.head?_cons,
      reduceCtorEq, if_false]

/-- What an insertion does to the ledger. -/
theorem Tracked.insert {seq : α → UInt64} {s s' : Session α} {ledger : Nat → Option α}
    {pkt : α} (power : n.isPowerOfTwo) (small : n ≤ 2 ^ 31) (h : Tracked seq n s ledger)
    (called : s.call seq (.insert pkt) = some s') :
    ∃ ledger' x, Kept (s.buffer.Overflows (seq pkt)) ledger ledger' ∧
      UInt64.ofNat x = seq pkt ∧
      Tracked seq n s' (entered (reorderInsert s.buffer pkt (seq pkt)).1 ledger' x pkt) := by
  simp only [Session.call, Option.ite_none_right_eq_some, Option.some.injEq] at called
  obtain ⟨_, rfl⟩ := called
  rcases h with ⟨untouched, rfl⟩ | ⟨touched, out, a, tracks⟩
  · have begun := untouched.begin_tracks seq pkt
    obtain ⟨ledger', x, a', kept, number, tracks⟩ := begun.insert power small pkt
      (s.inserted ++ [(pkt, (reorderInsert s.buffer pkt (seq pkt)).1)])
    have same := reorderInsert_begin s.buffer pkt (seq pkt)
    -- the first packet is inside the window, whatever its number
    have calm : s.buffer.Overflows (seq pkt) ↔
        (reorderBegin s.buffer (seq pkt)).Overflows (seq pkt) := by
      obtain ⟨fresh, order, _⟩ := untouched.blank
      have positive := Nat.zero_lt_of_lt (order 0).headLt
      simp only [ReorderBuffer.Overflows, reorderBegin, fresh, Bool.false_eq_true, if_false, false_and,
        UInt64.sub_self, (order 0).size, UInt64.toNat_zero, not_le.mpr positive, and_false]
    rw [← propext calm] at kept
    simp only [← same] at tracks
    refine ⟨ledger', x, kept, number, .inr ⟨by simp, [], a', ?_⟩⟩
    rw [Session.origin_concat rfl, if_pos untouched.inserted]
    exact tracks
  · have begun : reorderBegin s.buffer (seq pkt) = s.buffer := by
      simp only [reorderBegin, tracks.initialized, if_true]
    obtain ⟨ledger', x, a', kept, number, tracks'⟩ := tracks.insert power small pkt
      (s.inserted ++ [(pkt, (reorderInsert s.buffer pkt (seq pkt)).1)])
    refine ⟨ledger', x, kept, number, .inr ⟨by simp, out, a', ?_⟩⟩
    rw [Session.origin_concat rfl, if_neg touched, begun]
    exact tracks'

/-- A drain leaves the ledger alone. -/
theorem Tracked.drain {seq : α → UInt64} {s s' : Session α} {ledger : Nat → Option α}
    {maxPkts : Nat} (power : n.isPowerOfTwo) (small : n ≤ 2 ^ 31) (h : Tracked seq n s ledger)
    (called : s.call seq (.drain maxPkts) = some s') : Tracked seq n s' ledger := by
  simp only [Session.call, Option.ite_none_right_eq_some, Option.some.injEq] at called
  obtain ⟨_, rfl⟩ := called
  rcases h with ⟨untouched, rfl⟩ | ⟨touched, out, a, tracks⟩
  · have idle := untouched.blank.drain_untouched maxPkts
    refine .inl ⟨⟨?_, untouched.inserted, ?_, ?_⟩, rfl⟩
    · rw [idle]
      exact untouched.blank
    · rw [idle, untouched.drained]
      rfl
    · simp only [idle, UInt64.sub_self, untouched.advance]
      rfl
  · obtain ⟨out', a', tracks'⟩ := tracks.drain power small maxPkts
    exact .inr ⟨touched, out', a', tracks'⟩

theorem call_layout {seq : α → UInt64} {s s' : Session α} {c : Call α}
    (called : s.call seq c = some s') : SameLayout s.buffer s'.buffer := by
  cases c with
  | insert pkt =>
      simp only [Session.call, Option.ite_none_right_eq_some, Option.some.injEq] at called
      obtain ⟨_, rfl⟩ := called
      exact reorderInsert_layout _ _ _
  | drain maxPkts =>
      simp only [Session.call, Option.ite_none_right_eq_some, Option.some.injEq] at called
      obtain ⟨_, rfl⟩ := called
      exact reorderDrain_layout _ _

/-- Every call keeps some ledger of the session. -/
theorem Tracked.step {seq : α → UInt64} {s s' : Session α} {c : Call α}
    (power : n.isPowerOfTwo) (small : n ≤ 2 ^ 31) (h : ∃ ledger, Tracked seq n s ledger)
    (called : s.call seq c = some s') : ∃ ledger, Tracked seq n s' ledger := by
  obtain ⟨ledger, tracked⟩ := h
  cases c with
  | insert pkt =>
      obtain ⟨_, _, _, _, tracked'⟩ := tracked.insert power small called
      exact ⟨_, tracked'⟩
  | drain maxPkts => exact ⟨ledger, tracked.drain power small called⟩

/-- The order ring holds at `i` slots from its head only the packet numbered
    `min_seqn + i`, and the drained packets ascend from the first number seen. -/
def Session.Ordered (seq : α → UInt64) (s : Session α) : Prop :=
  (∀ i < s.buffer.orderBuf.size, ∀ p,
    s.buffer.orderBuf.pkts ((s.buffer.orderBuf.head + i) &&& s.buffer.orderBuf.mask) = some p →
      seq p = s.buffer.minSeqn + UInt64.ofNat i) ∧
  ∃ out : List α, s.drained = out.map some ∧ out.Nodup ∧
    out.Pairwise fun p q => (seq p - s.origin seq).toNat < (seq q - s.origin seq).toNat

theorem OrderHolds.slot_eq (power : n.isPowerOfTwo) {c : CirBuffer α} {next : Nat}
    {held : Nat → Option α} (h : OrderHolds n c next held) {i : Nat} (inside : i < n) :
    c.pkts ((c.head + i) &&& c.mask) = held (next + i) := by
  rw [h.mask, and_mask_of_isPowerOfTwo power]
  exact h.slots i inside

theorem Tracks.ordered {seq : α → UInt64} {s : Session α} {ledger : Nat → Option α}
    {out : List α} {a : Span α} (power : n.isPowerOfTwo)
    (h : Tracks seq n s ledger (s.origin seq).toNat out a) (near : s.advance < 2 ^ 63) :
    s.Ordered seq := by
  have distance : ∀ x p, (s.origin seq).toNat ≤ x → x < a.next → ledger x = some p →
      (seq p - s.origin seq).toNat = x - (s.origin seq).toNat := by
    intro x p low high found
    have advance := h.advance
    have same := advance_distance low (by omega)
    rwa [UInt64.ofNat_toNat, ← h.numbered x p found] at same
  have ascending : out.Pairwise
      fun p q => (seq p - s.origin seq).toNat < (seq q - s.origin seq).toNat := by
    have all : (out ++ a.ready).Pairwise
        fun p q => (seq p - s.origin seq).toNat < (seq q - s.origin seq).toNat := by
      rw [h.recorded.released]
      apply between_pairwise
      intro x y p q low less high foundX foundY
      rw [distance x p low (by omega) foundX, distance y q (by omega) high foundY]
      omega
    exact (List.pairwise_append.mp all).1
  refine ⟨?_, out, h.drained, ?_, ascending⟩
  · intro i inside p found
    rw [h.holds.order.size] at inside
    rw [h.holds.order.slot_eq power inside, h.recorded.rest _ (Nat.le_add_right _ _)] at found
    rw [h.numbered _ p found, UInt64.ofNat_add, h.holds.seqn]
  · apply ascending.imp
    intro p q less same
    rw [same] at less
    exact lt_irrefl _ less

theorem Tracked.ordered {seq : α → UInt64} {s : Session α} {ledger : Nat → Option α}
    (power : n.isPowerOfTwo) (h : Tracked seq n s ledger) (near : s.advance < 2 ^ 63) :
    s.Ordered seq := by
  rcases h with ⟨untouched, _⟩ | ⟨_, out, a, tracks⟩
  · have order := untouched.blank.2.1 0
    refine ⟨?_, [], untouched.drained, List.nodup_nil, List.Pairwise.nil⟩
    intro i inside p found
    rw [order.size] at inside
    rw [order.slot_eq power inside] at found
    cases found
  · exact tracks.ordered power near

theorem start_tracked (power : n.isPowerOfTwo) (small : n ≤ 2 ^ 31) (seq : α → UInt64) :
    ∃ ledger, Tracked seq n (Session.start n : Session α) ledger :=
  ⟨_, .inl ⟨start_untouched power small, rfl⟩⟩

theorem start_memsize (n : Nat) :
    (Session.start n : Session α).buffer.memsize = reorderBufsize n ∧
      (Session.start n : Session α).buffer.orderBuf.size = n := by
  simp only [Session.start, reorderCreate, reorderInit, lt_irrefl, if_false, CirBuffer.zeroed,
    and_self]

/-- The buffer is inside its allocation exactly below `2 ^ 28` slots. -/
theorem start_allocated_iff {k : Nat} (small : k ≤ 31) :
    (Session.start (2 ^ k) : Session α).buffer.Allocated ↔ k < 28 := by
  have atMost : 2 ^ k ≤ 2 ^ 31 := Nat.pow_le_pow_right (by omega) small
  obtain ⟨memsize, size⟩ := start_memsize (α := α) (2 ^ k)
  rw [ReorderBuffer.Allocated, memsize, size, le_reorderBufsize_iff (by omega)]
  constructor
  · intro fits
    by_contra large
    have atLeast : 2 ^ 28 ≤ 2 ^ k := Nat.pow_le_pow_right (by omega) (by omega)
    omega
  · intro below
    have fits : 2 ^ k ≤ 2 ^ 27 := Nat.pow_le_pow_right (by omega) (by omega)
    omega

theorem call_allocated {seq : α → UInt64} {s : Session α} (allocated : s.buffer.Allocated)
    (c : Call α) : ∃ s', s.call seq c = some s' ∧ s'.buffer.Allocated := by
  have defined : ∃ s', s.call seq c = some s' := by
    cases c with
    | insert pkt => simp only [Session.call, allocated, if_true, Option.some.injEq, exists_eq']
    | drain maxPkts =>
        simp only [Session.call, allocated, or_true, if_true, Option.some.injEq, exists_eq']
  obtain ⟨s', called⟩ := defined
  exact ⟨s', called, (call_layout called).allocated allocated⟩

/-- Every sequence of calls on a new buffer of `n` slots is defined and, as long
    as the window has moved by less than `2 ^ 63`, keeps the order. -/
def KeepsOrder (α : Type*) (n : Nat) : Prop :=
  ∀ (seq : α → UInt64) (calls : List (Call α)),
    ∃ s, run (Session.call seq) (Session.start n) calls = some s ∧
      (s.advance < 2 ^ 63 → s.Ordered seq)

theorem keepsOrder_of_fits {k : Nat} (fits : k < 28) : KeepsOrder α (2 ^ k) := by
  intro seq calls
  have power : (2 ^ k).isPowerOfTwo := ⟨k, rfl⟩
  have small : 2 ^ k ≤ 2 ^ 31 := Nat.pow_le_pow_right (by omega) (by omega)
  have progress : ∀ (s : Session α) (c : Call α),
      ((∃ ledger, Tracked seq (2 ^ k) s ledger) ∧ s.buffer.Allocated) →
      ∃ s', s.call seq c = some s' ∧ (∃ ledger, Tracked seq (2 ^ k) s' ledger) ∧
        s'.buffer.Allocated := by
    rintro s c ⟨tracked, inside⟩
    obtain ⟨s', called, allocated⟩ := call_allocated inside c
    exact ⟨s', called, Tracked.step power small tracked called, allocated⟩
  obtain ⟨s, reached, ⟨ledger, tracked⟩, _⟩ := run_total progress calls
    ⟨start_tracked power small seq, (start_allocated_iff (by omega)).mpr fits⟩
  exact ⟨s, reached, tracked.ordered power⟩

/-- A buffer of a power-of-two size keeps the order of its packets, over every
    sequence of insertions and drains, exactly when its allocation does not wrap. -/
theorem reorder_keeps_order_iff [Inhabited α] {k : Nat} (small : k ≤ 31) :
    KeepsOrder α (2 ^ k) ↔ k < 28 := by
  constructor
  · intro keeps
    by_contra large
    obtain ⟨s, reached, _⟩ := keeps (fun _ => 0) [.insert default]
    obtain ⟨s', called, _⟩ := run_cons_eq_some.mp reached
    simp only [Session.call, Option.ite_none_right_eq_some] at called
    exact large ((start_allocated_iff small).mp called.1)
  · exact keepsOrder_of_fits

/-- Two slots: the third packet overflows the window and the second is dropped. -/
def crowded : List (Call Nat) := [.insert 10, .insert 11, .insert 12, .drain 4]

theorem reorder_keeps_order_crowded :
    (run (Session.call UInt64.ofNat) (Session.start (2 ^ 1)) crowded).map Session.drained =
        some [some 10, some 12] ∧
      KeepsOrder Nat (2 ^ 1) :=
  ⟨by decide, (reorder_keeps_order_iff (by decide)).mpr (by decide)⟩

/-- `2 ^ 28` slots need `72 + 2 ^ 32` bytes and get 72: the first packet is
    stored outside. -/
theorem reorder_order_undefined :
    (Session.start (2 ^ 28) : Session Nat).buffer.memsize = 72 ∧
      run (Session.call UInt64.ofNat) (Session.start (2 ^ 28)) [.insert 10] = none ∧
      ¬ KeepsOrder Nat (2 ^ 28) := by
  have cut : ¬ (Session.start (2 ^ 28) : Session Nat).buffer.Allocated := by
    rw [start_allocated_iff (by decide)]
    decide
  have missed : run (Session.call UInt64.ofNat) (Session.start (2 ^ 28)) [.insert 10] = none := by
    simp only [run, Session.call, cut, if_false, Option.bind_none]
  refine ⟨by decide, missed, fun keeps => ?_⟩
  obtain ⟨s, reached, _⟩ := keeps UInt64.ofNat [.insert 10]
  rw [missed] at reached
  cases reached

end Mlvpn.Reorder
