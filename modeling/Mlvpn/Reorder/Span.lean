import Mlvpn.Reorder.Window
import Mathlib.Data.Nat.ModEq

/-! # The buffer read as numbers

For a power-of-two size the order ring is a window of numbered packets and the
ready ring a queue.  `Span` is that reading, with the loops of the overflow path
written on it; `moveReady` and `fillLoop` simulate those loops turn by turn,
whatever the ready queue holds and also when it fills up.
-/

namespace Mlvpn.Reorder

open Library.MaskedRing

variable {α : Type*} {n : Nat}

/-- A window starting at `next`, and the packets already pushed out of it. -/
structure Span (α : Type*) where
  next : Nat
  held : Nat → Option α
  ready : List α

namespace Span

/-- Drop the packet numbered `next` and expect its successor. -/
def clear (s : Span α) : Span α :=
  { s with next := s.next + 1, held := Function.update s.held s.next none }

/-- Move the run of packets at the lower end to the ready queue of `n - 1`
    places; the packet that finds it full is lost and ends the run. -/
def moveRun (n : Nat) : Nat → Span α → Span α
  | 0, s => s
  | fuel + 1, s =>
      match s.held s.next with
      | none => s
      | some p =>
          if s.ready.length + 1 = n then s.clear
          else moveRun n fuel { s.clear with ready := s.ready ++ [p] }

def skip (s : Span α) : Span α :=
  if s.held s.next = none then { s with next := s.next + 1 } else s

/-- Advance by at least `needed` numbers from `start`. -/
def fill (n start needed : Nat) : Nat → Span α → Span α
  | 0, s => s
  | fuel + 1, s =>
      if s.next - start < needed ∧ ¬ s.ready.length + 1 = n then
        fill n start needed fuel (moveRun n n s.skip)
      else s

end Span

/-- The order ring keeps the packet numbered `next + i` at `i` slots after its head. -/
structure OrderHolds (n : Nat) (c : CirBuffer α) (next : Nat) (held : Nat → Option α) : Prop where
  size : c.size = n
  mask : c.mask = n - 1
  headLt : c.head < n
  slots : ∀ i < n, c.pkts ((c.head + i) % n) = held (next + i)
  above : ∀ x, next + n ≤ x → held x = none

/-- The ready ring contains a list of packets. -/
structure ReadyHolds (n : Nat) (c : CirBuffer α) (items : List α) : Prop where
  mask : c.mask = n - 1
  holds : Holds n c.pkts c.tail c.head items

theorem offset_unique {n head i j : Nat} (hi : i < n) (hj : j < n)
    (same : (head + i) % n = (head + j) % n) : i = j := by
  have reduced : i % n = j % n := Nat.ModEq.add_left_cancel' head same
  rwa [Nat.mod_eq_of_lt hi, Nat.mod_eq_of_lt hj] at reduced

theorem isPeriod_of_isPowerOfTwo (power : n.isPowerOfTwo) : IsPeriod (n - 1) n := by
  obtain ⟨k, rfl⟩ := power
  exact isPeriod_twoPow k

theorem and_mask_of_isPowerOfTwo (power : n.isPowerOfTwo) (x : Nat) : x &&& (n - 1) = x % n := by
  obtain ⟨k, rfl⟩ := power
  exact Nat.and_two_pow_sub_one_eq_mod x k

namespace OrderHolds

variable {c : CirBuffer α} {next : Nat} {held : Nat → Option α}

theorem head_eq (h : OrderHolds n c next held) : c.pkts c.head = held next := by
  have first := h.slots 0 (by have := h.headLt; omega)
  rwa [Nat.add_zero, Nat.mod_eq_of_lt h.headLt, Nat.add_zero] at first

theorem write (h : OrderHolds n c next held) {offset : Nat} (inside : offset < n) (p : Option α) :
    OrderHolds n (c.write ((c.head + offset) % n) p) next
      (Function.update held (next + offset) p) where
  size := h.size
  mask := h.mask
  headLt := h.headLt
  slots := by
    intro i hi
    by_cases same : i = offset
    · subst same
      simp only [CirBuffer.write, Function.update_self]
    · have otherSlot : (c.head + i) % n ≠ (c.head + offset) % n :=
        fun equal => same (offset_unique hi inside equal)
      have otherNumber : next + i ≠ next + offset := by omega
      simp only [CirBuffer.write, Function.update_of_ne otherSlot, Function.update_of_ne otherNumber]
      exact h.slots i hi
  above := by
    intro x high
    rw [Function.update_of_ne (by omega)]
    exact h.above x high

/-- Advancing over an empty slot gives it to the number entering at the top. -/
theorem advance (power : n.isPowerOfTwo) (h : OrderHolds n c next held) (empty : held next = none) :
    OrderHolds n c.advance (next + 1) held where
  size := h.size
  mask := h.mask
  headLt := by
    simp only [CirBuffer.advance, h.mask]
    exact (isPeriod_of_isPowerOfTwo power).next_lt h.headLt
  slots := by
    intro i hi
    have moved : (c.advance.head + i) % n = (c.head + (i + 1)) % n := by
      simp only [CirBuffer.advance, h.mask]
      rw [(isPeriod_of_isPowerOfTwo power).next_eq _ h.headLt, Nat.mod_add_mod]
      congr 1
      omega
    rw [moved]
    by_cases top : i + 1 = n
    · rw [top, Nat.add_mod_right, Nat.mod_eq_of_lt h.headLt]
      have entering : held (next + 1 + i) = none := h.above _ (by omega)
      rw [entering, ← empty]
      exact h.head_eq
    · have shifted : next + 1 + i = next + (i + 1) := by omega
      rw [shifted]
      exact h.slots (i + 1) (by omega)
  above := fun x high => h.above x (by omega)

theorem clear (power : n.isPowerOfTwo) (h : OrderHolds n c next held) :
    OrderHolds n (c.write c.head none).advance (next + 1) (Function.update held next none) := by
  have positive : 0 < n := Nat.zero_lt_of_lt h.headLt
  have emptied := h.write positive none
  rw [Nat.add_zero, Nat.mod_eq_of_lt h.headLt, Nat.add_zero] at emptied
  exact emptied.advance power (Function.update_self _ _ _)

end OrderHolds

/-- The rings of the overflow path read as a span that started at `start`. -/
structure MovingHolds (n start : Nat) (s : Moving α) (a : Span α) : Prop where
  order : OrderHolds n s.orderBuf a.next a.held
  ready : ReadyHolds n s.readyBuf a.ready
  adv : a.next = start + s.adv

theorem ReadyHolds.full_iff (power : n.isPowerOfTwo) {c : CirBuffer α} {items : List α}
    (h : ReadyHolds n c items) : c.full ↔ items.length + 1 = n := by
  rw [CirBuffer.full, h.mask]
  exact h.holds.full_iff (isPeriod_of_isPowerOfTwo power)

theorem ReadyHolds.push (power : n.isPowerOfTwo) {c : CirBuffer α} {items : List α}
    (h : ReadyHolds n c items) (room : ¬ items.length + 1 = n) (p : α) :
    ReadyHolds n (c.write c.head (some p)).advance (items ++ [p]) where
  mask := h.mask
  holds := by
    have short := h.holds.short
    have pushed := h.holds.push (isPeriod_of_isPowerOfTwo power) (by omega) p
    simpa only [CirBuffer.advance, CirBuffer.write, h.mask] using pushed

/-- One turn of the inner loop that finds room. -/
theorem MovingHolds.turn (power : n.isPowerOfTwo) {start : Nat} {s : Moving α} {a : Span α}
    (h : MovingHolds n start s a) (room : ¬ a.ready.length + 1 = n) (p : α) :
    MovingHolds n start
      { orderBuf := (s.orderBuf.write s.orderBuf.head none).advance
        readyBuf := (s.readyBuf.write s.readyBuf.head (some p)).advance
        adv := s.adv + 1 }
      { a.clear with ready := a.ready ++ [p] } where
  order := h.order.clear power
  ready := h.ready.push power room p
  adv := by
    simp only [Span.clear, h.adv]
    omega

theorem moveReady_holds (power : n.isPowerOfTwo) {start : Nat} (fuel : Nat) {s : Moving α}
    {a : Span α} (h : MovingHolds n start s a) :
    MovingHolds n start (moveReady fuel s) (a.moveRun n fuel) := by
  induction fuel generalizing s a with
  | zero => exact h
  | succ fuel ih =>
      have read := h.order.head_eq
      cases found : a.held a.next with
      | none =>
          rw [found] at read
          simpa only [moveReady, read, Span.moveRun, found] using h
      | some p =>
          rw [found] at read
          have cleared := h.order.clear power
          have advanced : a.clear.next = start + (s.adv + 1) := by
            simp only [Span.clear, h.adv]
            omega
          have written : ReadyHolds n (s.readyBuf.write s.readyBuf.head (some p)) a.ready :=
            ⟨h.ready.mask, h.ready.holds.overwrite_head (some p)⟩
          simp only [moveReady, read, Span.moveRun, found, written.full_iff power]
          by_cases full : a.ready.length + 1 = n
          · simp only [full, if_true]
            exact ⟨cleared, written, advanced⟩
          · simp only [full, if_false]
            exact ih (h.turn power full p)

theorem skipGap_holds (power : n.isPowerOfTwo) {start : Nat} {s : Moving α} {a : Span α}
    (h : MovingHolds n start s a) : MovingHolds n start (skipGap s) a.skip := by
  have read := h.order.head_eq
  by_cases blocked : a.held a.next = none
  · rw [blocked] at read
    simp only [skipGap, read, if_true, Span.skip, blocked]
    exact ⟨h.order.advance power blocked, h.ready, by simp only [h.adv]; omega⟩
  · have present : s.orderBuf.pkts s.orderBuf.head ≠ none := by rwa [read]
    simpa only [skipGap, present, if_false, Span.skip, blocked] using h

theorem fillLoop_holds (power : n.isPowerOfTwo) {start : Nat} (needed fuel : Nat) {s : Moving α}
    {a : Span α} (h : MovingHolds n start s a) :
    MovingHolds n start (fillLoop needed fuel s) (a.fill n start needed fuel) := by
  induction fuel generalizing s a with
  | zero => exact h
  | succ fuel ih =>
      have advanced : a.next - start = s.adv := by
        have := h.adv
        omega
      simp only [fillLoop, Span.fill, h.ready.full_iff power, advanced]
      by_cases more : s.adv < needed ∧ ¬ a.ready.length + 1 = n
      · simp only [more, not_false_eq_true, and_self, if_true]
        have size : s.orderBuf.size = n := h.order.size
        rw [size]
        exact ih (moveReady_holds power n (skipGap_holds power h))
      · simpa only [more, if_false] using h

end Mlvpn.Reorder
