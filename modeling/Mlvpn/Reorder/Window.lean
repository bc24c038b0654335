import Mlvpn.Reorder.Buffer
import Mathlib.Data.Nat.Find
import Mathlib.Data.List.Basic

/-! # The abstract reordering window

What the reorder buffer is for, without rings, masks or pointers: a number
expected next and a finite map of the packets held beyond it.  Numbers are
sequence numbers unwrapped to naturals, so the window may pass `2 ^ 64`.
-/

namespace Mlvpn.Reorder

variable {α : Type*}

/-- The packets numbered from `first` up to but not including `last`, ascending. -/
def between (held : Nat → Option α) (first last : Nat) : List α :=
  (List.range' first (last - first)).filterMap held

theorem between_append (held : Nat → Option α) {a b c : Nat} (low : a ≤ b) (high : b ≤ c) :
    between held a b ++ between held b c = between held a c := by
  have split : List.range' a (c - a) = List.range' a (b - a) ++ List.range' b (c - b) := by
    have width : c - a = (b - a) + (c - b) := by omega
    have start : a + 1 * (b - a) = b := by omega
    rw [width, ← List.range'_append, start]
  rw [between, between, between, split, List.filterMap_append]

theorem between_self (held : Nat → Option α) (a : Nat) : between held a a = [] := by
  simp [between]

theorem between_succ (held : Nat → Option α) {a b : Nat} (low : a ≤ b) :
    between held a (b + 1) = between held a b ++ (held b).toList := by
  rw [← between_append held low (Nat.le_succ b)]
  congr 1
  cases found : held b <;> simp [between, found]

theorem between_congr {held other : Nat → Option α} {a b : Nat}
    (agree : ∀ x, a ≤ x → x < b → held x = other x) : between held a b = between other a b := by
  apply List.filterMap_congr
  intro x member
  obtain ⟨low, high⟩ := List.mem_range'_1.mp member
  exact agree x low (by omega)

theorem between_length_le (held : Nat → Option α) (a b : Nat) :
    (between held a b).length ≤ b - a := by
  simpa [between] using List.length_filterMap_le held (List.range' a (b - a))

/-- A window of `n` numbers above the expected one. -/
structure Window (α : Type*) (n : Nat) where
  next : Nat
  held : Nat → Option α
  bounded : ∀ x, held x ≠ none → next < x ∧ x < next + n

namespace Window

variable {n : Nat}

def start (seq : UInt64) : Window α n where
  next := seq.toNat
  held := fun _ => none
  bounded := by simp

/-- How far a sequence number lies beyond the expected one, modulo `2 ^ 64`. -/
def distance (w : Window α n) (seq : UInt64) : Nat := (seq - UInt64.ofNat w.next).toNat

/-- The packets held once the packet numbered `x` is added. -/
def add (w : Window α n) (x : Nat) (pkt : α) : Nat → Option α := Function.update w.held x (some pkt)

theorem add_bounded (w : Window α n) {x y : Nat} {pkt : α} (found : w.add x pkt y ≠ none) :
    y = x ∨ w.next < y ∧ y < w.next + n := by
  by_cases same : y = x
  · exact .inl same
  · rw [add, Function.update_of_ne same] at found
    exact .inr (w.bounded y found)

theorem add_free (w : Window α n) (x : Nat) (pkt : α) :
    ∃ y, max w.next (x + 1 - n) ≤ y ∧ w.add x pkt y = none := by
  refine ⟨max (w.next + n) (x + 1), by omega, ?_⟩
  by_contra found
  rcases w.add_bounded found with same | ⟨_, below⟩ <;> omega

/-- The least number the window can expect after the packet numbered `x`. -/
def expected (w : Window α n) (x : Nat) (pkt : α) : Nat := Nat.find (w.add_free x pkt)

theorem expected_spec (w : Window α n) (x : Nat) (pkt : α) :
    max w.next (x + 1 - n) ≤ w.expected x pkt ∧ w.add x pkt (w.expected x pkt) = none :=
  Nat.find_spec (w.add_free x pkt)

/-- A number is the expected one if it is free and everything from the lower
    end of the window up to it is held. -/
theorem expected_eq (w : Window α n) {x m : Nat} {pkt : α} (low : max w.next (x + 1 - n) ≤ m)
    (free : w.add x pkt m = none)
    (filled : ∀ y, max w.next (x + 1 - n) ≤ y → y < m → w.add x pkt y ≠ none) :
    w.expected x pkt = m := by
  have minimal : w.expected x pkt ≤ m := Nat.find_min' (w.add_free x pkt) ⟨low, free⟩
  obtain ⟨lower, empty⟩ := w.expected_spec x pkt
  by_contra different
  exact filled _ lower (by omega) empty

/-- Move the window up to the expected number. -/
def advance (w : Window α n) (x : Nat) (pkt : α) : Window α n where
  next := w.expected x pkt
  held := fun y => if y < w.expected x pkt then none else w.add x pkt y
  bounded := by
    intro y found
    obtain ⟨low, free⟩ := w.expected_spec x pkt
    by_cases below : y < w.expected x pkt
    · simp [below] at found
    · rw [if_neg below] at found
      have different : y ≠ w.expected x pkt := fun same => found (same ▸ free)
      rcases w.add_bounded found with same | ⟨_, high⟩ <;> omega

/-- One packet: the result of the insertion, the packets released in ascending
    order, and the window afterwards.  `none` has not seen a packet yet. -/
def accept (state : Option (Window α n)) (pkt : α) (seq : UInt64) :
    (Int × List α) × Option (Window α n) :=
  let w := state.getD (start seq)
  if 2 * n ≤ w.distance seq then ((-2, []), some w)
  else
    let x := w.next + w.distance seq
    ((0, (List.range (w.expected x pkt)).filterMap (w.add x pkt)), some (w.advance x pkt))

end Window

end Mlvpn.Reorder
