import Mathlib.Tactic.Linarith
import Mathlib.Data.Nat.Bits
import Mathlib.Data.Nat.Find
import Mathlib.Data.Nat.ModEq
import Mathlib.Data.Finset.Card
import Mathlib.Logic.Function.Iterate

/-! # Rings addressed through a bit mask

A circular buffer whose indices advance by `(i + 1) &&& mask` is a ring of all
its slots only when the mask is one less than a power of two.  For any other
mask the indices reached from slot zero still form a cycle, of length two to
the number of trailing one bits.  `IsPeriod` names that length, and `Holds`
says which list a ring contains from its tail up to its head.
-/

namespace Mlvpn.Library.MaskedRing

/-- The index after `i`. -/
def next (mask i : Nat) : Nat := (i + 1) &&& mask

/-- From slot zero, a masked index runs through `0, 1, ..., e - 1` and back. -/
structure IsPeriod (mask e : Nat) : Prop where
  pos : 0 < e
  next_eq : ∀ i < e, next mask i = (i + 1) % e

theorem next_le (mask i : Nat) : next mask i ≤ mask := Nat.and_le_right

theorem IsPeriod.next_lt {mask e i : Nat} (period : IsPeriod mask e) (inside : i < e) :
    next mask i < e := by
  rw [period.next_eq i inside]
  exact Nat.mod_lt _ period.pos

/-- A mask of `k` one bits is a ring of all its `2 ^ k` slots. -/
theorem isPeriod_twoPow (k : Nat) : IsPeriod (2 ^ k - 1) (2 ^ k) where
  pos := Nat.two_pow_pos k
  next_eq := fun i _ => Nat.and_two_pow_sub_one_eq_mod (i + 1) k

theorem and_twoPow_of_testBit_false {mask k : Nat} (clear : mask.testBit k = false) :
    2 ^ k &&& mask = 0 := by
  apply Nat.eq_of_testBit_eq
  intro i
  rw [Nat.testBit_and, Nat.testBit_two_pow, Nat.zero_testBit]
  by_cases same : k = i
  · subst same
    simp [clear]
  · simp [same]

theorem and_of_low_ones {mask k i : Nat} (ones : mask % 2 ^ k = 2 ^ k - 1) (small : i < 2 ^ k) :
    i &&& mask = i := by
  have low : i &&& mask = (i &&& mask) % 2 ^ k := by
    rw [Nat.mod_eq_of_lt]
    exact lt_of_le_of_lt Nat.and_le_left small
  rw [low, Nat.and_mod_two_pow, ones, Nat.mod_eq_of_lt small,
    Nat.and_two_pow_sub_one_eq_mod, Nat.mod_eq_of_lt small]

theorem exists_clear_bit (mask : Nat) : ∃ k, mask.testBit k = false :=
  ⟨mask, Nat.testBit_lt_two_pow Nat.lt_two_pow_self⟩

/-- Two to the number of trailing one bits of the mask. -/
def period (mask : Nat) : Nat := 2 ^ Nat.find (exists_clear_bit mask)

theorem mod_period (mask : Nat) : mask % period mask = period mask - 1 := by
  apply Nat.eq_of_testBit_eq
  intro i
  rw [period, Nat.testBit_mod_two_pow, Nat.testBit_two_pow_sub_one]
  by_cases below : i < Nat.find (exists_clear_bit mask)
  · have set : mask.testBit i = true := by
      have notClear := Nat.find_min (exists_clear_bit mask) below
      simpa using notClear
    simp [below, set]
  · simp [below]

/-- Every mask has a period. -/
theorem isPeriod_period (mask : Nat) : IsPeriod mask (period mask) where
  pos := Nat.two_pow_pos _
  next_eq := by
    intro i inside
    by_cases last : i + 1 = period mask
    · rw [next, last, Nat.mod_self, period]
      exact and_twoPow_of_testBit_false (Nat.find_spec (exists_clear_bit mask))
    · have small : i + 1 < period mask := by omega
      rw [next, and_of_low_ones (mod_period mask) small, Nat.mod_eq_of_lt small]

/-- The cycle stays within the slots the mask can address. -/
theorem period_le (mask : Nat) : period mask ≤ mask + 1 := by
  have ones := mod_period mask
  have remainder := Nat.mod_le mask (period mask)
  omega

/-- A ring whose head runs with the mask spreads `n` offsets over `n` slots, and `n`
    advances visit every slot once. -/
structure Covers (mask n head : Nat) : Prop where
  apart : ∀ o₁ < n, ∀ o₂ < n, (head + o₁) &&& mask = (head + o₂) &&& mask → o₁ = o₂
  visits : ∀ slot < n, ∃! k, k < n ∧ (next mask)^[k + 1] head = slot

/-- Addresses that fall on different slots fall on every slot. -/
theorem exists_address {mask head : Nat}
    (apart : ∀ o₁ < mask + 1, ∀ o₂ < mask + 1,
      (head + o₁) &&& mask = (head + o₂) &&& mask → o₁ = o₂)
    {slot : Nat} (inside : slot < mask + 1) : ∃ o < mask + 1, (head + o) &&& mask = slot := by
  have maps : Set.MapsTo (fun o => (head + o) &&& mask) (Finset.range (mask + 1))
      (Finset.range (mask + 1)) := by
    intro o _
    have masked : (head + o) &&& mask ≤ mask := Nat.and_le_right
    simpa using Nat.lt_succ_of_le masked
  have injective : Set.InjOn (fun o => (head + o) &&& mask) (Finset.range (mask + 1)) := by
    intro o₁ first o₂ second same
    exact apart o₁ (by simpa using first) o₂ (by simpa using second) same
  obtain ⟨o, member, address⟩ := Finset.surjOn_of_injOn_of_card_le _ maps injective le_rfl
    (Finset.mem_coe.mpr (Finset.mem_range.mpr inside))
  exact ⟨o, by simpa using member, address⟩

/-- A mask with a hole never addresses the slot of the hole's bit. -/
theorem isPowerOfTwo_of_apart {mask head : Nat}
    (apart : ∀ o₁ < mask + 1, ∀ o₂ < mask + 1,
      (head + o₁) &&& mask = (head + o₂) &&& mask → o₁ = o₂) :
    (mask + 1).isPowerOfTwo := by
  have whole : period mask = mask + 1 := by
    by_contra short
    have small : period mask < mask + 1 := lt_of_le_of_ne (period_le mask) short
    obtain ⟨o, _, address⟩ := exists_address apart small
    have clear : period mask &&& mask = 0 :=
      and_twoPow_of_testBit_false (Nat.find_spec (exists_clear_bit mask))
    rw [← address, Nat.and_assoc, Nat.and_self, address] at clear
    exact absurd clear (Nat.two_pow_pos _).ne'
  exact ⟨_, whole.symm⟩

theorem iterate_next_twoPow (k turns head : Nat) :
    (next (2 ^ k - 1))^[turns + 1] head = (head + turns + 1) % 2 ^ k := by
  induction turns with
  | zero => exact Nat.and_two_pow_sub_one_eq_mod (head + 1) k
  | succ turns ih =>
      rw [Function.iterate_succ_apply', ih, next, Nat.and_two_pow_sub_one_eq_mod, Nat.mod_add_mod,
        Nat.add_assoc head turns 1]

theorem add_mod_cancel {n head o₁ o₂ : Nat} (first : o₁ < n) (second : o₂ < n)
    (same : (head + o₁) % n = (head + o₂) % n) : o₁ = o₂ := by
  have congruent : o₁ ≡ o₂ [MOD n] := Nat.ModEq.add_left_cancel' head same
  exact congruent.eq_of_lt_of_lt first second

theorem covers_twoPow (k head : Nat) : Covers (2 ^ k - 1) (2 ^ k) head where
  apart := by
    intro o₁ first o₂ second same
    rw [Nat.and_two_pow_sub_one_eq_mod, Nat.and_two_pow_sub_one_eq_mod] at same
    exact add_mod_cancel first second same
  visits := by
    intro slot inside
    have positive : 0 < 2 ^ k := Nat.two_pow_pos k
    -- the advance that lands on the slot, counted from one past the head
    have reached : (head + 1 + (slot + (2 ^ k - (head + 1) % 2 ^ k)) % 2 ^ k) % 2 ^ k = slot := by
      have low : (head + 1) % 2 ^ k < 2 ^ k := Nat.mod_lt _ positive
      rw [Nat.add_mod_mod, ← Nat.mod_add_mod, Nat.add_left_comm,
        Nat.add_sub_of_le low.le, Nat.add_mod_right, Nat.mod_eq_of_lt inside]
    refine ⟨(slot + (2 ^ k - (head + 1) % 2 ^ k)) % 2 ^ k, ⟨Nat.mod_lt _ positive, ?_⟩, ?_⟩
    · simp only [iterate_next_twoPow, Nat.add_right_comm head _ 1, reached]
    · rintro turns ⟨fewer, here⟩
      simp only [iterate_next_twoPow, Nat.add_right_comm head _ 1] at here
      exact add_mod_cancel fewer (Nat.mod_lt _ positive) (here.trans reached.symm)

/-- A masked ring covers its slots, from any head, just when their number is a power of two. -/
theorem covers_iff {mask head : Nat} : Covers mask (mask + 1) head ↔ (mask + 1).isPowerOfTwo := by
  constructor
  · intro covers
    exact isPowerOfTwo_of_apart covers.apart
  · rintro ⟨k, size⟩
    have ones : mask = 2 ^ k - 1 := by omega
    rw [size, ones]
    exact covers_twoPow k head

variable {α : Type*}

/-- The ring with slots `slots` contains the list `items`, oldest first, from
    `tail` up to but not including `head`. -/
structure Holds (e : Nat) (slots : Nat → Option α) (tail head : Nat) (items : List α) : Prop where
  tailLt : tail < e
  short : items.length < e
  headEq : head = (tail + items.length) % e
  stored : ∀ k, (inside : k < items.length) → slots ((tail + k) % e) = some items[k]

namespace Holds

variable {mask e tail head : Nat} {slots : Nat → Option α} {items : List α}

theorem empty (slots : Nat → Option α) {at_ : Nat} (inside : at_ < e) :
    Holds e slots at_ at_ [] where
  tailLt := inside
  short := by simp only [List.length_nil]; omega
  headEq := by simp only [List.length_nil, Nat.add_zero, Nat.mod_eq_of_lt inside]
  stored := by simp

theorem headLt (h : Holds e slots tail head items) : head < e := by
  rw [h.headEq]
  exact Nat.mod_lt _ (by have := h.tailLt; omega)

/-- The head wraps at most once past the tail. -/
theorem head_cases (h : Holds e slots tail head items) :
    (head = tail + items.length ∧ tail + items.length < e) ∨
      (head + e = tail + items.length ∧ e ≤ tail + items.length) := by
  have tailLt := h.tailLt
  have short := h.short
  by_cases wraps : tail + items.length < e
  · left
    exact ⟨by rw [h.headEq, Nat.mod_eq_of_lt wraps], wraps⟩
  · right
    have reduced : (tail + items.length) % e = tail + items.length - e := by
      rw [Nat.mod_eq_sub_mod (by omega), Nat.mod_eq_of_lt (by omega)]
    exact ⟨by rw [h.headEq, reduced]; omega, by omega⟩

theorem eq_iff_nil (h : Holds e slots tail head items) : tail = head ↔ items = [] := by
  have short := h.short
  have tailLt := h.tailLt
  rw [← List.length_eq_zero_iff]
  rcases h.head_cases with ⟨here, _⟩ | ⟨wrapped, _⟩ <;> omega

/-- One slot stays free: the ring is full when the next head would meet the tail. -/
theorem full_mod_iff (h : Holds e slots tail head items) :
    (head + 1) % e = tail ↔ items.length + 1 = e := by
  have headLt := h.headLt
  have tailLt := h.tailLt
  have short := h.short
  by_cases last : head + 1 = e
  · rw [last, Nat.mod_self]
    rcases h.head_cases with ⟨here, _⟩ | ⟨wrapped, _⟩ <;> omega
  · rw [Nat.mod_eq_of_lt (by omega)]
    rcases h.head_cases with ⟨here, _⟩ | ⟨wrapped, _⟩ <;> omega

theorem full_iff (period : IsPeriod mask e) (h : Holds e slots tail head items) :
    next mask head = tail ↔ items.length + 1 = e := by
  rw [period.next_eq head h.headLt]
  exact h.full_mod_iff

/-- The slot under the head is not one of the occupied ones. -/
theorem head_free (h : Holds e slots tail head items) {k : Nat} (inside : k < items.length) :
    (tail + k) % e ≠ head := by
  have tailLt := h.tailLt
  have short := h.short
  intro same
  by_cases wraps : tail + k < e
  · rw [Nat.mod_eq_of_lt wraps] at same
    rcases h.head_cases with ⟨here, _⟩ | ⟨wrapped, _⟩ <;> omega
  · rw [Nat.mod_eq_sub_mod (by omega), Nat.mod_eq_of_lt (by omega)] at same
    rcases h.head_cases with ⟨here, _⟩ | ⟨wrapped, _⟩ <;> omega

/-- Writing under the head without advancing it stores nothing. -/
theorem overwrite_head (h : Holds e slots tail head items) (value : Option α) :
    Holds e (Function.update slots head value) tail head items where
  tailLt := h.tailLt
  short := h.short
  headEq := h.headEq
  stored := by
    intro k inside
    rw [Function.update_of_ne (h.head_free inside)]
    exact h.stored k inside

theorem push_mod (h : Holds e slots tail head items) (room : items.length + 1 < e) (item : α) :
    Holds e (Function.update slots head (some item)) tail ((head + 1) % e) (items ++ [item]) where
  tailLt := h.tailLt
  short := by simpa using room
  headEq := by
    rw [h.headEq, Nat.mod_add_mod]
    simp only [List.length_append, List.length_singleton, Nat.add_assoc]
  stored := by
    intro k inside
    by_cases old : k < items.length
    · rw [Function.update_of_ne (h.head_free old), List.getElem_append_left old]
      exact h.stored k old
    · have newest : k = items.length := by
        simp only [List.length_append, List.length_singleton] at inside
        omega
      subst newest
      rw [← h.headEq, Function.update_self]
      simp

theorem push (period : IsPeriod mask e) (h : Holds e slots tail head items)
    (room : items.length + 1 < e) (item : α) :
    Holds e (Function.update slots head (some item)) tail (next mask head) (items ++ [item]) := by
  rw [period.next_eq head h.headLt]
  exact h.push_mod room item

theorem pop_mod {item : α} (h : Holds e slots tail head (item :: items)) :
    slots tail = some item ∧ Holds e slots ((tail + 1) % e) head items := by
  have oldest := h.stored 0 (by simp)
  rw [Nat.add_zero, Nat.mod_eq_of_lt h.tailLt] at oldest
  refine ⟨by simpa using oldest, ?_⟩
  have positive : 0 < e := Nat.zero_lt_of_lt h.tailLt
  refine ⟨Nat.mod_lt _ positive, ?_, ?_, ?_⟩
  · have short := h.short
    simp only [List.length_cons] at short
    omega
  · rw [h.headEq, Nat.mod_add_mod, List.length_cons]
    congr 1
    omega
  · intro k inside
    rw [Nat.mod_add_mod, Nat.add_assoc, Nat.add_comm 1 k]
    rw [h.stored (k + 1) (by simpa using inside), List.getElem_cons_succ]

theorem pop (period : IsPeriod mask e) {item : α}
    (h : Holds e slots tail head (item :: items)) :
    slots tail = some item ∧ Holds e slots (next mask tail) head items := by
  rw [period.next_eq tail h.tailLt]
  exact h.pop_mod

end Holds

end Mlvpn.Library.MaskedRing
