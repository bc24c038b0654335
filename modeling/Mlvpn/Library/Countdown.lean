import Mathlib.Algebra.BigOperators.Field
import Mathlib.Algebra.Order.BigOperators.Group.Finset
import Mathlib.Algebra.Order.Archimedean.Basic
import Mathlib.Algebra.Order.Floor.Ring
import Mathlib.Data.Nat.Count
import Mathlib.Data.Rat.Floor
import Mathlib.Tactic.Linarith
import Mathlib.Tactic.Ring
import Mathlib.Tactic.FieldSimp

/-! # Turns taken by countdown

Participants with a period each.  In every turn one is picked and its counter is
set to its period; the positive counters of the others go down by one.

If the rates, one over the period, add up to at most one and nobody is picked
while the counter of somebody else is lower and has run down, then everybody is
picked again and again (`Turns.recurs`).  With one period for all, everybody is
picked once in every round (`Turns.once`).  Of two participants, the one with the
longer period is picked once in a cycle, and the cycle is in proportion to the
periods only if one is a small multiple of the other (`Turns.shares_two_iff`).
-/

namespace Mlvpn.Library.Countdown

variable {ι : Type*}

/-- The counters and the picks of a sequence of turns. -/
structure Turns (period : ι → ℚ) (value : Nat → ι → ℚ) (pick : Nat → ι) : Prop where
  picked : ∀ k, value (k + 1) (pick k) = period (pick k)
  waits : ∀ k j, j ≠ pick k → value (k + 1) j = if 0 < value k j then value k j - 1 else value k j

namespace Turns

variable {period : ι → ℚ} {value : Nat → ι → ℚ} {pick : Nat → ι} {j x : ι} {m w : Nat}

/-- A counter goes down by one at most. -/
theorem waits_ge (turns : Turns period value pick) {k : Nat} (other : j ≠ pick k) :
    value k j - 1 ≤ value (k + 1) j := by
  rw [turns.waits k j other]
  split <;> linarith

theorem bounded (turns : Turns period value pick) (positive : 0 < period j)
    (start : -1 < value 0 j ∧ value 0 j ≤ period j) (k : Nat) :
    -1 < value k j ∧ value k j ≤ period j := by
  induction k with
  | zero => exact start
  | succ k ih =>
      by_cases here : j = pick k
      · rw [here, turns.picked, ← here]
        exact ⟨by linarith, le_refl _⟩
      · rw [turns.waits k j here]
        split
        · exact ⟨by linarith, by linarith⟩
        · exact ih

/-- Who is not picked runs down. -/
theorem runs_down (turns : Turns period value pick) (t : Nat)
    (missed : ∀ k, m ≤ k → k < m + t → pick k ≠ x) : value (m + t) x ≤ max (value m x - t) 0 := by
  induction t with
  | zero =>
      rw [Nat.add_zero, Nat.cast_zero, sub_zero]
      exact le_max_left _ _
  | succ t ih =>
      have earlier := ih fun k low high => missed k low (by omega)
      have waited := turns.waits (m + t) x (missed (m + t) (by omega) (by omega)).symm
      rw [← Nat.add_assoc, waited]
      push_cast
      split
      · next running =>
          rcases le_max_iff.mp earlier with above | done
          · exact le_max_of_le_left (by linarith)
          · linarith
      · next done => exact le_max_of_le_right (not_lt.mp done)

/-- A counter goes down by one at most in every turn. -/
theorem keeps_up (turns : Turns period value pick) (t : Nat)
    (missed : ∀ k, m ≤ k → k < m + t → pick k ≠ x) : value m x - t ≤ value (m + t) x := by
  induction t with
  | zero => simp
  | succ t ih =>
      have earlier := ih fun k low high => missed k low (by omega)
      have lower := turns.waits_ge (missed (m + t) (by omega) (by omega)).symm
      rw [← Nat.add_assoc]
      push_cast
      linarith

variable [DecidableEq ι]

/-- Who is picked only when run down is picked at most once a period, and a turn. -/
theorem spaced (turns : Turns period value pick) (w : Nat)
    (late : ∀ k, m ≤ k → k < m + w → pick k = j → value k j ≤ 0) :
    value m j + Nat.count (fun k => pick (m + k) = j) w * (period j + 1) ≤ value (m + w) j + w := by
  induction w with
  | zero => simp
  | succ w ih =>
      have earlier := ih fun k low high => late k low (by omega)
      rw [Nat.count_succ, ← Nat.add_assoc]
      by_cases here : pick (m + w) = j
      · have low := late (m + w) (by omega) (by omega) here
        have reset := turns.picked (m + w)
        rw [here] at reset
        rw [if_pos here, reset]
        push_cast
        linarith
      · have lower := turns.waits_ge (Ne.symm here)
        rw [if_neg here]
        push_cast
        linarith

/-- Every turn is somebody's. -/
theorem sum_count {J : Finset ι} (within : ∀ k, pick k ∈ J) (m w : Nat) :
    ∑ j ∈ J, Nat.count (fun k => pick (m + k) = j) w = w := by
  induction w with
  | zero => simp
  | succ w ih =>
      simp only [Nat.count_succ, Finset.sum_add_distrib, ih]
      rw [Finset.sum_ite_eq, if_pos (within (m + w))]

/-- Who has run down waits for less than a period of its own for each other
    participant. -/
theorem window_le {J : Finset ι} (turns : Turns period value pick) (member : x ∈ J)
    (positive : ∀ j ∈ J, 0 < period j) (start : ∀ j ∈ J, -1 < value 0 j ∧ value 0 j ≤ period j)
    (rate : ∑ j ∈ J, 1 / period j ≤ 1) (within : ∀ k, pick k ∈ J)
    (missed : ∀ k, m ≤ k → k < m + w → pick k ≠ x)
    (late : ∀ k, m ≤ k → k < m + w → value k (pick k) ≤ 0) :
    (w : ℚ) ≤ ((J.card : ℚ) - 1) * period x := by
  have picks : ∀ j ∈ J.erase x,
      (Nat.count (fun k => pick (m + k) = j) w : ℚ) ≤ w * (1 / period j) + 1 := by
    intro j others
    have listed := Finset.mem_of_mem_erase others
    have longer := positive j listed
    have spaced := turns.spaced (m := m) (j := j) w fun k low high here => here ▸ late k low high
    have lower := (turns.bounded longer (start j listed) m).1
    have upper := (turns.bounded longer (start j listed) (m + w)).2
    have count : (0 : ℚ) ≤ Nat.count (fun k => pick (m + k) = j) w := Nat.cast_nonneg _
    rw [mul_one_div, ← sub_le_iff_le_add, le_div_iff₀ longer]
    nlinarith
  have never : Nat.count (fun k => pick (m + k) = x) w = 0 :=
    Nat.count_of_forall_not fun k below => missed (m + k) (by omega) (by omega)
  have all : (w : ℚ) = ∑ j ∈ J.erase x, (Nat.count (fun k => pick (m + k) = j) w : ℚ) := by
    have total := sum_count within m w
    rw [← Finset.add_sum_erase J _ member, never, Nat.zero_add] at total
    exact_mod_cast total.symm
  have rates := Finset.add_sum_erase J (fun j => 1 / period j) member
  have size : ((J.erase x).card : ℚ) = (J.card : ℚ) - 1 := by
    rw [Finset.card_erase_of_mem member, Nat.cast_sub (Finset.card_pos.mpr ⟨x, member⟩),
      Nat.cast_one]
  have share : (w : ℚ) ≤ w * (1 - 1 / period x) + ((J.card : ℚ) - 1) :=
    calc (w : ℚ) = ∑ j ∈ J.erase x, (Nat.count (fun k => pick (m + k) = j) w : ℚ) := all
      _ ≤ ∑ j ∈ J.erase x, (w * (1 / period j) + 1) := Finset.sum_le_sum picks
      _ = w * ∑ j ∈ J.erase x, 1 / period j + ((J.card : ℚ) - 1) := by
          rw [Finset.sum_add_distrib, ← Finset.mul_sum, Finset.sum_const, nsmul_one, size]
      _ ≤ w * (1 - 1 / period x) + ((J.card : ℚ) - 1) := by
          have turnsDone : (0 : ℚ) ≤ w := Nat.cast_nonneg w
          have rest : ∑ j ∈ J.erase x, 1 / period j ≤ 1 - 1 / period x := by linarith
          have := mul_le_mul_of_nonneg_left rest turnsDone
          linarith
  have longer := positive x member
  have bound : w * (1 / period x) ≤ (J.card : ℚ) - 1 := by linarith
  rwa [mul_one_div, div_le_iff₀ longer] at bound

/-- Everybody is picked within as many periods as there are participants. -/
theorem recurs {J : Finset ι} (turns : Turns period value pick) (member : x ∈ J)
    (positive : ∀ j ∈ J, 0 < period j) (start : ∀ j ∈ J, -1 < value 0 j ∧ value 0 j ≤ period j)
    (rate : ∑ j ∈ J, 1 / period j ≤ 1) (within : ∀ k, pick k ∈ J)
    (least : ∀ k, value k x ≤ 0 → value k (pick k) ≤ value k x) (m : Nat) :
    ∃ k, m ≤ k ∧ k < m + (J.card * ⌈period x⌉₊ + 1) ∧ pick k = x := by
  by_contra never
  have missed : ∀ k, m ≤ k → k < m + (J.card * ⌈period x⌉₊ + 1) → pick k ≠ x :=
    fun k low high here => never ⟨k, low, high, here⟩
  obtain ⟨others, card⟩ := Nat.exists_eq_succ_of_ne_zero (Finset.card_ne_zero_of_mem member)
  have longer := positive x member
  have length : J.card * ⌈period x⌉₊ + 1 = ⌈period x⌉₊ + (others * ⌈period x⌉₊ + 1) := by
    rw [card, Nat.succ_eq_add_one, Nat.add_mul, Nat.one_mul]
    omega
  rw [length] at missed
  have done : ∀ k, m + ⌈period x⌉₊ ≤ k → k < m + ⌈period x⌉₊ + (others * ⌈period x⌉₊ + 1) →
      value k x ≤ 0 := by
    intro k low high
    obtain ⟨t, rfl⟩ := Nat.exists_eq_add_of_le (le_trans (Nat.le_add_right m _) low)
    have down := turns.runs_down (m := m) (x := x) t fun i above below => missed i above (by omega)
    have upper := (turns.bounded longer (start x member) m).2
    have waited : period x ≤ t := by
      refine le_trans (Nat.le_ceil _) ?_
      exact_mod_cast (by omega : ⌈period x⌉₊ ≤ t)
    rcases le_max_iff.mp down with above | zero
    · linarith
    · exact zero
  have bound := turns.window_le (m := m + ⌈period x⌉₊) (w := others * ⌈period x⌉₊ + 1) member
    positive start rate within (fun k low high => missed k (by omega) (by omega))
    (fun k low high => le_trans (least k (done k low high)) (done k low high))
  have ceil := Nat.le_ceil (period x)
  have fewer : (0 : ℚ) ≤ others := Nat.cast_nonneg _
  rw [card] at bound
  push_cast at bound
  nlinarith

section OnePeriod

variable {J : Finset ι} {p : ℚ} (turns : Turns period value pick) (one : ∀ j ∈ J, period j = p)
  (room : (J.card : ℚ) ≤ p) (start : ∀ j ∈ J, -1 < value 0 j ∧ value 0 j ≤ period j)
  (within : ∀ k, pick k ∈ J)
  (least : ∀ k, ∀ j ∈ J, value k j ≤ p - 1 → value k (pick k) ≤ value k j)

include turns one room start within least

/-- Nobody is picked again before everybody else. -/
theorem apart (k t : Nat) (short : 1 + t < J.card) : pick (k + 1 + t) ≠ pick k := by
  induction t using Nat.strong_induction_on with
  | _ t ih =>
      intro again
      have missed : ∀ l, k + 1 ≤ l → l < k + 1 + t → pick l ≠ pick k := by
        intro l low high
        obtain ⟨u, rfl⟩ := Nat.exists_eq_add_of_le low
        exact ih u (by omega) (by omega)
      -- somebody has not been picked since
      have fewer : ((Finset.range (1 + t)).image fun l => pick (k + l)).card < J.card := by
        refine lt_of_le_of_lt Finset.card_image_le ?_
        rwa [Finset.card_range]
      obtain ⟨j, member, other⟩ := Finset.exists_mem_notMem_of_card_lt_card fewer
      have waited : ∀ l, k ≤ l → l < k + (1 + t) → pick l ≠ j := by
        intro l low high here
        obtain ⟨u, rfl⟩ := Nat.exists_eq_add_of_le low
        exact other (Finset.mem_image.mpr ⟨u, Finset.mem_range.mpr (by omega), here⟩)
      have down := turns.runs_down (1 + t) waited
      have up := turns.keeps_up t missed
      have positive : 0 < period j := by
        rw [one j member]
        refine lt_of_lt_of_le (Nat.cast_pos.mpr ?_) room
        omega
      have before := (turns.bounded positive (start j member) k).2
      have turnsLeft : (1 + t : ℚ) < p := lt_of_lt_of_le (by exact_mod_cast short) room
      rw [turns.picked, one _ (within k), ← again] at up
      rw [one j member] at before
      rw [← Nat.add_assoc] at down
      push_cast at down
      have lower : value (k + 1 + t) j ≤ p - (1 + t) := by
        refine le_trans down (max_le ?_ ?_) <;> linarith
      have some : (0 : ℚ) ≤ t := Nat.cast_nonneg t
      have chosen := least (k + 1 + t) j member (by linarith)
      linarith

/-- In every round each is picked once. -/
theorem once (m : Nat) {i : ι} (member : i ∈ J) :
    Nat.count (fun k => pick (m + k) = i) J.card = 1 := by
  have most : ∀ j ∈ J, Nat.count (fun k => pick (m + k) = j) J.card ≤ 1 := by
    intro j _
    rw [Nat.count_eq_card_filter_range, Finset.card_le_one]
    have never : ∀ a b, a < b → b < J.card → pick (m + a) = j → pick (m + b) ≠ j := by
      intro a b before last here again
      obtain ⟨t, rfl⟩ := Nat.exists_eq_add_of_lt before
      refine turns.apart one room start within least (m + a) t (by omega) ?_
      rw [here, ← again]
      congr 1
      omega
    intro a inA b inB
    obtain ⟨lastA, hereA⟩ := Finset.mem_filter.mp inA
    obtain ⟨lastB, hereB⟩ := Finset.mem_filter.mp inB
    rcases Nat.lt_trichotomy a b with before | same | after
    · exact absurd hereB (never a b before (Finset.mem_range.mp lastB) hereA)
    · exact same
    · exact absurd hereA (never b a after (Finset.mem_range.mp lastA) hereB)
  have all : ∑ j ∈ J, Nat.count (fun k => pick (m + k) = j) J.card = ∑ _ ∈ J, 1 := by
    rw [sum_count within, Finset.card_eq_sum_ones]
  exact (Finset.sum_eq_sum_iff_of_le most).mp all i member

/-- Everybody has been picked in every round so far, and perhaps in the one that is not over. -/
theorem shares (k : Nat) {i : ι} (member : i ∈ J) :
    k / J.card ≤ Nat.count (fun k => pick k = i) k ∧
      Nat.count (fun k => pick k = i) k ≤ k / J.card + 1 := by
  have rounds : ∀ q, Nat.count (fun k => pick k = i) (J.card * q) = q := by
    intro q
    induction q with
    | zero => simp
    | succ q ih =>
        rw [Nat.mul_succ, Nat.count_add, ih, turns.once one room start within least _ member]
  have size : 0 < J.card := Finset.card_pos.mpr ⟨i, member⟩
  have rest : Nat.count (fun l => pick (J.card * (k / J.card) + l) = i) (k % J.card) ≤ 1 :=
    calc Nat.count (fun l => pick (J.card * (k / J.card) + l) = i) (k % J.card)
        ≤ Nat.count (fun l => pick (J.card * (k / J.card) + l) = i) J.card :=
          Nat.count_monotone _ (Nat.mod_lt k size).le
      _ = 1 := turns.once one room start within least _ member
  have split := Nat.count_add (fun k => pick k = i) (J.card * (k / J.card)) (k % J.card)
  rw [Nat.div_add_mod, rounds] at split
  omega

end OnePeriod

omit [DecidableEq ι] in
/-- A count is close to one rate only. -/
theorem rate_unique {counted : Nat → ℚ} {r s : ℚ} (near : ∀ k : Nat, |counted k - k * r| ≤ 2)
    (other : ∀ k : Nat, |counted k - k * s| ≤ 2) : r = s := by
  by_contra apart
  have gap : 0 < |r - s| := abs_pos.mpr (sub_ne_zero.mpr apart)
  obtain ⟨k, large⟩ := exists_nat_gt (4 / |r - s|)
  rw [div_lt_iff₀ gap] at large
  have scaled : (k : ℚ) * |r - s| = |(counted k - k * s) - (counted k - k * r)| := by
    have difference : counted k - k * s - (counted k - k * r) = k * (r - s) := by ring
    rw [difference, abs_mul, Nat.abs_cast]
  have sum := abs_sub (counted k - k * s) (counted k - k * r)
  have one := near k
  have two := other k
  linarith

section TwoPeriods

variable {y : ι} {p q : ℚ} {Prior : ℚ → ℚ → Prop} (turns : Turns period value pick)
  (distinct : x ≠ y) (short : period x = p) (long : period y = q) (within : ∀ k, pick k = x ∨ pick k = y)
  (below : ∀ u v, u < v → Prior u v) (above : ∀ u v, Prior u v → u ≤ v) (more : 1 < p) (order : p ≤ q)
  (rule : ∀ k, pick k = y ↔ Prior (value k y) (value k x))

include turns distinct short long within below above more order rule

omit [DecidableEq ι] distinct long in
/-- The one with the short period is picked at every turn until the counter of the other has
    come down to its period. -/
theorem stretch (stays : ∀ j : Nat, 0 < j → j < m → ¬ Prior (q - j) p) {k : Nat} (full : value k y = q)
    (lower : value k x < q) (t : Nat) (early : t < m) :
    pick (k + t) = x ∧ value (k + (t + 1)) x = p ∧ value (k + (t + 1)) y = q - (t + 1 : Nat) := by
  induction t with
  | zero =>
      have notY : pick k ≠ y := by
        rw [Ne, rule, full]
        exact fun prior => absurd (above _ _ prior) (not_le.mpr lower)
      have isX := (within k).resolve_right notY
      have reset := turns.picked k
      rw [isX, short] at reset
      refine ⟨isX, reset, ?_⟩
      rw [Nat.zero_add, turns.waits k y (Ne.symm notY), full, if_pos (by linarith)]
      push_cast
      ring
  | succ t ih =>
      obtain ⟨_, counterX, counterY⟩ := ih (by omega)
      have stay := stays (t + 1) (by omega) early
      have notY : pick (k + (t + 1)) ≠ y := by
        rw [Ne, rule, counterX, counterY]
        exact stay
      have isX := (within _).resolve_right notY
      have reset := turns.picked (k + (t + 1))
      rw [isX, short] at reset
      refine ⟨isX, reset, ?_⟩
      have running : 0 < q - (t + 1 : Nat) := by
        have := not_lt.mp fun low => stay (below _ _ low)
        linarith
      rw [← Nat.add_assoc, turns.waits _ y (Ne.symm notY), counterY, if_pos running]
      push_cast
      ring

/-- After the one with the long period, the other is picked until it comes again. -/
theorem cycle (yields : Prior (q - m) p) (stays : ∀ j : Nat, 0 < j → j < m → ¬ Prior (q - j) p)
    (positive : 0 < m) {k : Nat} (full : value k y = q) (lower : value k x < q) :
    Nat.count (fun l => pick (k + l) = y) (m + 1) = 1 ∧ value (k + (m + 1)) y = q ∧
      value (k + (m + 1)) x < q := by
  have run := turns.stretch short within below above more order rule stays full lower
  obtain ⟨t, rfl⟩ := Nat.exists_eq_succ_of_ne_zero (Nat.ne_of_gt positive)
  obtain ⟨_, counterX, counterY⟩ := run t (Nat.lt_succ_self t)
  have isY : pick (k + (t + 1)) = y := by
    rw [rule, counterX, counterY]
    exact yields
  have reset := turns.picked (k + (t + 1))
  rw [isY, long] at reset
  refine ⟨?_, reset, ?_⟩
  · have never : Nat.count (fun l => pick (k + l) = y) (t + 1) = 0 :=
      Nat.count_of_forall_not fun l inside => by
        rw [(run l inside).1]
        exact distinct
    rw [Nat.succ_eq_add_one, Nat.count_succ, never, if_pos isY]
  · have waited := turns.waits (k + (t + 1)) x (by rw [isY]; exact distinct)
    rw [counterX, if_pos (by linarith)] at waited
    rw [Nat.succ_eq_add_one, ← Nat.add_assoc, waited]
    linarith

omit above in
/-- The first pick of the long period is one of the first two. -/
theorem first_pick (startX : value 0 x = 0) (startY : value 0 y = 0) :
    ∃ s ≤ 1, Nat.count (fun l => pick l = y) (s + 1) = 1 ∧ value (s + 1) y = q ∧ value (s + 1) x < q := by
  have resets (k : Nat) (isY : pick k = y) : value (k + 1) y = q := by
    have reset := turns.picked k
    rwa [isY, long] at reset
  rcases within 0 with isX | isY
  · have reset := turns.picked 0
    rw [isX, short] at reset
    have idle := turns.waits 0 y (by rw [isX]; exact distinct.symm)
    rw [startY, if_neg (lt_irrefl 0)] at idle
    have isY : pick 1 = y := by
      rw [rule, reset, idle]
      exact below _ _ (by linarith)
    have waited := turns.waits 1 x (by rw [isY]; exact distinct)
    rw [reset, if_pos (by linarith)] at waited
    refine ⟨1, le_refl 1, ?_, resets 1 isY, by rw [waited]; linarith⟩
    simp [Nat.count_succ, isX, isY, distinct]
  · have waited := turns.waits 0 x (by rw [isY]; exact distinct)
    rw [startX, if_neg (lt_irrefl 0)] at waited
    refine ⟨0, Nat.zero_le 1, by simp [Nat.count_succ, isY], resets 0 isY, ?_⟩
    rw [waited]
    linarith

/-- Every cycle ends with a pick of the long period. -/
theorem rounds (startX : value 0 x = 0) (startY : value 0 y = 0) (yields : Prior (q - m) p)
    (stays : ∀ j : Nat, 0 < j → j < m → ¬ Prior (q - j) p) (positive : 0 < m) :
    ∃ s ≤ 1, ∀ r, Nat.count (fun l => pick l = y) (s + 1 + (m + 1) * r) = r + 1 := by
  obtain ⟨s, early, once, full, lower⟩ :=
    turns.first_pick distinct short long within below more order rule startX startY
  have ends : ∀ r, Nat.count (fun l => pick l = y) (s + 1 + (m + 1) * r) = r + 1 ∧
      value (s + 1 + (m + 1) * r) y = q ∧ value (s + 1 + (m + 1) * r) x < q := by
    intro r
    induction r with
    | zero => exact ⟨once, full, lower⟩
    | succ r ih =>
        obtain ⟨counted, full, lower⟩ := ih
        obtain ⟨once, again⟩ := turns.cycle distinct short long within below above more order rule yields stays
          positive full lower
        rw [Nat.mul_succ, ← Nat.add_assoc, Nat.count_add, counted, once]
        exact ⟨rfl, again⟩
  exact ⟨s, early, fun r => (ends r).1⟩

/-- Of two participants, the one with the longer period is picked in every cycle once. -/
theorem paced (startX : value 0 x = 0) (startY : value 0 y = 0) (yields : Prior (q - m) p)
    (stays : ∀ j : Nat, 0 < j → j < m → ¬ Prior (q - j) p) (positive : 0 < m) (k : Nat) :
    |(Nat.count (fun l => pick l = y) k : ℚ) - k * (1 / (m + 1))| ≤ 2 := by
  obtain ⟨s, early, rounds⟩ := turns.rounds distinct short long within below above more order rule
    startX startY yields stays positive
  have size : (0 : ℚ) < m + 1 := by positivity
  -- between the ends of two cycles the count is that of one of them
  have bounds : k ≤ (m + 1) * (Nat.count (fun l => pick l = y) k + 2) ∧
      (m + 1) * Nat.count (fun l => pick l = y) k ≤ k + (m + 1) * 2 := by
    obtain ⟨c, counted⟩ : ∃ c, Nat.count (fun l => pick l = y) k = c := ⟨_, rfl⟩
    rw [counted]
    constructor
    · by_contra less
      have late := Nat.count_monotone (fun l => pick l = y)
        (show s + 1 + (m + 1) * c ≤ k by rw [Nat.mul_add] at less; omega)
      rw [rounds, counted] at late
      omega
    · by_contra less
      obtain ⟨r, rfl⟩ : ∃ r, c = r + 2 := Nat.exists_eq_add_of_le' (by
        by_contra few
        have := Nat.mul_le_mul_left (m + 1) (show c ≤ 2 by omega)
        omega)
      have soon := Nat.count_monotone (fun l => pick l = y)
        (show k ≤ s + 1 + (m + 1) * r by rw [Nat.mul_add] at less; omega)
      rw [rounds, counted] at soon
      omega
  obtain ⟨low, high⟩ := bounds
  have lowQ : (k : ℚ) ≤ (m + 1) * (Nat.count (fun l => pick l = y) k + 2) := by exact_mod_cast low
  have highQ : ((m : ℚ) + 1) * Nat.count (fun l => pick l = y) k ≤ k + (m + 1) * 2 := by
    exact_mod_cast high
  rw [mul_one_div, abs_le]
  constructor
  · have : (k : ℚ) / (m + 1) ≤ Nat.count (fun l => pick l = y) k + 2 := by
      rw [div_le_iff₀ size]
      linarith
    linarith
  · have : (Nat.count (fun l => pick l = y) k : ℚ) - 2 ≤ k / (m + 1) := by
      rw [le_div_iff₀ size]
      linarith
    linarith

/-- The picks of two participants stay in proportion to their rates exactly if the long
    period is a multiple of the short one, by no less than the difference of the two. -/
theorem shares_two_iff (startX : value 0 x = 0) (startY : value 0 y = 0) :
    (∀ k : Nat, |(Nat.count (fun l => pick l = y) k : ℚ) - k * (p / (p + q))| ≤ 2) ↔
      ∃ m : Nat, q = m * p ∧ Prior (q - m) p := by
  classical
  have ends : ∃ j : Nat, 0 < j ∧ Prior (q - j) p := by
    obtain ⟨j, large⟩ := exists_nat_gt q
    refine ⟨j, ?_, below _ _ (by linarith)⟩
    exact Nat.cast_pos.mp (lt_trans (by linarith) large)
  obtain ⟨positive, yields⟩ := Nat.find_spec ends
  have stays : ∀ j : Nat, 0 < j → j < Nat.find ends → ¬ Prior (q - j) p :=
    fun j low less prior => Nat.find_min ends less ⟨low, prior⟩
  have near := turns.paced distinct short long within below above more order rule startX startY yields
    stays positive
  have exact_ : (∀ k : Nat, |(Nat.count (fun l => pick l = y) k : ℚ) - k * (p / (p + q))| ≤ 2) ↔
      q = (Nat.find ends : Nat) * p := by
    have rates : (1 : ℚ) / ((Nat.find ends : Nat) + 1) = p / (p + q) ↔ q = (Nat.find ends : Nat) * p := by
      rw [div_eq_div_iff (by positivity) (by linarith)]
      constructor <;> intro same <;> linarith
    rw [← rates]
    exact ⟨fun other => rate_unique near other, fun same => same ▸ near⟩
  rw [exact_]
  refine ⟨fun multiple => ⟨_, multiple, yields⟩, ?_⟩
  rintro ⟨m, multiple, prior⟩
  have some_ : 0 < m := by
    refine Nat.pos_of_ne_zero fun zero => ?_
    rw [zero, Nat.cast_zero, zero_mul] at multiple
    linarith
  -- no smaller number of picks would do, because the short period is more than one
  have least : Nat.find ends = m := by
    refine (Nat.find_eq_iff ends).mpr ⟨⟨some_, prior⟩, ?_⟩
    rintro j less ⟨low, early⟩
    have bound := above _ _ early
    have whole : (j : ℚ) + 1 ≤ m := by exact_mod_cast less
    have first : (1 : ℚ) ≤ j := by exact_mod_cast low
    nlinarith
  rw [least]
  exact multiple

end TwoPeriods

end Turns

end Mlvpn.Library.Countdown
