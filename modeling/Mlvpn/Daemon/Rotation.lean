import Mlvpn.Daemon.Links
import Mlvpn.Daemon.RoundRobin

/-! # The search for the lowest counter

`wrr_min_index` starts its search from 100, and so does the counter of a tunnel
without a bandwidth.  Such tunnels are served in strict rotation as long as a
counter does not run out before the rotation is complete.  Where all counters
reach 100, the search finds none of them and falls back on the first.
-/

namespace Mlvpn.Daemon

variable {κ : Type} {d d' : Daemon κ} {table : List Nat} {n k i : Nat}

theorem wrrMinIndex_of_leftmost {tunvals : List ℚ} {m : Nat} {u : ℚ} (leftmost : Leftmost tunvals m u)
    (low : u < 100) : wrrMinIndex tunvals 0 100 0 = m := by
  rcases wrrMinIndex_spec tunvals 0 100 0 with ⟨_, least⟩ | ⟨j, v, found, _, other⟩
  · exact absurd low (not_lt.mpr (least u (List.mem_of_getElem? leftmost.found)))
  · rw [found, Nat.zero_add]
    exact other.unique leftmost

theorem wrrMinIndex_singleton (v : ℚ) : wrrMinIndex [v] 0 100 0 = 0 := by
  simp only [wrrMinIndex, ite_self]

/-- The counter of a tunnel after `k` calls that took `n` tunnels in rotation: it
    goes down from 100 since the tunnel was chosen. -/
def credit (n k i : Nat) : ℚ := if k ≤ i then 0 else 100 - ((k - 1 - i) % n : Nat)

/-- The tunnel whose turn it is was chosen a whole round ago. -/
theorem age_turn (inside : k % n < k) (positive : 0 < n) : (k - 1 - k % n) % n = n - 1 := by
  have whole : k - k % n = n * (k / n) := by
    have := Nat.div_add_mod k n
    omega
  obtain ⟨q, rounds⟩ : ∃ q, k / n = q + 1 := by
    refine Nat.exists_eq_succ_of_ne_zero fun none => ?_
    rw [none, Nat.mul_zero] at whole
    omega
  rw [rounds, Nat.mul_succ] at whole
  have split : k - 1 - k % n = n * q + (n - 1) := by omega
  rw [split, Nat.mul_add_mod, Nat.mod_eq_of_lt (by omega)]

/-- The others were chosen later than that, and are one call older after the next. -/
theorem age_other (before : i < k) (inside : i < n) (other : i ≠ k % n) :
    (k - 1 - i) % n + 1 < n ∧ (k - i) % n = (k - 1 - i) % n + 1 := by
  have next : k - i = (k - 1 - i) + 1 := by omega
  have small : (k - 1 - i) % n < n := Nat.mod_lt _ (by omega)
  have unfinished : (k - 1 - i) % n + 1 ≠ n := by
    intro last
    apply other
    have round : (k - i) % n = 0 := by rw [next, ← Nat.mod_add_mod, last, Nat.mod_self]
    obtain ⟨q, multiple⟩ := Nat.dvd_of_mod_eq_zero round
    rw [show k = i + n * q by omega, Nat.add_mul_mod_self_left, Nat.mod_eq_of_lt inside]
  refine ⟨by omega, ?_⟩
  rw [next, ← Nat.mod_add_mod, Nat.mod_eq_of_lt (by omega)]

/-- A counter has not run out while the rotation is complete within 101 calls. -/
theorem age_le (fits : n ≤ 101 ∨ k ≤ 100) (before : i < k) (inside : i < n) (other : i ≠ k % n) :
    (k - 1 - i) % n ≤ 99 := by
  rcases fits with small | early
  · have := (age_other before inside other).1
    omega
  · exact (Nat.mod_le _ _).trans (by omega)

/-- The counters of `n` tunnels in rotation. -/
def credits (n k : Nat) : List ℚ := (List.range n).map (credit n k)

theorem credits_getElem? (n k i : Nat) :
    (credits n k)[i]? = if i < n then some (credit n k i) else none := by
  unfold credits
  by_cases listed : i < n
  · simp [listed]
  · simp [listed]

/-- The tunnel whose turn it is has the lowest counter. -/
theorem credits_leftmost (fits : n ≤ 101 ∨ k ≤ 100) (positive : 0 < n) :
    Leftmost (credits n k) (k % n) (credit n k (k % n)) := by
  have inside : k % n < n := Nat.mod_lt k positive
  have lower : ∀ i < n, i < k → i ≠ k % n → credit n k (k % n) < credit n k i := by
    intro i listed before other
    have recent := age_le fits before listed other
    have younger := (age_other before listed other).1
    have now : credit n k i = 100 - ((k - 1 - i) % n : Nat) := if_neg (not_le.mpr before)
    rw [now, credit]
    split
    next =>
      have : (((k - 1 - i) % n : Nat) : ℚ) ≤ 99 := by exact_mod_cast recent
      linarith
    next chosen =>
      rw [age_turn (not_le.mp chosen) positive]
      have : (((k - 1 - i) % n : Nat) : ℚ) < (n - 1 : Nat) := by exact_mod_cast (by omega)
      linarith
  refine ⟨by rw [credits_getElem?, if_pos inside], ?_, ?_⟩
  · intro v member
    obtain ⟨i, listed, rfl⟩ := List.mem_map.mp member
    by_cases same : i = k % n
    · rw [same]
    · by_cases before : i < k
      · exact le_of_lt (lower i (List.mem_range.mp listed) before same)
      · have early : k % n = k := Nat.mod_eq_of_lt (by have := List.mem_range.mp listed; omega)
        unfold credit
        rw [early, if_pos (le_refl k), if_pos (not_lt.mp before)]
  · intro i earlier v at_
    rw [credits_getElem?, if_pos (earlier.trans inside)] at at_
    cases at_
    exact lower i (earlier.trans inside) (earlier.trans_le (Nat.mod_le k n)) (Nat.ne_of_lt earlier)

theorem credits_minIndex (fits : n ≤ 101 ∨ k ≤ 100) (positive : 0 < n) :
    wrrMinIndex (credits n k) 0 100 0 = k % n := by
  by_cases single : n = 1
  · subst single
    rw [Nat.mod_one]
    exact wrrMinIndex_singleton _
  · apply wrrMinIndex_of_leftmost (credits_leftmost fits positive)
    unfold credit
    split
    next => norm_num
    next chosen =>
      rw [age_turn (not_le.mp chosen) positive]
      have : (1 : ℚ) ≤ (n - 1 : Nat) := by exact_mod_cast (by omega)
      linarith

/-- One call sets the counter of the tunnel whose turn it is, and lowers the others. -/
theorem credit_succ (fits : n ≤ 101 ∨ k ≤ 100) (listed : i < n) :
    credit n (k + 1) i =
      if i = k % n then 100 else if credit n k i > 0 then credit n k i - 1 else credit n k i := by
  split
  next turn =>
    have chosen : ¬ k + 1 ≤ i := by
      have := Nat.mod_le k n
      omega
    have whole : (k - i) % n = 0 := by
      rw [turn]
      exact Nat.sub_mod_eq_zero_of_mod_eq (Nat.mod_mod k n).symm
    unfold credit
    rw [if_neg chosen, Nat.add_sub_cancel, whole, Nat.cast_zero, sub_zero]
  next other =>
    by_cases before : i < k
    · have recent := age_le fits before listed other
      have older := (age_other before listed other).2
      have : (((k - 1 - i) % n : Nat) : ℚ) ≤ 99 := by exact_mod_cast recent
      unfold credit
      rw [if_neg (show ¬ k + 1 ≤ i by omega), if_neg (show ¬ k ≤ i by omega), if_pos (by linarith),
        Nat.add_sub_cancel, older]
      push_cast
      ring
    · have later : k + 1 ≤ i := by
        by_contra now
        have here : k = i := by omega
        exact other (by rw [here, Nat.mod_eq_of_lt listed])
      unfold credit
      simp [later, show k ≤ i by omega]

/-- A table with these counters. -/
def tableOf (table : List Nat) (values : Nat → ℚ) : List (Nat × ℚ) :=
  table.mapIdx fun i tun => (tun, values i)

theorem tableOf_getElem? (table : List Nat) (values : Nat → ℚ) (i : Nat) :
    (tableOf table values)[i]? = table[i]?.map fun tun => (tun, values i) :=
  List.getElem?_mapIdx ..

theorem tableOf_credits (table : List Nat) (k : Nat) :
    (tableOf table (credit table.length k)).map Prod.snd = credits table.length k := by
  apply List.ext_getElem?
  intro i
  rw [List.getElem?_map, tableOf_getElem?, credits_getElem?]
  by_cases listed : i < table.length
  · simp [listed]
  · simp [listed]

/-- A call that finds the tunnel whose turn it is. -/
theorem wrrChoose_rotates {turn : Nat} {values : Nat → ℚ} (state : d.wrr = tableOf table values)
    (unweighted : ∀ i ∈ table, (d.tun i).weight = 1) (inside : turn < table.length)
    (index : wrrMinIndex (d.wrr.map Prod.snd) 0 100 0 = turn) :
    d.wrrChoose = (table[turn]?,
      { d with
        wrr := tableOf table fun i =>
          if i = turn then 100 else if values i > 0 then values i - 1 else values i }) := by
  have member : table[turn] ∈ table := List.getElem_mem inside
  have found : d.wrr[turn]? = some (table[turn], values turn) := by
    rw [state, tableOf_getElem?, List.getElem?_eq_getElem inside, Option.map_some]
  simp only [wrrChoose, index, found, unweighted _ member, List.getElem?_eq_getElem inside]
  congr 2
  apply List.ext_getElem?
  intro i
  rw [List.getElem?_set, tableOf_getElem?, List.length_map, state, tableOf, List.length_mapIdx]
  by_cases here : turn = i
  · subst here
    simp [inside]
  · simp [here, Ne.symm here, Function.comp_def]

/-- The table after `k` calls, as long as the calls are in rotation. -/
theorem wrrRun_credits (reset : d.wrr = table.map fun i => (i, 0)) (nonempty : table ≠ [])
    (unweighted : ∀ i ∈ table, (d.tun i).weight = 1) (k : Nat) (fits : table.length ≤ 101 ∨ k ≤ 101) :
    (d.wrrRun k).wrr = tableOf table (credit table.length k) ∧ (d.wrrRun k).tuns = d.tuns := by
  have positive : 0 < table.length := List.length_pos_iff.mpr nonempty
  induction k with
  | zero =>
      refine ⟨?_, rfl⟩
      rw [wrrRun, reset]
      apply List.ext_getElem?
      intro i
      rw [tableOf_getElem?, List.getElem?_map]
      simp [credit]
  | succ k ih =>
      have fits : table.length ≤ 101 ∨ k ≤ 100 := by omega
      obtain ⟨state, tuns⟩ := ih (by omega)
      have index : wrrMinIndex ((d.wrrRun k).wrr.map Prod.snd) 0 100 0 = k % table.length := by
        rw [state, tableOf_credits]
        exact credits_minIndex fits positive
      have chosen := wrrChoose_rotates state (by simpa only [tun, tuns] using unweighted)
        (Nat.mod_lt k positive) index
      rw [wrrRun, chosen]
      refine ⟨?_, tuns⟩
      apply List.ext_getElem?
      intro i
      rw [tableOf_getElem?, tableOf_getElem?]
      by_cases listed : i < table.length
      · rw [credit_succ fits listed]
      · simp [not_lt.mp listed]

theorem wrrPick_rotates (reset : d.wrr = table.map fun i => (i, 0)) (nonempty : table ≠ [])
    (unweighted : ∀ i ∈ table, (d.tun i).weight = 1) {k : Nat} (fits : table.length ≤ 101 ∨ k ≤ 100) :
    d.wrrPick k = table[k % table.length]? := by
  have positive : 0 < table.length := List.length_pos_iff.mpr nonempty
  obtain ⟨state, tuns⟩ := wrrRun_credits reset nonempty unweighted k (by omega)
  have index : wrrMinIndex ((d.wrrRun k).wrr.map Prod.snd) 0 100 0 = k % table.length := by
    rw [state, tableOf_credits]
    exact credits_minIndex fits positive
  rw [wrrPick, wrrChoose_rotates state (by simpa only [tun, tuns] using unweighted)
    (Nat.mod_lt k positive) index]

/-- After 101 calls the counter of the first tunnel has run out, and it is chosen again. -/
theorem wrrPick_returns (reset : d.wrr = table.map fun i => (i, 0))
    (unweighted : ∀ i ∈ table, (d.tun i).weight = 1) (many : 101 < table.length) :
    d.wrrPick 101 = table[0]? := by
  have nonempty : table ≠ [] := List.length_pos_iff.mp (by omega)
  obtain ⟨state, tuns⟩ := wrrRun_credits reset nonempty unweighted 101 (.inr (le_refl 101))
  have first : Leftmost (credits table.length 101) 0 0 := by
    refine ⟨?_, fun v member => ?_, fun m before => absurd before (Nat.not_lt_zero m)⟩
    · rw [credits_getElem?, if_pos (by omega), credit, if_neg (by omega), Nat.mod_eq_of_lt (by omega)]
      norm_num
    · obtain ⟨i, _, rfl⟩ := List.mem_map.mp member
      unfold credit
      split
      next => exact le_refl 0
      next =>
        have : (((101 - 1 - i) % table.length : Nat) : ℚ) ≤ 100 := by
          exact_mod_cast (Nat.mod_le _ _).trans (by omega)
        linarith
  have index : wrrMinIndex ((d.wrrRun 101).wrr.map Prod.snd) 0 100 0 = 0 := by
    rw [state, tableOf_credits]
    exact wrrMinIndex_of_leftmost first (by norm_num)
  rw [wrrPick, wrrChoose_rotates state (by simpa only [tun, tuns] using unweighted) (by omega) index]

theorem wrrReset_table {mode : Nat} (reset : d.wrrReset mode = some d') :
    d'.wrr = (d.eligible mode).map (fun i => (i, 0)) ∧ d'.table = d.eligible mode := by
  unfold wrrReset at reset
  dsimp only at reset
  split at reset
  next =>
    cases reset
    exact ⟨rfl, by simp [table, Function.comp_def]⟩
  next => cases reset

/-- Tunnels of the default weight are served in strict rotation if and only if there are
    at most 101 of them. -/
theorem wrr_rotates_iff (distinct : d.rtuns.Nodup) {mode : Nat} (reset : d.wrrReset mode = some d')
    (nonempty : d'.table ≠ []) (unweighted : ∀ i ∈ d'.table, (d'.tun i).weight = 1) :
    (∀ k, d'.wrrPick k = d'.table[k % d'.table.length]?) ↔ d'.table.length ≤ 101 := by
  obtain ⟨zeroed, chosen⟩ := wrrReset_table reset
  rw [← chosen] at zeroed
  constructor
  · intro rotates
    by_contra many
    have inside : 101 < d'.table.length := not_le.mp many
    have again := wrrPick_returns zeroed unweighted inside
    rw [rotates 101, Nat.mod_eq_of_lt inside] at again
    have keys : d'.table.Nodup := by
      rw [chosen]
      exact distinct.filter _
    exact absurd ((List.getElem?_inj inside keys).mp again) (by decide)
  · intro few k
    exact wrrPick_rotates zeroed nonempty unweighted (.inl few)

/-- Connected tunnels without a bandwidth. -/
def equalLinks (n : Nat) : Daemon Unit :=
  { init ⟨.little, plainBox, ()⟩ with
    tuns := List.replicate n { Tunnel.blank with status := .authok }
    rtuns := List.range n }

theorem wrr_rotates_three :
    ∃ d ∈ (equalLinks 3).wrrReset 0, d.table = [0, 1, 2] ∧ ∀ k, d.wrrPick k = [0, 1, 2][k % 3]? := by
  obtain ⟨d, reset, table, weights⟩ : ∃ d ∈ (equalLinks 3).wrrReset 0, d.table = [0, 1, 2] ∧
      ∀ i ∈ d.table, (d.tun i).weight = 1 := by decide +kernel
  have rotates := wrr_rotates_iff (by decide) reset (by rw [table]; decide) weights
  rw [table] at rotates
  exact ⟨d, reset, table, rotates.mpr (by decide)⟩

/-- Of 102 tunnels the last one is passed over. -/
theorem wrr_passes_over :
    ∃ d ∈ (equalLinks 102).wrrReset 0, d.table.length = 102 ∧ d.table[101 % 102]? = some 101 ∧
      d.wrrPick 101 = some 0 := by
  obtain ⟨d, reset, length, last, first, weights⟩ : ∃ d ∈ (equalLinks 102).wrrReset 0,
      d.table.length = 102 ∧ d.table[101 % 102]? = some 101 ∧ d.table[0]? = some 0 ∧
        ∀ i ∈ d.table, (d.tun i).weight = 1 := by decide +kernel
  obtain ⟨zeroed, chosen⟩ := wrrReset_table reset
  rw [← chosen] at zeroed
  refine ⟨d, reset, length, last, ?_⟩
  rw [wrrPick_returns zeroed weights (by omega), first]

/-- `wrr_min_index` returns the index of a lowest counter. -/
def FindsLeast (d : Daemon κ) : Prop :=
  ∀ entry ∈ d.wrr, ∃ found ∈ d.wrr[wrrMinIndex (d.wrr.map Prod.snd) 0 100 0]?, found.2 ≤ entry.2

instance (d : Daemon κ) : Decidable d.FindsLeast :=
  inferInstanceAs (Decidable (∀ entry ∈ d.wrr, ∃ found ∈ d.wrr[_]?, _ ≤ _))

/-- The search finds the lowest counter if one is below its start value, and otherwise
    returns the first index. -/
theorem findsLeast_iff (d : Daemon κ) :
    d.FindsLeast ↔ (∃ entry ∈ d.wrr, entry.2 < 100) ∨
      ∀ first ∈ d.wrr.head?, ∀ entry ∈ d.wrr, first.2 ≤ entry.2 := by
  unfold FindsLeast
  rcases wrrMinIndex_spec (d.wrr.map Prod.snd) 0 100 0 with
    ⟨stayed, least⟩ | ⟨j, u, found, below, leftmost⟩
  · have high : ¬ ∃ entry ∈ d.wrr, entry.2 < 100 := by
      rintro ⟨entry, member, low⟩
      exact absurd low (not_lt.mpr (least entry.2 (List.mem_map_of_mem member)))
    rw [stayed, or_iff_right high, ← List.head?_eq_getElem?]
    constructor
    · intro finds first head entry member
      obtain ⟨other, same, low⟩ := finds entry member
      rwa [Option.mem_unique head same]
    · intro lowest entry member
      obtain ⟨first, head⟩ := Option.isSome_iff_exists.mp (List.isSome_head?.mpr (List.ne_nil_of_mem member))
      exact ⟨first, head, lowest first head entry member⟩
  · obtain ⟨entry, at_, rfl⟩ := Option.map_eq_some_iff.mp (List.getElem?_map ▸ leftmost.found)
    rw [found, Nat.zero_add]
    refine iff_of_true (fun other member => ⟨entry, at_, ?_⟩) (.inl ⟨entry, List.mem_of_getElem? at_, below⟩)
    exact leftmost.least other.2 (List.mem_map_of_mem member)

/-- The table keeps its tunnels, and no counter is above the period of its tunnel. -/
theorem balanced_entries (distinct : d.rtuns.Nodup) (inside : d.Inside)
    (bandwidths : ∀ i ∈ d.rtuns, (d.tun i).bandwidth ≠ 0)
    (total : (d.rtuns.map fun i => (d.tun i).bandwidth).sum ≠ 0) (sub : table.Sublist d.rtuns)
    (nonempty : table ≠ []) (k : Nat) :
    ((d.balanced table).wrrRun k).wrr.map Prod.fst = table ∧
      ∀ entry ∈ ((d.balanced table).wrrRun k).wrr,
        entry.2 ≤ 100 / ((d.balanced table).tun entry.1).weight := by
  have keys := balanced_nodup (d := d) (distinct.sublist sub)
  obtain ⟨i, member⟩ := List.exists_mem_of_ne_nil table nonempty
  have filled := balanced_nonempty (d := d) member
  have same : ((d.balanced table).wrrRun k).wrr.map Prod.fst = table := by
    rw [(wrrRun_table keys filled k).1, balanced_table]
  refine ⟨same, fun entry there => ?_⟩
  have listed : entry.1 ∈ table := same ▸ List.mem_map_of_mem there
  have positive := (balanced_period distinct inside bandwidths total table (sub.subset listed)).2
  have bound := ((wrrRun_turns keys filled).bounded positive (balanced_start positive) k).2
  rwa [tunval_of_mem (by rw [same]; exact distinct.sublist sub) there] at bound

/-- One tunnel with more than a percent of the bandwidth is enough for the search, or a
    first one with a percent. -/
theorem findsLeast_of_weight (distinct : d.rtuns.Nodup) (inside : d.Inside)
    (bandwidths : ∀ i ∈ d.rtuns, (d.tun i).bandwidth ≠ 0)
    (total : (d.rtuns.map fun i => (d.tun i).bandwidth).sum ≠ 0) (sub : table.Sublist d.rtuns)
    (nonempty : table ≠ [])
    (heavy : (∃ i ∈ table, 1 < ((d.balanced table).tun i).weight) ∨
      ∀ i ∈ table.head?, 1 ≤ ((d.balanced table).tun i).weight) (k : Nat) :
    ((d.balanced table).wrrRun k).FindsLeast := by
  obtain ⟨same, bound⟩ := balanced_entries distinct inside bandwidths total sub nonempty k
  rw [findsLeast_iff]
  rcases heavy with ⟨i, member, above⟩ | first
  · obtain ⟨entry, there, rfl⟩ := List.mem_map.mp (same ▸ member)
    refine .inl ⟨entry, there, (bound entry there).trans_lt ?_⟩
    exact div_lt_self (by norm_num) above
  · by_cases low : ∃ entry ∈ ((d.balanced table).wrrRun k).wrr, entry.2 < 100
    · exact .inl low
    · refine .inr fun head found entry there => ?_
      have leads : head.1 ∈ table.head? := by
        rw [← same, List.head?_map]
        exact Option.mem_map_of_mem Prod.fst found
      have most : head.2 ≤ 100 :=
        (bound head (List.mem_of_mem_head? found)).trans (div_le_self (by norm_num) (first head.1 leads))
      exact most.trans (not_lt.mp fun below => low ⟨entry, there, below⟩)

/-- Whatever the tunnels, the part of them in the table and the number of calls: the search
    finds a lowest counter if and only if one is below 100 or the first one is lowest.  It
    does so after any number of calls where one tunnel of the table has more than a percent
    of the bandwidth, or the first one has a percent. -/
theorem wrr_argmin_iff (d : Daemon κ) (table : List Nat) (k : Nat) :
    (((d.balanced table).wrrRun k).FindsLeast ↔
      (∃ entry ∈ ((d.balanced table).wrrRun k).wrr, entry.2 < 100) ∨
        ∀ first ∈ ((d.balanced table).wrrRun k).wrr.head?,
          ∀ entry ∈ ((d.balanced table).wrrRun k).wrr, first.2 ≤ entry.2) ∧
      (d.rtuns.Nodup → d.Inside → (∀ i ∈ d.rtuns, (d.tun i).bandwidth ≠ 0) →
        (d.rtuns.map fun i => (d.tun i).bandwidth).sum ≠ 0 → table.Sublist d.rtuns → table ≠ [] →
        ((∃ i ∈ table, 1 < ((d.balanced table).tun i).weight) ∨
          ∀ i ∈ table.head?, 1 ≤ ((d.balanced table).tun i).weight) →
        ((d.balanced table).wrrRun k).FindsLeast) :=
  ⟨findsLeast_iff _, fun distinct inside bandwidths total sub nonempty heavy =>
    findsLeast_of_weight distinct inside bandwidths total sub nonempty heavy k⟩

/-- Two tunnels that share two thirds of a percent of the bandwidth are connected, and the
    third is not. -/
def slowPair : Daemon Unit :=
  let conf : TunnelConf :=
    { name := "c", bindaddr := none, bindport := some "5082", bindfib := 0, destaddr := none
      destport := none, timeout := 60, fallbackOnly := 0, bandwidth := 298, lossTolerence := 100
      latencyTolerence := 1000 }
  ((twoLinks 1 1).rtunNew conf true 3 0).balanced [1, 0]

/-- After three calls their counters are 300 and 299, and the search returns the first. -/
theorem wrr_misses_least :
    (slowPair.wrrRun 3).wrr = [(1, 300), (0, 299)] ∧
      wrrMinIndex ((slowPair.wrrRun 3).wrr.map Prod.snd) 0 100 0 = 0 ∧
      ¬ (slowPair.wrrRun 3).FindsLeast := by
  decide +kernel

end Mlvpn.Daemon
