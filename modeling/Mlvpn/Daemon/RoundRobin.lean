import Mlvpn.Daemon.Balance
import Mlvpn.Daemon.Moves
import Mlvpn.Library.Countdown
import Mlvpn.Library.Registry

/-! # The share of a tunnel in the round robin

`mlvpn_rtun_wrr_choose` counts down: the chosen tunnel gets the counter
`100 / weight`, its period, and every positive counter goes down by one.  The
weights of all tunnels add up to 100, so the rates of those in the table add up
to at most one.
-/

namespace Mlvpn.Daemon

open Library Library.Countdown

variable {κ : Type} {d : Daemon κ} {i j k : Nat}

/-- The daemon after some calls of `mlvpn_rtun_wrr_choose`. -/
def wrrRun (d : Daemon κ) : Nat → Daemon κ
  | 0 => d
  | k + 1 => (d.wrrRun k).wrrChoose.2

/-- The tunnel that is chosen after `k` calls. -/
def wrrPick (d : Daemon κ) (k : Nat) : Option Nat := (d.wrrRun k).wrrChoose.1

/-- The counter of a tunnel in the table. -/
def tunval (d : Daemon κ) (i : Nat) : ℚ := ((Registry.get Prod.fst d.wrr i).map Prod.snd).getD 0

/-- What the counter of a tunnel is set to. -/
def wrrPeriod (d : Daemon κ) (i : Nat) : ℚ := 100 / (d.tun i).weight

/-- The first place of a least value in a list. -/
structure Leftmost (values : List ℚ) (j : Nat) (u : ℚ) : Prop where
  found : values[j]? = some u
  least : ∀ v ∈ values, u ≤ v
  first : ∀ m < j, ∀ v, values[m]? = some v → u < v

theorem Leftmost.head {v : ℚ} {rest : List ℚ} (least : ∀ w ∈ rest, v ≤ w) :
    Leftmost (v :: rest) 0 v where
  found := rfl
  least := List.forall_mem_cons.mpr ⟨le_refl v, least⟩
  first := fun m before => absurd before (Nat.not_lt_zero m)

theorem Leftmost.cons {v u : ℚ} {rest : List ℚ} {j : Nat} (leftmost : Leftmost rest j u)
    (lower : u < v) : Leftmost (v :: rest) (j + 1) u where
  found := leftmost.found
  least := List.forall_mem_cons.mpr ⟨le_of_lt lower, leftmost.least⟩
  first := by
    intro m before w at_
    cases m with
    | zero =>
        cases at_
        exact lower
    | succ m => exact leftmost.first m (Nat.lt_of_succ_lt_succ before) w at_

theorem Leftmost.unique {values : List ℚ} {j k : Nat} {u v : ℚ} (one : Leftmost values j u)
    (other : Leftmost values k v) : j = k := by
  have low := one.least v (List.mem_of_getElem? other.found)
  have high := other.least u (List.mem_of_getElem? one.found)
  rcases lt_trichotomy j k with before | same | after
  · exact absurd low (not_le.mpr (other.first j before u one.found))
  · exact same
  · exact absurd high (not_le.mpr (one.first k after v other.found))

/-- `wrr_min_index` stays where it is, or finds the lowest counter, which is below
    the one it started with. -/
theorem wrrMinIndex_spec (tunvals : List ℚ) (i : Nat) (min : ℚ) (minIndex : Nat) :
    (wrrMinIndex tunvals i min minIndex = minIndex ∧ ∀ v ∈ tunvals, min ≤ v) ∨
      ∃ j u, wrrMinIndex tunvals i min minIndex = i + j ∧ u < min ∧ Leftmost tunvals j u := by
  induction tunvals generalizing i min minIndex with
  | nil => exact .inl ⟨rfl, by simp⟩
  | cons tunval rest ih =>
      rw [wrrMinIndex]
      split
      next lower =>
        rcases ih (i + 1) tunval i with ⟨stayed, least⟩ | ⟨j, u, found, below, leftmost⟩
        · exact .inr ⟨0, tunval, stayed, lower, .head least⟩
        · exact .inr ⟨j + 1, u, by omega, below.trans lower, leftmost.cons below⟩
      next higher =>
        have above : min ≤ tunval := not_lt.mp higher
        rcases ih (i + 1) min minIndex with ⟨stayed, least⟩ | ⟨j, u, found, below, leftmost⟩
        · exact .inl ⟨stayed, List.forall_mem_cons.mpr ⟨above, least⟩⟩
        · exact .inr ⟨j + 1, u, by omega, below, leftmost.cons (below.trans_le above)⟩

/-- The record that is chosen: no counter below the sentinel is lower. -/
theorem wrrChoose_entry (nonempty : d.wrr ≠ []) :
    ∃ i v, d.wrr[wrrMinIndex (d.wrr.map Prod.snd) 0 100 0]? = some (i, v) ∧
      ∀ entry ∈ d.wrr, entry.2 < 100 → v ≤ entry.2 := by
  rcases wrrMinIndex_spec (d.wrr.map Prod.snd) 0 100 0 with
    ⟨stayed, least⟩ | ⟨j, u, found, _, leftmost⟩
  · obtain ⟨⟨i, v⟩, first⟩ : ∃ entry, d.wrr[0]? = some entry := by
      obtain ⟨entry, rest, same⟩ := List.exists_cons_of_ne_nil nonempty
      exact ⟨entry, by rw [same]; rfl⟩
    refine ⟨i, v, by rw [stayed, first], ?_⟩
    intro entry member low
    exact absurd low (not_lt.mpr (least entry.2 (List.mem_map_of_mem member)))
  · obtain ⟨⟨i, v⟩, at_, rfl⟩ := Option.map_eq_some_iff.mp (List.getElem?_map ▸ leftmost.found)
    refine ⟨i, v, by rw [found, Nat.zero_add, at_], ?_⟩
    intro entry member _
    exact leftmost.least entry.2 (List.mem_map_of_mem member)

theorem tunval_of_mem (distinct : (d.wrr.map Prod.fst).Nodup) {entry : Nat × ℚ}
    (member : entry ∈ d.wrr) : d.tunval entry.1 = entry.2 := by
  rw [tunval, Registry.get_of_mem distinct member]
  rfl

/-- What one call does to the counters. -/
structure Turn (d d' : Daemon κ) (i : Nat) : Prop where
  listed : i ∈ d.wrr.map Prod.fst
  table : d'.wrr.map Prod.fst = d.wrr.map Prod.fst
  tuns : d'.tuns = d.tuns
  chosen : d'.tunval i = d.wrrPeriod i
  others : ∀ j, j ≠ i → d'.tunval j = if 0 < d.tunval j then d.tunval j - 1 else d.tunval j
  least : ∀ j ∈ d.wrr.map Prod.fst, d.tunval j < 100 → d.tunval i ≤ d.tunval j

/-- A counter of the table goes down. -/
def lowerEntry (entry : Nat × ℚ) : Nat × ℚ :=
  (entry.1, if entry.2 > 0 then entry.2 - 1 else entry.2)

/-- A counter of the table starts anew. -/
def renewEntry (period : ℚ) (entry : Nat × ℚ) : Nat × ℚ := (entry.1, period)

/-- The table after a call, with the chosen entry found again by its tunnel. -/
theorem wrrChoose_eq (distinct : (d.wrr.map Prod.fst).Nodup) {v : ℚ}
    (at_ : d.wrr[wrrMinIndex (d.wrr.map Prod.snd) 0 100 0]? = some (i, v)) :
    d.wrrChoose = (some i, { d with
      wrr := Registry.revise Prod.fst (d.wrr.map lowerEntry) i (renewEntry (d.wrrPeriod i)) }) := by
  have keys : ((d.wrr.map lowerEntry).map Prod.fst).Nodup := by
    rw [List.map_map]
    exact distinct
  have lowered : (d.wrr.map lowerEntry)[wrrMinIndex (d.wrr.map Prod.snd) 0 100 0]? =
      some (lowerEntry (i, v)) := by
    rw [List.getElem?_map, at_, Option.map_some]
  have renewed := Registry.set_eq_revise keys lowered (renewEntry (d.wrrPeriod i))
  have tunnel : (lowerEntry (i, v)).1 = i := rfl
  rw [tunnel] at renewed
  rw [← renewed]
  simp only [wrrChoose, at_]
  rfl

theorem lowerEntry_getD (found : Option (Nat × ℚ)) :
    ((found.map lowerEntry).map Prod.snd).getD 0 =
      if 0 < (found.map Prod.snd).getD 0 then (found.map Prod.snd).getD 0 - 1
      else (found.map Prod.snd).getD 0 := by
  cases found <;> rfl

theorem wrrChoose_turn (distinct : (d.wrr.map Prod.fst).Nodup) (nonempty : d.wrr ≠ []) :
    ∃ i, d.wrrChoose.1 = some i ∧ Turn d d.wrrChoose.2 i := by
  obtain ⟨i, v, at_, least⟩ := wrrChoose_entry nonempty
  have member : (i, v) ∈ d.wrr := List.mem_of_getElem? at_
  have lower (entry : Nat × ℚ) : (lowerEntry entry).1 = entry.1 := rfl
  have renew (entry : Nat × ℚ) : (renewEntry (d.wrrPeriod i) entry).1 = entry.1 := rfl
  rw [wrrChoose_eq distinct at_]
  refine ⟨i, rfl, List.mem_map_of_mem member, ?_, rfl, ?_, ?_, ?_⟩
  · simp only [Registry.map_key_revise renew, List.map_map]
    rfl
  · simp only [tunval, Registry.get_revise renew, Registry.get_map lower, if_true,
      Registry.get_of_mem distinct member]
    rfl
  · intro j other
    simp only [tunval, Registry.get_revise renew, Registry.get_map lower, other, if_false]
    exact lowerEntry_getD _
  · intro j listed low
    obtain ⟨entry, there, rfl⟩ := List.mem_map.mp listed
    have chosen := tunval_of_mem distinct member
    rw [tunval_of_mem distinct there] at low ⊢
    rw [chosen]
    exact least entry there low

/-- The table keeps its tunnels, and they keep their weights. -/
theorem wrrRun_table (distinct : (d.wrr.map Prod.fst).Nodup) (nonempty : d.wrr ≠ []) (k : Nat) :
    (d.wrrRun k).wrr.map Prod.fst = d.wrr.map Prod.fst ∧ (d.wrrRun k).tuns = d.tuns := by
  induction k with
  | zero => exact ⟨rfl, rfl⟩
  | succ k ih =>
      obtain ⟨table, tuns⟩ := ih
      have listed : (d.wrrRun k).wrr ≠ [] := by
        intro empty
        rw [empty] at table
        exact nonempty (List.map_eq_nil_iff.mp table.symm)
      obtain ⟨i, _, turn⟩ := wrrChoose_turn (by rw [table]; exact distinct) listed
      exact ⟨turn.table.trans table, turn.tuns.trans tuns⟩

/-- The turn after `k` calls. -/
theorem wrrRun_turn (distinct : (d.wrr.map Prod.fst).Nodup) (nonempty : d.wrr ≠ []) (k : Nat) :
    ∃ i, d.wrrPick k = some i ∧ Turn (d.wrrRun k) (d.wrrRun (k + 1)) i := by
  obtain ⟨table, _⟩ := wrrRun_table distinct nonempty k
  apply wrrChoose_turn
  · rw [table]
    exact distinct
  · intro empty
    rw [empty] at table
    exact nonempty (List.map_eq_nil_iff.mp table.symm)

/-- The calls of `mlvpn_rtun_wrr_choose` are turns by countdown. -/
theorem wrrRun_turns (distinct : (d.wrr.map Prod.fst).Nodup) (nonempty : d.wrr ≠ []) :
    Turns d.wrrPeriod (fun k => (d.wrrRun k).tunval) fun k => (d.wrrPick k).getD 0 := by
  have period (k i : Nat) : (d.wrrRun k).wrrPeriod i = d.wrrPeriod i := by
    unfold wrrPeriod tun
    rw [(wrrRun_table distinct nonempty k).2]
  constructor
  · intro k
    obtain ⟨i, picked, turn⟩ := wrrRun_turn distinct nonempty k
    simp only [picked, Option.getD_some]
    rw [turn.chosen, period]
  · intro k j other
    obtain ⟨i, picked, turn⟩ := wrrRun_turn distinct nonempty k
    simp only [picked, Option.getD_some] at other
    exact turn.others j other

theorem wrrPick_mem (distinct : (d.wrr.map Prod.fst).Nodup) (nonempty : d.wrr ≠ []) (k : Nat) :
    (d.wrrPick k).getD 0 ∈ (d.wrr.map Prod.fst).toFinset := by
  obtain ⟨i, picked, turn⟩ := wrrRun_turn distinct nonempty k
  have listed := turn.listed
  rw [(wrrRun_table distinct nonempty k).1] at listed
  rw [picked]
  exact List.mem_toFinset.mpr listed

/-- No counter of the table is lower than that of the tunnel that is chosen, unless it
    reaches the start value of the search. -/
theorem wrrPick_least (distinct : (d.wrr.map Prod.fst).Nodup) (nonempty : d.wrr ≠ []) {k j : Nat}
    (listed : j ∈ d.wrr.map Prod.fst) (low : (d.wrrRun k).tunval j < 100) :
    (d.wrrRun k).tunval ((d.wrrPick k).getD 0) ≤ (d.wrrRun k).tunval j := by
  obtain ⟨i, picked, turn⟩ := wrrRun_turn distinct nonempty k
  rw [picked]
  refine turn.least j ?_ low
  rw [(wrrRun_table distinct nonempty k).1]
  exact listed

/-- The weights are computed, and the table is reset to some of the tunnels. -/
def balanced (d : Daemon κ) (table : List Nat) : Daemon κ :=
  { d.recalcWeight with wrr := table.map fun i => (i, 0) }

theorem balanced_table (d : Daemon κ) (table : List Nat) :
    (d.balanced table).wrr.map Prod.fst = table := by
  simp only [balanced, List.map_map, Function.comp_def, List.map_id']

theorem balanced_nodup {table : List Nat} (tunnels : table.Nodup) :
    ((d.balanced table).wrr.map Prod.fst).Nodup := by
  rw [balanced_table]
  exact tunnels

theorem balanced_tunval (d : Daemon κ) (table : List Nat) (i : Nat) :
    (d.balanced table).tunval i = 0 := by
  unfold tunval
  cases found : Registry.get Prod.fst (d.balanced table).wrr i with
  | none => rfl
  | some entry =>
      obtain ⟨member, _⟩ := Registry.mem_of_get found
      obtain ⟨j, _, rfl⟩ := List.mem_map.mp member
      rfl

/-- A sum of 32 bits is the sum up to a multiple of `2 ^ 32`. -/
theorem toNat_sum_mod (values : List UInt32) :
    values.sum.toNat = (values.map UInt32.toNat).sum % 2 ^ 32 := by
  induction values with
  | nil => rfl
  | cons v rest ih => simp [ih]

theorem toNat_sum {values : List UInt32} (fits : (values.map UInt32.toNat).sum < 2 ^ 32) :
    values.sum.toNat = (values.map UInt32.toNat).sum := by
  rw [toNat_sum_mod, Nat.mod_eq_of_lt fits]

/-- The sum of the bandwidths, if it fits the 32 bits it is computed in. -/
theorem bandwidth_sum (fits : (d.rtuns.map fun i => (d.tun i).bandwidth.toNat).sum < 2 ^ 32) :
    (d.rtuns.map fun i => (d.tun i).bandwidth).sum.toNat =
      (d.rtuns.map fun i => (d.tun i).bandwidth.toNat).sum := by
  rw [toNat_sum (by rw [List.map_map]; exact fits), List.map_map]
  rfl

/-- The tunnels that `mlvpn_rtun_recalc_weight` leaves, if all have a bandwidth. -/
theorem recalcWeight_tun (distinct : d.rtuns.Nodup) (inside : d.Inside)
    (bandwidths : ∀ i ∈ d.rtuns, (d.tun i).bandwidth ≠ 0) :
    d.recalcWeight.rtuns = d.rtuns ∧ ∀ i ∈ d.rtuns, d.recalcWeight.tun i =
      (d.tun i).weigh (d.rtuns.map fun i => (d.tun i).bandwidth).sum := by
  have set_ : ¬ ∃ i ∈ d.rtuns, (d.tun i).bandwidth = 0 := by
    rintro ⟨j, member, zero⟩
    exact bandwidths j member zero
  rw [recalcWeight, if_neg set_]
  obtain ⟨rtuns, weighed⟩ := foldl_modify (d := d)
    (·.weigh (d.rtuns.map fun i => (d.tun i).bandwidth).sum) d.rtuns distinct inside
  refine ⟨rtuns, fun i listed => ?_⟩
  rw [weighed i, if_pos listed]

/-- The weight that `mlvpn_rtun_recalc_weight` gives a tunnel. -/
theorem balanced_weight (distinct : d.rtuns.Nodup) (inside : d.Inside)
    (bandwidths : ∀ i ∈ d.rtuns, (d.tun i).bandwidth ≠ 0)
    (total : (d.rtuns.map fun i => (d.tun i).bandwidth).sum ≠ 0) (table : List Nat)
    (listed : i ∈ d.rtuns) :
    ((d.balanced table).tun i).weight =
      (d.tun i).bandwidth.toNat / (d.rtuns.map fun i => (d.tun i).bandwidth).sum.toNat * 100 := by
  have same : (d.balanced table).tun i = d.recalcWeight.tun i := rfl
  have positive : (d.tun i).bandwidth > 0 ∧
      (d.rtuns.map fun i => (d.tun i).bandwidth).sum > 0 :=
    ⟨UInt32.pos_iff_ne_zero.mpr (bandwidths i listed), UInt32.pos_iff_ne_zero.mpr total⟩
  rw [same, (recalcWeight_tun distinct inside bandwidths).2 i listed, Tunnel.weigh, if_pos positive]

/-- The period of a tunnel is the whole bandwidth by its own. -/
theorem balanced_period (distinct : d.rtuns.Nodup) (inside : d.Inside)
    (bandwidths : ∀ i ∈ d.rtuns, (d.tun i).bandwidth ≠ 0)
    (total : (d.rtuns.map fun i => (d.tun i).bandwidth).sum ≠ 0) (table : List Nat)
    (listed : i ∈ d.rtuns) :
    (d.balanced table).wrrPeriod i =
        (d.rtuns.map fun i => (d.tun i).bandwidth).sum.toNat / (d.tun i).bandwidth.toNat ∧
      0 < (d.balanced table).wrrPeriod i := by
  have own : (0 : ℚ) < (d.tun i).bandwidth.toNat :=
    Nat.cast_pos.mpr (UInt32.pos_iff_ne_zero.mpr (bandwidths i listed))
  have whole : (0 : ℚ) < (d.rtuns.map fun i => (d.tun i).bandwidth).sum.toNat :=
    Nat.cast_pos.mpr (UInt32.pos_iff_ne_zero.mpr total)
  have period : (d.balanced table).wrrPeriod i =
      (d.rtuns.map fun i => (d.tun i).bandwidth).sum.toNat / (d.tun i).bandwidth.toNat := by
    rw [wrrPeriod, balanced_weight distinct inside bandwidths total table listed]
    field_simp
  exact ⟨period, period ▸ div_pos whole own⟩

/-- The rates of the tunnels of a table add up to at most one. -/
theorem balanced_rate (distinct : d.rtuns.Nodup) (inside : d.Inside)
    (bandwidths : ∀ i ∈ d.rtuns, (d.tun i).bandwidth ≠ 0)
    (total : (d.rtuns.map fun i => (d.tun i).bandwidth).sum ≠ 0)
    (fits : (d.rtuns.map fun i => (d.tun i).bandwidth.toNat).sum < 2 ^ 32) {table : List Nat}
    (sub : table.Sublist d.rtuns) :
    ∑ i ∈ table.toFinset, 1 / (d.balanced table).wrrPeriod i ≤ 1 := by
  have whole : (0 : ℚ) < (d.rtuns.map fun i => (d.tun i).bandwidth).sum.toNat :=
    Nat.cast_pos.mpr (UInt32.pos_iff_ne_zero.mpr total)
  have rates : ∀ i ∈ table, 1 / (d.balanced table).wrrPeriod i =
      (d.tun i).bandwidth.toNat / (d.rtuns.map fun i => (d.tun i).bandwidth).sum.toNat := by
    intro i member
    have period := (balanced_period distinct inside bandwidths total table (sub.subset member)).1
    rw [period, one_div_div]
  have parts : ((table.map fun i => (d.tun i).bandwidth.toNat).sum : ℚ) ≤
      (d.rtuns.map fun i => (d.tun i).bandwidth).sum.toNat := by
    rw [bandwidth_sum fits]
    exact_mod_cast (sub.map _).sum_le_sum (fun _ _ => Nat.zero_le _)
  rw [List.sum_toFinset _ (distinct.sublist sub), List.map_congr_left rates]
  have divided : (table.map fun i => ((d.tun i).bandwidth.toNat : ℚ) /
      (d.rtuns.map fun i => (d.tun i).bandwidth).sum.toNat).sum =
        ((table.map fun i => (d.tun i).bandwidth.toNat).sum : ℚ) /
          (d.rtuns.map fun i => (d.tun i).bandwidth).sum.toNat := by
    simp only [div_eq_mul_inv, List.sum_map_mul_right, Nat.cast_list_sum, List.map_map,
      Function.comp_def]
  rw [divided, div_le_one whole]
  exact parts

theorem balanced_nonempty {table : List Nat} (member : i ∈ table) : (d.balanced table).wrr ≠ [] := by
  intro empty
  have table_ := balanced_table d table
  rw [empty] at table_
  rw [← table_] at member
  cases member

theorem total_ne_zero (bandwidths : ∀ i ∈ d.rtuns, (d.tun i).bandwidth ≠ 0)
    (fits : (d.rtuns.map fun i => (d.tun i).bandwidth.toNat).sum < 2 ^ 32) (listed : i ∈ d.rtuns) :
    (d.rtuns.map fun i => (d.tun i).bandwidth).sum ≠ 0 := by
  intro zero
  have sum := bandwidth_sum fits
  rw [zero] at sum
  have part := List.le_sum_of_mem (List.mem_map_of_mem (f := fun i => (d.tun i).bandwidth.toNat) listed)
  have own : 0 < (d.tun i).bandwidth.toNat := UInt32.pos_iff_ne_zero.mpr (bandwidths i listed)
  rw [← sum] at part
  exact absurd part (Nat.not_le.mpr own)

theorem balanced_start {table : List Nat} (positive : 0 < (d.balanced table).wrrPeriod i) :
    -1 < ((d.balanced table).wrrRun 0).tunval i ∧
      ((d.balanced table).wrrRun 0).tunval i ≤ (d.balanced table).wrrPeriod i := by
  rw [wrrRun, balanced_tunval]
  exact ⟨by norm_num, le_of_lt positive⟩

/-- No tunnel of the table is starved: it is chosen again within as many of its
    periods as the table has tunnels, whatever was chosen before. -/
theorem wrr_never_starves (distinct : d.rtuns.Nodup) (inside : d.Inside)
    (bandwidths : ∀ i ∈ d.rtuns, (d.tun i).bandwidth ≠ 0)
    (fits : (d.rtuns.map fun i => (d.tun i).bandwidth.toNat).sum < 2 ^ 32) {table : List Nat}
    (sub : table.Sublist d.rtuns) {x : Nat} (member : x ∈ table) (m : Nat) :
    ∃ k, m ≤ k ∧ k < m + (table.length * ⌈100 / ((d.balanced table).tun x).weight⌉₊ + 1) ∧
      (d.balanced table).wrrPick k = some x := by
  have total := total_ne_zero bandwidths fits (sub.subset member)
  have keys := balanced_nodup (d := d) (distinct.sublist sub)
  have nonempty := balanced_nonempty (d := d) member
  have turns := wrrRun_turns keys nonempty
  have positive : ∀ j ∈ table.toFinset, 0 < (d.balanced table).wrrPeriod j := by
    intro j listed
    exact (balanced_period distinct inside bandwidths total table
      (sub.subset (List.mem_toFinset.mp listed))).2
  have within := wrrPick_mem keys nonempty
  rw [balanced_table] at within
  have least : ∀ k, ((d.balanced table).wrrRun k).tunval x ≤ 0 →
      ((d.balanced table).wrrRun k).tunval (((d.balanced table).wrrPick k).getD 0) ≤
        ((d.balanced table).wrrRun k).tunval x := by
    intro k done
    apply wrrPick_least keys nonempty
    · rw [balanced_table]
      exact member
    · exact lt_of_le_of_lt done (by norm_num)
  obtain ⟨k, low, high, found⟩ := turns.recurs (List.mem_toFinset.mpr member) positive
    (fun j listed => balanced_start (positive j listed)) (balanced_rate distinct inside bandwidths total fits sub) within least m
  rw [List.toFinset_card_of_nodup (distinct.sublist sub)] at high
  obtain ⟨i, picked, _⟩ := wrrRun_turn keys nonempty k
  rw [picked, Option.getD_some] at found
  exact ⟨k, low, high, found ▸ picked⟩

/-- Two tunnels of a server. -/
def twoLinks (first second : UInt32) : Daemon Unit :=
  let conf : TunnelConf :=
    { name := "a", bindaddr := none, bindport := some "5080", bindfib := 0, destaddr := none
      destport := none, timeout := 60, fallbackOnly := 0, bandwidth := first, lossTolerence := 100
      latencyTolerence := 1000 }
  let start : Daemon Unit := .init ⟨.little, plainBox, ()⟩
  (start.rtunNew conf true 1 0).rtunNew
    { conf with name := "b", bindport := some "5081", bandwidth := second } true 2 0

theorem twoLinks_inside (first second : UInt32) : (twoLinks first second).Inside := by
  intro i listed
  have small : i ∈ [1, 0] := listed
  have length : (twoLinks first second).tuns.length = 2 := rfl
  rw [length]
  simp only [List.mem_cons, List.not_mem_nil, or_false] at small
  omega

/-- The slower of two tunnels has a period of two and a half calls. -/
theorem wrr_never_starves_slower :
    ((twoLinks 3 2).balanced [1, 0]).wrrPeriod 1 = 5 / 2 ∧
      ∃ k, 5 ≤ k ∧ k < 5 + (2 * ⌈100 / (((twoLinks 3 2).balanced [1, 0]).tun 1).weight⌉₊ + 1) ∧
        ((twoLinks 3 2).balanced [1, 0]).wrrPick k = some 1 :=
  ⟨by decide +kernel,
    wrr_never_starves (by decide) (twoLinks_inside 3 2) (by decide +kernel) (by decide +kernel)
      (List.Sublist.refl [1, 0]) (by decide) 5⟩

/-- The calls among the first `k` that chose a tunnel. -/
def wrrCount (d : Daemon κ) (i k : Nat) : Nat := Nat.count (fun j => d.wrrPick j = some i) k

/-- After `k` calls, every tunnel has been chosen in proportion to its weight, up
    to the number of tunnels. -/
def Proportional (d : Daemon κ) (table : List Nat) (k : Nat) : Prop :=
  ∀ i ∈ table, |(d.wrrCount i k : ℚ) -
    k * (d.tun i).weight / (table.map fun i => (d.tun i).weight).sum| ≤ table.length

instance (d : Daemon κ) (table : List Nat) (k : Nat) : Decidable (d.Proportional table k) :=
  inferInstanceAs (Decidable (∀ i ∈ table, _ ≤ _))

theorem wrrCount_eq (keys : (d.wrr.map Prod.fst).Nodup) (nonempty : d.wrr ≠ []) (i k : Nat) :
    d.wrrCount i k = Nat.count (fun j => (d.wrrPick j).getD 0 = i) k := by
  apply le_antisymm
  · apply Nat.count_mono_left
    intro j _ picked
    rw [picked, Option.getD_some]
  · apply Nat.count_mono_left
    intro j _ found
    obtain ⟨i', picked, _⟩ := wrrRun_turn keys nonempty j
    rw [picked, Option.getD_some] at found
    rw [picked, found]

/-- Tunnels of one weight are chosen in turn, if their periods are below the start value of
    the search. -/
theorem balanced_shares (distinct : d.rtuns.Nodup) (inside : d.Inside)
    (bandwidths : ∀ i ∈ d.rtuns, (d.tun i).bandwidth ≠ 0)
    (fits : (d.rtuns.map fun i => (d.tun i).bandwidth.toNat).sum < 2 ^ 32) {table : List Nat}
    (sub : table.Sublist d.rtuns) {w : ℚ} (large : 1 ≤ w)
    (equal : ∀ i ∈ table, ((d.balanced table).tun i).weight = w) (k : Nat) (member : i ∈ table) :
    k / table.length ≤ (d.balanced table).wrrCount i k ∧
      (d.balanced table).wrrCount i k ≤ k / table.length + 1 := by
  have total := total_ne_zero bandwidths fits (sub.subset member)
  have keys := balanced_nodup (d := d) (distinct.sublist sub)
  have nonempty := balanced_nonempty (d := d) member
  have card : table.toFinset.card = table.length := List.toFinset_card_of_nodup (distinct.sublist sub)
  have one : ∀ j ∈ table.toFinset, (d.balanced table).wrrPeriod j = 100 / w := by
    intro j listed
    rw [wrrPeriod, equal j (List.mem_toFinset.mp listed)]
  have positive : 0 < 100 / w := by positivity
  have room : (table.toFinset.card : ℚ) ≤ 100 / w := by
    have rate := balanced_rate distinct inside bandwidths total fits sub
    rw [Finset.sum_congr rfl fun j listed => by rw [one j listed], Finset.sum_const, nsmul_eq_mul,
      mul_one_div, div_le_one positive] at rate
    exact rate
  have within := wrrPick_mem keys nonempty
  rw [balanced_table] at within
  have least : ∀ k, ∀ j ∈ table.toFinset, ((d.balanced table).wrrRun k).tunval j ≤ 100 / w - 1 →
      ((d.balanced table).wrrRun k).tunval (((d.balanced table).wrrPick k).getD 0) ≤
        ((d.balanced table).wrrRun k).tunval j := by
    intro k j listed low
    apply wrrPick_least keys nonempty
    · rw [balanced_table]
      exact List.mem_toFinset.mp listed
    · have below : 100 / w ≤ 100 := div_le_self (by norm_num) large
      linarith
  rw [wrrCount_eq keys nonempty, ← card]
  exact (wrrRun_turns keys nonempty).shares one room
    (fun j listed => balanced_start ((one j listed).symm ▸ positive)) within least k
    (List.mem_toFinset.mpr member)

/-- Tunnels of one weight, of at least one percent, are chosen in proportion. -/
theorem balanced_proportional (distinct : d.rtuns.Nodup) (inside : d.Inside)
    (bandwidths : ∀ i ∈ d.rtuns, (d.tun i).bandwidth ≠ 0)
    (fits : (d.rtuns.map fun i => (d.tun i).bandwidth.toNat).sum < 2 ^ 32) {table : List Nat}
    (sub : table.Sublist d.rtuns) {w : ℚ} (large : 1 ≤ w)
    (equal : ∀ i ∈ table, ((d.balanced table).tun i).weight = w) (k : Nat) :
    (d.balanced table).Proportional table k := by
  intro i member
  obtain ⟨low, high⟩ := balanced_shares distinct inside bandwidths fits sub large equal k member
  have size : (0 : ℚ) < table.length := Nat.cast_pos.mpr (List.length_pos_of_mem member)
  have atLeastOne : (1 : ℚ) ≤ table.length := Nat.one_le_cast.mpr (List.length_pos_of_mem member)
  have share : k * ((d.balanced table).tun i).weight /
      (table.map fun i => ((d.balanced table).tun i).weight).sum = k / table.length := by
    rw [List.map_congr_left equal, List.map_const', List.sum_replicate, nsmul_eq_mul, equal i member]
    field_simp
  have floor : ((k / table.length : Nat) : ℚ) ≤ k / table.length := by
    rw [le_div_iff₀ size]
    exact_mod_cast Nat.div_mul_le_self k table.length
  have ceiling : (k : ℚ) / table.length < (k / table.length : Nat) + 1 := by
    rw [div_lt_iff₀ size, mul_comm]
    exact_mod_cast Nat.lt_mul_div_succ k (List.length_pos_of_mem member)
  have few : ((k / table.length : Nat) : ℚ) ≤ (d.balanced table).wrrCount i k := by exact_mod_cast low
  have many : ((d.balanced table).wrrCount i k : ℚ) ≤ (k / table.length : Nat) + 1 := by
    exact_mod_cast high
  rw [share, abs_le]
  constructor <;> linarith

/-- Of two counters, the second is found only if it is lower. -/
theorem wrrChoose_pair (table : d.wrr.map Prod.fst = [i, j]) (distinct : i ≠ j)
    (low : d.tunval i < 100 ∨ d.tunval j < 100) :
    d.wrrChoose.1 = some j ↔ d.tunval j < d.tunval i := by
  obtain ⟨u, v, whole⟩ : ∃ u v, d.wrr = [(i, u), (j, v)] := by
    obtain ⟨⟨_, u⟩, rest, whole, rfl, tail⟩ := List.map_eq_cons_iff.mp table
    obtain ⟨⟨_, v⟩, _, rfl, rfl, none⟩ := List.map_eq_cons_iff.mp tail
    obtain rfl := List.map_eq_nil_iff.mp none
    exact ⟨u, v, whole⟩
  have keys : (d.wrr.map Prod.fst).Nodup := by simpa [whole] using distinct
  have first : d.tunval i = u := by
    simpa only using tunval_of_mem keys (show (i, u) ∈ d.wrr by simp [whole])
  have second : d.tunval j = v := by
    simpa only using tunval_of_mem keys (show (j, v) ∈ d.wrr by simp [whole])
  rw [first, second] at low ⊢
  by_cases lower : v < u
  · have index : wrrMinIndex [u, v] 0 100 0 = 1 := by
      have below : v < 100 := low.elim lower.trans id
      by_cases start : u < 100
      · simp [wrrMinIndex, start, lower]
      · simp [wrrMinIndex, start, below]
    simp [wrrChoose, whole, index, lower]
  · have index : wrrMinIndex [u, v] 0 100 0 = 0 := by
      have start : u < 100 := low.elim id (not_lt.mp lower).trans_lt
      simp [wrrMinIndex, start, lower]
    simp [wrrChoose, whole, index, lower, distinct]

theorem wrrPeriod_eq_mul_iff {x y : Nat} (heavy : 0 < (d.tun x).weight) (light : 0 < (d.tun y).weight)
    {m : Nat} : d.wrrPeriod y = m * d.wrrPeriod x ↔ (d.tun x).weight = m * (d.tun y).weight := by
  unfold wrrPeriod
  rw [mul_div_assoc', div_eq_div_iff (by positivity) (by positivity)]
  constructor <;> intro same <;> linarith

/-- The share of one of two tunnels is the rest of that of the other. -/
theorem proportional_pair_iff {table : List Nat} {x y : Nat} (pair : table = [x, y] ∨ table = [y, x])
    (heavy : 0 < (d.tun x).weight) (light : 0 < (d.tun y).weight) {k : Nat}
    (all : d.wrrCount x k + d.wrrCount y k = k) :
    d.Proportional table k ↔
      |(d.wrrCount y k : ℚ) - k * (d.wrrPeriod x / (d.wrrPeriod x + d.wrrPeriod y))| ≤ 2 := by
  have sum : (table.map fun i => (d.tun i).weight).sum = (d.tun x).weight + (d.tun y).weight := by
    rcases pair with rfl | rfl
    · simp
    · simp [add_comm]
  have length : (table.length : ℚ) = 2 := by rcases pair with rfl | rfl <;> norm_num
  have members : ∀ i, i ∈ table ↔ i = x ∨ i = y := by rcases pair with rfl | rfl <;> simp [or_comm]
  have share : d.wrrPeriod x / (d.wrrPeriod x + d.wrrPeriod y) =
      (d.tun y).weight / ((d.tun x).weight + (d.tun y).weight) := by
    unfold wrrPeriod
    field_simp
    ring
  have counts : (d.wrrCount x k : ℚ) = k - d.wrrCount y k := by
    rw [eq_sub_iff_add_eq]
    exact_mod_cast all
  have other : (d.wrrCount x k : ℚ) - k * (d.tun x).weight / ((d.tun x).weight + (d.tun y).weight) =
      -(d.wrrCount y k - k * (d.tun y).weight / ((d.tun x).weight + (d.tun y).weight)) := by
    rw [counts]
    field_simp
    ring
  unfold Proportional
  simp only [members, forall_eq_or_imp, forall_eq, sum, length, other, abs_neg, and_self, share,
    ← mul_div_assoc]

section Pair

variable {table : List Nat} {x y : Nat} (distinct : d.rtuns.Nodup) (inside : d.Inside)
  (bandwidths : ∀ i ∈ d.rtuns, (d.tun i).bandwidth ≠ 0)
  (fits : (d.rtuns.map fun i => (d.tun i).bandwidth.toNat).sum < 2 ^ 32) (sub : table.Sublist d.rtuns)

include distinct inside bandwidths fits sub

/-- Two tunnels, by what the search does with their counters. -/
theorem balanced_pair_iff (pair : table = [x, y] ∨ table = [y, x]) {Prior : ℚ → ℚ → Prop}
    (below : ∀ u v, u < v → Prior u v) (above : ∀ u v, Prior u v → u ≤ v)
    (heavier : ((d.balanced table).tun y).weight ≤ ((d.balanced table).tun x).weight)
    (rule : ∀ k, (d.balanced table).wrrPick k = some y ↔
      Prior (((d.balanced table).wrrRun k).tunval y) (((d.balanced table).wrrRun k).tunval x)) :
    (∀ k, (d.balanced table).Proportional table k) ↔
      ∃ m : Nat, ((d.balanced table).tun x).weight = m * ((d.balanced table).tun y).weight ∧
        Prior (100 / ((d.balanced table).tun y).weight - m) (100 / ((d.balanced table).tun x).weight) := by
  have tunnels : table.Nodup := distinct.sublist sub
  have members : ∀ i, i ∈ table ↔ i = x ∨ i = y := by rcases pair with rfl | rfl <;> simp [or_comm]
  have apart : x ≠ y := by
    rcases pair with rfl | rfl
    · simpa using tunnels
    · simpa [eq_comm] using tunnels
  have inX : x ∈ table := (members x).mpr (.inl rfl)
  have inY : y ∈ table := (members y).mpr (.inr rfl)
  have total := total_ne_zero bandwidths fits (sub.subset inX)
  have keys := balanced_nodup (d := d) tunnels
  have nonempty := balanced_nonempty (d := d) inX
  have positive (i : Nat) (member : i ∈ table) : 0 < (d.balanced table).wrrPeriod i :=
    (balanced_period distinct inside bandwidths total table (sub.subset member)).2
  have weight (i : Nat) (member : i ∈ table) : 0 < ((d.balanced table).tun i).weight :=
    (div_pos_iff_of_pos_left (by norm_num)).mp (positive i member)
  have rate := balanced_rate distinct inside bandwidths total fits sub
  have both : table.toFinset = {x, y} := by
    ext i
    simp [members]
  rw [both, Finset.sum_pair apart] at rate
  have more : 1 < (d.balanced table).wrrPeriod x := by
    have := one_div_pos.mpr (positive y inY)
    exact (div_lt_one (positive x inX)).mp (by linarith)
  have order : (d.balanced table).wrrPeriod x ≤ (d.balanced table).wrrPeriod y :=
    div_le_div_of_nonneg_left (by norm_num) (weight y inY) heavier
  have picks (k : Nat) : (d.balanced table).wrrPick k = some y ↔
      ((d.balanced table).wrrPick k).getD 0 = y := by
    obtain ⟨i, picked, _⟩ := wrrRun_turn keys nonempty k
    simp [picked]
  have within (k : Nat) : ((d.balanced table).wrrPick k).getD 0 = x ∨
      ((d.balanced table).wrrPick k).getD 0 = y := by
    have listed := wrrPick_mem keys nonempty k
    rw [balanced_table] at listed
    exact (members _).mp (List.mem_toFinset.mp listed)
  have all (k : Nat) : (d.balanced table).wrrCount x k + (d.balanced table).wrrCount y k = k := by
    have sum := Turns.sum_count (J := {x, y}) (fun k => by simpa using within k) 0 k
    rw [Finset.sum_pair apart] at sum
    rw [wrrCount_eq keys nonempty, wrrCount_eq keys nonempty]
    simpa only [Nat.zero_add] using sum
  have shares := (wrrRun_turns keys nonempty).shares_two_iff apart rfl rfl within below above more order
    (fun k => by rw [← picks, rule]) (balanced_tunval ..) (balanced_tunval ..)
  simp only [← wrrCount_eq keys nonempty] at shares
  simp only [proportional_pair_iff pair (weight x inX) (weight y inY) (all _), shares]
  simp only [wrrPeriod_eq_mul_iff (weight x inX) (weight y inY)]
  rfl

/-- Of two tunnels the second is chosen only if its counter is lower. -/
theorem balanced_pair_picks (pair : table = [i, j])
    (heavy : 1 < ((d.balanced table).tun i).weight ∨ 1 < ((d.balanced table).tun j).weight) (k : Nat) :
    ((d.balanced table).wrrPick k = some j ↔
        ((d.balanced table).wrrRun k).tunval j < ((d.balanced table).wrrRun k).tunval i) ∧
      ((d.balanced table).wrrPick k = some i ↔
        ((d.balanced table).wrrRun k).tunval i ≤ ((d.balanced table).wrrRun k).tunval j) := by
  have tunnels : table.Nodup := distinct.sublist sub
  have apart : i ≠ j := by simpa [pair] using tunnels
  have inI : i ∈ table := by simp [pair]
  have inJ : j ∈ table := by simp [pair]
  have total := total_ne_zero bandwidths fits (sub.subset inI)
  have keys := balanced_nodup (d := d) tunnels
  have nonempty := balanced_nonempty (d := d) inI
  have same : ((d.balanced table).wrrRun k).wrr.map Prod.fst = [i, j] := by
    rw [(wrrRun_table keys nonempty k).1, balanced_table, pair]
  have low {l : Nat} (member : l ∈ table) (above : 1 < ((d.balanced table).tun l).weight) :
      ((d.balanced table).wrrRun k).tunval l < 100 := by
    have positive := (balanced_period distinct inside bandwidths total table (sub.subset member)).2
    have bound := ((wrrRun_turns keys nonempty).bounded positive (balanced_start positive) k).2
    exact bound.trans_lt (div_lt_self (by norm_num) above)
  have second := wrrChoose_pair same apart (heavy.imp (low inI) (low inJ))
  refine ⟨second, ?_⟩
  rw [← not_lt, ← second]
  obtain ⟨l, picked, turn⟩ := wrrRun_turn keys nonempty k
  have listed := turn.listed
  rw [same, List.mem_cons, List.mem_singleton] at listed
  have here : ((d.balanced table).wrrRun k).wrrChoose.1 = some l := picked
  rw [picked, here]
  rcases listed with rfl | rfl
  · simp [apart]
  · simp [apart.symm]

end Pair

end Mlvpn.Daemon
