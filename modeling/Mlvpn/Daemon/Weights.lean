import Mlvpn.Daemon.RoundRobin

/-! # The weights of the tunnels

`mlvpn_rtun_recalc_weight` gives every tunnel its percentage of the whole bandwidth, which
it adds up in 32 bits.  Where the sum wraps the weights come out too large, and where it
wraps to zero they stay as they were.
-/

namespace Mlvpn.Daemon

variable {κ : Type} {d : Daemon κ} {i : Nat}

/-- The bandwidths of all tunnels together. -/
def wholeBandwidth (d : Daemon κ) : Nat := (d.rtuns.map fun i => (d.tun i).bandwidth.toNat).sum

/-- The weights are percentages of the whole bandwidth. -/
structure WeighedByShare (d : Daemon κ) : Prop where
  share : ∀ i ∈ d.rtuns, (d.tun i).weight = 100 * (d.tun i).bandwidth.toNat / d.wholeBandwidth
  whole : (d.rtuns.map fun i => (d.tun i).weight).sum = 100
  range : ∀ i ∈ d.rtuns, 0 < (d.tun i).weight ∧ (d.tun i).weight ≤ 100

theorem bandwidth_le_whole (listed : i ∈ d.rtuns) : (d.tun i).bandwidth.toNat ≤ d.wholeBandwidth :=
  List.le_sum_of_mem (List.mem_map_of_mem (f := fun i => (d.tun i).bandwidth.toNat) listed)

theorem bandwidth_pos (bandwidths : ∀ i ∈ d.rtuns, (d.tun i).bandwidth ≠ 0) (listed : i ∈ d.rtuns) :
    0 < (d.tun i).bandwidth.toNat :=
  UInt32.pos_iff_ne_zero.mpr (bandwidths i listed)

theorem wholeBandwidth_pos (nonempty : d.rtuns ≠ [])
    (bandwidths : ∀ i ∈ d.rtuns, (d.tun i).bandwidth ≠ 0) : 0 < d.wholeBandwidth := by
  obtain ⟨i, listed⟩ := List.exists_mem_of_ne_nil d.rtuns nonempty
  exact (bandwidth_pos bandwidths listed).trans_le (bandwidth_le_whole listed)

/-- Percentages of the whole add up to 100. -/
theorem WeighedByShare.of_share (nonempty : d.rtuns ≠ [])
    (bandwidths : ∀ i ∈ d.rtuns, (d.tun i).bandwidth ≠ 0)
    (share : ∀ i ∈ d.rtuns,
      (d.tun i).weight = 100 * (d.tun i).bandwidth.toNat / d.wholeBandwidth) :
    d.WeighedByShare := by
  have positive : (0 : ℚ) < d.wholeBandwidth := by
    exact_mod_cast wholeBandwidth_pos nonempty bandwidths
  refine ⟨share, ?_, ?_⟩
  · have parts : (d.rtuns.map fun i => 100 * ((d.tun i).bandwidth.toNat : ℚ) / d.wholeBandwidth).sum =
        100 * d.wholeBandwidth / d.wholeBandwidth := by
      simp only [div_eq_mul_inv, List.sum_map_mul_right, List.sum_map_mul_left, wholeBandwidth,
        Nat.cast_list_sum, List.map_map, Function.comp_def]
    rw [List.map_congr_left share, parts]
    field_simp
  · intro i listed
    have own : (0 : ℚ) < (d.tun i).bandwidth.toNat := by
      exact_mod_cast bandwidth_pos bandwidths listed
    have part : ((d.tun i).bandwidth.toNat : ℚ) ≤ d.wholeBandwidth := by
      exact_mod_cast bandwidth_le_whole listed
    rw [share i listed]
    constructor
    · positivity
    · rw [div_le_iff₀ positive]
      linarith

section Recalculated

variable (distinct : d.rtuns.Nodup) (inside : d.Inside)
  (bandwidths : ∀ i ∈ d.rtuns, (d.tun i).bandwidth ≠ 0)

include distinct inside bandwidths

/-- The sum that the weights are computed with. -/
theorem recalcWeight_weight (listed : i ∈ d.rtuns) :
    (d.recalcWeight.tun i).weight =
      if d.wholeBandwidth % 2 ^ 32 = 0 then (d.tun i).weight
      else (d.tun i).bandwidth.toNat / (d.wholeBandwidth % 2 ^ 32 : Nat) * 100 := by
  have total : (d.rtuns.map fun i => (d.tun i).bandwidth).sum.toNat = d.wholeBandwidth % 2 ^ 32 := by
    rw [toNat_sum_mod, List.map_map]
    rfl
  have own : (d.tun i).bandwidth > 0 := UInt32.pos_iff_ne_zero.mpr (bandwidths i listed)
  rw [(recalcWeight_tun distinct inside bandwidths).2 i listed, Tunnel.weigh]
  simp only [own, true_and, gt_iff_lt, UInt32.lt_iff_toNat_lt, total, UInt32.toNat_zero]
  generalize d.wholeBandwidth % 2 ^ 32 = total
  by_cases wraps : total = 0
  · simp [wraps]
  · simp [wraps, Nat.pos_of_ne_zero wraps]

theorem recalcWeight_bandwidth (listed : i ∈ d.rtuns) :
    (d.recalcWeight.tun i).bandwidth = (d.tun i).bandwidth := by
  rw [(recalcWeight_tun distinct inside bandwidths).2 i listed, Tunnel.weigh]
  split <;> rfl

theorem recalcWeight_whole : d.recalcWeight.wholeBandwidth = d.wholeBandwidth := by
  unfold wholeBandwidth
  rw [(recalcWeight_tun distinct inside bandwidths).1]
  refine congrArg List.sum (List.map_congr_left fun i listed => ?_)
  rw [recalcWeight_bandwidth distinct inside bandwidths listed]

theorem recalcWeight_weighed_iff (nonempty : d.rtuns ≠ []) :
    d.recalcWeight.WeighedByShare ↔ ∀ i ∈ d.rtuns,
      (d.recalcWeight.tun i).weight = 100 * (d.tun i).bandwidth.toNat / d.wholeBandwidth := by
  have rtuns := (recalcWeight_tun distinct inside bandwidths).1
  have bandwidth := fun i => recalcWeight_bandwidth distinct inside bandwidths (i := i)
  have whole := recalcWeight_whole distinct inside bandwidths
  constructor
  · intro weighed i listed
    rw [weighed.share i (rtuns ▸ listed), bandwidth i listed, whole]
  · intro share
    refine .of_share (rtuns ▸ nonempty) ?_ ?_
    · intro i listed
      rw [rtuns] at listed
      rw [bandwidth i listed]
      exact bandwidths i listed
    · intro i listed
      rw [rtuns] at listed
      rw [share i listed, bandwidth i listed, whole]

/-- A sum that has wrapped is less than the whole, and the weights are too large. -/
theorem recalcWeight_too_large (listed : i ∈ d.rtuns) (large : 2 ^ 32 ≤ d.wholeBandwidth)
    (wraps : d.wholeBandwidth % 2 ^ 32 ≠ 0) :
    100 * (d.tun i).bandwidth.toNat / d.wholeBandwidth < (d.recalcWeight.tun i).weight := by
  have own : (0 : ℚ) < (d.tun i).bandwidth.toNat := by
    exact_mod_cast bandwidth_pos bandwidths listed
  have kept : (0 : ℚ) < (d.wholeBandwidth % 2 ^ 32 : Nat) := by
    exact_mod_cast Nat.pos_of_ne_zero wraps
  have less : ((d.wholeBandwidth % 2 ^ 32 : Nat) : ℚ) < d.wholeBandwidth := by
    exact_mod_cast (Nat.mod_lt _ (by decide)).trans_le large
  rw [recalcWeight_weight distinct inside bandwidths listed, if_neg wraps]
  calc 100 * ((d.tun i).bandwidth.toNat : ℚ) / d.wholeBandwidth
      = (d.tun i).bandwidth.toNat / d.wholeBandwidth * 100 := by ring
    _ < (d.tun i).bandwidth.toNat / (d.wholeBandwidth % 2 ^ 32 : Nat) * 100 := by gcongr

/-- The weights are percentages of the whole bandwidth as long as it fits 32 bits, or if
    it wraps to zero and they were so before. -/
theorem weights_exact_iff (nonempty : d.rtuns ≠ []) :
    d.recalcWeight.WeighedByShare ↔
      d.wholeBandwidth < 2 ^ 32 ∨ 2 ^ 32 ∣ d.wholeBandwidth ∧ d.WeighedByShare := by
  have weight := fun i => recalcWeight_weight distinct inside bandwidths (i := i)
  rw [recalcWeight_weighed_iff distinct inside bandwidths nonempty, Nat.dvd_iff_mod_eq_zero]
  by_cases fits : d.wholeBandwidth < 2 ^ 32
  · simp only [fits, true_or, iff_true]
    intro i listed
    rw [weight i listed, Nat.mod_eq_of_lt fits, if_neg (wholeBandwidth_pos nonempty bandwidths).ne']
    ring
  · simp only [fits, false_or]
    by_cases wraps : d.wholeBandwidth % 2 ^ 32 = 0
    · simp only [wraps, true_and]
      constructor
      · intro share
        refine .of_share nonempty bandwidths fun i listed => ?_
        rw [← share i listed, weight i listed, if_pos wraps]
      · intro weighed i listed
        rw [weight i listed, if_pos wraps]
        exact weighed.share i listed
    · simp only [wraps, false_and, iff_false]
      intro share
      obtain ⟨i, listed⟩ := List.exists_mem_of_ne_nil d.rtuns nonempty
      have larger := recalcWeight_too_large distinct inside bandwidths listed (Nat.le_of_not_lt fits) wraps
      exact absurd (share i listed) larger.ne'

end Recalculated

/-- Three and two parts in five. -/
theorem weights_exact_two :
    (twoLinks 3 2).recalcWeight.WeighedByShare :=
  (weights_exact_iff (by decide) (twoLinks_inside 3 2) (by decide +kernel) (by decide)).mpr
    (.inl (by decide +kernel))

/-- Two tunnels of two gigabytes a second keep the weight one, and a little more makes the
    weights too large. -/
theorem weights_wrap :
    ((twoLinks 0x80000000 0x80000000).recalcWeight.tun 0).weight = 1 ∧
      ((twoLinks 0xFFFFFFFF 2).recalcWeight.tun 1).weight = 200 ∧
      ¬ (twoLinks 0x80000000 0x80000000).recalcWeight.WeighedByShare ∧
      ¬ (twoLinks 0xFFFFFFFF 2).recalcWeight.WeighedByShare := by
  have first : ((twoLinks 0x80000000 0x80000000).recalcWeight.tun 0).weight = 1 := by decide +kernel
  have second : ((twoLinks 0xFFFFFFFF 2).recalcWeight.tun 1).weight = 200 := by decide +kernel
  refine ⟨first, second, ?_, ?_⟩
  · intro weighed
    have whole := weighed.whole
    have sum : ((twoLinks 0x80000000 0x80000000).recalcWeight.rtuns.map fun i =>
        ((twoLinks 0x80000000 0x80000000).recalcWeight.tun i).weight).sum = 2 := by decide +kernel
    rw [sum] at whole
    norm_num at whole
  · intro weighed
    have most := (weighed.range 1 (by decide +kernel)).2
    rw [second] at most
    norm_num at most

end Mlvpn.Daemon
