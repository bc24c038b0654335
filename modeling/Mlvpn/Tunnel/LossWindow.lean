import Mlvpn.Library.Machine
import Mlvpn.Library.Word
import Mlvpn.Tunnel.State

/-! # The window of the loss ratio

`mlvpn_loss_update` keeps the last sequence number and one bit for each of the 64 numbers
up to it.  What the window should say is told by the list of the numbers received, and the
code agrees with it as long as no number comes late that it cannot record: within the first
63 numbers, or by more than 30.
-/

namespace Mlvpn

open Library.Machine Library.Word

namespace Tunnel

variable {t : Tunnel} {seq : UInt64} {i : Nat}

/-- The number `i` before the last one is marked as received. -/
def Marked (t : Tunnel) (i : Nat) : Prop := bit t.seqVect i = true

instance (t : Tunnel) : DecidablePred t.Marked := fun i => inferInstanceAs (Decidable (bit t.seqVect i = true))

/-- The loss ratio counts the numbers that are not marked. -/
theorem lossRatio_eq (t : Tunnel) :
    lossRatio t = ((List.range 64).filter fun i => ¬ t.Marked i).length * 100 / 64 := by
  unfold lossRatio
  congr 3
  apply List.filter_congr
  intro i inside
  rw [decide_eq_decide, and_shiftRight_eq_zero t.seqVect (List.mem_range.mp inside), Marked,
    Bool.not_eq_true]

/-- The positions that a late number sets. -/
theorem bit_intBit (n : UInt64) (i : Nat) :
    bit (intBit n) i = true ↔
      if n.toNat % 32 = 31 then 31 ≤ i ∧ i < 64 else i = n.toNat % 32 := by
  have count : (n % 32).toNat = n.toNat % 32 := by simp
  have last : n % 32 = 31 ↔ n.toNat % 32 = 31 := by
    rw [← UInt64.toNat_inj, count]
    rfl
  have upper : (0xFFFFFFFF80000000 : UInt64) = (0xFFFFFFFFFFFFFFFF : UInt64) <<< (31 : UInt64) := by decide
  unfold intBit
  simp only [last]
  split
  next =>
    rw [upper, bit_shiftLeft]
    simp only [bit_ones, UInt64.reduceToNat, Bool.and_eq_true, decide_eq_true_eq]
    omega
  next =>
    rw [bit_one_shiftLeft (by omega), count, decide_eq_true_eq]

/-- The sequence numbers are taken to start anew.  The sum is one of 64 bits. -/
def Restarts (t : Tunnel) (seq : UInt64) : Prop := (t.seqLast.toNat + 64) % 2 ^ 64 < seq.toNat

instance (t : Tunnel) (seq : UInt64) : Decidable (t.Restarts seq) := inferInstanceAs (Decidable (_ < _))

theorem restarts_iff : seq > t.seqLast + 64 ↔ t.Restarts seq := by
  rw [gt_iff_lt, UInt64.lt_iff_toNat_lt, UInt64.toNat_add]
  rfl

theorem lossUpdate_restarts (restarts : t.Restarts seq) :
    (lossUpdate t seq).seqLast = seq ∧ ∀ i < 64, (lossUpdate t seq).Marked i := by
  rw [lossUpdate, if_pos (restarts_iff.mpr restarts)]
  refine ⟨rfl, fun i inside => ?_⟩
  simp [Marked, inside]

/-- The window moves on with a newer number; a shift is modulo 64. -/
theorem lossUpdate_newer (near : ¬ t.Restarts seq) (newer : t.seqLast.toNat < seq.toNat) :
    (lossUpdate t seq).seqLast = seq ∧ ∀ i < 64, (lossUpdate t seq).Marked i ↔
      i = 0 ∨ (seq.toNat - t.seqLast.toNat) % 64 ≤ i ∧
        t.Marked (i - (seq.toNat - t.seqLast.toNat) % 64) := by
  have shift : (seq - t.seqLast).toNat = seq.toNat - t.seqLast.toNat :=
    UInt64.toNat_sub_of_le _ _ (UInt64.le_iff_toNat_le.mpr newer.le)
  rw [lossUpdate, if_neg (mt restarts_iff.mp near), if_pos (UInt64.lt_iff_toNat_lt.mpr newer)]
  refine ⟨rfl, fun i inside => ?_⟩
  simp only [Marked, bit_or, bit_shiftLeft, shift, bit_one, inside, Bool.or_eq_true, Bool.and_eq_true,
    decide_eq_true_eq, true_and]
  exact or_comm

/-- A late number of the window is marked; the start of the window is a difference of 64
    bits, too. -/
theorem lossUpdate_late (late : seq.toNat ≤ t.seqLast.toNat) (near : ¬ t.Restarts seq)
    (full : 63 ≤ t.seqLast.toNat) (recent : t.seqLast.toNat ≤ seq.toNat + 63) :
    (lossUpdate t seq).seqLast = t.seqLast ∧ ∀ i, (lossUpdate t seq).Marked i ↔
      t.Marked i ∨ bit (intBit (t.seqLast - seq)) i = true := by
  have older : ¬ seq > t.seqLast := by
    rw [gt_iff_lt, UInt64.lt_iff_toNat_lt]
    omega
  have start : seq ≥ t.seqLast - 63 := by
    have bound := t.seqLast.toNat_lt
    simp only [ge_iff_le, UInt64.le_iff_toNat_le, UInt64.toNat_sub, UInt64.reduceToNat]
    omega
  rw [lossUpdate, if_neg (mt restarts_iff.mp near), if_neg older, if_pos start]
  refine ⟨rfl, fun i => ?_⟩
  simp only [Marked, bit_or, Bool.or_eq_true]

theorem lossUpdate_passed (late : seq.toNat ≤ t.seqLast.toNat) (near : ¬ t.Restarts seq)
    (passed : t.seqLast.toNat < 63 ∨ seq.toNat + 63 < t.seqLast.toNat) : lossUpdate t seq = t := by
  have older : ¬ seq > t.seqLast := by
    rw [gt_iff_lt, UInt64.lt_iff_toNat_lt]
    omega
  have start : ¬ seq ≥ t.seqLast - 63 := by
    have bound := t.seqLast.toNat_lt
    simp only [ge_iff_le, UInt64.le_iff_toNat_le, UInt64.toNat_sub, UInt64.reduceToNat]
    omega
  rw [lossUpdate, if_neg (mt restarts_iff.mp near), if_neg older, if_neg start]

end Tunnel

/-- A tunnel, and the sequence numbers it was given, the last one first. -/
structure Hearing where
  tunnel : Tunnel
  received : List UInt64

namespace Hearing

variable {s : Hearing} {seq : UInt64} {i : Nat}

/-- A sequence number is given to `mlvpn_loss_update`. -/
def heard (s : Hearing) (seq : UInt64) : Hearing := ⟨lossUpdate s.tunnel seq, seq :: s.received⟩

/-- `seq_last`. -/
def last (s : Hearing) : Nat := s.tunnel.seqLast.toNat

/-- The number `i` before the last one was received, if there is such a number. -/
def Received (s : Hearing) (i : Nat) : Prop := s.last ≤ i ∨ ∃ seq ∈ s.received, seq.toNat + i = s.last

instance (s : Hearing) : DecidablePred s.Received := fun i =>
  inferInstanceAs (Decidable (s.last ≤ i ∨ ∃ seq ∈ s.received, seq.toNat + i = s.last))

/-- The numbers that are missing among the last 64. -/
def missing (s : Hearing) : Nat := ((List.range 64).filter fun i => ¬ s.Received i).length

/-- What the window should say. -/
structure Tracks (s : Hearing) : Prop where
  known : s.last = 0 ∨ s.tunnel.seqLast ∈ s.received
  greatest : ∀ seq ∈ s.received, seq.toNat ≤ s.last
  marks : ∀ i < 64, s.tunnel.Marked i ↔ s.Received i
  ratio : lossRatio s.tunnel = 100 * s.missing / 64

/-- The loss ratio is right where the marks are. -/
theorem Tracks.of_marks (known : s.last = 0 ∨ s.tunnel.seqLast ∈ s.received)
    (greatest : ∀ seq ∈ s.received, seq.toNat ≤ s.last)
    (marks : ∀ i < 64, s.tunnel.Marked i ↔ s.Received i) : s.Tracks := by
  refine ⟨known, greatest, marks, ?_⟩
  have same : ((List.range 64).filter fun i => ¬ s.tunnel.Marked i) =
      (List.range 64).filter fun i => ¬ s.Received i := by
    apply List.filter_congr
    intro i inside
    rw [decide_eq_decide, marks i (List.mem_range.mp inside)]
  rw [Tunnel.lossRatio_eq, same, missing, Nat.mul_comm]

/-- No number exceeds the last one by more than 64. -/
def Near (s : Hearing) (seq : UInt64) : Prop := seq.toNat ≤ s.last + 64

instance (s : Hearing) (seq : UInt64) : Decidable (s.Near seq) := inferInstanceAs (Decidable (_ ≤ _))

/-- The numbers that the window can record. -/
def Recordable (s : Hearing) (seq : UInt64) : Prop :=
  if s.tunnel.Restarts seq then
    -- the end of the numbers is near, and the window is set as if all had been received
    seq.toNat = s.last ∧ (∀ i < 64, s.Received i) ∨ seq.toNat = s.last + 1 ∧ ∀ i < 63, s.Received i
  else if s.last < seq.toNat then
    -- a shift by 64 is none
    seq.toNat < s.last + 64
  else if s.last < 63 then
    -- the start of the window is a large number, and a late number is passed over
    s.Received (s.last - seq.toNat)
  else if seq.toNat + 63 < s.last ∨ s.last - seq.toNat < 31 then True
  else if (s.last - seq.toNat) % 32 = 31 then
    -- the sign of an `int` is extended
    ∀ i < 64, 31 ≤ i → i ≠ s.last - seq.toNat → s.Received i
  else
    -- an `int` has no such bit, and another one is set
    s.Received (s.last - seq.toNat) ∧ s.Received (s.last - seq.toNat - 32)

instance (s : Hearing) (seq : UInt64) : Decidable (s.Recordable seq) :=
  inferInstanceAs (Decidable (ite _ _ _))

/-- The last number is in the list unless it is zero. -/
theorem Tracks.mem_last (tracks : s.Tracks) (positive : 0 < s.last) : s.tunnel.seqLast ∈ s.received :=
  tracks.known.resolve_left positive.ne'

theorem Tracks.not_newer (tracks : s.Tracks) {other : UInt64} (newer : s.last < other.toNat) :
    other ∉ s.received := by
  intro member
  exact absurd (tracks.greatest other member) (Nat.not_le.mpr newer)

section Newest

variable (now : (lossUpdate s.tunnel seq).seqLast = seq)

include now

theorem last_newest : (s.heard seq).last = seq.toNat := congrArg UInt64.toNat now

theorem received_newest (i : Nat) :
    (s.heard seq).Received i ↔
      seq.toNat ≤ i ∨ i = 0 ∨ ∃ other ∈ s.received, other.toNat + i = seq.toNat := by
  rw [Received, last_newest now]
  simp [heard]

/-- A window that has moved on is right if its marks are. -/
theorem Tracks.newest (tracks : s.Tracks) (least : s.last ≤ seq.toNat)
    (marks : ∀ i < 64, (lossUpdate s.tunnel seq).Marked i ↔
      seq.toNat ≤ i ∨ i = 0 ∨ ∃ other ∈ s.received, other.toNat + i = seq.toNat) :
    (s.heard seq).Tracks := by
  refine .of_marks (.inr ?_) ?_ ?_
  · have member : seq ∈ (s.heard seq).received := List.mem_cons_self
    exact now.symm ▸ member
  · intro other member
    rw [last_newest now]
    rcases List.mem_cons.mp member with rfl | member
    · exact le_rfl
    · exact (tracks.greatest other member).trans least
  · intro i inside
    rw [received_newest now]
    exact marks i inside

end Newest

/-- A number that is not too far ahead is taken for a restart near the end of the numbers. -/
theorem last_large (near : s.Near seq) (restarts : s.tunnel.Restarts seq) : 2 ^ 64 - 64 ≤ s.last := by
  have bound := seq.toNat_lt
  have close : seq.toNat ≤ s.last + 64 := near
  have wraps : (s.last + 64) % 2 ^ 64 < seq.toNat := restarts
  omega

theorem tracks_restart_iff (tracks : s.Tracks) (near : s.Near seq) (restarts : s.tunnel.Restarts seq) :
    (s.heard seq).Tracks ↔
      seq.toNat = s.last ∧ (∀ i < 64, s.Received i) ∨ seq.toNat = s.last + 1 ∧ ∀ i < 63, s.Received i := by
  obtain ⟨now, all⟩ := Tunnel.lossUpdate_restarts restarts
  have large := last_large near restarts
  have there := tracks.mem_last (by omega)
  constructor
  · intro tracked
    have least : s.last ≤ seq.toNat :=
      last_newest now ▸ tracked.greatest _ (List.mem_cons_of_mem seq there)
    have before : ∀ i < 64, 0 < i → ∃ other ∈ s.received, other.toNat + i = seq.toNat := by
      intro i inside positive
      rcases (received_newest now i).mp ((tracked.marks i inside).mp (all i inside)) with
        early | zero | found
      · omega
      · omega
      · exact found
    rcases Nat.eq_or_lt_of_le least with same | newer
    · refine .inl ⟨same.symm, fun i inside => ?_⟩
      rcases Nat.eq_zero_or_pos i with rfl | positive
      · exact .inr ⟨_, there, rfl⟩
      · obtain ⟨other, member, place⟩ := before i inside positive
        exact .inr ⟨other, member, by omega⟩
    · obtain ⟨other, member, place⟩ := before 1 (by decide) (by decide)
      have bound := tracks.greatest other member
      refine .inr ⟨by omega, fun i inside => ?_⟩
      obtain ⟨other, member, place⟩ := before (i + 1) (by omega) (by omega)
      exact .inr ⟨other, member, by omega⟩
  · intro full
    refine tracks.newest now (by omega) fun i inside => ?_
    simp only [all i inside, true_iff]
    rcases Nat.eq_zero_or_pos i with rfl | positive
    · exact .inr (.inl rfl)
    · rcases full with ⟨same, window⟩ | ⟨one, window⟩
      · rcases window i inside with early | ⟨other, member, place⟩
        · omega
        · exact .inr (.inr ⟨other, member, by omega⟩)
      · rcases window (i - 1) (by omega) with early | ⟨other, member, place⟩
        · omega
        · exact .inr (.inr ⟨other, member, by omega⟩)

/-- The window moves on by less than its length.  A shift by 64 would leave the marks of
    the numbers before. -/
theorem tracks_newer_iff (tracks : s.Tracks) (near : s.Near seq) (recent : ¬ s.tunnel.Restarts seq)
    (newer : s.last < seq.toNat) (anchored : ∃ j < 64, 0 < j ∧ s.tunnel.Marked j) :
    (s.heard seq).Tracks ↔ seq.toNat < s.last + 64 := by
  obtain ⟨now, marks⟩ := Tunnel.lossUpdate_newer recent newer
  have close : seq.toNat ≤ s.last + 64 := near
  constructor
  · intro tracked
    by_contra far
    have jump : (seq.toNat - s.last) % 64 = 0 := by omega
    obtain ⟨j, inside, positive, marked⟩ := anchored
    have kept : (lossUpdate s.tunnel seq).Marked j := by
      refine (marks j inside).mpr (.inr ?_)
      change (seq.toNat - s.last) % 64 ≤ j ∧ s.tunnel.Marked (j - (seq.toNat - s.last) % 64)
      rw [jump]
      exact ⟨Nat.zero_le j, marked⟩
    rcases (received_newest now j).mp ((tracked.marks j inside).mp kept) with
      early | zero | ⟨other, member, place⟩
    · omega
    · omega
    · exact tracks.not_newer (by omega) member
  · intro short
    have jump : (seq.toNat - s.last) % 64 = seq.toNat - s.last := Nat.mod_eq_of_lt (by omega)
    refine tracks.newest now newer.le fun i inside => ?_
    refine (marks i inside).trans ?_
    change i = 0 ∨ (seq.toNat - s.last) % 64 ≤ i ∧ s.tunnel.Marked (i - (seq.toNat - s.last) % 64) ↔ _
    rw [jump, tracks.marks _ (by omega)]
    constructor
    · rintro (zero | ⟨shifted, early | ⟨other, member, place⟩⟩)
      · exact .inr (.inl zero)
      · exact .inl (by omega)
      · exact .inr (.inr ⟨other, member, by omega⟩)
    · rintro (early | zero | ⟨other, member, place⟩)
      · exact .inr ⟨by omega, .inl (by omega)⟩
      · exact .inl zero
      · have bound := tracks.greatest other member
        exact .inr ⟨by omega, .inr ⟨other, member, by omega⟩⟩

/-- Positions that are added to a set are right for `k` if they are `k`, but for what is there. -/
theorem added_right_iff {R P : Nat → Prop} {k : Nat} (inside : k < 64) :
    (∀ i < 64, R i ∨ P i ↔ R i ∨ i = k) ↔ (∀ i < 64, P i → i ≠ k → R i) ∧ (P k ∨ R k) := by
  constructor
  · intro right
    refine ⟨fun i below added other => ?_, ((right k inside).mpr (.inr rfl)).symm⟩
    exact ((right i below).mp (.inr added)).resolve_right other
  · rintro ⟨others, this⟩ i below
    constructor
    · rintro (there | added)
      · exact .inl there
      · by_cases same : i = k
        · exact .inr same
        · exact .inl (others i below added same)
    · rintro (there | rfl)
      · exact .inl there
      · exact this.symm

/-- Where the positions that are set for a number `k` late are right. -/
theorem intBit_right_iff {R : Nat → Prop} {k : Nat} (inside : k < 64) :
    (∀ i < 64, (R i ∨ if k % 32 = 31 then 31 ≤ i ∧ i < 64 else i = k % 32) ↔ R i ∨ i = k) ↔
      if k < 31 then True
      else if k % 32 = 31 then ∀ i < 64, 31 ≤ i → i ≠ k → R i
      else R k ∧ R (k - 32) := by
  rw [added_right_iff inside]
  by_cases short : k < 31
  · have place : k % 32 = k := by omega
    have other : k ≠ 31 := by omega
    simp +contextual [short, place, other]
  · by_cases sign : k % 32 = 31
    · have reached : 31 ≤ k := by omega
      simp +contextual [short, sign, reached, inside]
    · have place : k % 32 = k - 32 := by omega
      have apart : k ≠ k - 32 := by omega
      have one : (∀ i < 64, i = k - 32 → i ≠ k → R i) ↔ R (k - 32) := by
        refine ⟨fun others => others (k - 32) (by omega) rfl apart.symm, ?_⟩
        rintro there i _ rfl _
        exact there
      simp only [short, sign, if_false]
      rw [place, one, or_iff_right apart]
      exact and_comm

section Late

variable (tracks : s.Tracks) (recent : ¬ s.tunnel.Restarts seq) (late : seq.toNat ≤ s.last)

include tracks late

/-- A late number is right if it is the one that is marked. -/
theorem tracks_late_iff (now : (lossUpdate s.tunnel seq).seqLast = s.tunnel.seqLast) :
    (s.heard seq).Tracks ↔ ∀ i < 64, (lossUpdate s.tunnel seq).Marked i ↔
      s.Received i ∨ i = s.last - seq.toNat := by
  have last : (s.heard seq).last = s.last := congrArg UInt64.toNat now
  have received : ∀ i, (s.heard seq).Received i ↔ s.Received i ∨ i = s.last - seq.toNat := by
    intro i
    have place : seq.toNat + i = s.last ↔ i = s.last - seq.toNat := by omega
    rw [Received, Received, last]
    simp only [heard, List.mem_cons, exists_eq_or_imp, place]
    exact (or_congr_right or_comm).trans or_assoc.symm
  constructor
  · intro tracked i inside
    exact (tracked.marks i inside).trans (received i)
  · intro marks
    refine .of_marks ?_ ?_ ?_
    · rw [last]
      exact tracks.known.imp_right fun there => now.symm ▸ List.mem_cons_of_mem seq there
    · intro other member
      rw [last]
      rcases List.mem_cons.mp member with rfl | member
      · exact late
      · exact tracks.greatest other member
    · intro i inside
      rw [received]
      exact marks i inside

include recent

theorem tracks_passed_iff (passed : s.last < 63 ∨ seq.toNat + 63 < s.last) :
    (s.heard seq).Tracks ↔ (s.last ≤ seq.toNat + 63 → s.Received (s.last - seq.toNat)) := by
  have same := Tunnel.lossUpdate_passed late recent passed
  rw [tracks_late_iff tracks late (congrArg Tunnel.seqLast same), same]
  constructor
  · intro marks inside
    exact (tracks.marks _ (by omega)).mp ((marks _ (by omega)).mpr (.inr rfl))
  · intro there i inside
    rw [tracks.marks i inside]
    refine ⟨.inl, ?_⟩
    rintro (received | rfl)
    · exact received
    · exact there (by omega)

/-- Up to 30 numbers late, the number is marked and no other. -/
theorem tracks_recorded_iff (full : 63 ≤ s.last) (window : s.last ≤ seq.toNat + 63) :
    (s.heard seq).Tracks ↔
      if s.last - seq.toNat < 31 then True
      else if (s.last - seq.toNat) % 32 = 31 then
        ∀ i < 64, 31 ≤ i → i ≠ s.last - seq.toNat → s.Received i
      else s.Received (s.last - seq.toNat) ∧ s.Received (s.last - seq.toNat - 32) := by
  obtain ⟨now, marks⟩ := Tunnel.lossUpdate_late late recent full window
  have behind : (s.tunnel.seqLast - seq).toNat = s.last - seq.toNat :=
    UInt64.toNat_sub_of_le _ _ (UInt64.le_iff_toNat_le.mpr late)
  have marked : (s.heard seq).Tracks ↔ ∀ i < 64,
      (s.Received i ∨ if (s.last - seq.toNat) % 32 = 31 then 31 ≤ i ∧ i < 64
        else i = (s.last - seq.toNat) % 32) ↔ s.Received i ∨ i = s.last - seq.toNat := by
    rw [tracks_late_iff tracks late now]
    refine forall₂_congr fun i inside => ?_
    rw [marks, tracks.marks i inside, Tunnel.bit_intBit, behind]
  rw [marked, intBit_right_iff (by omega)]

end Late

/-- The numbers that keep the window right. -/
theorem tracks_heard_iff (tracks : s.Tracks) (near : s.Near seq)
    (anchored : ∃ j < 64, 0 < j ∧ s.tunnel.Marked j) : (s.heard seq).Tracks ↔ s.Recordable seq := by
  unfold Recordable
  by_cases restarts : s.tunnel.Restarts seq
  · rw [if_pos restarts]
    exact tracks_restart_iff tracks near restarts
  · rw [if_neg restarts]
    by_cases newer : s.last < seq.toNat
    · rw [if_pos newer]
      exact tracks_newer_iff tracks near restarts newer anchored
    · have late : seq.toNat ≤ s.last := Nat.le_of_not_lt newer
      rw [if_neg newer]
      by_cases short : s.last < 63
      · rw [if_pos short, tracks_passed_iff tracks restarts late (.inl short)]
        have window : s.last ≤ seq.toNat + 63 := by omega
        simp only [window, true_imp_iff]
      · rw [if_neg short]
        by_cases old : seq.toNat + 63 < s.last
        · have outside : ¬ s.last ≤ seq.toNat + 63 := by omega
          simp only [tracks_passed_iff tracks restarts late (.inr old), outside, false_imp_iff, old,
            true_or, if_true]
        · rw [tracks_recorded_iff tracks restarts late (by omega) (by omega)]
          simp only [old, false_or]

/-- The last number is marked, and another one of the window. -/
structure Anchored (t : Tunnel) : Prop where
  last : t.Marked 0
  other : ∃ j < 64, 0 < j ∧ t.Marked j

theorem Anchored.lossUpdate {t : Tunnel} (anchored : Anchored t) (seq : UInt64) : Anchored (lossUpdate t seq) := by
  obtain ⟨last, j, inside, positive, marked⟩ := anchored
  by_cases restarts : t.Restarts seq
  · obtain ⟨_, all⟩ := Tunnel.lossUpdate_restarts restarts
    exact ⟨all 0 (by decide), 1, by decide, by decide, all 1 (by decide)⟩
  · by_cases newer : t.seqLast.toNat < seq.toNat
    · obtain ⟨_, marks⟩ := Tunnel.lossUpdate_newer restarts newer
      refine ⟨(marks 0 (by decide)).mpr (.inl rfl), ?_⟩
      by_cases whole : (seq.toNat - t.seqLast.toNat) % 64 = 0
      · refine ⟨j, inside, positive, (marks j inside).mpr (.inr ?_)⟩
        simpa [whole] using marked
      · refine ⟨(seq.toNat - t.seqLast.toNat) % 64, Nat.mod_lt _ (by decide), Nat.pos_of_ne_zero whole, ?_⟩
        refine (marks _ (Nat.mod_lt _ (by decide))).mpr (.inr ⟨le_rfl, ?_⟩)
        rwa [Nat.sub_self]
    · have late : seq.toNat ≤ t.seqLast.toNat := Nat.le_of_not_lt newer
      by_cases passed : t.seqLast.toNat < 63 ∨ seq.toNat + 63 < t.seqLast.toNat
      · rw [Tunnel.lossUpdate_passed late restarts passed]
        exact ⟨last, j, inside, positive, marked⟩
      · push Not at passed
        obtain ⟨_, marks⟩ := Tunnel.lossUpdate_late late restarts passed.1 passed.2
        exact ⟨(marks 0).mpr (.inl last), j, inside, positive, (marks j).mpr (.inl marked)⟩

/-- A new tunnel. -/
def new (conf : TunnelConf) (serverMode : Bool) (flowId : UInt32) (now : ℚ) : Hearing :=
  ⟨.init conf serverMode flowId now, []⟩

theorem marked_init (conf : TunnelConf) (serverMode : Bool) (flowId : UInt32) (now : ℚ) {i : Nat}
    (inside : i < 64) : (Tunnel.init conf serverMode flowId now).Marked i := by
  have marked : bit 0xFFFFFFFFFFFFFFFF i = true := by simp [inside]
  exact marked

theorem Anchored.init (conf : TunnelConf) (serverMode : Bool) (flowId : UInt32) (now : ℚ) :
    Anchored (.init conf serverMode flowId now) :=
  ⟨marked_init conf serverMode flowId now (by decide), 1, by decide, by decide,
    marked_init conf serverMode flowId now (by decide)⟩

theorem Tracks.new (conf : TunnelConf) (serverMode : Bool) (flowId : UInt32) (now : ℚ) :
    (new conf serverMode flowId now).Tracks := by
  refine .of_marks (.inl rfl) ?_ ?_
  · intro seq member
    cases member
  · intro i inside
    exact ⟨fun _ => .inl (Nat.zero_le i), fun _ => marked_init conf serverMode flowId now inside⟩

/-- `mlvpn_loss_update`, call after call. -/
def hear (s : Hearing) (seq : UInt64) : Option Hearing := some (s.heard seq)

/-- The window is what it should be after every call, as long as every number can be recorded. -/
theorem loss_window_iff (conf : TunnelConf) (serverMode : Bool) (flowId : UInt32) (now : ℚ)
    (seqs : List UInt64) (near : Meets hear Near (new conf serverMode flowId now) seqs) :
    Always hear Tracks (new conf serverMode flowId now) seqs ↔
      Meets hear Recordable (new conf serverMode flowId now) seqs := by
  have total : ∃ t, run hear (new conf serverMode flowId now) seqs = some t := by
    obtain ⟨t, reached, _⟩ := run_total (I := fun _ => True) (fun s seq _ => ⟨s.heard seq, rfl, trivial⟩)
      seqs (s := new conf serverMode flowId now) trivial
    exact ⟨t, reached⟩
  have oneStep : ∀ (s : Hearing) seq rest, Anchored s.tunnel ∧ Meets hear Near s (seq :: rest) → s.Tracks →
      (s.Recordable seq → ∃ s', hear s seq = some s') ∧ ∀ s', hear s seq = some s' →
        (Anchored s'.tunnel ∧ Meets hear Near s' rest) ∧ (s'.Tracks ↔ s.Recordable seq) := by
    rintro s seq rest ⟨anchored, nearby, later⟩ tracks
    refine ⟨fun _ => ⟨s.heard seq, rfl⟩, ?_⟩
    rintro s' stepped
    obtain rfl : s.heard seq = s' := Option.some.inj stepped
    exact ⟨⟨anchored.lossUpdate seq, later _ rfl⟩, tracks_heard_iff tracks nearby anchored.other⟩
  rw [← run_always_iff_meets (I := fun s rest => Anchored s.tunnel ∧ Meets hear Near s rest) oneStep seqs
    ⟨.init conf serverMode flowId now, near⟩ (.new conf serverMode flowId now)]
  exact ⟨fun always => ⟨total, always⟩, And.right⟩

/-- A tunnel of a server that has received nothing. -/
def fresh : Hearing :=
  new { name := "a", bindaddr := none, bindport := some "5080", bindfib := 0, destaddr := none
        destport := none, timeout := 60, fallbackOnly := 0, bandwidth := 0, lossTolerence := 100
        latencyTolerence := 1000 } true 1 0

/-- A number that is late by ten is recorded. -/
theorem loss_window_ten_late :
    Meets hear Near fresh [60, 100, 90] ∧ Always hear Tracks fresh [60, 100, 90] :=
  ⟨by decide +kernel, (loss_window_iff _ _ _ _ [60, 100, 90] (by decide +kernel)).mpr (by decide +kernel)⟩

theorem not_always_tracks {seqs : List UInt64} (t : Hearing) (reached : run hear s seqs = some t)
    (inside : i < 64) (wrong : ¬ (t.tunnel.Marked i ↔ t.Received i)) :
    ¬ Always hear Tracks s seqs := by
  intro always
  exact wrong ((always.last reached).marks i inside)

/-- The second number comes first, a number is 64 ahead, and one is late by 32. -/
theorem loss_window_wrong :
    (Meets hear Near fresh [2, 1] ∧ ¬ Always hear Tracks fresh [2, 1]) ∧
      (Meets hear Near fresh [64] ∧ ¬ Always hear Tracks fresh [64]) ∧
      (Meets hear Near fresh [63, 31] ∧ ¬ Always hear Tracks fresh [63, 31]) := by
  refine ⟨⟨by decide +kernel, ?_⟩, ⟨by decide +kernel, ?_⟩, ⟨by decide +kernel, ?_⟩⟩
  · exact not_always_tracks ((fresh.heard 2).heard 1) rfl (i := 1) (by decide) (by decide +kernel)
  · exact not_always_tracks (fresh.heard 64) rfl (i := 1) (by decide) (by decide +kernel)
  · exact not_always_tracks ((fresh.heard 63).heard 31) rfl (i := 32) (by decide) (by decide +kernel)

end Hearing

end Mlvpn
