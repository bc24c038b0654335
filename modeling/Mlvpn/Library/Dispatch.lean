import Mathlib.Data.List.Pairwise
import Mathlib.Logic.Function.Basic

/-! # Order of arrival through several queues

Items are numbered as they arrive, wait in one of several queues, and are given
a stamp from a counter when they leave.  The stamps are in the order of arrival
as long as it is the oldest of all waiting items that leaves.
-/

namespace Mlvpn.Library.Dispatch

variable {ι : Type*} {arrived clock : Nat} {waiting : ι → List Nat} {stamped : List (Nat × Nat)}

/-- The invariant: `arrived` items so far, those in the queues, and the pairs of an
    item that has left with its stamp; the next stamp is at least `clock`. -/
structure Ordered (arrived : Nat) (waiting : ι → List Nat) (stamped : List (Nat × Nat))
    (clock : Nat) : Prop where
  increasing : ∀ i, (waiting i).Pairwise (· < ·)
  known : ∀ i, ∀ n ∈ waiting i, n < arrived
  apart : ∀ i j n, n ∈ waiting i → n ∈ waiting j → i = j
  older : ∀ entry ∈ stamped, entry.1 < arrived ∧ ∀ i, ∀ n ∈ waiting i, entry.1 < n
  issued : ∀ entry ∈ stamped, entry.2 < clock
  sorted : ∀ entry ∈ stamped, ∀ entry' ∈ stamped, entry.1 < entry'.1 → entry.2 < entry'.2

namespace Ordered

theorem empty (clock : Nat) : Ordered 0 (fun _ : ι => []) [] clock where
  increasing _ := .nil
  known _ _ member := by cases member
  apart _ _ _ member := by cases member
  older _ member := by cases member
  issued _ member := by cases member
  sorted _ member := by cases member

/-- An item that is not queued. -/
theorem pass (h : Ordered arrived waiting stamped clock) :
    Ordered (arrived + 1) waiting stamped clock :=
  { h with
    known := fun i n member => Nat.lt_succ_of_lt (h.known i n member)
    older := fun entry member => ⟨Nat.lt_succ_of_lt (h.older entry member).1, (h.older entry member).2⟩ }

theorem mem_arrive [DecidableEq ι] {i j : ι} {n : Nat}
    (member : n ∈ Function.update waiting i (waiting i ++ [arrived]) j) :
    n ∈ waiting j ∨ n = arrived ∧ j = i := by
  by_cases here : j = i
  · subst here
    rw [Function.update_self] at member
    rcases List.mem_append.mp member with old | new
    · exact .inl old
    · exact .inr ⟨List.mem_singleton.mp new, rfl⟩
  · rw [Function.update_of_ne here] at member
    exact .inl member

/-- An item joins the end of a queue. -/
theorem arrive [DecidableEq ι] (h : Ordered arrived waiting stamped clock) (i : ι) :
    Ordered (arrived + 1) (Function.update waiting i (waiting i ++ [arrived])) stamped clock where
  increasing := by
    intro j
    by_cases here : j = i
    · subst here
      rw [Function.update_self]
      refine List.pairwise_append.mpr ⟨h.increasing j, List.pairwise_singleton _ _, ?_⟩
      intro n member m last
      rw [List.mem_singleton.mp last]
      exact h.known j n member
    · rw [Function.update_of_ne here]
      exact h.increasing j
  known := by
    intro j n member
    rcases mem_arrive member with old | ⟨rfl, _⟩
    · exact Nat.lt_succ_of_lt (h.known j n old)
    · exact Nat.lt_succ_self n
  apart := by
    intro j k n atJ atK
    rcases mem_arrive atJ with oldJ | ⟨newJ, rfl⟩ <;> rcases mem_arrive atK with oldK | ⟨newK, rfl⟩
    · exact h.apart j k n oldJ oldK
    · exact absurd (h.known j n oldJ) (by omega)
    · exact absurd (h.known k n oldK) (by omega)
    · rfl
  older := by
    intro entry member
    obtain ⟨early, before⟩ := h.older entry member
    refine ⟨Nat.lt_succ_of_lt early, fun j n waits => ?_⟩
    rcases mem_arrive waits with old | ⟨rfl, _⟩
    · exact before j n old
    · exact early
  issued := h.issued
  sorted := h.sorted

/-- Items leave without a stamp. -/
theorem sublist {waiting' : ι → List Nat} (h : Ordered arrived waiting stamped clock)
    (fewer : ∀ i, (waiting' i).Sublist (waiting i)) : Ordered arrived waiting' stamped clock where
  increasing i := (h.increasing i).sublist (fewer i)
  known i n member := h.known i n ((fewer i).subset member)
  apart i j n atI atJ := h.apart i j n ((fewer i).subset atI) ((fewer j).subset atJ)
  older entry member :=
    ⟨(h.older entry member).1, fun i n waits => (h.older entry member).2 i n ((fewer i).subset waits)⟩
  issued := h.issued
  sorted := h.sorted

theorem advance {clock' : Nat} (h : Ordered arrived waiting stamped clock) (later : clock ≤ clock') :
    Ordered arrived waiting stamped clock' :=
  { h with issued := fun entry member => Nat.lt_of_lt_of_le (h.issued entry member) later }

/-- The oldest of all leaves, with a stamp. -/
theorem stamp {waiting' : ι → List Nat} {i : ι} {n : Nat} {rest : List Nat} {stamp clock' : Nat}
    (h : Ordered arrived waiting stamped clock) (first : waiting i = n :: rest)
    (oldest : ∀ j, ∀ m ∈ waiting j, n ≤ m) (fewer : ∀ j, (waiting' j).Sublist (waiting j))
    (left : (waiting' i).Sublist rest) (fresh : clock ≤ stamp) (later : stamp < clock') :
    Ordered arrived waiting' ((n, stamp) :: stamped) clock' := by
  have kept := h.sublist fewer
  have member : n ∈ waiting i := by
    rw [first]
    exact List.mem_cons_self
  have behind : ∀ m ∈ rest, n < m := by
    have sorted := h.increasing i
    rw [first] at sorted
    exact (List.pairwise_cons.mp sorted).1
  refine ⟨kept.increasing, kept.known, kept.apart, ?_, ?_, ?_⟩
  · intro entry stamped
    rcases List.mem_cons.mp stamped with rfl | old
    · refine ⟨h.known i n member, fun j m waits => ?_⟩
      by_cases here : j = i
      · subst here
        exact behind m (left.subset waits)
      · have waited := (fewer j).subset waits
        have different : n ≠ m := fun same => here (h.apart j i n (same ▸ waited) member)
        have ordered := oldest j m waited
        omega
    · exact kept.older entry old
  · intro entry stamped
    rcases List.mem_cons.mp stamped with rfl | old
    · exact later
    · have issued := h.issued entry old
      omega
  · intro entry stamped entry' stamped' before
    rcases List.mem_cons.mp stamped with rfl | old <;> rcases List.mem_cons.mp stamped' with rfl | old'
    · exact absurd before (Nat.lt_irrefl _)
    · have early := (h.older entry' old').2 i n member
      exact absurd before (by omega)
    · have issued := h.issued entry old
      omega
    · exact h.sorted entry old entry' old' before

end Ordered

end Mlvpn.Library.Dispatch
