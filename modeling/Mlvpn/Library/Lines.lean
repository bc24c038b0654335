import Mathlib.Data.List.Basic

/-! # Streams cut at a separator

A stream that arrives in pieces: what is cut so far stays, and the piece that is not
closed yet goes on.
-/

namespace Mlvpn.Library.Lines

variable {α : Type} [DecidableEq α] {sep : α} {l : List α}

/-- Separators only, and what follows them. -/
theorem splitOn_replicate_append (n : Nat) (l : List α) :
    (List.replicate n sep ++ l).splitOn sep = List.replicate n [] ++ l.splitOn sep := by
  induction n with
  | zero => rfl
  | succ n ih =>
      rw [List.replicate_succ, List.replicate_succ, List.cons_append, List.cons_append, ← ih]
      exact List.splitOn_append_cons_self_of_not_mem List.not_mem_nil _

/-- What does not begin with a separator begins with a piece that is not empty. -/
theorem splitOn_cons_of_ne {c : α} (other : c ≠ sep) :
    ∃ rest pieces, (c :: l).splitOn sep = (c :: rest) :: pieces := by
  by_cases member : sep ∈ c :: l
  · obtain ⟨before, after, split, absent⟩ := List.eq_append_cons_of_mem member
    rw [split, List.splitOn_append_cons_self_of_not_mem absent]
    cases before with
    | nil =>
        cases split
        exact absurd rfl other
    | cons first more =>
        cases split
        exact ⟨more, _, rfl⟩
  · exact ⟨l, [], List.splitOn_eq_singleton member⟩

/-- The last piece goes on where the stream does. -/
theorem splitOn_append {pieces : List (List α)} {last : List α}
    (cut : l.splitOn sep = pieces ++ [last]) (m : List α) :
    (l ++ m).splitOn sep = pieces ++ (last ++ m).splitOn sep := by
  induction pieces generalizing l with
  | nil =>
      have whole : [sep].intercalate (l.splitOn sep) = l := List.intercalate_splitOn sep
      rw [cut] at whole
      simp only [List.nil_append, List.intercalate_singleton] at whole
      rw [whole, List.nil_append]
  | cons first more ih =>
      by_cases member : sep ∈ l
      · obtain ⟨before, after, split, absent⟩ := List.eq_append_cons_of_mem member
        rw [split, List.splitOn_append_cons_self_of_not_mem absent, List.cons_append,
          List.cons.injEq] at cut
        rw [split, List.append_assoc, List.cons_append,
          List.splitOn_append_cons_self_of_not_mem absent, ih cut.2, cut.1]
        rfl
      · rw [List.splitOn_eq_singleton member] at cut
        simp at cut

end Mlvpn.Library.Lines
