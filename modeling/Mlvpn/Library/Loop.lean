import Mathlib.Logic.Basic

/-! # Loops that go on while their body says so

`while (body(s));` for a body that changes the state and answers whether there is another
round.  A body that is undefined for a state answers `none`.  A measure that falls in each
round bounds the number of rounds, and a fuel above it computes what the loop leaves.
-/

namespace Mlvpn.Library.Loop

variable {σ : Type} {body : σ → Option (Bool × σ)} {s s' : σ}

/-- The loop ends in a state, or in a round that is undefined. -/
inductive Ends (body : σ → Option (Bool × σ)) : σ → Option σ → Prop where
  | stop {s s' : σ} : body s = some (false, s') → Ends body s (some s')
  | undefined {s : σ} : body s = none → Ends body s none
  | again {s s₁ : σ} {last : Option σ} : body s = some (true, s₁) → Ends body s₁ last → Ends body s last

/-- The state after a number of rounds, none of which was the last. -/
inductive Rounds (body : σ → Option (Bool × σ)) : Nat → σ → σ → Prop where
  | none (s : σ) : Rounds body 0 s s
  | again {n : Nat} {s s₁ s' : σ} : body s = some (true, s₁) → Rounds body n s₁ s' → Rounds body (n + 1) s s'

/-- The loop with a bound on the number of its rounds. -/
def iterate (body : σ → Option (Bool × σ)) : Nat → σ → Option σ
  | 0, _ => none
  | fuel + 1, s => (body s).bind fun round => if round.1 then iterate body fuel round.2 else some round.2

variable {I : σ → Prop} {measure : σ → Nat}

/-- Each round costs some of the measure. -/
theorem Rounds.bounded
    (falls : ∀ s s', I s → body s = some (true, s') → I s' ∧ measure s' < measure s)
    {n : Nat} (rounds : Rounds body n s s') (initially : I s) : I s' ∧ n + measure s' ≤ measure s := by
  induction rounds with
  | none s => exact ⟨initially, by omega⟩
  | again first _ ih =>
      obtain ⟨kept, less⟩ := falls _ _ initially first
      obtain ⟨last, rest⟩ := ih kept
      exact ⟨last, by omega⟩

/-- A loop whose measure falls ends, and enough fuel computes its end. -/
theorem ends_iterate
    (falls : ∀ s s', I s → body s = some (true, s') → I s' ∧ measure s' < measure s)
    {fuel : Nat} (enough : measure s < fuel) (initially : I s) : Ends body s (iterate body fuel s) := by
  induction fuel generalizing s with
  | zero => omega
  | succ fuel ih =>
      unfold iterate
      cases round : body s with
      | none => exact .undefined round
      | some result =>
          obtain ⟨again, s₁⟩ := result
          cases again with
          | false => exact .stop round
          | true =>
              obtain ⟨kept, less⟩ := falls s s₁ initially round
              exact .again round (ih (by omega) kept)

end Mlvpn.Library.Loop
