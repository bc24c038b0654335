import Mathlib.Order.Basic

/-! # Programs that may exit

Programs that work on a state and either return or exit, in both cases leaving a state
behind, with rules of pre- and postconditions for them.
-/

namespace Mlvpn.Library

/-- A program over states `σ` that may exit with an `ε`. -/
abbrev Program (σ ε : Type) := ExceptT ε (StateM σ)

namespace Program

variable {σ ε α β : Type}

/-- How the program ends from a state, and the state it leaves. -/
def outcome (m : Program σ ε α) (s : σ) : Except ε α × σ := m.run s

@[simp] theorem outcome_pure (a : α) (s : σ) :
    outcome (pure a : Program σ ε α) s = (.ok a, s) := rfl

@[simp] theorem outcome_throw (e : ε) (s : σ) :
    outcome (throw e : Program σ ε α) s = (.error e, s) := rfl

theorem outcome_bind (m : Program σ ε α) (next : α → Program σ ε β) (s : σ) :
    outcome (m >>= next) s =
      match outcome m s with
      | (.ok a, t) => outcome (next a) t
      | (.error e, t) => (.error e, t) := by
  change (ExceptT.run (m >>= next)) s = _
  rw [ExceptT.run_bind]
  change (match (m.run s).1 with
    | .ok a => ExceptT.run (next a)
    | .error e => pure (.error e)) (m.run s).2 = _
  unfold outcome
  rcases m.run s with ⟨_ | _, _⟩ <;> rfl

/-- Exits where the condition holds. -/
def exitIf (c : Prop) [Decidable c] (e : ε) : Program σ ε Unit :=
  if c then throw e else pure ()

/-- From a state with `P` the program returns with `Q` or exits with `E`. -/
def Ensures (P : σ → Prop) (m : Program σ ε α) (Q : α → σ → Prop) (E : ε → σ → Prop) : Prop :=
  ∀ s, P s →
    match outcome m s with
    | (.ok a, t) => Q a t
    | (.error e, t) => E e t

/-- The program keeps `I`, whether it returns or exits. -/
def Keeps (I : σ → Prop) (m : Program σ ε α) : Prop :=
  Ensures I m (fun _ => I) (fun _ => I)

section Rules

variable {P : σ → Prop} {Q Q' : α → σ → Prop} {R : β → σ → Prop} {E E' : ε → σ → Prop}
  {I : σ → Prop} {m : Program σ ε α} {next : α → Program σ ε β}

namespace Ensures

theorem pure {a : α} (holds : ∀ s, P s → Q a s) : Ensures P (pure a) Q E := holds

theorem throw {e : ε} (holds : ∀ s, P s → E e s) : Ensures P (throw e : Program σ ε α) Q E :=
  holds

theorem modify {f : σ → σ} {Q : PUnit → σ → Prop} (holds : ∀ s, P s → Q ⟨⟩ (f s)) :
    Ensures P (modify f : Program σ ε PUnit) Q E := holds

theorem bind (first : Ensures P m Q E) (later : ∀ a, Ensures (Q a) (next a) R E) :
    Ensures P (m >>= next) R E := by
  intro s holds
  have begun := first s holds
  rw [outcome_bind]
  rcases ended : outcome m s with ⟨e | a, t⟩
  · rw [ended] at begun
    exact begun
  · rw [ended] at begun
    exact later a t begun

/-- The state that is read is the one the rest starts from. -/
theorem get_bind {next : σ → Program σ ε β}
    (later : ∀ s, P s → Ensures (· = s) (next s) R E) : Ensures P (get >>= next) R E := by
  intro s holds
  rw [outcome_bind]
  exact later s holds s rfl

theorem exitIf {c : Prop} [Decidable c] {e : ε} {Q : Unit → σ → Prop}
    (leaves : ∀ s, P s → c → E e s) (stays : ∀ s, P s → ¬ c → Q () s) :
    Ensures P (exitIf c e) Q E := by
  intro s holds
  by_cases met : c
  · simp only [Program.exitIf, if_pos met, outcome_throw]
    exact leaves s holds met
  · simp only [Program.exitIf, if_neg met, outcome_pure]
    exact stays s holds met

theorem weaken (ensures : Ensures P m Q E) (returns : ∀ a s, Q a s → Q' a s)
    (exits : ∀ e s, E e s → E' e s) : Ensures P m Q' E' := by
  intro s holds
  have ended := ensures s holds
  revert ended
  rcases outcome m s with ⟨e | a, t⟩
  · exact exits e t
  · exact returns a t

end Ensures

namespace Keeps

theorem pure (a : α) : Keeps I (pure a : Program σ ε α) := Ensures.pure fun _ holds => holds

theorem throw (e : ε) : Keeps I (throw e : Program σ ε α) := Ensures.throw fun _ holds => holds

theorem bind (first : Keeps I m) (later : ∀ a, Keeps I (next a)) : Keeps I (m >>= next) :=
  Ensures.bind first later

theorem exitIf {c : Prop} [Decidable c] (e : ε) : Keeps I (exitIf c e) :=
  Ensures.exitIf (fun _ holds _ => holds) (fun _ holds _ => holds)

theorem ite {c : Prop} [Decidable c] {other : Program σ ε α} (yes : c → Keeps I m)
    (no : ¬ c → Keeps I other) : Keeps I (if c then m else other) := by
  by_cases met : c
  · rw [if_pos met]
    exact yes met
  · rw [if_neg met]
    exact no met

/-- The state a program leaves has what the program keeps. -/
theorem left (keeps : Keeps I m) {s : σ} (holds : I s) : I (outcome m s).2 := by
  have ended := keeps s holds
  revert ended
  rcases outcome m s with ⟨e | a, t⟩ <;> exact id

end Keeps

end Rules

/-! ## What is seen of the state

Rules to run a program step by step where only a view of its state is known. -/

section Views

variable {ν : Type} {view : σ → ν} {v v' : ν} {m : Program σ ε α} {next : α → Program σ ε β}
  {a : α} {Q Q' : Option (α × ν) → Prop} {R : Option (β × ν) → Prop}

/-- The value that is returned and what is seen of the state then, nothing of an exit. -/
def seen (view : σ → ν) : Except ε α × σ → Option (α × ν)
  | (.ok a, s) => some (a, view s)
  | (.error _, _) => none

/-- From a state seen as `v` the end of the program is seen as `Q` says. -/
def Ends (view : σ → ν) (v : ν) (m : Program σ ε α) (Q : Option (α × ν) → Prop) : Prop :=
  ∀ s, view s = v → Q (seen view (outcome m s))

/-- From a state seen as `v` the program returns `a`, and leaves one seen as `v'`. -/
abbrev Returns (view : σ → ν) (v : ν) (m : Program σ ε α) (a : α) (v' : ν) : Prop :=
  Ends view v m (· = some (a, v'))

/-- Where `c` holds the program returns `a`, and else it exits. -/
abbrev ReturnsIf (view : σ → ν) (v : ν) (m : Program σ ε α) (c : Prop) (a : α) (v' : ν) : Prop :=
  Ends view v m fun
    | some result => c ∧ result = (a, v')
    | none => ¬ c

namespace Ends

theorem pure (holds : Q (some (a, v))) : Ends view v (pure a : Program σ ε α) Q := by
  intro s same
  rw [outcome_pure, seen, same]
  exact holds

theorem throw {e : ε} (holds : Q none) : Ends view v (throw e : Program σ ε α) Q :=
  fun _ _ => holds

theorem modify {f : σ → σ} {Q : Option (PUnit × ν) → Prop}
    (holds : ∀ s, view s = v → Q (some (⟨⟩, view (f s)))) :
    Ends view v (modify f : Program σ ε PUnit) Q := holds

theorem weaken (ends : Ends view v m Q) (weaker : ∀ r, Q r → Q' r) : Ends view v m Q' :=
  fun s same => weaker _ (ends s same)

theorem of_returns (returns : Returns view v m a v') (holds : Q (some (a, v'))) :
    Ends view v m Q := by
  refine returns.weaken ?_
  rintro _ rfl
  exact holds

theorem of_returnsIf {c : Prop} (returns : ReturnsIf view v m c a v') (exits : ¬ c → Q none)
    (holds : c → Q (some (a, v'))) : Ends view v m Q := by
  refine returns.weaken fun r ended => ?_
  cases r with
  | none => exact exits ended
  | some _ =>
      obtain ⟨met, rfl⟩ := ended
      exact holds met

theorem bind_cases (first : Ends view v m Q) (exits : Q none → R none)
    (later : ∀ a v', Q (some (a, v')) → Ends view v' (next a) R) :
    Ends view v (m >>= next) R := by
  intro s same
  have begun := first s same
  rw [outcome_bind]
  rcases ended : outcome m s with ⟨e | a, t⟩
  · rw [ended] at begun
    exact exits begun
  · rw [ended] at begun
    exact later a (view t) begun t rfl

theorem bind (first : Returns view v m a v') (later : Ends view v' (next a) R) :
    Ends view v (m >>= next) R := by
  refine bind_cases first nofun ?_
  rintro _ _ ⟨⟩
  exact later

/-- A program that returns on a condition. -/
theorem bind_if {c : Prop} (first : ReturnsIf view v m c a v') (exits : ¬ c → R none)
    (later : c → Ends view v' (next a) R) : Ends view v (m >>= next) R := by
  refine bind_cases first exits ?_
  rintro _ _ ⟨met, same⟩
  obtain ⟨rfl, rfl⟩ := Prod.mk.inj same
  exact later met

/-- A value that is only wrapped up arrives wherever it did. -/
theorem bind_pure {c : Prop} {g : α → β} (injective : ∀ a b, g a = g b → a = b)
    (ends : Ends view v m fun r => r = some (a, v') ↔ c) :
    Ends view v (m >>= fun a => Pure.pure (g a)) fun r => r = some (g a, v') ↔ c := by
  refine bind_cases ends (fun exits => ?_) fun b w same => pure ?_
  · simpa using exits
  · rw [← same]
    simp only [Option.some.injEq, Prod.mk.injEq]
    exact and_congr_left' ⟨injective b a, congrArg g⟩

theorem exitIf {c : Prop} [Decidable c] {e : ε} :
    ReturnsIf (σ := σ) view v (exitIf c e) (¬ c) () v := by
  rw [Program.exitIf]
  by_cases met : c
  · rw [if_pos met]
    exact fun _ _ => not_not_intro met
  · rw [if_neg met]
    exact pure ⟨met, rfl⟩

theorem passes {c : Prop} [Decidable c] {e : ε} (fails : ¬ c) :
    Returns (σ := σ) view v (Program.exitIf c e) () v := by
  rw [Program.exitIf, if_neg fails]
  exact pure rfl

theorem get_bind {next : σ → Program σ ε β} (later : ∀ s, view s = v → Ends view v (next s) R) :
    Ends view v (get >>= next) R := by
  intro s same
  rw [outcome_bind]
  exact later s same s same

end Ends

/-! A state that is seen whole. -/

variable {s t : σ}

theorem seen_id_eq_some {r : Except ε α × σ} : seen id r = some (a, t) ↔ r = (.ok a, t) := by
  rcases r with ⟨e | b, t'⟩ <;> simp [seen]

theorem Returns.outcome_bind (returns : Returns id s m a t) (next : α → Program σ ε β) :
    outcome (m >>= next) s = outcome (next a) t := by
  rw [Program.outcome_bind, seen_id_eq_some.mp (returns s rfl)]

end Views

end Program

end Mlvpn.Library
