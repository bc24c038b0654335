import Mathlib.Data.List.Basic

/-! # Histories

What was recorded, newest first, and two ways to speak about the past: something
has happened and was not undone since, and every record met a condition on what
had been recorded before it.  At the end, the reports of something that is switched
on and off.
-/

namespace Mlvpn.Library.History

variable {ε : Type*} {holds undone : ε → Prop} {needs : ε → List ε → Prop} {e : ε}
  {new trace : List ε}

/-- It has happened, and nothing has undone it since. -/
def Since (holds undone : ε → Prop) (trace : List ε) : Prop :=
  ∃ newer e older, trace = newer ++ e :: older ∧ holds e ∧ ∀ e' ∈ newer, ¬ undone e'

theorem Since.now (happens : holds e) : Since holds undone (e :: trace) :=
  ⟨[], e, trace, rfl, happens, fun _ member => by cases member⟩

theorem Since.append (since : Since holds undone trace) (kept : ∀ e ∈ new, ¬ undone e) :
    Since holds undone (new ++ trace) := by
  obtain ⟨newer, e, older, rfl, happened, still⟩ := since
  refine ⟨new ++ newer, e, older, by rw [List.append_assoc], happened, fun e' member => ?_⟩
  rcases List.mem_append.mp member with late | early
  · exact kept e' late
  · exact still e' early

theorem Since.cons (since : Since holds undone trace) (kept : ¬ undone e) :
    Since holds undone (e :: trace) := by
  rw [← List.singleton_append]
  exact since.append fun _ member => List.mem_singleton.mp member ▸ kept

/-- Every record met its condition when it was made. -/
def Historically (needs : ε → List ε → Prop) (trace : List ε) : Prop :=
  ∀ newer e older, trace = newer ++ e :: older → needs e older

theorem Historically.nil : Historically needs [] := fun newer _ _ split => by cases newer <;> cases split

theorem Historically.cons (h : Historically needs trace) (met : needs e trace) :
    Historically needs (e :: trace) := by
  intro newer e' older split
  cases newer with
  | nil =>
      cases split
      exact met
  | cons _ newer =>
      cases split
      exact h newer e' older rfl

theorem Historically.at_index {past : List ε} (h : Historically needs past) {n : Nat}
    (here : past[n]? = some e) : needs e (past.drop (n + 1)) := by
  obtain ⟨inside, rfl⟩ := List.getElem?_eq_some_iff.mp here
  refine h (past.take n) past[n] _ ?_
  rw [← List.drop_eq_getElem_cons inside, List.take_append_drop]

/-- Several records, of which none takes away what a record needs. -/
theorem needs_append (kept : ∀ e ∈ new, ∀ e' older, needs e' older → needs e' (e :: older))
    (met : needs e trace) : needs e (new ++ trace) := by
  induction new with
  | nil => exact met
  | cons first rest ih =>
      exact kept first List.mem_cons_self e _
        (ih fun e' member => kept e' (List.mem_cons_of_mem _ member))

theorem Historically.append (h : Historically needs trace) (met : ∀ e ∈ new, needs e trace)
    (kept : ∀ e ∈ new, ∀ e' older, needs e' older → needs e' (e :: older)) :
    Historically needs (new ++ trace) := by
  induction new with
  | nil => exact h
  | cons first rest ih =>
      have others : ∀ e ∈ rest, ∀ e' older, needs e' older → needs e' (e :: older) :=
        fun e member => kept e (List.mem_cons_of_mem _ member)
      have earlier : Historically needs (rest ++ trace) :=
        ih (fun e member => met e (List.mem_cons_of_mem _ member)) others
      exact earlier.cons (needs_append others (met first List.mem_cons_self))

/-- What was reported last of something that is off at first. -/
def latest (reports : List Bool) : Bool := reports.headD false

/-- Every report differs from the one before it, and the first one from `false`. -/
def Alternates (reports : List Bool) : Prop := (reports ++ [false]).IsChain (· ≠ ·)

instance (reports : List Bool) : Decidable (Alternates reports) :=
  inferInstanceAs (Decidable (List.IsChain _ _))

theorem alternates_nil : Alternates [] := .singleton false

theorem alternates_cons {b : Bool} {reports : List Bool} :
    Alternates (b :: reports) ↔ b ≠ latest reports ∧ Alternates reports := by
  cases reports with
  | nil => exact List.isChain_cons_cons
  | cons last older => exact List.isChain_cons_cons

end Mlvpn.Library.History
