import Mathlib.Tactic.Linarith

/-! # Runs of state machines

Machines that answer every input (`trace`) and machines whose step may fail
(`traceOption`, `run`), with the rules by which a fact about one step becomes a fact about
every run.
-/

namespace Mlvpn.Library.Machine

variable {σ τ ι ο ο' ε : Type*}

/-- The outputs of a machine over a list of inputs, and its last state. -/
def trace (step : σ → ι → ο × σ) : σ → List ι → List ο × σ
  | s, [] => ([], s)
  | s, i :: rest =>
      let first := step s i
      let later := trace step first.2 rest
      (first.1 :: later.1, later.2)

/-- The outputs of a machine that may fail, unless it fails. -/
def traceOption (step : σ → ι → Option (ο × σ)) : σ → List ι → Option (List ο × σ)
  | s, [] => some ([], s)
  | s, i :: rest =>
      (step s i).bind fun first =>
        (traceOption step first.2 rest).map fun later => (first.1 :: later.1, later.2)

/-- A machine in step with one that answers every input does not fail, and gives
    the same outputs, up to `read`. -/
theorem trace_simulates {step : σ → ι → Option (ο × σ)} {step' : τ → ι → ο' × τ}
    {R : σ → τ → Prop} {admitted : ι → Prop} {read : ο' → ο}
    (oneStep : ∀ s t i, R s t → admitted i →
      ∃ s', step s i = some (read (step' t i).1, s') ∧ R s' (step' t i).2)
    (inputs : List ι) {s : σ} {t : τ} (related : R s t) (all : ∀ i ∈ inputs, admitted i) :
    ∃ s', traceOption step s inputs = some ((trace step' t inputs).1.map read, s') ∧
      R s' (trace step' t inputs).2 := by
  induction inputs generalizing s t with
  | nil => exact ⟨s, rfl, related⟩
  | cons i rest ih =>
      obtain ⟨s₁, first, next⟩ := oneStep s t i related (all i List.mem_cons_self)
      obtain ⟨s₂, later, last⟩ := ih next (fun j member => all j (List.mem_cons_of_mem i member))
      refine ⟨s₂, ?_, last⟩
      simp only [traceOption, first, Option.bind_some, later, Option.map_some, trace, List.map_cons]

/-- A map of states under which two machines give the same outputs at every step carries
    the whole trace of one to the other. -/
theorem traceOption_map {step : σ → ι → Option (ο × σ)} {step' : τ → ι → Option (ο × τ)}
    {carry : σ → τ}
    (oneStep : ∀ s i, step' (carry s) i = (step s i).map fun first => (first.1, carry first.2))
    (inputs : List ι) (s : σ) :
    traceOption step' (carry s) inputs =
      (traceOption step s inputs).map fun later => (later.1, carry later.2) := by
  induction inputs generalizing s with
  | nil => rfl
  | cons i rest ih =>
      simp only [traceOption, oneStep]
      cases step s i with
      | none => rfl
      | some first =>
          simp only [Option.map_some, Option.bind_some, ih, Option.map_map, Function.comp_def]

/-- A run of a machine whose step may fail. -/
def run (step : σ → ε → Option σ) : σ → List ε → Option σ
  | s, [] => some s
  | s, e :: rest => (step s e).bind fun s' => run step s' rest

theorem run_cons_eq_some {step : σ → ε → Option σ} {s t : σ} {e : ε} {rest : List ε} :
    run step s (e :: rest) = some t ↔ ∃ s', step s e = some s' ∧ run step s' rest = some t := by
  simp only [run, Option.bind_eq_some_iff]

/-- A machine that follows every output of another one follows its whole trace. -/
theorem traceOption_followed {step : σ → ι → Option (ο × σ)} {follow : τ → ο → Option τ}
    {R : σ → τ → Prop}
    (oneStep : ∀ s t i o s', R s t → step s i = some (o, s') → ∃ t', follow t o = some t' ∧ R s' t')
    {inputs : List ι} {outputs : List ο} {s s' : σ} {t : τ} (related : R s t)
    (done : traceOption step s inputs = some (outputs, s')) :
    ∃ t', run follow t outputs = some t' ∧ R s' t' := by
  induction inputs generalizing s t outputs with
  | nil =>
      cases done
      exact ⟨t, rfl, related⟩
  | cons i rest ih =>
      obtain ⟨⟨o, s₁⟩, first, later⟩ := Option.bind_eq_some_iff.mp done
      obtain ⟨⟨os, s₂⟩, traced, same⟩ := Option.map_eq_some_iff.mp later
      cases same
      obtain ⟨t₁, followed, next⟩ := oneStep s t i o s₁ related first
      obtain ⟨t₂, reached, last⟩ := ih next traced
      exact ⟨t₂, run_cons_eq_some.mpr ⟨t₁, followed, reached⟩, last⟩

theorem run_append_eq_some {step : σ → ε → Option σ} {s u : σ} {events later : List ε} :
    run step s (events ++ later) = some u ↔
      ∃ t, run step s events = some t ∧ run step t later = some u := by
  induction events generalizing s with
  | nil => simp only [List.nil_append, run, Option.some.injEq, exists_eq_left']
  | cons first rest ih =>
      rw [List.cons_append, run_cons_eq_some]
      simp only [ih, run_cons_eq_some]
      constructor
      · rintro ⟨s', begun, t, reached, ended⟩
        exact ⟨t, ⟨s', begun, reached⟩, ended⟩
      · rintro ⟨t, ⟨s', begun, reached⟩, ended⟩
        exact ⟨s', begun, t, reached, ended⟩

/-- Every step of a run meets `guard` in the state before it. -/
def Meets (step : σ → ε → Option σ) (guard : σ → ε → Prop) : σ → List ε → Prop
  | _, [] => True
  | s, e :: rest => guard s e ∧ ∀ s', step s e = some s' → Meets step guard s' rest

/-- The steps of a run, each with the state before it, as far as the run goes. -/
def visits (step : σ → ε → Option σ) : σ → List ε → List (σ × ε)
  | _, [] => []
  | s, e :: rest => (s, e) :: ((step s e).map fun s' => visits step s' rest).getD []

/-- What the steps of a run keep holds before each of them. -/
theorem visits_invariant {step : σ → ε → Option σ} {I : σ → Prop} (events : List ε)
    (preserved : ∀ s, ∀ e ∈ events, ∀ s', I s → step s e = some s' → I s') {s : σ} (initially : I s) :
    ∀ visit ∈ visits step s events, I visit.1 ∧ visit.2 ∈ events := by
  induction events generalizing s with
  | nil =>
      intro visit member
      cases member
  | cons e rest ih =>
      intro visit member
      cases member with
      | head => exact ⟨initially, List.mem_cons_self⟩
      | tail _ member =>
          cases done : step s e with
          | none =>
              rw [done] at member
              cases member
          | some s' =>
              rw [done] at member
              have kept := preserved s e List.mem_cons_self s' initially done
              obtain ⟨holds, there⟩ := ih (fun t e' later =>
                preserved t e' (List.mem_cons_of_mem e later)) kept visit member
              exact ⟨holds, List.mem_cons_of_mem e there⟩

theorem meets_of_forall {step : σ → ε → Option σ} {guard : σ → ε → Prop} (events : List ε)
    (always : ∀ e ∈ events, ∀ s, guard s e) (s : σ) : Meets step guard s events := by
  induction events generalizing s with
  | nil => exact trivial
  | cons e rest ih =>
      exact ⟨always e List.mem_cons_self s,
        fun s' _ => ih (fun e' member => always e' (List.mem_cons_of_mem e member)) s'⟩

/-- What every step keeps of a state and of the outputs so far, a whole run keeps. -/
theorem run_outputs {step : σ → ε → Option σ} {guard : σ → ε → Prop} {out : σ × ε → List ο}
    {I : σ → List ο → Prop}
    (preserved : ∀ s e s' before, I s before → guard s e → step s e = some s' →
      I s' (before ++ out (s, e)))
    (events : List ε) {s t : σ} {before : List ο} (initially : I s before)
    (meets : Meets step guard s events) (reached : run step s events = some t) :
    I t (before ++ (visits step s events).flatMap out) := by
  induction events generalizing s before with
  | nil =>
      cases reached
      simpa only [visits, List.flatMap_nil, List.append_nil] using initially
  | cons e rest ih =>
      obtain ⟨s', first, later⟩ := run_cons_eq_some.mp reached
      have kept := ih (preserved s e s' before initially meets.1 first) (meets.2 s' first) later
      simpa only [visits, first, Option.map_some, Option.getD_some, List.flatMap_cons,
        List.append_assoc] using kept

/-- Guards that say the same of the states with the invariant. -/
theorem meets_congr {step : σ → ε → Option σ} {guard guard' : σ → ε → Prop} {I : σ → Prop}
    (preserved : ∀ s e s', I s → step s e = some s' → I s')
    (same : ∀ s e, I s → (guard s e ↔ guard' s e)) (events : List ε) {s : σ} (initially : I s) :
    Meets step guard s events ↔ Meets step guard' s events := by
  induction events generalizing s with
  | nil => exact Iff.rfl
  | cons e rest ih =>
      refine and_congr (same s e initially) (forall₂_congr fun s' done => ?_)
      exact ih (preserved s e s' initially done)

/-- Guards that say the same of the steps that are taken. -/
theorem meets_congr_of_run {step : σ → ε → Option σ} {guard guard' : σ → ε → Prop} {I : σ → Prop}
    (preserved : ∀ s e s', I s → step s e = some s' → I s')
    (same : ∀ s e s', I s → step s e = some s' → (guard s e ↔ guard' s e)) (events : List ε) {s t : σ}
    (initially : I s) (reached : run step s events = some t) :
    Meets step guard s events ↔ Meets step guard' s events := by
  induction events generalizing s with
  | nil => exact Iff.rfl
  | cons e rest ih =>
      obtain ⟨s', first, later⟩ := run_cons_eq_some.mp reached
      refine and_congr (same s e s' initially first) (forall₂_congr fun s'' done => ?_)
      cases first.symm.trans done
      exact ih (preserved s e s' initially first) later

instance decidableMeets (step : σ → ε → Option σ) (guard : σ → ε → Prop)
    [∀ s e, Decidable (guard s e)] : ∀ s events, Decidable (Meets step guard s events)
  | _, [] => isTrue trivial
  | s, e :: rest =>
      have : ∀ s', Decidable (Meets step guard s' rest) := fun s' => decidableMeets step guard s' rest
      inferInstanceAs (Decidable (guard s e ∧ ∀ s' ∈ step s e, Meets step guard s' rest))

/-- A property holds in every state of a run. -/
def Always (step : σ → ε → Option σ) (P : σ → Prop) : σ → List ε → Prop
  | s, [] => P s
  | s, e :: rest => P s ∧ ∀ s', step s e = some s' → Always step P s' rest

theorem Always.head {step : σ → ε → Option σ} {P : σ → Prop} {s : σ} {events : List ε}
    (always : Always step P s events) : P s := by
  cases events with
  | nil => exact always
  | cons e rest => exact always.1

theorem Always.last {step : σ → ε → Option σ} {P : σ → Prop} {s t : σ} {events : List ε}
    (always : Always step P s events) (reached : run step s events = some t) : P t := by
  induction events generalizing s with
  | nil =>
      simp only [run, Option.some.injEq] at reached
      exact reached ▸ always
  | cons e rest ih =>
      obtain ⟨s', first, later⟩ := run_cons_eq_some.mp reached
      exact ih (always.2 s' first) later

/-- Where the guard is what one step needs to preserve a property, it is what a
    whole run needs; the step may rely on an invariant. -/
theorem always_iff_meets_of_invariant {step : σ → ε → Option σ} {guard : σ → ε → Prop}
    {I P : σ → Prop} (kept : ∀ s e s', I s → step s e = some s' → I s')
    (needed : ∀ s e s', I s → P s → step s e = some s' → (P s' ↔ guard s e))
    (events : List ε) {s t : σ} (invariant : I s) (initially : P s)
    (reached : run step s events = some t) :
    Always step P s events ↔ Meets step guard s events := by
  induction events generalizing s with
  | nil => exact ⟨fun _ => trivial, fun _ => initially⟩
  | cons e rest ih =>
      obtain ⟨s', first, later⟩ := run_cons_eq_some.mp reached
      have next : ∀ s'', step s e = some s'' ↔ s'' = s' := by
        intro s''
        rw [first, Option.some.injEq, eq_comm]
      have still := kept s e s' invariant first
      have one := needed s e s' invariant initially first
      simp only [Always, Meets, next, forall_eq, initially, true_and]
      constructor
      · intro always
        have holds : P s' := always.head
        exact ⟨one.mp holds, (ih still holds later).mp always⟩
      · rintro ⟨allowed, meets⟩
        exact (ih still (one.mpr allowed) later).mpr meets

theorem always_iff_meets {step : σ → ε → Option σ} {guard : σ → ε → Prop} {P : σ → Prop}
    (needed : ∀ s e s', P s → step s e = some s' → (P s' ↔ guard s e))
    (events : List ε) {s t : σ} (initially : P s) (reached : run step s events = some t) :
    Always step P s events ↔ Meets step guard s events :=
  always_iff_meets_of_invariant (I := fun _ => True) (fun _ _ _ _ _ => trivial)
    (fun s e s' _ => needed s e s') events trivial initially reached

/-- The same for a step that may fail, with an invariant of the state and the
    events to come. -/
theorem run_always_iff_meets {step : σ → ε → Option σ} {guard : σ → ε → Prop} {P : σ → Prop}
    {I : σ → List ε → Prop}
    (oneStep : ∀ s e rest, I s (e :: rest) → P s →
      (guard s e → ∃ s', step s e = some s') ∧
        ∀ s', step s e = some s' → I s' rest ∧ (P s' ↔ guard s e))
    (events : List ε) {s : σ} (initially : I s events) (holds : P s) :
    ((∃ t, run step s events = some t) ∧ Always step P s events) ↔ Meets step guard s events := by
  induction events generalizing s with
  | nil => exact ⟨fun _ => trivial, fun _ => ⟨⟨s, rfl⟩, holds⟩⟩
  | cons e rest ih =>
      obtain ⟨defined, stepped⟩ := oneStep s e rest initially holds
      constructor
      · rintro ⟨⟨t, reached⟩, _, always⟩
        obtain ⟨s', first, later⟩ := run_cons_eq_some.mp reached
        obtain ⟨next, needed⟩ := stepped s' first
        have holds' : P s' := (always s' first).head
        refine ⟨needed.mp holds', ?_⟩
        intro s'' first'
        obtain rfl : s' = s'' := Option.some.inj (first.symm.trans first')
        exact (ih next holds').mp ⟨⟨t, later⟩, always s' first⟩
      · rintro ⟨allowed, meets⟩
        obtain ⟨s', first⟩ := defined allowed
        obtain ⟨next, needed⟩ := stepped s' first
        obtain ⟨⟨t, later⟩, always⟩ := (ih next (needed.mpr allowed)).mpr (meets s' first)
        refine ⟨⟨t, run_cons_eq_some.mpr ⟨s', first, later⟩⟩, holds, ?_⟩
        intro s'' first'
        obtain rfl : s' = s'' := Option.some.inj (first.symm.trans first')
        exact always

/-- What every step of a run has in common. -/
theorem run_preserves {step : σ → ε → Option σ} {I : σ → Prop} (events : List ε)
    (preserved : ∀ s, ∀ e ∈ events, ∀ s', I s → step s e = some s' → I s') {s t : σ}
    (initially : I s) (reached : run step s events = some t) : I t := by
  induction events generalizing s with
  | nil =>
      simp only [run, Option.some.injEq] at reached
      exact reached ▸ initially
  | cons e rest ih =>
      obtain ⟨s', first, later⟩ := run_cons_eq_some.mp reached
      exact ih (fun s e member => preserved s e (List.mem_cons_of_mem _ member))
        (preserved s e List.mem_cons_self s' initially first) later

/-- What every step that meets the guard preserves, every such run preserves. -/
theorem run_invariant {step : σ → ε → Option σ} {guard : σ → ε → Prop} {I : σ → Prop}
    (preserved : ∀ s e s', I s → guard s e → step s e = some s' → I s')
    (events : List ε) {s t : σ} (initially : I s) (meets : Meets step guard s events)
    (reached : run step s events = some t) : I t := by
  induction events generalizing s with
  | nil =>
      simp only [run, Option.some.injEq] at reached
      exact reached ▸ initially
  | cons e rest ih =>
      obtain ⟨s', first, later⟩ := run_cons_eq_some.mp reached
      exact ih (preserved s e s' initially meets.1 first) (meets.2 s' first) later

/-- An invariant that follows a clock, over steps in the order of their times. -/
theorem run_clocked {τ : Type*} [Preorder τ] {step : σ → τ × ε → Option σ} {I : τ → σ → Prop}
    (preserved : ∀ clock s event s', I clock s → clock ≤ event.1 → step s event = some s' → I event.1 s')
    (events : List (τ × ε)) {clock : τ} {s t : σ}
    (ordered : (clock :: events.map Prod.fst).Pairwise (· ≤ ·)) (initially : I clock s)
    (reached : run step s events = some t) : ∃ last ∈ clock :: events.map Prod.fst, I last t := by
  induction events generalizing clock s with
  | nil =>
      cases reached
      exact ⟨clock, List.mem_cons_self, initially⟩
  | cons e rest ih =>
      obtain ⟨s', first, later⟩ := run_cons_eq_some.mp reached
      obtain ⟨earliest, ordered⟩ := List.pairwise_cons.mp ordered
      have next := preserved clock s e s' initially (earliest e.1 List.mem_cons_self) first
      obtain ⟨last, member, holds⟩ := ih ordered next later
      exact ⟨last, List.mem_cons_of_mem clock member, holds⟩

/-- Where no step that meets the guard fails, no such run does. -/
theorem run_succeeds {step : σ → ε → Option σ} {guard : σ → ε → Prop} {I : σ → Prop}
    (progress : ∀ s e, I s → guard s e → ∃ s', step s e = some s' ∧ I s')
    (events : List ε) {s : σ} (initially : I s) (meets : Meets step guard s events) :
    ∃ t, run step s events = some t ∧ I t := by
  induction events generalizing s with
  | nil => exact ⟨s, rfl, initially⟩
  | cons e rest ih =>
      obtain ⟨s', first, next⟩ := progress s e initially meets.1
      obtain ⟨t, later, last⟩ := ih next (meets.2 s' first)
      exact ⟨t, run_cons_eq_some.mpr ⟨s', first, later⟩, last⟩

/-- Where no step fails, no run does. -/
theorem run_total {step : σ → ε → Option σ} {I : σ → Prop}
    (progress : ∀ s e, I s → ∃ s', step s e = some s' ∧ I s') (events : List ε) {s : σ}
    (initially : I s) : ∃ t, run step s events = some t ∧ I t := by
  induction events generalizing s with
  | nil => exact ⟨s, rfl, initially⟩
  | cons e rest ih =>
      obtain ⟨s', first, next⟩ := progress s e initially
      obtain ⟨t, later, last⟩ := ih next
      exact ⟨t, run_cons_eq_some.mpr ⟨s', first, later⟩, last⟩

/-- Where only steps that meet the guard succeed, so do only such runs. -/
theorem run_meets {step : σ → ε → Option σ} {guard : σ → ε → Prop} {I : σ → Prop}
    (necessary : ∀ s e s', I s → step s e = some s' → guard s e ∧ I s')
    (events : List ε) {s t : σ} (initially : I s) (reached : run step s events = some t) :
    Meets step guard s events ∧ I t := by
  induction events generalizing s with
  | nil =>
      simp only [run, Option.some.injEq] at reached
      exact ⟨trivial, reached ▸ initially⟩
  | cons e rest ih =>
      obtain ⟨s', first, later⟩ := run_cons_eq_some.mp reached
      obtain ⟨allowed, next⟩ := necessary s e s' initially first
      obtain ⟨meets, last⟩ := ih next later
      refine ⟨⟨allowed, fun s'' first' => ?_⟩, last⟩
      obtain rfl : s' = s'' := Option.some.inj (first.symm.trans first')
      exact meets

end Mlvpn.Library.Machine
