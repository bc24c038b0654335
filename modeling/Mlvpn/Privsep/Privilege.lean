import Mlvpn.Privsep.Acts

/-! # Privilege can only decrease

The states of `enum priv_state` stand for less and less privilege.  Whatever bytes the
child sends, nothing is opened, launched or changed after `PRIV_SET_RUNNING_STATE` beyond
what was agreed on before.  The state itself goes only forward, but for one race:
`increase_state` tests and stores in two steps, and a handler that runs in between has its
`STATE_QUIT` overwritten.
-/

namespace Mlvpn.Privsep

open Library Library.Program

/-- `cur_state` has never decreased. -/
def Parent.Forward (p : Parent) : Prop :=
  p.trace.Pairwise fun later earlier =>
    earlier.memory.curState.value ≤ later.memory.curState.value

instance (p : Parent) : Decidable p.Forward := inferInstanceAs (Decidable (List.Pairwise _ _))

/-- The handler of `SIGCHLD` has never run between the test and the store of
    `increase_state`. -/
def Parent.Undisturbed (p : Parent) : Prop :=
  ∀ state, ¬ [Effect.chld, Effect.increases state] <:+: p.trace.map Entry.effect

/-- What may happen once the memory is the given one and the child has no more say in it:
    no device is opened, both paths are the same, and the only file that is opened and
    the only script that is launched are these. -/
def Entry.Confined (locked : Memory) (e : Entry) : Prop :=
  e.memory.allowedConfigfile = locked.allowedConfigfile ∧
  e.memory.scriptPath = locked.scriptPath ∧
  match e.effect with
  | .tuntapOpen _ _ _ => False
  | .openFile path => path = locked.allowedConfigfile
  | .launchScript _ path _ _ => path = locked.scriptPath
  | _ => True

/-- Everything after `PRIV_SET_RUNNING_STATE` is confined by the memory at that moment. -/
structure Parent.Confined (p : Parent) : Prop where
  entries : p.trace.Pairwise fun later earlier =>
    earlier.effect = .enters .running → later.Confined earlier.memory
  allowedConfigfile : ∀ e ∈ p.trace, e.effect = .enters .running →
    p.memory.allowedConfigfile = e.memory.allowedConfigfile
  scriptPath : ∀ e ∈ p.trace, e.effect = .enters .running →
    p.memory.scriptPath = e.memory.scriptPath

/-! ## Confinement -/

namespace Parent.Confined

variable {p : Parent}

/-- What the memory allows now, it allowed when it was locked. -/
theorem record (confined : p.Confined) {effect : Effect} {memory : Memory}
    (allowed : Entry.Confined p.memory ⟨effect, memory⟩) : (p.record effect memory).Confined := by
  obtain ⟨sameConfigfile, sameScript, permitted⟩ := allowed
  refine ⟨List.pairwise_cons.mpr ⟨?_, confined.entries⟩, ?_, ?_⟩
  · intro e member entered
    have configfile := confined.allowedConfigfile e member entered
    have script := confined.scriptPath e member entered
    refine ⟨sameConfigfile.trans configfile, sameScript.trans script, ?_⟩
    rw [configfile, script] at permitted
    exact permitted
  · intro e member entered
    rcases List.mem_cons.mp member with rfl | earlier
    · rfl
    · exact sameConfigfile.trans (confined.allowedConfigfile e earlier entered)
  · intro e member entered
    rcases List.mem_cons.mp member with rfl | earlier
    · rfl
    · exact sameScript.trans (confined.scriptPath e earlier entered)

/-- Before the lock everything is allowed. -/
theorem record_unlocked (confined : p.Confined) (unlocked : p.Unlocked) (effect : Effect)
    (memory : Memory) : (p.record effect memory).Confined := by
  refine ⟨List.pairwise_cons.mpr ⟨?_, confined.entries⟩, ?_, ?_⟩
  · intro e member entered
    exact absurd entered (unlocked e member)
  · intro e member entered
    rcases List.mem_cons.mp member with rfl | earlier
    · rfl
    · exact absurd entered (unlocked e earlier)
  · intro e member entered
    rcases List.mem_cons.mp member with rfl | earlier
    · rfl
    · exact absurd entered (unlocked e earlier)

theorem setState (confined : p.Confined) (effect : Effect) (state : PrivState)
    (allowed : Entry.Confined p.memory ⟨effect, p.memory⟩) :
    (p.setState effect state).Confined :=
  confined.record allowed

end Parent.Confined

theorem Effect.Plain.confined {effect : Effect} (plain : effect.Plain) (memory : Memory) :
    Entry.Confined memory ⟨effect, memory⟩ := by
  refine ⟨rfl, rfl, ?_⟩
  cases effect <;> trivial

theorem Act.confined {p q : Parent} (act : Act p q) (confined : p.Confined) : q.Confined := by
  cases act with
  | consumes n => exact ⟨confined.entries, confined.allowedConfigfile, confined.scriptPath⟩
  | asks => exact ⟨confined.entries, confined.allowedConfigfile, confined.scriptPath⟩
  | chld => exact confined.setState .chld .quit ⟨rfl, rfl, trivial⟩
  | increases state up notQuit =>
      have tested : (p.log (.increases state)).Confined := confined.record ⟨rfl, rfl, trivial⟩
      exact tested.setState (.enters state) state ⟨rfl, rfl, trivial⟩
  | disturbed state up notQuit =>
      have tested : (p.log (.increases state)).Confined := confined.record ⟨rfl, rfl, trivial⟩
      have struck := tested.setState .chld .quit ⟨rfl, rfl, trivial⟩
      exact struck.setState (.enters state) state ⟨rfl, rfl, trivial⟩
  | configfile path unlocked => exact confined.record_unlocked unlocked _ _
  | scriptPath path unlocked accepted => exact confined.record_unlocked unlocked _ _
  | tuntapOpen mode name mtu unlocked => exact confined.record_unlocked unlocked _ _
  | openFile => exact confined.record ⟨rfl, rfl, rfl⟩
  | launchScript argv env given => exact confined.record ⟨rfl, rfl, rfl⟩
  | talks effect plain => exact confined.record (plain.confined _)

theorem Acts.confined {p q : Parent} (acts : Acts p q) (confined : p.Confined) : q.Confined := by
  induction acts with
  | refl => exact confined
  | tail _ act ih => exact act.confined ih

/-! ## The order of the states -/

/-- The last thing done was not the test of `increase_state`. -/
def Parent.Settled (p : Parent) : Prop :=
  ∀ e, p.trace.head? = some e → ∀ state, e.effect ≠ .increases state

/-- The handler follows a test where the test comes last and the handler next. -/
theorem Parent.Undisturbed.record {p : Parent} (undisturbed : p.Undisturbed) {effect : Effect}
    {memory : Memory} (apart : effect = .chld → p.Settled) :
    (p.record effect memory).Undisturbed := by
  intro state inside
  rcases List.infix_cons_iff.mp inside with first | earlier
  · obtain ⟨rfl, second⟩ := List.cons_prefix_cons.mp first
    cases before : p.trace with
    | nil => simp [before] at second
    | cons e rest =>
        rw [before, List.map_cons] at second
        have tested := (List.cons_prefix_cons.mp second).1
        exact apart rfl e (by rw [before, List.head?_cons]) state tested.symm
  · exact undisturbed state earlier

theorem Parent.Undisturbed.of_record {p : Parent} {effect : Effect} {memory : Memory}
    (undisturbed : (p.record effect memory).Undisturbed) : p.Undisturbed :=
  fun state inside => undisturbed state (List.infix_cons inside)

theorem Parent.Forward.of_record {p : Parent} {effect : Effect} {memory : Memory}
    (forward : (p.record effect memory).Forward) : p.Forward := List.Pairwise.of_cons forward

/-- A state of the father: either nothing came between a test and its store, and the
    states went forward, or something did, and they did not. -/
inductive Parent.Ordered (p : Parent) : Prop
  | forward (undisturbed : p.Undisturbed) (forward : p.Forward)
      (below : ∀ e ∈ p.trace, e.memory.curState.value ≤ p.memory.curState.value)
      (settled : p.Settled)
  | back (disturbed : ¬ p.Undisturbed) (back : ¬ p.Forward)

namespace Parent.Ordered

variable {p : Parent}

theorem forward_iff (ordered : p.Ordered) : p.Forward ↔ p.Undisturbed := by
  cases ordered with
  | forward undisturbed forward below settled => exact iff_of_true forward undisturbed
  | back disturbed back => exact iff_of_false back disturbed

theorem elsewhere (ordered : p.Ordered) (input : List UInt8) (clock : Nat) :
    ({ p with input := input, clock := clock } : Parent).Ordered := by
  cases ordered with
  | forward undisturbed forward below settled =>
      exact .forward undisturbed forward below settled
  | back disturbed back => exact .back disturbed back

/-- Something that went wrong once is not made good. -/
theorem record_back (disturbed : ¬ p.Undisturbed) (back : ¬ p.Forward) (effect : Effect)
    (memory : Memory) : (p.record effect memory).Ordered :=
  .back (fun undisturbed => disturbed undisturbed.of_record) (fun forward => back forward.of_record)

theorem record (ordered : p.Ordered) {effect : Effect} {memory : Memory}
    (up : p.memory.curState.value ≤ memory.curState.value)
    (other : ∀ state, effect ≠ .increases state) : (p.record effect memory).Ordered := by
  cases ordered with
  | back disturbed back => exact record_back disturbed back effect memory
  | forward undisturbed forward below settled =>
      have above : ∀ e ∈ p.trace, e.memory.curState.value ≤ memory.curState.value :=
        fun e member => (below e member).trans up
      apply Ordered.forward
      · exact undisturbed.record fun _ => settled
      · exact List.pairwise_cons.mpr ⟨above, forward⟩
      · exact List.forall_mem_cons.mpr ⟨le_rfl, above⟩
      · rintro e ⟨⟩ state
        exact other state

theorem increases (ordered : p.Ordered) {state : PrivState}
    (up : p.memory.curState.value < state.value) :
    ((p.log (.increases state)).setState (.enters state) state).Ordered := by
  cases ordered with
  | back disturbed back =>
      cases record_back disturbed back (.increases state) p.memory with
      | back disturbed back => exact record_back disturbed back _ _
      | forward undisturbed _ _ _ => exact absurd undisturbed.of_record disturbed
  | forward undisturbed forward below settled =>
      have above : ∀ e ∈ (p.log (.increases state)).trace,
          e.memory.curState.value ≤ state.value :=
        List.forall_mem_cons.mpr ⟨up.le, fun e member => (below e member).trans up.le⟩
      apply Ordered.forward
      · have tested : (p.log (.increases state)).Undisturbed := undisturbed.record nofun
        exact tested.record nofun
      · exact List.pairwise_cons.mpr ⟨above, List.pairwise_cons.mpr ⟨below, forward⟩⟩
      · exact List.forall_mem_cons.mpr ⟨le_rfl, above⟩
      · rintro e ⟨⟩ state'
        exact nofun

/-- The race: the store overwrites what the handler has stored. -/
theorem disturbed {state : PrivState} (notQuit : state ≠ .quit) :
    ((p.log (.increases state)).sigGotChld.setState (.enters state) state).Ordered := by
  apply Ordered.back
  · intro undisturbed
    exact undisturbed state ⟨[.enters state], p.trace.map Entry.effect, rfl⟩
  · intro forward
    have kept : PrivState.quit.value ≤ state.value :=
      (List.pairwise_cons.mp forward).1 _ List.mem_cons_self
    cases state with
    | init | config | running => exact absurd kept (by decide)
    | quit => exact notQuit rfl

end Parent.Ordered

theorem Effect.Plain.ne_increases {effect : Effect} (plain : effect.Plain) (state : PrivState) :
    effect ≠ .increases state := by
  rintro rfl
  exact plain

theorem Act.ordered {p q : Parent} (act : Act p q) (ordered : p.Ordered) : q.Ordered := by
  cases act with
  | consumes n => exact ordered.elsewhere _ _
  | asks => exact ordered.elsewhere _ _
  | chld => exact ordered.record (PrivState.value_le_quit _) nofun
  | increases state up notQuit => exact ordered.increases up
  | disturbed state up notQuit => exact Parent.Ordered.disturbed notQuit
  | configfile path unlocked => exact ordered.record le_rfl nofun
  | scriptPath path unlocked accepted => exact ordered.record le_rfl nofun
  | tuntapOpen mode name mtu unlocked => exact ordered.record le_rfl nofun
  | openFile => exact ordered.record le_rfl nofun
  | launchScript argv env given => exact ordered.record le_rfl nofun
  | talks effect plain => exact ordered.record le_rfl plain.ne_increases

theorem Acts.ordered {p q : Parent} (acts : Acts p q) (ordered : p.Ordered) : q.Ordered := by
  induction acts with
  | refl => exact ordered
  | tail _ act ih => exact act.ordered ih

/-- For every stream of bytes, every answer of the surroundings and every number of rounds:
    after `PRIV_SET_RUNNING_STATE` everything is confined, and `cur_state` has never
    decreased, unless the handler of `SIGCHLD` ran between the test and the store of
    `increase_state`. -/
theorem privilege_only_decreases (k : Kernel) (n : Nat) (stream : List UInt8) :
    let p := (outcome (privInit k n) (.start stream)).2
    (p.Forward ↔ p.Undisturbed) ∧ p.Confined := by
  intro p
  have acts : Acts (.start stream) p := privInit_acts k n stream
  constructor
  · have ordered : (Parent.start stream).Ordered := by
      apply Parent.Ordered.forward
      · intro state inside
        exact absurd (List.infix_nil.mp inside) (List.cons_ne_nil _ _)
      · exact List.Pairwise.nil
      · exact nofun
      · exact nofun
    exact (Acts.ordered acts ordered).forward_iff
  · apply Acts.confined acts
    exact ⟨List.Pairwise.nil, nofun, nofun⟩

/-- Surroundings in which nothing is found, and the child dies at the given question. -/
def dying (question : Nat) : Kernel where
  endian := .little
  cwd := rootDirectory
  chld := (· = question)
  openFd _ := -1
  stat _ := .error []
  tuntap _ := (-1, [])
  getaddrinfo _ := []
  calloc _ _ := true
  malloc _ _ := true
  write _ := true
  script _ := -1

/-- The child sends `PRIV_SET_RUNNING_STATE` and exits.  The fifth access to `cur_state`
    is the store of `increase_state(STATE_RUNNING)`: where the handler runs just before
    it, `STATE_QUIT` is followed by `STATE_RUNNING`. -/
theorem quit_overwritten :
    (outcome (privInit (dying 4) 1) (.start [6, 0, 0, 0])).2.trace.map (·.memory.curState) =
        [.running, .quit, .config, .config, .init] ∧
      ¬ (outcome (privInit (dying 4) 1) (.start [6, 0, 0, 0])).2.Forward := by
  decide +kernel

end Mlvpn.Privsep
