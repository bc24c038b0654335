import Mlvpn.Privsep.Parent
import Mathlib.Logic.Relation

/-! # What a command can do

Every command, and with it every run of the loop, is a chain of a few kinds of acts.  Two
of them come with the handler of `SIGCHLD`: it may run between commands and inside of
them, and it may run between the test and the store of `increase_state`.
-/

namespace Mlvpn.Privsep

open Library Library.Program

/-- `PRIV_SET_RUNNING_STATE` has not been processed. -/
def Parent.Unlocked (p : Parent) : Prop := ∀ e ∈ p.trace, e.effect ≠ .enters .running

/-- Once it has been processed, the state is not `STATE_CONFIG` any more. -/
def Parent.Locked (p : Parent) : Prop :=
  (∃ e ∈ p.trace, e.effect = .enters .running) → PrivState.running.value ≤ p.memory.curState.value

/-- Effects that concern neither the memory nor a file, a device or a script. -/
def Effect.Plain : Effect → Prop
  | .stat _ _ _ | .getaddrinfo _ _ _ | .resInit | .write _ | .sendFd _ => True
  | _ => False

/-- The last thing done was to look at the script, and it may be run. -/
def Parent.Accepted (p : Parent) (path : CString) : Prop :=
  ∃ (directory : CString) (st : Stat),
    p.trace.head? = some ⟨.stat directory path (.ok st), p.memory⟩ ∧ st.Private ∧ st.Executable

inductive Act (p : Parent) : Parent → Prop
  | consumes (n : Nat) : Act p { p with input := p.input.drop n }
  | asks : Act p { p with clock := p.clock + 1 }
  | chld : Act p p.sigGotChld
  | increases (state : PrivState) (up : p.memory.curState.value < state.value)
      (notQuit : state ≠ .quit) : Act p ((p.log (.increases state)).setState (.enters state) state)
  /-- The handler runs between the test and the store. -/
  | disturbed (state : PrivState) (up : p.memory.curState.value < state.value)
      (notQuit : state ≠ .quit) :
      Act p ((p.log (.increases state)).sigGotChld.setState (.enters state) state)
  | configfile (path : CString) (unlocked : p.Unlocked) : Act p (p.setAllowedConfigfile path)
  | scriptPath (path : CString) (unlocked : p.Unlocked) (accepted : p.Accepted path) :
      Act p (p.setScriptPath path)
  | tuntapOpen (mode : Int) (name : CString) (mtu : Int) (unlocked : p.Unlocked) :
      Act p (p.log (.tuntapOpen mode name mtu))
  | openFile : Act p (p.log (.openFile p.memory.allowedConfigfile))
  | launchScript (argv env : List CString) (given : p.memory.scriptPath ≠ []) :
      Act p (p.log (.launchScript rootDirectory p.memory.scriptPath argv env))
  | talks (effect : Effect) (plain : effect.Plain) : Act p (p.log effect)

abbrev Acts : Parent → Parent → Prop := Relation.ReflTransGen Act

/-! ## The lock -/

theorem Parent.Locked.unlocked {p : Parent} (locked : p.Locked)
    (config : p.memory.curState = .config) : p.Unlocked := by
  intro e member entered
  have up := locked ⟨e, member, entered⟩
  rw [config] at up
  exact absurd up (by decide)

/-- An effect other than the step to `STATE_RUNNING` leaves the lock as it is, unless the
    state goes down. -/
theorem Parent.Locked.record {p : Parent} (locked : p.Locked) {effect : Effect} {memory : Memory}
    (other : effect ≠ .enters .running)
    (up : p.memory.curState.value ≤ memory.curState.value) : (p.record effect memory).Locked := by
  rintro ⟨e, member, entered⟩
  rcases List.mem_cons.mp member with rfl | earlier
  · exact absurd entered other
  · exact (locked ⟨e, earlier, entered⟩).trans up

theorem Parent.Locked.log {p : Parent} (locked : p.Locked) {effect : Effect}
    (other : effect ≠ .enters .running) : (p.log effect).Locked :=
  locked.record other le_rfl

theorem PrivState.value_le_quit (state : PrivState) : state.value ≤ PrivState.quit.value := by
  cases state <;> decide

theorem Parent.Locked.sigGotChld {p : Parent} (locked : p.Locked) : p.sigGotChld.Locked :=
  locked.record (by simp) (PrivState.value_le_quit _)

/-- Going to a state above another one, even if the handler has run in between. -/
theorem Parent.Locked.setState {p q : Parent} (locked : p.Locked) {state : PrivState}
    (up : p.memory.curState.value < state.value)
    (entries : ∀ e ∈ q.trace, e.effect = .enters .running → e ∈ p.trace) :
    (q.setState (.enters state) state).Locked := by
  rintro ⟨e, member, entered⟩
  rcases List.mem_cons.mp member with rfl | earlier
  · cases entered
    exact le_rfl
  · exact (locked ⟨e, entries e earlier entered, entered⟩).trans up.le

theorem Effect.Plain.ne_enters {effect : Effect} (plain : effect.Plain) (state : PrivState) :
    effect ≠ .enters state := by
  rintro rfl
  exact plain

theorem Act.locked {p q : Parent} (act : Act p q) (locked : p.Locked) : q.Locked := by
  cases act with
  | consumes n => exact locked
  | asks => exact locked
  | chld => exact locked.sigGotChld
  | increases state up notQuit =>
      apply locked.setState up
      intro e member entered
      rcases List.mem_cons.mp member with rfl | earlier
      · exact absurd entered (by simp)
      · exact earlier
  | disturbed state up notQuit =>
      apply locked.setState up
      intro e member entered
      rcases List.mem_cons.mp member with rfl | earlier
      · exact absurd entered (by simp)
      rcases List.mem_cons.mp earlier with rfl | earlier
      · exact absurd entered (by simp)
      · exact earlier
  | configfile path unlocked => exact locked.record (by simp) le_rfl
  | scriptPath path unlocked accepted => exact locked.record (by simp) le_rfl
  | tuntapOpen mode name mtu unlocked => exact locked.log (by simp)
  | openFile => exact locked.log (by simp)
  | launchScript argv env given => exact locked.log (by simp)
  | talks effect plain => exact locked.log (plain.ne_enters _)

theorem Acts.locked {p q : Parent} (acts : Acts p q) (locked : p.Locked) : q.Locked := by
  induction acts with
  | refl => exact locked
  | tail _ act ih => exact act.locked ih

/-! ## Reading and answering -/

/-- A property that reading, asking and answering leave alone. -/
structure Indifferent (I : Parent → Prop) : Prop where
  consumes : ∀ p n, I p → I { p with input := p.input.drop n }
  asks : ∀ p, I p → I { p with clock := p.clock + 1 }
  talks : ∀ p effect, Effect.Plain effect → I p → I (p.log effect)

section Reading

variable {I : Parent → Prop} (indifferent : Indifferent I) (k : Kernel)

include indifferent

theorem ask_keeps {α : Type} (answer : Nat → α) : Keeps I (ask answer) := by
  apply Ensures.get_bind
  intro p holds
  apply Ensures.bind (Q := fun _ => I)
  · apply Ensures.modify
    rintro _ rfl
    exact indifferent.asks _ holds
  · intro _
    exact Keeps.pure _

theorem emit_keeps (effect : Effect) (plain : effect.Plain) : Keeps I (emit effect) :=
  Ensures.modify fun p holds => indifferent.talks p effect plain holds

theorem read_keeps (n : Nat) (short : Exit) : Keeps I (read n short) := by
  apply Ensures.get_bind
  intro p holds
  apply Ensures.bind (Q := fun _ => (· = p))
  · apply Ensures.exitIf
    · rintro _ rfl _
      exact holds
    · exact fun _ same _ => same
  intro _
  apply Ensures.bind (Q := fun _ => I)
  · apply Ensures.modify
    rintro _ rfl
    exact indifferent.consumes _ n holds
  · intro _
    exact Keeps.pure _

theorem mustReadInt_keeps : Keeps I (mustReadInt k) := by
  apply Keeps.bind (read_keeps indifferent 4 _)
  intro bytes
  exact Keeps.pure _

theorem mustReadSize_keeps : Keeps I (mustReadSize k) := by
  apply Keeps.bind (read_keeps indifferent 8 _)
  intro bytes
  exact Keeps.pure _

/-- A string that was read is shorter than the buffer part it was read into. -/
theorem mustReadString_ensures (len : Nat) :
    Ensures I (mustReadString len) (fun s p => I p ∧ s.length ≤ len - 1) (fun _ => I) := by
  apply Ensures.bind (read_keeps indifferent len _)
  intro bytes
  apply Ensures.pure
  intro p holds
  refine ⟨holds, ?_⟩
  calc ((bytes.take (len - 1)).takeWhile (· ≠ 0)).length
      ≤ (bytes.take (len - 1)).length := (List.takeWhile_prefix _).length_le
    _ ≤ len - 1 := List.length_take_le ..

theorem mustReadString_keeps (len : Nat) : Keeps I (mustReadString len) :=
  (mustReadString_ensures indifferent len).weaken (fun _ _ read => read.1) (fun _ _ => id)

/-- The strings that may be missing are empty then. -/
theorem mustReadOptional_keeps (len : Nat) :
    Keeps I (if 0 < len then mustReadString len else pure []) := by
  apply Keeps.ite
  · intro _
    exact mustReadString_keeps indifferent len
  · intro _
    exact Keeps.pure _

theorem mustWrite_keeps (bytes : List UInt8) : Keeps I (mustWrite k bytes) := by
  apply Keeps.bind (ask_keeps indifferent _)
  intro taken
  apply Keeps.bind (Keeps.exitIf _)
  intro _
  exact emit_keeps indifferent _ trivial

theorem mustReadName_keeps : Keeps I (mustReadName k) := by
  apply Keeps.bind (mustReadSize_keeps indifferent k)
  intro len
  apply Keeps.bind (Keeps.exitIf _)
  intro _
  apply Keeps.bind (mustReadOptional_keeps indifferent len)
  intro name
  exact Keeps.pure _

theorem mustWriteAddrInfo_keeps (res : AddrInfo) : Keeps I (mustWriteAddrInfo k res) := by
  have writes := mustWrite_keeps indifferent k
  unfold mustWriteAddrInfo
  apply Keeps.bind (writes _)
  intro _
  apply Keeps.bind (writes _)
  intro _
  apply Keeps.bind (writes _)
  intro _
  apply Keeps.bind (writes _)
  intro _
  apply Keeps.bind (writes _)
  intro _
  exact writes _

theorem mustWriteAddrInfos_keeps (all : List AddrInfo) : Keeps I (mustWriteAddrInfos k all) := by
  induction all with
  | nil => exact Keeps.pure _
  | cons res rest ih =>
      apply Keeps.bind (mustWriteAddrInfo_keeps indifferent k res)
      intro _
      exact ih

theorem getaddrinfo_keeps : Keeps I (getaddrinfo k) := by
  apply Keeps.bind (mustReadName_keeps indifferent k)
  intro phostname
  apply Keeps.bind (mustReadName_keeps indifferent k)
  intro pservname
  apply Keeps.bind (read_keeps indifferent _ _)
  intro hints
  apply Keeps.bind (emit_keeps indifferent (.getaddrinfo _ _ _) trivial)
  intro _
  apply Keeps.bind (ask_keeps indifferent _)
  intro res0
  apply Keeps.bind (mustWrite_keeps indifferent k _)
  intro _
  exact mustWriteAddrInfos_keeps indifferent k res0

theorem mustReadStrings_keeps (n : Nat) : Keeps I (mustReadStrings k n) := by
  induction n with
  | zero => exact Keeps.pure _
  | succ n ih =>
      apply Keeps.bind (mustReadSize_keeps indifferent k)
      intro len
      apply Keeps.bind (Keeps.exitIf _)
      intro _
      apply Keeps.bind (ask_keeps indifferent _)
      intro memory
      apply Keeps.bind (Keeps.exitIf _)
      intro _
      apply Keeps.bind (mustReadString_keeps indifferent len)
      intro arg
      apply Keeps.bind ih
      intro rest
      exact Keeps.pure _

theorem mustReadCounted_keeps : Keeps I (mustReadCounted k) := by
  apply Keeps.bind (mustReadInt_keeps indifferent k)
  intro count
  apply Keeps.bind (Keeps.exitIf _)
  intro _
  apply Keeps.bind
  · apply Keeps.bind (ask_keeps indifferent _)
    intro memory
    exact Keeps.exitIf _
  · intro _
    exact mustReadStrings_keeps indifferent k _

end Reading

/-! ## The commands -/

section Commands

variable {origin : Parent} (k : Kernel)

theorem acts_indifferent (origin : Parent) : Indifferent (Acts origin) where
  consumes _ n acts := acts.tail (.consumes n)
  asks _ acts := acts.tail .asks
  talks _ effect plain acts := acts.tail (.talks effect plain)

/-- Reading, asking and answering do not lock either. -/
theorem unlocked_indifferent (origin : Parent) :
    Indifferent fun p => Acts origin p ∧ p.Unlocked where
  consumes _ n holds := ⟨holds.1.tail (.consumes n), holds.2⟩
  asks _ holds := ⟨holds.1.tail .asks, holds.2⟩
  talks _ effect plain holds :=
    ⟨holds.1.tail (.talks effect plain),
      List.forall_mem_cons.mpr ⟨plain.ne_enters _, holds.2⟩⟩

/-- The handler has run, or only a question was asked. -/
theorem interrupt_ensures {I : Parent → Prop} {E : Exit → Parent → Prop}
    (asks : ∀ p, I p → I { p with clock := p.clock + 1 }) :
    Ensures I (interrupt k) (fun _ q => I q ∨ ∃ p, I p ∧ q = p.sigGotChld) E := by
  apply Ensures.bind (Q := fun _ => I)
  · intro p holds
    exact asks p holds
  intro struck
  split
  · exact Ensures.modify fun p holds => Or.inr ⟨p, holds, rfl⟩
  · exact Ensures.pure fun p holds => Or.inl holds

theorem interrupt_acts : Keeps (Acts origin) (interrupt k) := by
  apply (interrupt_ensures k (acts_indifferent origin).asks).weaken _ (fun _ _ => id)
  rintro _ _ (acts | ⟨p, acts, rfl⟩)
  · exact acts
  · exact acts.tail .chld

theorem readState_acts :
    Ensures (Acts origin) (readState k) (fun state p => Acts origin p ∧ p.memory.curState = state)
      (fun _ => Acts origin) := by
  apply Ensures.bind (interrupt_acts k)
  intro _
  apply Ensures.get_bind
  intro p acts
  apply Ensures.pure
  rintro _ rfl
  exact ⟨acts, rfl⟩

/-- Both ways through `increase_state`: the handler runs between the test and the store,
    or it does not. -/
theorem increaseState_acts {state : PrivState} (notQuit : state ≠ .quit) :
    Keeps (Acts origin) (increaseState k state) := by
  apply Ensures.bind (readState_acts k)
  intro curState
  apply Ensures.bind
    (Q := fun _ p => Acts origin p ∧ p.memory.curState.value < state.value)
  · apply Ensures.exitIf
    · exact fun p read _ => read.1
    · rintro p ⟨acts, rfl⟩ above
      exact ⟨acts, not_le.mp above⟩
  intro _
  apply Ensures.bind
    (Q := fun _ q => ∃ p, Acts origin p ∧ p.memory.curState.value < state.value ∧
      q = p.log (.increases state))
  · exact Ensures.modify fun p reached => ⟨p, reached.1, reached.2, rfl⟩
  intro _
  apply Ensures.bind
  · apply interrupt_ensures
    rintro _ ⟨p, acts, up, rfl⟩
    exact ⟨{ p with clock := p.clock + 1 }, acts.tail .asks, up, rfl⟩
  intro _
  apply Ensures.modify
  rintro _ (⟨p, acts, up, rfl⟩ | ⟨_, ⟨p, acts, up, rfl⟩, rfl⟩)
  · exact acts.tail (.increases state up notQuit)
  · exact acts.tail (.disturbed state up notQuit)

/-- What is allowed only in `STATE_CONFIG` is not allowed after
    `PRIV_SET_RUNNING_STATE`. -/
theorem requireConfig_acts (locked : origin.Locked) :
    Ensures (Acts origin) (requireConfig k) (fun _ p => Acts origin p ∧ p.Unlocked)
      (fun _ => Acts origin) := by
  apply Ensures.bind (readState_acts k)
  intro curState
  apply Ensures.exitIf
  · exact fun p read _ => read.1
  · rintro p ⟨acts, rfl⟩ config
    exact ⟨acts, (Acts.locked acts locked).unlocked (not_not.mp config)⟩

theorem rootOpenFile_acts {p : Parent} (acts : Acts origin p) :
    Ensures (· = p) (rootOpenFile k p.memory.allowedConfigfile) (fun _ => Acts origin)
      (fun _ => Acts origin) := by
  unfold rootOpenFile
  split
  · apply Ensures.pure
    rintro _ rfl
    exact acts
  · apply Ensures.bind (Q := fun _ => Acts origin)
    · apply Ensures.modify
      rintro _ rfl
      exact acts.tail .openFile
    · intro _
      exact ask_keeps (acts_indifferent origin) _

theorem openConfig_acts (locked : origin.Locked) : Keeps (Acts origin) (openConfig k) := by
  have indifferent := acts_indifferent origin
  apply Keeps.bind (mustReadSize_keeps indifferent k)
  intro len
  apply Keeps.bind (Keeps.exitIf _)
  intro _
  apply Keeps.bind (mustReadString_keeps indifferent len)
  intro path
  apply Ensures.bind (readState_acts k)
  intro curState
  apply Ensures.bind (Q := fun _ => Acts origin)
  · split
    case isTrue config =>
      apply Ensures.modify
      rintro p ⟨acts, same⟩
      exact acts.tail
        (.configfile _ ((Acts.locked acts locked).unlocked (same.trans config)))
    case isFalse =>
      exact Ensures.pure fun p read => read.1
  intro _
  apply Ensures.get_bind
  intro p acts
  apply Ensures.bind (Q := fun _ => (· = p))
  · apply Ensures.exitIf
    · rintro _ rfl _
      exact acts
    · exact fun _ same _ => same
  intro _
  apply Ensures.bind (rootOpenFile_acts k acts)
  intro fd
  exact emit_keeps indifferent _ trivial

/-- A program that locks nothing, as the beginning of one that does. -/
theorem unlocked_begins {α : Type} {m : Root α}
    (keeps : Keeps (fun p => Acts origin p ∧ p.Unlocked) m) :
    Ensures (fun p => Acts origin p ∧ p.Unlocked) m (fun _ p => Acts origin p ∧ p.Unlocked)
      (fun _ => Acts origin) :=
  keeps.weaken (fun _ _ => id) (fun _ _ holds => holds.1)

theorem openTunAllowed_acts :
    Ensures (fun p => Acts origin p ∧ p.Unlocked) (openTunAllowed k) (fun _ => Acts origin)
      (fun _ => Acts origin) := by
  have unlocked := unlocked_indifferent origin
  have indifferent := acts_indifferent origin
  apply Ensures.bind (unlocked_begins (mustReadInt_keeps unlocked k))
  intro tuntapmode
  apply Ensures.bind (unlocked_begins (Keeps.exitIf _))
  intro _
  apply Ensures.bind (unlocked_begins (mustReadSize_keeps unlocked k))
  intro len
  apply Ensures.bind (unlocked_begins (Keeps.exitIf _))
  intro _
  apply Ensures.bind (unlocked_begins (mustReadOptional_keeps unlocked len))
  intro tuntapname
  apply Ensures.bind (unlocked_begins (mustReadInt_keeps unlocked k))
  intro mtu
  apply Ensures.bind (unlocked_begins (Keeps.exitIf _))
  intro _
  -- The device is opened here; what follows needs no permission any more.
  apply Ensures.bind (Q := fun _ => Acts origin)
  · exact Ensures.modify fun p holds => holds.1.tail (.tuntapOpen _ _ _ holds.2)
  intro _
  apply Keeps.bind (ask_keeps indifferent _)
  rintro ⟨fd, name⟩
  apply Keeps.ite
  · intro _
    exact mustWrite_keeps indifferent k _
  · intro _
    apply Keeps.bind (mustWrite_keeps indifferent k _)
    intro _
    apply Keeps.bind (mustWrite_keeps indifferent k _)
    intro _
    exact emit_keeps indifferent _ trivial

theorem errormessage_eq_none {path : CString} {answer : Except CString Stat}
    (accepted : errormessage path answer = none) :
    ∃ st : Stat, answer = .ok st ∧ st.Private ∧ st.Executable := by
  cases answer with
  | error reason => simp [errormessage] at accepted
  | ok st =>
      simp only [errormessage] at accepted
      split at accepted
      · simp at accepted
      · split at accepted
        · simp at accepted
        · exact ⟨st, rfl, not_not.mp ‹_›, not_not.mp ‹_›⟩

theorem initScriptAllowed_acts :
    Ensures (fun p => Acts origin p ∧ p.Unlocked) (initScriptAllowed k) (fun _ => Acts origin)
      (fun _ => Acts origin) := by
  have unlocked := unlocked_indifferent origin
  have indifferent := acts_indifferent origin
  apply Ensures.bind (unlocked_begins (mustReadSize_keeps unlocked k))
  intro len
  apply Ensures.bind (unlocked_begins (Keeps.exitIf _))
  intro _
  apply Ensures.bind
    ((mustReadString_ensures unlocked len).weaken (fun _ _ => id) (fun _ _ holds => holds.1))
  intro path
  apply Ensures.bind
    (Q := fun _ p => (Acts origin p ∧ p.Unlocked) ∧ path.length ≤ len - 1)
  · intro p holds
    exact ⟨unlocked.asks p holds.1, holds.2⟩
  intro answer
  apply Ensures.bind
    (Q := fun _ p => ((Acts origin p ∧ p.Unlocked) ∧ path.length ≤ len - 1) ∧
      p.trace.head? = some ⟨.stat k.cwd path answer, p.memory⟩)
  · exact Ensures.modify fun p holds => ⟨⟨unlocked.talks p _ trivial holds.1, holds.2⟩, rfl⟩
  intro _
  apply Ensures.bind (Q := fun _ => Acts origin)
  · split
    case isTrue accepted =>
      apply Ensures.modify
      rintro p ⟨⟨⟨acts, free⟩, short⟩, last⟩
      obtain ⟨st, rfl, isPrivate, executable⟩ := errormessage_eq_none accepted
      rw [List.take_of_length_le short]
      exact acts.tail (.scriptPath path free ⟨_, st, last, isPrivate, executable⟩)
    case isFalse => exact Ensures.pure fun p holds => holds.1.1.1
  intro _
  apply Keeps.bind (mustWrite_keeps indifferent k _)
  intro _
  exact mustWrite_keeps indifferent k _

theorem runScript_acts : Keeps (Acts origin) (runScript k) := by
  have indifferent := acts_indifferent origin
  apply Keeps.bind (mustReadCounted_keeps indifferent k)
  intro scriptArgv
  apply Keeps.bind (mustReadCounted_keeps indifferent k)
  intro scriptEnv
  apply Ensures.get_bind
  intro p acts
  apply Ensures.bind (Q := fun _ => Acts origin)
  · split
    next =>
      apply Ensures.pure
      rintro _ rfl
      exact acts
    next given =>
      apply Ensures.bind (Q := fun _ => Acts origin)
      · apply Ensures.modify
        rintro _ rfl
        exact acts.tail (.launchScript _ _ given)
      · intro _
        exact ask_keeps indifferent _
  intro status
  exact mustWrite_keeps indifferent k _

theorem dispatch_acts (locked : origin.Locked) (cmd : Int) :
    Keeps (Acts origin) (dispatch k cmd) := by
  have indifferent := acts_indifferent origin
  unfold dispatch
  cases CmdType.ofInt cmd with
  | none => exact Keeps.throw _
  | some cmd =>
      cases cmd with
      | openConfig => exact openConfig_acts k locked
      | openTun => exact Ensures.bind (requireConfig_acts k locked) fun _ => openTunAllowed_acts k
      | initScript =>
          exact Ensures.bind (requireConfig_acts k locked) fun _ => initScriptAllowed_acts k
      | getaddrinfo => exact getaddrinfo_keeps indifferent k
      | runScript => exact runScript_acts k
      | reloadResolver => exact emit_keeps indifferent _ trivial
      | setRunningState => exact increaseState_acts k (by decide)

theorem serve_acts (locked : origin.Locked) (n : Nat) : Keeps (Acts origin) (serve k n) := by
  induction n with
  | zero => exact Keeps.pure _
  | succ n ih =>
      apply Ensures.bind (readState_acts k)
      intro curState
      apply Ensures.bind (Q := fun _ => Acts origin)
      · exact Ensures.exitIf (fun _ read _ => read.1) (fun _ read _ => read.1)
      intro _
      apply Keeps.bind
      · apply Keeps.bind (read_keeps (acts_indifferent origin) 4 _)
        intro bytes
        exact dispatch_acts k locked _
      · intro _
        exact ih

end Commands

theorem start_locked (stream : List UInt8) : (Parent.start stream).Locked := by
  rintro ⟨e, member, _⟩
  cases member

/-- Whatever the child sends, the father only acts. -/
theorem privInit_acts (k : Kernel) (n : Nat) (stream : List UInt8) :
    Acts (.start stream) (outcome (privInit k n) (.start stream)).2 := by
  apply Keeps.left (I := Acts (.start stream)) _ Relation.ReflTransGen.refl
  apply Keeps.bind (increaseState_acts k (by decide))
  intro _
  exact serve_acts k (start_locked stream) n

/-! ## The end of the stream

Every round reads a command, so a father whose child has sent its last byte exits after
finitely many rounds. -/

theorem Act.input_le {p q : Parent} (act : Act p q) : q.input.length ≤ p.input.length := by
  cases act with
  | consumes n =>
      rw [List.length_drop]
      exact Nat.sub_le _ _
  | _ => exact le_rfl

theorem Acts.input_le {p q : Parent} (acts : Acts p q) : q.input.length ≤ p.input.length := by
  induction acts with
  | refl => exact le_rfl
  | tail _ act ih => exact act.input_le.trans ih

/-- The unread bytes do not get more. -/
theorem keeps_input {α : Type} {m : Root α} (n : Nat)
    (acts : ∀ origin : Parent, origin.Locked → Keeps (Acts origin) m) :
    Ensures (fun p => p.Locked ∧ p.input.length < n) m
      (fun _ p => p.Locked ∧ p.input.length < n) (fun _ _ => True) := by
  rintro p ⟨locked, short⟩
  have ended := acts p locked p .refl
  revert ended
  rcases outcome m p with ⟨e | a, q⟩
  · exact fun _ => trivial
  · exact fun done => ⟨Acts.locked done locked, (Acts.input_le done).trans_lt short⟩

/-- A command that was read has taken bytes away. -/
theorem read_shortens (n : Nat) (short : Exit) :
    Ensures (fun p => p.Locked ∧ p.input.length < n + 1) (read 4 short)
      (fun _ p => p.Locked ∧ p.input.length < n) (fun _ _ => True) := by
  apply Ensures.get_bind
  rintro p ⟨locked, bound⟩
  apply Ensures.bind (Q := fun _ q => q = p ∧ 4 ≤ p.input.length)
  · apply Ensures.exitIf
    · exact fun _ _ _ => trivial
    · exact fun _ same long => ⟨same, not_lt.mp long⟩
  intro _
  apply Ensures.bind (Q := fun _ q => q.Locked ∧ q.input.length < n)
  · apply Ensures.modify
    rintro _ ⟨rfl, long⟩
    refine ⟨locked, ?_⟩
    rw [List.length_drop]
    omega
  · intro _
    exact Ensures.pure fun _ => id

theorem serve_exits (k : Kernel) (n : Nat) :
    Ensures (fun p => p.Locked ∧ p.input.length < n) (serve k n) (fun _ _ => False)
      (fun _ _ => True) := by
  induction n with
  | zero =>
      rintro p ⟨_, short⟩
      exact absurd short (Nat.not_lt_zero _)
  | succ n ih =>
      have dispatched : ∀ cmd, Ensures (fun p => p.Locked ∧ p.input.length < n) (dispatch k cmd)
          (fun _ p => p.Locked ∧ p.input.length < n) (fun _ _ => True) := by
        intro cmd
        apply keeps_input n
        intro origin locked
        exact dispatch_acts k locked cmd
      apply Ensures.bind
      · apply keeps_input (n + 1)
        intro origin _
        exact (readState_acts k).weaken (fun _ _ read => read.1) (fun _ _ => id)
      intro curState
      apply Ensures.bind (Q := fun _ p => p.Locked ∧ p.input.length < n + 1)
      · exact Ensures.exitIf (fun _ _ _ => trivial) (fun _ holds _ => holds)
      intro _
      apply Ensures.bind (Q := fun _ p => p.Locked ∧ p.input.length < n)
      · apply Ensures.bind (read_shortens n _)
        intro bytes
        exact dispatched _
      · intro _
        exact ih

theorem privInit_exits (k : Kernel) {n : Nat} {stream : List UInt8} (enough : stream.length < n) :
    ∃ e p, outcome (privInit k n) (.start stream) = (.error e, p) := by
  have exits : Ensures (fun p => p.Locked ∧ p.input.length < n) (privInit k n)
      (fun _ _ => False) (fun _ _ => True) := by
    apply Ensures.bind
    · apply keeps_input n
      intro origin _
      exact increaseState_acts k (by decide)
    · intro _
      exact serve_exits k n
  have ended := exits (.start stream) ⟨start_locked stream, enough⟩
  revert ended
  rcases outcome (privInit k n) (.start stream) with ⟨e | a, p⟩
  · exact fun _ => ⟨e, p, rfl⟩
  · exact False.elim

end Mlvpn.Privsep
