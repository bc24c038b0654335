import Mlvpn.Library.History
import Mlvpn.Privsep.Acts
import Mathlib.Data.List.Chain

/-! # The script that runs as root

"Basically, the script must be 0700 owned by root": a path is copied to `script_path`
right after `stat` has shown its permissions, and only that path is launched.  The owner
is not looked at, so the script belongs to whoever `stat` says it belongs to.  And the path
is launched in `/`, so one that is not absolute names another file than `stat` has shown,
unless the father was started in `/`.
-/

namespace Mlvpn.Privsep

open Library Library.Program Library.History

/-- The script in force, as the directory and the path with which `stat` was called before
    the path was copied, and what it showed. -/
def inForce : List Entry → Option (CString × CString × Stat)
  | [] => none
  | e :: older =>
      match e.effect, older.head?.map Entry.effect with
      | .scriptPath, some (.stat directory path (.ok st)) => some (directory, path, st)
      | _, _ => inForce older

/-- A file that is launched as a script was looked at when it was accepted, and meets `P`. -/
def Entry.Launches (P : Stat → Prop) (e : Entry) (older : List Entry) : Prop :=
  ∀ directory path argv env, e.effect = .launchScript directory path argv env →
    ∃ place script st, inForce older = some (place, script, st) ∧
      fileAt directory path = fileAt place script ∧ P st

/-- Owned by root, with no permission for others and executable. -/
def Stat.RootScript (st : Stat) : Prop := st.uid = 0 ∧ st.Private ∧ st.Executable

/-- The script path changes only after `stat` has shown a file that is accepted, to the
    path of that file. -/
def Parent.KeepsScript (p : Parent) : Prop :=
  p.trace.IsChain fun later earlier =>
    later.memory.scriptPath = earlier.memory.scriptPath ∨
      ∃ directory st, earlier.effect = .stat directory later.memory.scriptPath (.ok st) ∧
        errormessage later.memory.scriptPath (.ok st) = none

/-- Whatever is launched, the file in force belongs to root, and its path is absolute or was
    looked up in `/`. -/
def Entry.Owned (e : Entry) (older : List Entry) : Prop :=
  ∀ directory path argv env, e.effect = .launchScript directory path argv env →
    ∀ place script st, inForce older = some (place, script, st) →
      st.uid = 0 ∧ (script.head? = some 47 ∨ place = rootDirectory)

/-- What is launched is the path in force, in `/`. -/
def Entry.Obeys (e : Entry) (older : List Entry) : Prop :=
  ∀ directory path argv env, e.effect = .launchScript directory path argv env →
    directory = rootDirectory ∧
      ∃ place st, inForce older = some (place, path, st) ∧ st.Private ∧ st.Executable

/-- A path names the same file in two directories exactly if it is absolute, or they are one. -/
theorem fileAt_eq_iff {directory place path : CString} :
    fileAt directory path = fileAt place path ↔ path.head? = some 47 ∨ place = directory := by
  by_cases absolute : path.head? = some 47
  · simp [fileAt, absolute]
  · simp [fileAt, absolute, eq_comm]

theorem inForce_cons {e : Entry} {older : List Entry} (other : e.effect ≠ .scriptPath) :
    inForce (e :: older) = inForce older := by
  rw [inForce]
  split
  next copied _ => exact absurd copied other
  next => rfl

theorem errormessage_of_accepted {path : CString} {st : Stat} (isPrivate : st.Private)
    (executable : st.Executable) : errormessage path (.ok st) = none := by
  simp [errormessage, isPrivate, executable]

/-- What the father knows of its script. -/
structure Parent.Scripted (p : Parent) : Prop where
  current : p.memory.scriptPath = ((inForce p.trace).map (·.2.1)).getD []
  passed : ∀ place path st, inForce p.trace = some (place, path, st) → st.Private ∧ st.Executable
  last : ∀ e ∈ p.trace.head?, e.memory = p.memory
  obeys : Historically Entry.Obeys p.trace
  keeps : p.KeepsScript

namespace Parent.Scripted

variable {p : Parent}

/-- What neither copies a path nor launches it. -/
theorem record (scripted : p.Scripted) {effect : Effect} {memory : Memory}
    (same : memory.scriptPath = p.memory.scriptPath) (other : effect ≠ .scriptPath)
    (quiet : Entry.Obeys ⟨effect, memory⟩ p.trace) :
    (p.record effect memory).Scripted where
  current := by
    rw [Parent.record, inForce_cons other, same]
    exact scripted.current
  passed := by
    rw [Parent.record, inForce_cons other]
    exact scripted.passed
  last := by
    rintro e ⟨⟩
    rfl
  obeys := scripted.obeys.cons quiet
  keeps := by
    refine List.IsChain.cons scripted.keeps fun earlier before => .inl ?_
    rw [scripted.last earlier before]
    exact same

theorem log (scripted : p.Scripted) {effect : Effect} (other : effect ≠ .scriptPath)
    (quiet : ∀ place path argv env, effect ≠ .launchScript place path argv env) : (p.log effect).Scripted :=
  scripted.record rfl other fun place path argv env launched => absurd launched (quiet place path argv env)

theorem setState (scripted : p.Scripted) {effect : Effect} (state : PrivState)
    (other : effect ≠ .scriptPath) (quiet : ∀ place path argv env, effect ≠ .launchScript place path argv env) :
    (p.setState effect state).Scripted :=
  scripted.record rfl other fun place path argv env launched => absurd launched (quiet place path argv env)

/-- The path in the memory is the one in force. -/
theorem launch (scripted : p.Scripted) (argv env : List CString) (given : p.memory.scriptPath ≠ []) :
    (p.log (.launchScript rootDirectory p.memory.scriptPath argv env)).Scripted := by
  refine scripted.record rfl nofun ?_
  rintro _ _ _ _ ⟨⟩
  refine ⟨rfl, ?_⟩
  have current := scripted.current
  cases found : inForce p.trace with
  | none =>
      rw [found] at current
      exact absurd current given
  | some script =>
      obtain ⟨place, path, st⟩ := script
      rw [found] at current
      exact ⟨place, st, by rw [current]; rfl, scripted.passed place path st found⟩

theorem accept (scripted : p.Scripted) {path : CString} (accepted : p.Accepted path) :
    (p.setScriptPath path).Scripted := by
  obtain ⟨place, st, last, isPrivate, executable⟩ := accepted
  obtain ⟨older, before⟩ := List.head?_eq_some_iff.mp last
  have force : inForce (p.setScriptPath path).trace = some (place, path, st) := by
    rw [Parent.setScriptPath, Parent.record, before]
    rfl
  constructor
  · rw [force]
    rfl
  · rw [force]
    rintro _ _ _ ⟨⟩
    exact ⟨isPrivate, executable⟩
  · rintro e ⟨⟩
    rfl
  · exact scripted.obeys.cons nofun
  · refine List.IsChain.cons scripted.keeps fun earlier first => .inr ⟨place, st, ?_⟩
    rw [last] at first
    cases first
    exact ⟨rfl, errormessage_of_accepted isPrivate executable⟩

end Parent.Scripted

theorem Act.scripted {p q : Parent} (act : Act p q) (scripted : p.Scripted) : q.Scripted := by
  cases act with
  | consumes n =>
      exact ⟨scripted.current, scripted.passed, scripted.last, scripted.obeys, scripted.keeps⟩
  | asks =>
      exact ⟨scripted.current, scripted.passed, scripted.last, scripted.obeys, scripted.keeps⟩
  | chld => exact scripted.setState .quit nofun nofun
  | increases state up notQuit =>
      have tested : (p.log (.increases state)).Scripted := scripted.log nofun nofun
      exact tested.setState state nofun nofun
  | disturbed state up notQuit =>
      have tested : (p.log (.increases state)).Scripted := scripted.log nofun nofun
      have struck : (p.log (.increases state)).sigGotChld.Scripted := tested.setState .quit nofun nofun
      exact struck.setState state nofun nofun
  | configfile path unlocked => exact scripted.record rfl nofun nofun
  | scriptPath path unlocked accepted => exact scripted.accept accepted
  | tuntapOpen mode name mtu unlocked => exact scripted.log nofun nofun
  | openFile => exact scripted.log nofun nofun
  | launchScript argv env given => exact scripted.launch argv env given
  | talks effect plain =>
      apply scripted.log
      · rintro rfl
        exact plain
      · rintro place path argv env rfl
        exact plain

theorem Acts.scripted {p q : Parent} (acts : Acts p q) (scripted : p.Scripted) : q.Scripted := by
  induction acts with
  | refl => exact scripted
  | tail _ act ih => exact act.scripted ih

theorem start_scripted (stream : List UInt8) : (Parent.start stream).Scripted where
  current := rfl
  passed := nofun
  last := nofun
  obeys := .nil
  keeps := .nil

/-- For every stream of bytes, every answer of the surroundings and every number of rounds:
    the files that are launched are accepted scripts of root, and a file that is refused
    leaves the script path alone, just when the scripts in force belong to root and their
    paths name the same files in `/`. -/
theorem rootScripts_iff (k : Kernel) (n : Nat) (stream : List UInt8) :
    let p := (outcome (privInit k n) (.start stream)).2
    Historically (Entry.Launches Stat.RootScript) p.trace ∧ p.KeepsScript ↔
      Historically Entry.Owned p.trace := by
  intro p
  have scripted : p.Scripted := Acts.scripted (privInit_acts k n stream) (start_scripted stream)
  constructor
  · rintro ⟨launches, _⟩ newer e older split directory path argv env launched place script st found
    obtain ⟨rfl, _, _, obeyed, _⟩ := scripted.obeys newer e older split directory path argv env launched
    obtain ⟨_, _, _, force, same, owner, _⟩ :=
      launches newer e older split rootDirectory path argv env launched
    rw [found] at force obeyed
    cases force
    cases obeyed
    exact ⟨owner, fileAt_eq_iff.mp same⟩
  · intro owned
    refine ⟨?_, scripted.keeps⟩
    intro newer e older split directory path argv env launched
    obtain ⟨rfl, place, st, force, passed⟩ :=
      scripted.obeys newer e older split directory path argv env launched
    obtain ⟨owner, same⟩ :=
      owned newer e older split rootDirectory path argv env launched place path st force
    exact ⟨place, path, st, force, fileAt_eq_iff.mpr same, owner, passed⟩

/-- Surroundings in which the father was started in this directory, every file is the given
    one, and every script succeeds. -/
def showing (cwd : CString) (st : Stat) : Kernel where
  endian := .little
  cwd := cwd
  chld _ := false
  openFd _ := -1
  stat _ := .ok st
  tuntap _ := (-1, [])
  getaddrinfo _ := []
  calloc _ _ := true
  malloc _ _ := true
  write _ := true
  script _ := 0

/-- The child asks for a script of this path, shorter than 255 bytes, and has it run, with one
    argument and one string for its environment, both empty. -/
def runsScript (path : CString) : List UInt8 :=
  [1, 0, 0, 0] ++ [UInt8.ofNat (path.length + 1), 0, 0, 0, 0, 0, 0, 0] ++ path ++ [0] ++
    [3, 0, 0, 0] ++ [1, 0, 0, 0] ++ [1, 0, 0, 0, 0, 0, 0, 0] ++ [0] ++
    [1, 0, 0, 0] ++ [1, 0, 0, 0, 0, 0, 0, 0] ++ [0]

/-- A script of another user, with mode 0700, is run.  And with the father in `/t`, where `stat`
    has shown the file `s` of root, the file that is run is `/s`. -/
theorem foreign_script_launched :
    let foreign := (outcome (privInit (showing [] ⟨0o100700, 1000⟩) 2) (.start (runsScript [47, 115]))).2.trace
    let other := (outcome (privInit (showing [47, 116] ⟨0o100700, 0⟩) 2) (.start (runsScript [115]))).2.trace
    foreign[1]? = some ⟨.launchScript rootDirectory [47, 115] [[]] [[]], ⟨.config, [], [47, 115]⟩⟩ ∧
      ¬ Historically (Entry.Launches Stat.RootScript) foreign ∧
      other[1]? = some ⟨.launchScript rootDirectory [115] [[]] [[]], ⟨.config, [], [115]⟩⟩ ∧
      ¬ Historically (Entry.Launches Stat.RootScript) other := by
  intro foreign other
  have launched : foreign[1]? =
      some ⟨.launchScript rootDirectory [47, 115] [[]] [[]], ⟨.config, [], [47, 115]⟩⟩ := by
    decide +kernel
  have launched' : other[1]? =
      some ⟨.launchScript rootDirectory [115] [[]] [[]], ⟨.config, [], [115]⟩⟩ := by
    decide +kernel
  have force : inForce (foreign.drop 2) = some ([], [47, 115], ⟨0o100700, 1000⟩) := by decide +kernel
  have force' : inForce (other.drop 2) = some ([47, 116], [115], ⟨0o100700, 0⟩) := by decide +kernel
  refine ⟨launched, fun launches => ?_, launched', fun launches => ?_⟩
  · obtain ⟨_, _, st, shown, _, owner, _⟩ := launches.at_index launched _ _ _ _ rfl
    rw [force] at shown
    cases shown
    cases owner
  · obtain ⟨_, _, st, shown, same, _⟩ := launches.at_index launched' _ _ _ _ rfl
    rw [force'] at shown
    cases shown
    revert same
    decide

end Mlvpn.Privsep
