import Mlvpn.Control.Outcome

/-! # The descriptors of control clients

Every descriptor that `accept` returns belongs to the current client or has been closed,
and no watcher is active without a client, as long as no client ends its stream while it
is read and every client can be made non-blocking.
-/

namespace Mlvpn.ControlSocket

open Library.Machine Control

variable {s s' : ControlSocket}

/-- A descriptor was returned as often as it was closed, and once more if it is that of
    the client; without a client no watcher is active. -/
structure Disposed (s : ControlSocket) : Prop where
  settled : ∀ fd : Nat,
    s.accepted.count (fd : Int) = s.closed.count (fd : Int) + if s.clientfd = fd then 1 else 0
  quiet : s.clientfd = -1 → s.ioRead = false ∧ s.ioWrite = false

/-- A client does not end its stream while it is read, and can be made non-blocking. -/
def Sane (s : ControlSocket) : Event → Prop
  | .accept _ (some (_, nonblocking)) => s.enabled = true → s.clientfd = -1 → nonblocking = true
  | .read _ (.data []) _ => s.ioRead = false
  | _ => True

instance (s : ControlSocket) : ∀ e, Decidable (Sane s e)
  | .accept _ (some _) => inferInstanceAs (Decidable (_ → _ → _))
  | .read _ (.data []) _ => inferInstanceAs (Decidable (_ = _))
  | .accept _ none => isTrue trivial
  | .read _ (.data (_ :: _)) _ => isTrue trivial
  | .read _ (.failed _) _ => isTrue trivial
  | .write _ => isTrue trivial
  | .timeout _ => isTrue trivial

theorem Disposed.kept (disposed : s.Disposed) (kept : Kept s s')
    (still : s.clientfd = -1 → s'.ioWrite = true → s.ioWrite = true) : s'.Disposed := by
  refine ⟨fun fd => ?_, fun absent => ?_⟩
  · rw [kept.accepted, kept.closed, kept.clientfd]
    exact disposed.settled fd
  · rw [kept.clientfd] at absent
    obtain ⟨noRead, noWrite⟩ := disposed.quiet absent
    refine ⟨kept.ioRead.trans noRead, Bool.eq_false_iff.mpr fun active => ?_⟩
    exact Bool.false_ne_true (noWrite.symm.trans (still absent active))

theorem Disposed.close (disposed : s.Disposed) : s.controlCloseClient.Disposed := by
  refine ⟨fun fd => ?_, fun _ => ⟨rfl, rfl⟩⟩
  have gone : s.controlCloseClient.clientfd ≠ fd := by
    change (-1 : Int) ≠ fd
    omega
  rw [if_neg gone]
  change s.accepted.count (fd : Int) =
    (if s.clientfd ≥ 0 then s.clientfd :: s.closed else s.closed).count (fd : Int) + 0
  rw [disposed.settled fd]
  by_cases connected : s.clientfd ≥ 0
  · simp only [connected, if_true, List.count_cons, beq_iff_eq, Nat.add_zero]
  · have other : s.clientfd ≠ fd := by omega
    simp only [connected, if_false, other]

theorem Disposed.outcome (disposed : s.Disposed) (outcome : Outcome s s') : s'.Disposed := by
  cases outcome with
  | kept kept still => exact disposed.kept kept still
  | closed kept stopped =>
      exact disposed.close.kept kept fun _ active => absurd active (by rw [stopped]; decide)

/-- A client that is turned away has been closed. -/
theorem Disposed.refuse (disposed : s.Disposed) (fd : Nat) :
    Disposed { s with accepted := (fd : Int) :: s.accepted, closed := (fd : Int) :: s.closed } := by
  refine ⟨fun other => ?_, disposed.quiet⟩
  simp only [List.count_cons, disposed.settled other]
  omega

theorem Disposed.welcome {fd : Nat} {nonblocking : Bool} (disposed : s.Disposed)
    (welcomes : Welcomes s s' fd nonblocking) : s'.Disposed ↔ nonblocking = true := by
  cases nonblocking with
  | false =>
      refine iff_of_false (fun fine => ?_) Bool.false_ne_true
      have stopped := (fine.quiet welcomes.clientfd).1
      exact Bool.false_ne_true (stopped.symm.trans welcomes.ioRead)
  | true =>
      refine iff_of_true ⟨fun other => ?_, fun absent => ?_⟩ rfl
      · have before := disposed.settled other
        have none : s.clientfd ≠ other := by
          rw [welcomes.idle]
          omega
        rw [if_neg none] at before
        rw [welcomes.accepted, welcomes.closed, welcomes.clientfd, if_pos rfl, if_pos rfl,
          List.count_cons, before, Nat.add_zero]
        simp only [beq_iff_eq]
      · rw [welcomes.clientfd, if_pos rfl] at absent
        exact absurd absent (by omega)

theorem accept_disposed_iff {now : Int} {answer : Option (Nat × Bool)} (disposed : s.Disposed) :
    (s.controlAccept now answer).Disposed ↔ Sane s (.accept now answer) := by
  rcases answer with _ | ⟨fd, nonblocking⟩
  · exact iff_of_true disposed trivial
  · simp only [Sane]
    by_cases enabled : s.enabled = true
    · by_cases idle : s.clientfd = -1
      · rw [disposed.welcome (controlAccept_welcomes now fd nonblocking enabled idle)]
        simp only [enabled, idle, true_imp_iff]
      · rw [controlAccept_refuses now fd nonblocking enabled idle]
        exact iff_of_true (disposed.refuse fd) fun _ absent => absurd absent idle
    · rw [controlAccept_disabled now _ (Bool.eq_false_iff.mpr enabled)]
      exact iff_of_true disposed fun on => absurd on enabled

/-- At the end of file the descriptor is forgotten, and the watchers stay as they are. -/
theorem step_end {now : Int} {answers : Answers} (reading : s.ioRead = true)
    (connected : 0 ≤ s.clientfd) :
    s.step (.read now (.data []) answers) = some { s with clientfd := -1 } := by
  simp only [step, reading, controlRead, Int.not_lt.mpr connected, List.take_nil, if_true, if_false]

/-- An event after which all is disposed of was no such end. -/
theorem sane_of_disposed {e : Event} (roomy : s.Roomy) (disposed : s.Disposed)
    (done : s.step e = some s') (fine : s'.Disposed) : Sane s e := by
  cases e with
  | accept now answer =>
      cases done
      exact (accept_disposed_iff disposed).mp fine
  | read now result answers =>
      rcases result with (_ | ⟨b, bytes⟩) | again
      · refine Bool.eq_false_iff.mpr fun reading => ?_
        have present : s.clientfd ≠ -1 := fun absent =>
          Bool.false_ne_true ((disposed.quiet absent).1.symm.trans reading)
        have least : -1 ≤ s.clientfd := roomy.1
        rw [step_end reading (by omega)] at done
        cases done
        exact Bool.false_ne_true ((fine.quiet rfl).1.symm.trans reading)
      · trivial
      · trivial
  | write result => trivial
  | timeout now => trivial

theorem step_disposed_iff {e : Event} (roomy : s.Roomy) (disposed : s.Disposed)
    (done : s.step e = some s') : s'.Disposed ↔ Sane s e := by
  obtain ⟨_, ⟨now, answer, rfl⟩ | outcome | ⟨now, answers, rfl, reading, connected, rfl⟩⟩ :=
    step_outcome roomy done
  · cases done
    exact accept_disposed_iff disposed
  · have fine := disposed.outcome outcome
    exact iff_of_true fine (sane_of_disposed roomy disposed done fine)
  · refine iff_of_false (fun fine => ?_) fun ended => ?_
    · exact Bool.false_ne_true ((fine.quiet rfl).1.symm.trans reading)
    · exact Bool.false_ne_true (Eq.trans (Eq.symm ended) reading)

/-- In every run from the start, every descriptor is the client's or has been closed once
    and no watcher is active without a client, if and only if no client ends its stream
    while it is read and every client can be made non-blocking. -/
theorem descriptors_disposed_iff {http : Bool} {garbage : Nat → UInt8} {events : List Event}
    (reached : run step (controlInit http garbage) events = some s) :
    Always step Disposed (controlInit http garbage) events ↔
      Meets step Sane (controlInit http garbage) events := by
  have start : (controlInit http garbage).Disposed := by
    refine ⟨fun fd => ?_, fun _ => ⟨rfl, rfl⟩⟩
    have absent : (controlInit http garbage).clientfd ≠ fd := by
      change (-1 : Int) ≠ fd
      omega
    rw [if_neg absent]
    rfl
  exact always_iff_meets_of_invariant (I := Roomy) (fun _ _ _ roomy done => (step_outcome roomy done).1)
    (fun _ _ _ roomy disposed done => step_disposed_iff roomy disposed done) events
    (.of_clientfd rfl) start reached

/-- A client that quits, one that is turned away meanwhile, and one that times out. -/
def threeClients : List Event :=
  [.accept 0 (some (7, true)), .accept 0 (some (8, true)),
    .read 1 (.data "quit\n".toUTF8.toList) ⟨[], []⟩, .accept 2 (some (7, true)), .timeout 9]

theorem descriptors_disposed_quit :
    Always step Disposed (controlInit false fun _ => 0) threeClients := by
  have runs : (run step (controlInit false fun _ => 0) threeClients).isSome := by decide +kernel
  obtain ⟨s, reached⟩ := Option.isSome_iff_exists.mp runs
  exact (descriptors_disposed_iff reached).mpr (by decide +kernel)

/-- A client closes its end: its descriptor is forgotten, and still watched. -/
theorem descriptor_leaked :
    ∃ s ∈ run step (controlInit false fun _ => 0)
        [.accept 0 (some (7, true)), .read 1 (.data []) ⟨[], []⟩],
      s.clientfd = -1 ∧ s.accepted = [7] ∧ s.closed = [] ∧ s.ioRead = true := by
  decide +kernel

end Mlvpn.ControlSocket
