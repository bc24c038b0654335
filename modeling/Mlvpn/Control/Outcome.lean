import Mlvpn.Control.Reading

/-! # What an event makes of a control client

An event leaves the client as it was, or closes it, or forgets it at the end of file.
The write side of the socket is the buffer of `Mlvpn.Control.WriteBuffer`, which keeps
its invariant.
-/

namespace Mlvpn.ControlSocket

open Library.Machine Control

variable {s s' s₁ : ControlSocket} {answers : Answers} {line : List UInt8}

/-- What an event leaves of the client, unless it forgets it. -/
inductive Outcome (s s' : ControlSocket) : Prop where
  | kept : Kept s s' → (s.clientfd = -1 → s'.ioWrite = true → s.ioWrite = true) → Outcome s s'
  | closed : Kept s.controlCloseClient s' → s'.ioWrite = false → Outcome s s'

theorem Outcome.refl (s : ControlSocket) : Outcome s s := .kept (.refl s) fun _ => id

theorem Outcome.close (s : ControlSocket) : Outcome s s.controlCloseClient := .closed (.refl _) rfl

/-- The loop leaves the client and a buffer that is not full, or closes the client. -/
theorem readLines_outcome (connected : 0 ≤ s.clientfd) (small : s.rbufpos < ctrlBufsiz)
    (done : readLines answers (s.rbufpos + 1) s = some s') :
    Outcome s s' ∧ s'.rbufpos < ctrlBufsiz := by
  have there : s.clientfd ≠ -1 := by omega
  rcases plain_or_split s.unread with plain | ⟨x, c, y, split, plain, rfl | rfl⟩
  · rw [readLines_plain plain] at done
    cases done
    exact ⟨.refl s, small⟩
  · rw [readLines_eof split plain] at done
    cases done
    exact ⟨.close s, small⟩
  · rw [readLines_line split plain small (Nat.lt_succ_self _)] at done
    obtain ⟨s₁, parsed, rfl⟩ := Option.map_eq_some_iff.mp done
    have shifted : Kept s (s.taken x) := ⟨rfl, rfl, rfl, rfl, rfl, rfl, fun _ => rfl⟩
    have blanks : Kept s₁ (s₁.spent y.length) := ⟨rfl, rfl, rfl, rfl, rfl, rfl, fun _ => rfl⟩
    refine ⟨?_, (by decide : 0 < ctrlBufsiz)⟩
    rcases controlParse_cases parsed with ⟨_, aside⟩ | ⟨_, s₂, before, after, stopped⟩
    · exact .kept ((shifted.trans aside.toKept).trans blanks) fun none => absurd none there
    · refine .closed ?_ stopped
      exact ((shifted.trans before.toKept).close.trans after.toKept).trans blanks

/-- While a client is connected, its buffer is not full. -/
def Roomy (s : ControlSocket) : Prop := -1 ≤ s.clientfd ∧ (0 ≤ s.clientfd → s.rbufpos < ctrlBufsiz)

theorem Roomy.of_clientfd (absent : s.clientfd = -1) : s.Roomy := by
  unfold Roomy
  rw [absent]
  exact ⟨le_refl _, fun connected => absurd connected (by decide)⟩

/-- A read forgets the client at the end of file, and otherwise leaves it or closes it. -/
theorem controlRead_outcome {now : Int} {result : ControlRead} (roomy : s.Roomy)
    (done : s.controlRead now result answers = some s') :
    s'.Roomy ∧ (Outcome s s' ∨ result = .data [] ∧ 0 ≤ s.clientfd ∧ s' = { s with clientfd := -1 }) := by
  rcases controlRead_cases done with rfl | rfl | ⟨ended, connected, rfl⟩ | ⟨connected, bytes, read⟩
  · exact ⟨roomy, .inl (.refl _)⟩
  · exact ⟨.of_clientfd rfl, .inl (.close _)⟩
  · refine ⟨.of_clientfd rfl, .inr ⟨?_, connected, rfl⟩⟩
    rcases ended with empty | full
    · exact empty
    · exact absurd (roomy.2 connected) (Nat.not_lt.mpr full)
  · have same : Kept s (s.stored now bytes) := ⟨rfl, rfl, rfl, rfl, rfl, rfl, fun _ => rfl⟩
    rcases read with ⟨_, rfl⟩ | ⟨small, read⟩
    · exact ⟨.of_clientfd rfl, .inl (.closed same.close rfl)⟩
    · obtain ⟨outcome, room⟩ := readLines_outcome (s := s.stored now bytes) connected small read
      cases outcome with
      | kept kept idle =>
          have clientfd : s'.clientfd = s.clientfd := kept.clientfd
          refine ⟨⟨roomy.1.trans_eq clientfd.symm, fun _ => room⟩, .inl (.kept (same.trans kept) idle)⟩
      | closed kept stopped =>
          exact ⟨.of_clientfd kept.clientfd, .inl (.closed (same.close.trans kept) stopped)⟩

/-- A written answer leaves the client, or closes it. -/
theorem controlSend_outcome (roomy : s.Roomy) (result : Written) :
    (s.controlSend result).Roomy ∧ Outcome s (s.controlSend result) := by
  unfold controlSend
  split
  next => exact ⟨roomy, .refl s⟩
  next waiting =>
    have still : s.controlCloseClient.afterSend = s.controlCloseClient := by
      have pos : ¬ s.controlCloseClient.wbufpos ≤ 0 := waiting
      simp only [afterSend, pos, and_false, if_false]
    split
    next =>
      rw [still]
      exact ⟨.of_clientfd rfl, .close s⟩
    next n answered =>
      have connected : 0 ≤ s.clientfd := by
        by_contra absent
        rw [if_pos (Int.not_le.mp absent)] at answered
        cases answered
      have there : s.clientfd ≠ -1 := by omega
      let s₁ : ControlSocket := { s with toControl := consume s.toControl (min n s.wbufpos.toNat) }
      have consumed : Kept s s₁ := ⟨rfl, rfl, rfl, rfl, rfl, rfl, fun _ => rfl⟩
      have flushed : ∀ s₂ : ControlSocket, Kept s₂ { s₂ with ioWrite := false } :=
        fun _ => ⟨rfl, rfl, rfl, rfl, rfl, rfl, fun _ => rfl⟩
      change s₁.afterSend.Roomy ∧ Outcome s s₁.afterSend
      unfold afterSend
      by_cases closes : s₁.closeAfterWrite = true ∧ s₁.wbufpos ≤ 0
      · have pos : s₁.controlCloseClient.wbufpos ≤ 0 := closes.2
        simp only [closes, and_self, if_true, pos]
        exact ⟨.of_clientfd rfl, .closed (consumed.close.trans (flushed _)) rfl⟩
      · simp only [closes, if_false]
        split
        next => exact ⟨roomy, .kept (consumed.trans (flushed s₁)) fun none => absurd none there⟩
        next => exact ⟨roomy, .kept consumed fun none => absurd none there⟩

/-- The socket with a new client, or without one if its descriptor could not be set up. -/
structure Welcomes (s s' : ControlSocket) (fd : Nat) (nonblocking : Bool) : Prop where
  idle : s.clientfd = -1
  clientfd : s'.clientfd = if nonblocking then (fd : Int) else -1
  enabled : s'.enabled = s.enabled
  http : s'.http = s.http
  stays : s'.closeAfterWrite = s.closeAfterWrite
  rbufpos : s'.rbufpos = 0
  ioRead : s'.ioRead = true
  lines : s'.lines = s.lines
  accepted : s'.accepted = (fd : Int) :: s.accepted
  closed : s'.closed = if nonblocking then s.closed else (fd : Int) :: s.closed

theorem controlAccept_welcomes (now : Int) (fd : Nat) (nonblocking : Bool) (enabled : s.enabled = true)
    (idle : s.clientfd = -1) :
    Welcomes s (s.controlAccept now (some (fd, nonblocking))) fd nonblocking := by
  simp only [controlAccept, Control.controlAccept, enabled, idle, not_true_eq_false, ne_eq, if_false]
  exact ⟨idle, rfl, enabled.symm, rfl, rfl, rfl, rfl, rfl, rfl, rfl⟩

/-- A client that comes second is turned away. -/
theorem controlAccept_refuses (now : Int) (fd : Nat) (nonblocking : Bool) (enabled : s.enabled = true)
    (connected : s.clientfd ≠ -1) :
    s.controlAccept now (some (fd, nonblocking)) =
      { s with accepted := (fd : Int) :: s.accepted, closed := (fd : Int) :: s.closed } := by
  simp only [controlAccept, enabled, not_true_eq_false, if_false, connected, ne_eq,
    not_false_eq_true, if_true]

theorem controlAccept_disabled (now : Int) (answer : Option (Nat × Bool)) (disabled : s.enabled = false) :
    s.controlAccept now answer = s := by
  unfold controlAccept
  split
  next => rfl
  next => rw [if_pos (by rw [disabled]; decide)]

theorem controlAccept_roomy (now : Int) (answer : Option (Nat × Bool)) (roomy : s.Roomy) :
    (s.controlAccept now answer).Roomy := by
  cases enabled : s.enabled with
  | false => rwa [controlAccept_disabled now answer enabled]
  | true =>
      rcases answer with _ | ⟨fd, nonblocking⟩
      · exact roomy
      · by_cases idle : s.clientfd = -1
        · have welcomes := controlAccept_welcomes now fd nonblocking enabled idle
          unfold Roomy
          rw [welcomes.clientfd, welcomes.rbufpos]
          refine ⟨?_, fun _ => by decide⟩
          split <;> omega
        · rw [controlAccept_refuses now fd nonblocking enabled idle]
          exact roomy

/-- Every event but a new client leaves the client, closes it, or forgets it at the end
    of file. -/
theorem step_outcome {e : Event} (roomy : s.Roomy) (done : s.step e = some s') :
    s'.Roomy ∧ ((∃ now answer, e = .accept now answer) ∨ Outcome s s' ∨
      ∃ now answers, e = .read now (.data []) answers ∧ s.ioRead = true ∧ 0 ≤ s.clientfd ∧
        s' = { s with clientfd := -1 }) := by
  cases step_calls done with
  | accept now answer => exact ⟨controlAccept_roomy now answer roomy, .inl ⟨now, answer, rfl⟩⟩
  | @read now result answers _ reading read =>
      obtain ⟨room, outcome | ⟨empty, connected, ended⟩⟩ := controlRead_outcome roomy read
      · exact ⟨room, .inr (.inl outcome)⟩
      · exact ⟨room, .inr (.inr ⟨now, answers, by rw [empty], reading, connected, ended⟩)⟩
  | write result =>
      obtain ⟨room, outcome⟩ := controlSend_outcome roomy result
      exact ⟨room, .inr (.inl outcome)⟩
  | close now => exact ⟨.of_clientfd rfl, .inr (.inl (.close s))⟩
  | nothing => exact ⟨roomy, .inr (.inl (.refl s))⟩

/-- The write side of the socket is the buffer that answers are appended to and sent from. -/
theorem controlWrite_toControl (buf : List UInt8) :
    (s.controlWrite buf).map toControl = (Control.controlWrite s.toControl buf).map Prod.snd := by
  unfold controlWrite Control.controlWrite
  rw [Option.map_bind, Option.map_bind]
  refine Option.bind_congr fun c _ => ?_
  dsimp only [Function.comp_apply]
  split
  next => rfl
  next => rw [Option.map_map]; rfl

theorem controlSend_toControl (result : Written) :
    (s.controlSend result).toControl =
      (Control.controlSend s.toControl (if s.clientfd < 0 then none else result)).2 := by
  have last : ∀ s₁ : ControlSocket, s₁.afterSend.toControl = Control.afterSend s₁.toControl := by
    intro s₁
    unfold afterSend Control.afterSend
    by_cases closes : s₁.closeAfterWrite = true ∧ s₁.wbufpos ≤ 0
    · have sent : s₁.controlCloseClient.wbufpos ≤ 0 := closes.2
      have empty : (Control.controlCloseClient s₁.toControl).wbufpos ≤ 0 := closes.2
      simp only [closes, and_self, if_true, sent]
      rw [if_pos empty]
      rfl
    · simp only [closes, if_false]
      split <;> rfl
  unfold controlSend Control.controlSend
  split
  next => rfl
  next =>
    cases (if s.clientfd < 0 then none else result) with
    | none => exact last _
    | some n => exact last _

theorem controlWrite_sound {buf : List UInt8} (sound : Sound s.toControl)
    (done : s.controlWrite buf = some s') : Sound s'.toControl := by
  have written : Control.step s.toControl (.write buf) = some s'.toControl := by
    rw [Control.step, ← controlWrite_toControl, done, Option.map_some]
  exact (room_of_step sound written).2

end Mlvpn.ControlSocket
