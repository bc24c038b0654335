import Mlvpn.Control.Outcome

/-! # What a control client receives

The answers to the lines of a client pass through the write buffer and leave it in whatever
portions the system takes.  A client receives the answers to its own lines, each byte once and
in order, and a client of HTTP is closed when, and not before, the last of them is sent.
-/

namespace Mlvpn.ControlSocket

open Library.Machine Control

variable {s s' : ControlSocket} {answers : Answers} {line : List UInt8}

/-- What a line is answered with. -/
def replyText (http : Bool) (answers : Answers) (line : List UInt8) : List UInt8 :=
  match command http line with
  | none => []
  | some cmd => (if http then httpHeaders else []) ++ (reply answers cmd).1.flatten

/-- What passes between the socket and its client. -/
inductive Exchange where
  | accepted
  | answered (text : List UInt8)
  | sent (bytes : List UInt8)

/-- What has been written for the client that was accepted last, and what has been sent to it. -/
structure Talk where
  written : List UInt8
  sent : List UInt8

namespace Talk

def next (talk : Talk) : Exchange → Talk
  | .accepted => ⟨[], []⟩
  | .answered text => { talk with written := talk.written ++ text }
  | .sent bytes => { talk with sent := talk.sent ++ bytes }

/-- The talk after a log of exchanges. -/
def of (log : List Exchange) : Talk := log.foldl next ⟨[], []⟩

theorem of_append (log more : List Exchange) : of (log ++ more) = more.foldl next (of log) :=
  List.foldl_append

end Talk

/-- The lines that a read has passed to the parser. -/
def newLines (s : ControlSocket) (e : Event) : List (List UInt8) :=
  ((s.step e).getD s).lines.drop s.lines.length

/-- The exchanges of an event: a client that is let in, the answers to the lines of a read, and
    what `write` takes of the bytes that wait. -/
def exchanges : ControlSocket × Event → List Exchange
  | (s, .accept _ answer) =>
      if s.enabled ∧ s.clientfd = -1 ∧ answer.isSome then [.accepted] else []
  | (s, .read now result answers) =>
      (s.newLines (.read now result answers)).map fun line => .answered (replyText s.http answers line)
  | (s, .write result) =>
      if s.ioWrite ∧ 0 ≤ s.clientfd then [.sent (s.pending.take (result.getD 0))] else []
  | (_, .timeout _) => []

/-- The bytes written are sent or wait, a client is called back for what waits, and a client of
    HTTP for which something was written is kept for what waits. -/
structure Serves (s : ControlSocket) (talk : Talk) : Prop where
  sound : Sound s.toControl
  exact : talk.sent ++ s.pending = talk.written
  busy : 0 ≤ s.clientfd → s.pending ≠ [] → s.ioWrite = true
  closing : s.http = true → 0 ≤ s.clientfd → talk.written ≠ [] →
    s.pending ≠ [] ∧ s.closeAfterWrite = true

/-- A buffer that was made larger has room, so that a call that is defined ends with a store. -/
theorem controlWrite_ioWrite {c c' : Control} {buf : List UInt8} {ret : Int}
    (done : Control.controlWrite c buf = some (ret, c')) : c'.ioWrite = true := by
  unfold Control.controlWrite at done
  obtain ⟨c₁, grown, rest⟩ := Option.bind_eq_some_iff.mp done
  have room : ¬ Exhausted c₁ buf.length := by
    split at grown
    next exhausted =>
      simp only [grow, Option.ite_none_right_eq_some, Option.some.injEq] at grown
      rw [exhausted_iff] at exhausted ⊢
      rw [← grown.2]
      dsimp only
      omega
    next room =>
      cases grown
      exact room
  simp only [room, if_false, append, Option.ite_none_right_eq_some, Option.some.injEq,
    Prod.mk.injEq] at rest
  rw [← rest.2.2]

/-- An answer is appended to what waits. -/
theorem controlWrite_pending {buf : List UInt8} (sound : Sound s.toControl)
    (done : s.controlWrite buf = some s') : s'.pending = s.pending ++ buf ∧ s'.ioWrite = true := by
  have written : (Control.controlWrite s.toControl buf).map Prod.snd = some s'.toControl := by
    rw [← controlWrite_toControl, done, Option.map_some]
  have room : Room s.toControl (.write buf) := (room_of_step (e := .write buf) sound written).1
  obtain ⟨c, stored, _, waiting⟩ := controlWrite_of_room sound room
  rw [stored, Option.map_some, Option.some.injEq] at written
  rw [← written]
  exact ⟨waiting, controlWrite_ioWrite stored⟩

/-- What a call for several texts appends, and what it leaves as it was. -/
structure Appends (s s' : ControlSocket) (text : List UInt8) : Prop extends Aside s s' where
  sound : Sound s'.toControl
  pending : s'.pending = s.pending ++ text
  busy : (s.pending ≠ [] → s.ioWrite = true) → s'.pending ≠ [] → s'.ioWrite = true

theorem Appends.refl (sound : Sound s.toControl) : Appends s s [] :=
  ⟨.refl s, sound, (List.append_nil _).symm, id⟩

theorem Appends.trans {s₁ : ControlSocket} {text more : List UInt8} (first : Appends s s₁ text)
    (second : Appends s₁ s' more) : Appends s s' (text ++ more) where
  toAside := first.toAside.trans second.toAside
  sound := second.sound
  pending := by rw [second.pending, first.pending, List.append_assoc]
  busy := fun before => second.busy (first.busy before)

theorem controlWrite_appends {buf : List UInt8} (sound : Sound s.toControl)
    (done : s.controlWrite buf = some s') : Appends s s' buf :=
  have stored := controlWrite_pending sound done
  ⟨controlWrite_aside done, controlWrite_sound sound done, stored.1, fun _ _ => stored.2⟩

theorem controlWrites_appends {bufs : List (List UInt8)} (sound : Sound s.toControl)
    (done : s.controlWrites bufs = some s') : Appends s s' bufs.flatten := by
  induction bufs generalizing s with
  | nil =>
      cases done
      exact .refl sound
  | cons buf rest ih =>
      obtain ⟨s₁, written, later⟩ := run_cons_eq_some.mp done
      have first := controlWrite_appends sound written
      exact first.trans (ih first.sound later)

theorem absent_lt : ¬ (0 : Int) ≤ -1 := by decide

/-- Without a client there is nobody to call back for. -/
theorem Serves.of_absent {talk : Talk} (sound : Sound s.toControl) (absent : ¬ 0 ≤ s.clientfd)
    (whole : talk.sent ++ s.pending = talk.written) : s.Serves talk where
  sound := sound
  exact := whole
  busy connected := absurd connected absent
  closing _ connected := absurd connected absent

theorem Serves.close {talk : Talk} (serves : s.Serves talk) : s.controlCloseClient.Serves talk :=
  .of_absent (serves.sound.of_same rfl rfl rfl) absent_lt serves.exact

theorem Serves.congr {talk : Talk} (serves : s.Serves talk) (control : s'.toControl = s.toControl)
    (http : s'.http = s.http) : s'.Serves talk := by
  obtain ⟨sound, whole, busy, closing⟩ := serves
  rw [← control] at sound whole busy closing
  rw [← http] at closing
  exact ⟨sound, whole, busy, closing⟩

/-- The texts of an answer have been written, and a command may have ended the connection. -/
theorem Serves.answer {talk : Talk} (serves : s.Serves talk) {more : List UInt8} {s₁ : ControlSocket}
    (appends : Appends s s₁ ((if s.http then httpHeaders else []) ++ more)) {s₂ : ControlSocket}
    (after : s₂ = s₁.controlCloseClient ∨ s₂ = s₁) :
    (if s₂.http then { s₂ with closeAfterWrite := true } else s₂).Serves
      (talk.next (.answered ((if s.http then httpHeaders else []) ++ more))) := by
  have headed : s.http = true → s₁.pending ≠ [] := by
    intro http nothing
    rw [appends.pending, if_pos http] at nothing
    have front := (List.append_eq_nil_iff.mp (List.append_eq_nil_iff.mp nothing).2).1
    exact absurd front (by decide +kernel)
  have whole : talk.sent ++ s₁.pending =
      talk.written ++ ((if s.http then httpHeaders else []) ++ more) := by
    rw [appends.pending, ← List.append_assoc, serves.exact]
  have kept : s₁.http = true → s.http = true := fun http => appends.http ▸ http
  have busy : 0 ≤ s₁.clientfd → s₁.pending ≠ [] → s₁.ioWrite = true := fun connected =>
    appends.busy (serves.busy (appends.clientfd ▸ connected))
  have gone (s₂ : ControlSocket) (same : s₂.toControl = Control.controlCloseClient s₁.toControl ∨
      s₂.toControl = { Control.controlCloseClient s₁.toControl with closeAfterWrite := true }) :
      s₂.Serves (talk.next (.answered ((if s.http then httpHeaders else []) ++ more))) := by
    apply Serves.of_absent
    · rcases same with same | same <;> rw [same] <;> exact appends.sound.of_same rfl rfl rfl
    · rcases same with same | same <;> rw [same] <;> exact absent_lt
    · rcases same with same | same <;> rw [same] <;> exact whole
  rcases after with rfl | rfl
  · split
    next => exact gone _ (.inr rfl)
    next => exact gone _ (.inl rfl)
  · split
    next http =>
      exact ⟨appends.sound.of_same rfl rfl rfl, whole, busy, fun _ _ _ => ⟨headed (kept http), rfl⟩⟩
    next plain => exact ⟨appends.sound, whole, busy, fun http => absurd http plain⟩

/-- A line is answered; the answer of an HTTP command is not empty, and the client is to be closed
    after it. -/
theorem controlParse_serves {talk : Talk} (done : s.controlParse answers line = some s')
    (serves : s.Serves talk) :
    s'.Serves (talk.next (.answered (replyText s.http answers line))) := by
  unfold controlParse at done
  split at done
  next none =>
    have silent : replyText s.http answers line = [] := by simp only [replyText, none]
    cases done
    rw [silent]
    simp only [Talk.next, List.append_nil]
    exact serves
  next cmd found =>
    have reply : replyText s.http answers line =
        (if s.http then httpHeaders else []) ++ (reply answers cmd).1.flatten := by
      simp only [replyText, found]
    rw [reply]
    obtain ⟨s₁, headed, rest⟩ := Option.bind_eq_some_iff.mp done
    obtain ⟨s₂, written, rfl⟩ := Option.map_eq_some_iff.mp rest
    have first : Appends s s₁ (if s.http then httpHeaders else []) := by
      split at headed
      next http =>
        rw [if_pos http]
        exact controlWrite_appends serves.sound headed
      next plain =>
        cases headed
        rw [if_neg plain]
        exact .refl serves.sound
    have answered := first.trans (controlWrites_appends first.sound written)
    refine serves.answer answered ?_
    split
    next => exact .inl rfl
    next => exact .inr rfl

theorem controlParse_http (done : s.controlParse answers line = some s') : s'.http = s.http := by
  rcases controlParse_cases done with ⟨_, aside⟩ | ⟨_, s₁, before, after, _⟩
  · exact aside.http
  · exact after.http.trans before.http

/-- A read goes through the lines it finds. -/
theorem Serves.readLines {talk : Talk} (serves : s.Serves talk) (fuel : Nat)
    (done : readLines answers fuel s = some s') :
    ∃ lines, s'.lines = s.lines ++ lines ∧
      s'.Serves ((lines.map fun line => .answered (replyText s.http answers line)).foldl Talk.next talk) := by
  induction fuel generalizing s talk with
  | zero => cases done
  | succ fuel ih =>
      obtain ⟨result, checked, rest⟩ := Option.bind_eq_some_iff.mp done
      unfold controlReadCheck at checked
      split at checked
      next =>
        cases checked
        cases rest
        exact ⟨[], (List.append_nil _).symm, serves⟩
      next i _ =>
        dsimp only at checked
        split at checked
        next =>
          cases checked
          cases rest
          exact ⟨[], (List.append_nil _).symm, serves.close⟩
        next =>
          split at checked
          next =>
            obtain ⟨s₁, parsed, rfl⟩ := Option.map_eq_some_iff.mp checked
            have answered := controlParse_serves parsed (serves.congr rfl rfl)
            have http := controlParse_http parsed
            have passed := controlParse_lines parsed
            dsimp only at http passed
            obtain ⟨lines, later, served⟩ := ih answered rest
            refine ⟨(List.range i).map s.rbuf :: lines, ?_, ?_⟩
            · rw [later, passed, List.append_assoc, List.singleton_append]
            · rw [http] at served
              exact served
          next => cases checked

theorem pending_ne_nil {c : Control} : pending c ≠ [] ↔ 0 < c.wbufpos := by
  rw [pending, Ne, List.map_eq_nil_iff, List.range_eq_nil]
  omega

theorem afterSend_stays {c : Control} (stays : 0 ≤ (Control.afterSend c).clientfd) :
    0 ≤ c.clientfd ∧ (Control.afterSend c).closeAfterWrite = c.closeAfterWrite ∧
      (0 < c.wbufpos → (Control.afterSend c).ioWrite = c.ioWrite) ∧
      (c.closeAfterWrite = true → 0 < c.wbufpos) := by
  unfold Control.afterSend at stays ⊢
  by_cases closes : c.closeAfterWrite = true ∧ c.wbufpos ≤ 0
  · rw [if_pos closes] at stays
    dsimp only at stays
    split at stays <;> exact absurd stays absent_lt
  · rw [if_neg closes] at stays ⊢
    have more : c.closeAfterWrite = true → 0 < c.wbufpos := fun set => by
      by_contra empty
      exact closes ⟨set, by omega⟩
    dsimp only at stays ⊢
    split at stays
    next empty =>
      rw [if_pos empty]
      exact ⟨stays, rfl, fun waits => absurd empty (by omega), more⟩
    next waits =>
      rw [if_neg waits]
      exact ⟨stays, rfl, fun _ => rfl, more⟩

/-- A client that is still there after a call to send: what waits is waited for, and it has not
    been sent all if the client was to be closed. -/
theorem controlSend_stays {c : Control} (result : Written)
    (stays : 0 ≤ (Control.controlSend c result).2.clientfd) :
    0 ≤ c.clientfd ∧ (Control.controlSend c result).2.closeAfterWrite = c.closeAfterWrite ∧
      (0 < (Control.controlSend c result).2.wbufpos →
        (Control.controlSend c result).2.ioWrite = c.ioWrite) ∧
      (c.closeAfterWrite = true → 0 < c.wbufpos → 0 < (Control.controlSend c result).2.wbufpos) := by
  unfold Control.controlSend at stays ⊢
  by_cases nothing : c.wbufpos ≤ 0
  · rw [if_pos nothing] at stays ⊢
    exact ⟨stays, rfl, fun _ => rfl, fun _ => id⟩
  · rw [if_neg nothing] at stays ⊢
    cases result with
    | none => exact absurd (afterSend_stays stays).1 absent_lt
    | some n =>
        obtain ⟨connected, same, busy, more⟩ := afterSend_stays stays
        dsimp only at stays ⊢
        rw [(afterSend_buffer _).2.1]
        exact ⟨connected, same, busy, fun set _ => more set⟩

theorem controlSend_http (result : Written) : (s.controlSend result).http = s.http := by
  have last (s₁ : ControlSocket) : s₁.afterSend.http = s₁.http := by
    unfold afterSend
    dsimp only
    split <;> split <;> rfl
  unfold controlSend
  split
  next => rfl
  next => cases (if s.clientfd < 0 then none else result) <;> exact last _

/-- What is sent leaves from the front of what waits. -/
theorem Serves.send {talk : Talk} (serves : s.Serves talk) (result : Written)
    (connected : 0 ≤ s.clientfd) :
    (s.controlSend result).Serves (talk.next (.sent (s.pending.take (result.getD 0)))) := by
  have control : (s.controlSend result).toControl = (Control.controlSend s.toControl result).2 := by
    rw [controlSend_toControl, if_neg (by omega)]
  have http : (s.controlSend result).http = s.http := controlSend_http result
  obtain ⟨sound, left⟩ := controlSend_sound serves.sound result
  rw [← control] at sound left
  refine ⟨sound, ?_, fun stays waits => ?_, fun isHttp stays written => ?_⟩
  · simp only [Talk.next, left, List.append_assoc, List.take_append_drop]
    exact serves.exact
  · rw [control] at stays waits ⊢
    obtain ⟨before, _, busy, _⟩ := controlSend_stays result stays
    rw [busy (pending_ne_nil.mp waits)]
    refine serves.busy before fun none => waits ?_
    rw [← control, left, none, List.drop_nil]
  · rw [control] at stays ⊢
    obtain ⟨before, same, _, more⟩ := controlSend_stays result stays
    obtain ⟨waits, closes⟩ := serves.closing (http ▸ isHttp) before written
    exact ⟨pending_ne_nil.mpr (more closes (pending_ne_nil.mp waits)), same.trans closes⟩

theorem Serves.send_absent {talk : Talk} (serves : s.Serves talk) (result : Written)
    (absent : ¬ 0 ≤ s.clientfd) : (s.controlSend result).Serves talk := by
  have control : (s.controlSend result).toControl = (Control.controlSend s.toControl none).2 := by
    rw [controlSend_toControl, if_pos (by omega)]
  obtain ⟨sound, left⟩ := controlSend_sound serves.sound none
  rw [← control] at sound left
  refine .of_absent sound (fun stays => absent ?_) ?_
  · rw [control] at stays
    exact (controlSend_stays none stays).1
  · rw [left]
    exact serves.exact

/-- The answers of a read, one for each line. -/
theorem Serves.read {talk : Talk} (serves : s.Serves talk) {now : Int} {result : ControlRead}
    (done : s.controlRead now result answers = some s') :
    ∃ lines, s'.lines = s.lines ++ lines ∧
      s'.Serves ((lines.map fun line => .answered (replyText s.http answers line)).foldl Talk.next talk) := by
  have silent (s₁ : ControlSocket) (lines : s₁.lines = s.lines) (served : s₁.Serves talk) :
      ∃ lines, s₁.lines = s.lines ++ lines ∧ s₁.Serves
        ((lines.map fun line => .answered (replyText s.http answers line)).foldl Talk.next talk) :=
    ⟨[], by rw [lines, List.append_nil], served⟩
  rcases controlRead_cases done with rfl | rfl | ⟨_, _, rfl⟩ | ⟨_, bytes, ⟨_, rfl⟩ | ⟨_, rest⟩⟩
  · exact silent _ rfl serves
  · exact silent _ rfl serves.close
  · exact silent _ rfl (.of_absent (serves.sound.of_same rfl rfl rfl) absent_lt serves.exact)
  · exact silent _ rfl (.of_absent (serves.sound.of_same rfl rfl rfl) absent_lt serves.exact)
  · exact Serves.readLines (s := s.stored now bytes) (serves.congr rfl rfl) _ rest

/-- A client that is let in starts with nothing. -/
theorem Serves.welcome (sound : Sound s.toControl) (nothing : s'.wbufpos = 0)
    (wbuflen : s'.wbuflen = s.wbuflen) (allocated : s'.allocated = s.allocated) :
    s'.Serves ⟨[], []⟩ := by
  have empty : s'.pending = [] := by simp [pending, nothing]
  refine ⟨⟨?_, ?_, ?_, ?_⟩, empty, fun _ waits => absurd empty waits, fun _ _ written => absurd rfl written⟩
  · rw [nothing]
  · rw [nothing, wbuflen]
    exact sound.low.trans sound.high
  · rw [allocated, wbuflen]
    exact sound.allocated
  · rw [wbuflen]
    exact sound.max

theorem Serves.accept {talk : Talk} (serves : s.Serves talk) (now : Int) (answer : Option (Nat × Bool)) :
    (s.controlAccept now answer).Serves
      ((exchanges (s, .accept now answer)).foldl Talk.next talk) := by
  cases answer with
  | none => simpa [controlAccept, exchanges] using serves
  | some client =>
      obtain ⟨fd, nonblocking⟩ := client
      by_cases enabled : s.enabled = true
      · by_cases free : s.clientfd = -1
        · have logged : exchanges (s, .accept now (some (fd, nonblocking))) = [.accepted] := by
            simp [exchanges, enabled, free]
          rw [logged]
          refine Serves.welcome (s := s) serves.sound ?_ ?_ ?_ <;>
            simp [controlAccept, Control.controlAccept, enabled, free]
        · have logged : exchanges (s, .accept now (some (fd, nonblocking))) = [] := by
            simp [exchanges, free]
          rw [logged]
          refine serves.congr ?_ ?_ <;> simp [controlAccept, enabled, free]
      · have logged : exchanges (s, .accept now (some (fd, nonblocking))) = [] := by
          simp [exchanges, enabled]
        rw [logged]
        refine serves.congr ?_ ?_ <;> simp [controlAccept, enabled]

theorem Serves.step {e : Event} {log : List Exchange} (serves : s.Serves (.of log))
    (done : s.step e = some s') : s'.Serves (.of (log ++ exchanges (s, e))) := by
  rw [Talk.of_append]
  cases e with
  | accept now answer =>
      cases done
      exact serves.accept now answer
  | read now result answers =>
      have logged : exchanges (s, .read now result answers) =
          (s'.lines.drop s.lines.length).map fun line => .answered (replyText s.http answers line) := by
        rw [exchanges, newLines, done, Option.getD_some]
      rw [logged]
      simp only [ControlSocket.step] at done
      split at done
      next =>
        obtain ⟨lines, passed, served⟩ := serves.read done
        rw [passed, List.drop_left]
        exact served
      next =>
        cases done
        rw [List.drop_length]
        exact serves
  | write result =>
      simp only [ControlSocket.step] at done
      split at done
      next active =>
        cases done
        by_cases connected : 0 ≤ s.clientfd
        · rw [exchanges, if_pos ⟨active, connected⟩]
          exact serves.send result connected
        · rw [exchanges, if_neg fun both => connected both.2]
          exact serves.send_absent result connected
      next inactive =>
        cases done
        rw [exchanges, if_neg fun both => inactive both.1]
        exact serves
  | timeout now =>
      cases done
      unfold controlTimeout
      split
      next => exact serves.close
      next => exact serves

/-- In every run the client that was accepted last has been sent, and still waits for, exactly the
    answers to its own lines, each byte once and in order.  The loop calls back for what waits, and
    a client of HTTP that has been answered is kept only while something waits. -/
theorem client_receives_answers {http : Bool} {garbage : Nat → UInt8} {events : List Event}
    (reached : run step (controlInit http garbage) events = some s) :
    let talk := Talk.of ((visits step (controlInit http garbage) events).flatMap exchanges)
    talk.sent ++ s.pending = talk.written ∧
      (0 ≤ s.clientfd → s.pending ≠ [] → s.ioWrite = true) ∧
      (s.http = true → 0 ≤ s.clientfd → talk.written ≠ [] → s.pending ≠ []) := by
  have meets : Meets step (fun _ _ => True) (controlInit http garbage) events :=
    meets_of_forall events (fun _ _ _ => trivial) _
  have start : (controlInit http garbage).Serves (.of []) :=
    .of_absent (sound_init garbage) absent_lt rfl
  have serves : s.Serves (.of ([] ++ (visits step (controlInit http garbage) events).flatMap exchanges)) :=
    run_outputs (I := fun s log => s.Serves (.of log)) (fun _ _ _ _ before _ done => before.step done)
      events start meets reached
  exact ⟨serves.exact, serves.busy, fun isHttp connected written =>
    (serves.closing isHttp connected written).1⟩

/-- A client of HTTP asks for the status and has taken ten bytes of the answer. -/
def request : List Event :=
  [.accept 0 (some (7, true)),
    .read 1 (.data "GET /status HTTP/1.1\r\n".toUTF8.toList) ⟨[[1, 2], [3]], []⟩,
    .write (some 10)]

theorem request_received :
    ∃ t ∈ run step (controlInit true fun _ => 0) request, 0 ≤ t.clientfd ∧ t.pending ≠ [] ∧
      (Talk.of ((visits step (controlInit true fun _ => 0) request).flatMap exchanges)).sent ++ t.pending =
        httpHeaders ++ [1, 2, 3] := by
  obtain ⟨t, reached, connected, isHttp, written⟩ :
      ∃ t ∈ run step (controlInit true fun _ => 0) request, 0 ≤ t.clientfd ∧ t.http = true ∧
        (Talk.of ((visits step (controlInit true fun _ => 0) request).flatMap exchanges)).written =
          httpHeaders ++ [1, 2, 3] := by decide +kernel
  obtain ⟨whole, _, waits⟩ := client_receives_answers reached
  refine ⟨t, reached, connected, waits isHttp connected ?_, whole.trans written⟩
  rw [written]
  simp

end Mlvpn.ControlSocket
