import Mlvpn.Control.Client
import Mathlib.Data.List.TakeWhile

/-! # What is read from a control client

A line is taken from the front of the buffer, but its terminator stays in front of the
rest.  So the rest of a read is taken for empty lines, one for each byte.
-/

namespace Mlvpn.ControlSocket

open Library.Machine Control

variable {s s' s₁ : ControlSocket} {answers : Answers} {line : List UInt8}

/-- The client, its watcher for reads and the descriptors are as they were. -/
structure Kept (s s' : ControlSocket) : Prop where
  clientfd : s'.clientfd = s.clientfd
  enabled : s'.enabled = s.enabled
  http : s'.http = s.http
  ioRead : s'.ioRead = s.ioRead
  accepted : s'.accepted = s.accepted
  closed : s'.closed = s.closed
  stays : s.http = false → s'.closeAfterWrite = s.closeAfterWrite

theorem Kept.refl (s : ControlSocket) : Kept s s := ⟨rfl, rfl, rfl, rfl, rfl, rfl, fun _ => rfl⟩

theorem Kept.trans (first : Kept s s₁) (second : Kept s₁ s') : Kept s s' where
  clientfd := second.clientfd.trans first.clientfd
  enabled := second.enabled.trans first.enabled
  http := second.http.trans first.http
  ioRead := second.ioRead.trans first.ioRead
  accepted := second.accepted.trans first.accepted
  closed := second.closed.trans first.closed
  stays plain := (second.stays (first.http.trans plain)).trans (first.stays plain)

theorem Kept.close (kept : Kept s s') : Kept s.controlCloseClient s'.controlCloseClient where
  clientfd := rfl
  enabled := kept.enabled
  http := kept.http
  ioRead := rfl
  accepted := kept.accepted
  closed := by
    unfold controlCloseClient
    dsimp only
    rw [kept.clientfd, kept.closed]
  stays := kept.stays

/-- Besides, nothing was read. -/
structure Aside (s s' : ControlSocket) : Prop extends Kept s s' where
  rbuf : s'.rbuf = s.rbuf
  rbufpos : s'.rbufpos = s.rbufpos
  lines : s'.lines = s.lines

theorem Aside.refl (s : ControlSocket) : Aside s s := ⟨.refl s, rfl, rfl, rfl⟩

theorem Aside.trans (first : Aside s s₁) (second : Aside s₁ s') : Aside s s' where
  toKept := first.toKept.trans second.toKept
  rbuf := second.rbuf.trans first.rbuf
  rbufpos := second.rbufpos.trans first.rbufpos
  lines := second.lines.trans first.lines

/-- The write side may change, except for its descriptor. -/
theorem Aside.of_control {c : Control} (clientfd : c.clientfd = s.clientfd)
    (stays : s.http = false → c.closeAfterWrite = s.closeAfterWrite) :
    Aside s { s with toControl := c } :=
  ⟨⟨clientfd, rfl, rfl, rfl, rfl, rfl, stays⟩, rfl, rfl, rfl⟩

theorem append_clientfd {c : Control} {buf : List UInt8} {stored : Int × Control}
    (done : append c buf = some stored) :
    stored.2.clientfd = c.clientfd ∧ stored.2.closeAfterWrite = c.closeAfterWrite := by
  simp only [append, Option.ite_none_right_eq_some, Option.some.injEq] at done
  rw [← done.2]
  exact ⟨rfl, rfl⟩

/-- A buffer that has grown is not exhausted: an answer never ends the connection. -/
theorem controlWrite_aside {buf : List UInt8} (done : s.controlWrite buf = some s') : Aside s s' := by
  unfold controlWrite at done
  obtain ⟨c, grown, rest⟩ := Option.bind_eq_some_iff.mp done
  have kept : c.clientfd = s.clientfd ∧ c.closeAfterWrite = s.closeAfterWrite ∧
      ¬ Exhausted c buf.length := by
    split at grown
    next exhausted =>
      unfold grow at grown
      dsimp only at grown
      split at grown
      next =>
        cases grown
        refine ⟨rfl, rfl, ?_⟩
        rw [exhausted_iff] at exhausted ⊢
        dsimp only
        omega
      next => cases grown
    next room =>
      cases grown
      exact ⟨rfl, rfl, room⟩
  obtain ⟨clientfd, stays, room⟩ := kept
  dsimp only at rest
  rw [if_neg room] at rest
  obtain ⟨stored, appended, rfl⟩ := Option.map_eq_some_iff.mp rest
  obtain ⟨clientfd', stays'⟩ := append_clientfd appended
  exact Aside.of_control (clientfd'.trans clientfd) fun _ => stays'.trans stays

theorem controlWrites_aside {bufs : List (List UInt8)} (done : s.controlWrites bufs = some s') :
    Aside s s' :=
  run_preserves (I := fun s₁ => Aside s s₁) bufs
    (fun _ _ _ _ before written => before.trans (controlWrite_aside written)) (.refl s) done

/-- The line is a command that ends the connection. -/
def Closes (http : Bool) (line : List UInt8) : Prop :=
  ∃ cmd ∈ command http line, (reply ⟨[], []⟩ cmd).2 = true

instance (http : Bool) (line : List UInt8) : Decidable (Closes http line) :=
  inferInstanceAs (Decidable (∃ cmd ∈ command http line, _))

/-- Whether a command ends the connection does not depend on the reports. -/
theorem reply_closes (answers : Answers) (cmd : List UInt8) :
    (reply answers cmd).2 = (reply ⟨[], []⟩ cmd).2 := by
  unfold reply
  split_ifs <;> rfl

/-- A command is answered, and may end the connection. -/
theorem controlParse_cases (done : s.controlParse answers line = some s') :
    (¬ Closes s.http line ∧ Aside s s') ∨
      (Closes s.http line ∧ ∃ s₁, Aside s s₁ ∧ Aside s₁.controlCloseClient s' ∧ s'.ioWrite = false) := by
  unfold controlParse at done
  split at done
  next none =>
    cases done
    refine .inl ⟨?_, .refl s⟩
    rintro ⟨cmd, found, _⟩
    rw [none] at found
    cases found
  next cmd found =>
    obtain ⟨s₁, headed, rest⟩ := Option.bind_eq_some_iff.mp done
    obtain ⟨s₂, written, rfl⟩ := Option.map_eq_some_iff.mp rest
    have first : Aside s s₁ := by
      split at headed
      next => exact controlWrite_aside headed
      next =>
        cases headed
        exact .refl s
    have answered : Aside s s₂ := first.trans (controlWrites_aside written)
    have flagged : ∀ s₃ : ControlSocket,
        Aside s₃ (if s₃.http then { s₃ with closeAfterWrite := true } else s₃) ∧
          (if s₃.http then { s₃ with closeAfterWrite := true } else s₃).ioWrite = s₃.ioWrite := by
      intro s₃
      split
      next http =>
        refine ⟨Aside.of_control rfl fun plain => ?_, rfl⟩
        rw [http] at plain
        cases plain
      next => exact ⟨.refl s₃, rfl⟩
    have closing : Closes s.http line ↔ (reply answers cmd).2 = true := by
      rw [reply_closes, Closes, found]
      simp only [Option.mem_some_iff, exists_eq_left']
    rw [closing]
    dsimp only
    split
    next quit =>
      refine .inr ⟨quit, s₂, answered, (flagged _).1, ?_⟩
      exact (flagged _).2
    next stays => exact .inl ⟨stays, answered.trans (flagged _).1⟩

/-- The bytes that wait for a terminator. -/
def unread (s : ControlSocket) : List UInt8 := (List.range s.rbufpos).map s.rbuf

theorem length_unread : s.unread.length = s.rbufpos := by
  rw [unread, List.length_map, List.length_range]

/-- Parsing leaves the bytes that wait. -/
theorem controlParse_buffer (done : s.controlParse answers line = some s') :
    s'.rbuf = s.rbuf ∧ s'.rbufpos = s.rbufpos := by
  rcases controlParse_cases done with ⟨_, aside⟩ | ⟨_, s₁, before, after, _⟩
  · exact ⟨aside.rbuf, aside.rbufpos⟩
  · exact ⟨after.rbuf.trans before.rbuf, after.rbufpos.trans before.rbufpos⟩

/-- The buffer once a line has been taken from it. -/
def taken (s : ControlSocket) (line : List UInt8) : ControlSocket :=
  { s with
    rbuf := fun j => if j + line.length < ctrlBufsiz then s.rbuf (j + line.length) else s.rbuf j
    rbufpos := s.rbufpos - (line.length + 1)
    lines := s.lines ++ [line] }

/-- Neither the end of file nor a terminator. -/
def Plain (bytes : List UInt8) : Prop := ∀ b ∈ bytes, b ≠ ctrlEof ∧ b ≠ ctrlTerminator

theorem rbuf_of_unread {x y : List UInt8} {c : UInt8} (split : s.unread = x ++ c :: y) :
    s.rbuf x.length = c ∧ x.length < s.rbufpos ∧ (List.range x.length).map s.rbuf = x := by
  have long : s.rbufpos = x.length + (y.length + 1) := by
    rw [← length_unread, split, List.length_append, List.length_cons]
  unfold unread at split
  rw [long, List.range_add, List.map_append] at split
  obtain ⟨front, back⟩ := List.append_inj split (by simp)
  refine ⟨?_, by omega, front⟩
  rw [List.range_succ_eq_map] at back
  simpa using congrArg List.head? back

theorem find_plain (plain : Plain s.unread) :
    ((List.range s.rbufpos).find? fun i => s.rbuf i = ctrlEof ∨ s.rbuf i = ctrlTerminator) = none := by
  rw [List.find?_eq_none]
  intro i member
  have free := plain (s.rbuf i) (List.mem_map_of_mem member)
  simpa only [decide_eq_true_eq, not_or] using free

/-- Without a terminator nothing is taken. -/
theorem controlReadCheck_plain (plain : Plain s.unread) :
    s.controlReadCheck answers = some (false, s) := by
  unfold controlReadCheck
  rw [find_plain plain]

/-- The first of the two bytes is found. -/
theorem find_special {x y : List UInt8} {c : UInt8} (split : s.unread = x ++ c :: y) (plain : Plain x)
    (special : c = ctrlEof ∨ c = ctrlTerminator) :
    ((List.range s.rbufpos).find? fun i => s.rbuf i = ctrlEof ∨ s.rbuf i = ctrlTerminator) =
      some x.length := by
  obtain ⟨here, inside, front⟩ := rbuf_of_unread split
  rw [List.find?_range_eq_some]
  refine ⟨?_, List.mem_range.mpr inside, fun j before => ?_⟩
  · rw [here]
    exact decide_eq_true special
  · have member : s.rbuf j ∈ x := by
      rw [← front]
      exact List.mem_map_of_mem (List.mem_range.mpr before)
    simpa only [Bool.not_eq_true', decide_eq_false_iff_not, not_or] using plain _ member

theorem controlReadCheck_eof {x y : List UInt8} (split : s.unread = x ++ ctrlEof :: y)
    (plain : Plain x) : s.controlReadCheck answers = some (false, s.controlCloseClient) := by
  unfold controlReadCheck
  rw [find_special split plain (.inl rfl)]
  dsimp only
  rw [if_pos (rbuf_of_unread split).1]

theorem controlReadCheck_line {x y : List UInt8} (split : s.unread = x ++ ctrlTerminator :: y)
    (plain : Plain x) (small : x.length < ctrlBufsiz) :
    s.controlReadCheck answers =
      ((s.taken x).controlParse answers x).map fun s => (true, s) := by
  obtain ⟨here, _, front⟩ := rbuf_of_unread split
  have other : ¬ s.rbuf x.length = ctrlEof := by
    rw [here]
    decide
  unfold controlReadCheck
  rw [find_special split plain (.inr rfl)]
  dsimp only
  rw [if_neg other, if_pos small, front]
  rfl

theorem controlParse_nil : s.controlParse answers [] = some s := by
  have none : command s.http [] = none := by cases s.http <;> rfl
  unfold controlParse
  rw [none]

/-- The rest of the buffer, taken for `n` empty lines. -/
def spent (s : ControlSocket) (n : Nat) : ControlSocket :=
  { s with rbufpos := 0, lines := s.lines ++ List.replicate n [] }

theorem taken_nil_rbuf : (s.taken []).rbuf = s.rbuf := by
  funext j
  simp only [taken, List.length_nil, Nat.add_zero, ite_self]

/-- A terminator in front of the buffer is found once for each byte. -/
theorem readLines_blank {fuel : Nat} (first : s.rbuf 0 = ctrlTerminator) (enough : s.rbufpos < fuel) :
    readLines answers fuel s = some (s.spent s.rbufpos) := by
  induction fuel generalizing s with
  | zero => omega
  | succ fuel ih =>
      unfold readLines
      cases pos : s.rbufpos with
      | zero =>
          have empty : s.unread = [] := by rw [unread, pos, List.range_zero, List.map_nil]
          have plain : Plain s.unread := fun b member => by
            rw [empty] at member
            cases member
          rw [controlReadCheck_plain plain, Option.bind_some, if_neg Bool.false_ne_true]
          unfold spent
          rw [List.replicate_zero, List.append_nil, ← pos]
      | succ n =>
          have split : s.unread = [] ++ ctrlTerminator :: s.unread.tail := by
            rw [unread, pos, List.range_succ_eq_map, List.map_cons, first]
            rfl
          have none : Plain [] := fun b member => by cases member
          rw [controlReadCheck_line split none (by decide), controlParse_nil, Option.map_some,
            Option.bind_some, if_pos rfl]
          have left : (s.taken []).rbufpos = n := by
            rw [taken, pos]
            rfl
          dsimp only
          rw [ih (by rw [taken_nil_rbuf, first]) (by omega), left]
          unfold spent taken
          congr 2
          · funext j
            simp only [List.length_nil, Nat.add_zero, ite_self]
          · rw [List.append_assoc, List.replicate_succ]
            rfl

/-- The first line of the buffer is the only one that is not empty. -/
theorem readLines_line {fuel : Nat} {x y : List UInt8} (split : s.unread = x ++ ctrlTerminator :: y)
    (plain : Plain x) (small : s.rbufpos < ctrlBufsiz) (enough : s.rbufpos < fuel) :
    readLines answers fuel s = ((s.taken x).controlParse answers x).map (spent · y.length) := by
  obtain ⟨here, inside, _⟩ := rbuf_of_unread split
  have long : s.rbufpos = x.length + (y.length + 1) := by
    rw [← length_unread, split, List.length_append, List.length_cons]
  cases fuel with
  | zero => omega
  | succ fuel =>
      unfold readLines
      rw [controlReadCheck_line split plain (by omega)]
      cases parsed : (s.taken x).controlParse answers x with
      | none => rfl
      | some s₁ =>
          rw [Option.map_some, Option.map_some, Option.bind_some, if_pos rfl]
          -- parsing changes neither the buffer nor the position in it
          obtain ⟨rbuf, rbufpos⟩ := controlParse_buffer parsed
          have first : s₁.rbuf 0 = ctrlTerminator := by
            rw [rbuf, taken]
            dsimp only
            rw [Nat.zero_add, if_pos (by omega), here]
          have left : s₁.rbufpos = y.length := by
            rw [rbufpos, taken]
            dsimp only
            omega
          rw [readLines_blank first (by omega), left]

/-- A buffer holds neither of the two bytes, or one of them comes first. -/
theorem plain_or_split (bytes : List UInt8) :
    Plain bytes ∨ ∃ x c y, bytes = x ++ c :: y ∧ Plain x ∧ (c = ctrlEof ∨ c = ctrlTerminator) := by
  induction bytes with
  | nil => exact .inl fun b member => by cases member
  | cons b rest ih =>
      by_cases special : b = ctrlEof ∨ b = ctrlTerminator
      · exact .inr ⟨[], b, rest, rfl, (fun b member => by cases member), special⟩
      · have first : b ≠ ctrlEof ∧ b ≠ ctrlTerminator := not_or.mp special
        rcases ih with plain | ⟨x, c, y, rfl, plain, found⟩
        · exact .inl (List.forall_mem_cons.mpr ⟨first, plain⟩)
        · exact .inr ⟨b :: x, c, y, rfl, List.forall_mem_cons.mpr ⟨first, plain⟩, found⟩

/-- Bytes that were read are appended to those that wait. -/
def stored (s : ControlSocket) (now : Int) (bytes : List UInt8) : ControlSocket :=
  { s with
    lastActivity := now
    rbuf := fun i => if s.rbufpos ≤ i then (bytes[i - s.rbufpos]?).getD (s.rbuf i) else s.rbuf i
    rbufpos := s.rbufpos + bytes.length }

theorem unread_stored (now : Int) (bytes : List UInt8) :
    (s.stored now bytes).unread = s.unread ++ bytes := by
  unfold unread stored
  dsimp only
  rw [List.range_add, List.map_append, List.map_map]
  refine congrArg₂ (· ++ ·) ?_ ?_
  · apply List.map_congr_left
    intro i member
    rw [if_neg (by have := List.mem_range.mp member; omega)]
  · apply List.ext_getElem
    · simp
    · intro i _ inside
      simp [inside]

theorem readLines_plain {fuel : Nat} (plain : Plain s.unread) :
    readLines answers (fuel + 1) s = some s := by
  unfold readLines
  rw [controlReadCheck_plain plain]
  rfl

theorem readLines_eof {fuel : Nat} {x y : List UInt8} (split : s.unread = x ++ ctrlEof :: y)
    (plain : Plain x) : readLines answers (fuel + 1) s = some s.controlCloseClient := by
  unfold readLines
  rw [controlReadCheck_eof split plain]
  rfl

/-- Parsing passes no line itself. -/
theorem controlParse_lines (done : s.controlParse answers line = some s') : s'.lines = s.lines := by
  rcases controlParse_cases done with ⟨_, aside⟩ | ⟨_, s₁, before, after, _⟩
  · exact aside.lines
  · exact after.lines.trans before.lines

theorem readLines_lines (small : s.rbufpos < ctrlBufsiz)
    (done : readLines answers (s.rbufpos + 1) s = some s') : s.lines <+: s'.lines := by
  rcases plain_or_split s.unread with plain | ⟨x, c, y, split, plain, rfl | rfl⟩
  · rw [readLines_plain plain] at done
    cases done
    exact List.prefix_refl _
  · rw [readLines_eof split plain] at done
    cases done
    exact List.prefix_refl _
  · rw [readLines_line split plain small (Nat.lt_succ_self _)] at done
    obtain ⟨s₁, parsed, rfl⟩ := Option.map_eq_some_iff.mp done
    unfold spent
    rw [controlParse_lines parsed]
    exact (List.prefix_append _ _).trans (List.prefix_append _ _)

/-- What a read does, by the answer of the system. -/
theorem controlRead_cases {now : Int} {result : ControlRead}
    (done : s.controlRead now result answers = some s') :
    s' = s ∨ s' = s.controlCloseClient ∨
      (result = .data [] ∨ ctrlBufsiz ≤ s.rbufpos) ∧ 0 ≤ s.clientfd ∧ s' = { s with clientfd := -1 } ∨
      0 ≤ s.clientfd ∧ ∃ bytes,
        let s₁ := s.stored now bytes
        s₁.rbufpos ≥ ctrlBufsiz ∧ s' = s₁.controlCloseClient ∨
          s₁.rbufpos < ctrlBufsiz ∧ readLines answers (s₁.rbufpos + 1) s₁ = some s' := by
  unfold controlRead at done
  by_cases absent : s.clientfd < 0
  · simp only [absent, if_true, Bool.false_eq_true, if_false, Option.some.injEq] at done
    exact .inr (.inl done.symm)
  · have connected : 0 ≤ s.clientfd := Int.not_lt.mp absent
    simp only [absent, if_false] at done
    cases result with
    | failed again =>
        cases again with
        | false =>
            cases done
            exact .inr (.inl rfl)
        | true =>
            cases done
            exact .inl rfl
    | data bytes =>
        dsimp only at done
        split at done
        next ended =>
          cases done
          refine .inr (.inr (.inl ⟨?_, connected, rfl⟩))
          rcases List.take_eq_nil_iff.mp ended with full | empty
          · exact .inr (Nat.sub_eq_zero_iff_le.mp full)
          · exact .inl (by rw [empty])
        next =>
          refine .inr (.inr (.inr ⟨connected, bytes.take (ctrlBufsiz - s.rbufpos), ?_⟩))
          split at done
          next overflow =>
            cases done
            exact .inl ⟨overflow, rfl⟩
          next fits => exact .inr ⟨Nat.lt_of_not_le fits, done⟩

/-- A read that leaves room in the buffer. -/
theorem controlRead_data {now : Int} {bytes : List UInt8} (connected : 0 ≤ s.clientfd)
    (given : bytes ≠ []) (fits : s.rbufpos + bytes.length < ctrlBufsiz) :
    s.controlRead now (.data bytes) answers =
      readLines answers ((s.stored now bytes).rbufpos + 1) (s.stored now bytes) := by
  have whole : bytes.take (ctrlBufsiz - s.rbufpos) = bytes := List.take_of_length_le (by omega)
  have room : ¬ s.rbufpos + bytes.length ≥ ctrlBufsiz := by omega
  simp only [controlRead, Int.not_lt.mpr connected, if_false, whole, given, room]
  rfl

/-- What an event comes to, by the function that is called. -/
inductive Calls (s : ControlSocket) : Event → ControlSocket → Prop where
  | accept (now : Int) (answer : Option (Nat × Bool)) :
      Calls s (.accept now answer) (s.controlAccept now answer)
  | read {now : Int} {result : ControlRead} {answers : Answers} {s' : ControlSocket} :
      s.ioRead = true → s.controlRead now result answers = some s' → Calls s (.read now result answers) s'
  | write (result : Written) : Calls s (.write result) (s.controlSend result)
  | close (now : Int) : Calls s (.timeout now) s.controlCloseClient
  | nothing (e : Event) : Calls s e s

theorem step_calls {e : Event} (done : s.step e = some s') : Calls s e s' := by
  cases e with
  | accept now answer =>
      cases done
      exact .accept now answer
  | read now result answers =>
      unfold step at done
      dsimp only at done
      split at done
      next reading => exact .read reading done
      next =>
        cases done
        exact .nothing _
  | write result =>
      unfold step at done
      dsimp only at done
      split at done
      next =>
        cases done
        exact .write result
      next =>
        cases done
        exact .nothing _
  | timeout now =>
      cases done
      unfold controlTimeout
      split
      next => exact .close now
      next => exact .nothing _

theorem afterSend_lines : s.afterSend.lines = s.lines := by
  unfold afterSend
  dsimp only
  split <;> split <;> rfl

theorem controlSend_lines (result : Written) : (s.controlSend result).lines = s.lines := by
  unfold controlSend
  split
  next => rfl
  next =>
    split
    next => exact afterSend_lines
    next => exact afterSend_lines

theorem controlAccept_lines (now : Int) (answer : Option (Nat × Bool)) :
    (s.controlAccept now answer).lines = s.lines := by
  unfold controlAccept
  split
  next => rfl
  next => split_ifs <;> rfl

/-- Lines are only added. -/
theorem step_lines {e : Event} (done : s.step e = some s') : s.lines <+: s'.lines := by
  cases step_calls done with
  | accept now answer => exact ⟨[], by rw [List.append_nil, controlAccept_lines]⟩
  | read _ read =>
      rcases controlRead_cases read with rfl | rfl | ⟨_, _, rfl⟩ | ⟨_, bytes, ⟨_, rfl⟩ | ⟨small, rest⟩⟩
      · exact List.prefix_refl _
      · exact List.prefix_refl _
      · exact List.prefix_refl _
      · exact List.prefix_refl _
      · exact readLines_lines (s := s.stored _ bytes) small rest
  | write result => exact ⟨[], by rw [List.append_nil, controlSend_lines]⟩
  | close now => exact List.prefix_refl _
  | nothing => exact List.prefix_refl _

end Mlvpn.ControlSocket
