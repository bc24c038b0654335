import Mlvpn.Control.Outcome
import Mlvpn.Library.Lines

/-! # The lines of a control client

The lines that are passed on are those of the stream as long as no chunk that is read
has anything but terminators after its first one.  What follows a terminator in the
same read is lost otherwise, and no later chunk makes up for it.
-/

namespace Mlvpn.ControlSocket

open Library.Machine Library.Lines Control

variable {s s' s₁ : ControlSocket} {answers : Answers}

/-- The bytes that an event reads. -/
def Event.chunk? : Event → Option (List UInt8)
  | .read _ (.data bytes) _ => some bytes
  | _ => none

/-- The bytes that a client sends. -/
def stream (events : List Event) : List UInt8 := (events.filterMap Event.chunk?).flatten

/-- A client that is not closed by the system: bytes are read or not there yet, and
    some of the answers are written. -/
def Event.Traffic : Event → Prop
  | .read _ (.data _) _ => True
  | .read _ (.failed again) _ => again = true
  | .write result => result ≠ none
  | _ => False

instance : DecidablePred Event.Traffic
  | .read _ (.data _) _ => inferInstanceAs (Decidable True)
  | .read _ (.failed _) _ => inferInstanceAs (Decidable (_ = _))
  | .write _ => inferInstanceAs (Decidable (_ ≠ _))
  | .accept _ _ => inferInstanceAs (Decidable False)
  | .timeout _ => inferInstanceAs (Decidable False)

/-- A read does not fill the buffer. -/
def Fits (s : ControlSocket) (e : Event) : Prop :=
  ∀ bytes ∈ e.chunk?, s.ioRead = true → bytes ≠ [] ∧ s.rbufpos + bytes.length < ctrlBufsiz

instance (s : ControlSocket) (e : Event) : Decidable (Fits s e) :=
  inferInstanceAs (Decidable (∀ bytes ∈ e.chunk?, _))

/-- After its first terminator there are only terminators. -/
def Tidy (bytes : List UInt8) : Prop :=
  ∀ b ∈ bytes.dropWhile (· ≠ ctrlTerminator), b = ctrlTerminator

-- searches the list, and not all bytes
instance decidableForallMemBytes {P : UInt8 → Prop} [DecidablePred P] {l : List UInt8} : Decidable (∀ b ∈ l, P b) :=
  List.decidableBAll P l

instance : DecidablePred Tidy := fun bytes =>
  inferInstanceAs (Decidable (∀ b ∈ bytes.dropWhile (· ≠ ctrlTerminator), _))

variable {old : List (List UInt8)} {sent bytes : List UInt8}

/-- The lines that were passed are those of the bytes `sent`, after `old` ones. -/
structure Framed (old : List (List UInt8)) (sent : List UInt8) (s : ControlSocket) : Prop where
  connected : 0 ≤ s.clientfd
  reading : s.ioRead = true
  http : s.http = false
  stays : s.closeAfterWrite = false
  plain : Plain s.unread
  pieces : ∃ pieces, s.lines = old ++ pieces ∧ sent.splitOn ctrlTerminator = pieces ++ [s.unread]

/-- An empty line was passed where a line of the stream begins with a byte. -/
def Lost (old : List (List UInt8)) (sent : List UInt8) (s : ControlSocket) : Prop :=
  ∃ k : Nat, s.lines[k]? = some [] ∧
    ∀ later, ∃ b rest, (old ++ (sent ++ later).splitOn ctrlTerminator)[k]? = some (b :: rest)

theorem Framed.lines_eq (framed : Framed old sent s) :
    s.lines ++ [s.unread] = old ++ sent.splitOn ctrlTerminator := by
  obtain ⟨pieces, lines, split⟩ := framed.pieces
  rw [lines, split, List.append_assoc]

/-- What is lost stays so. -/
theorem Lost.onward {e : Event} (lost : Lost old sent s) (done : s.step e = some s')
    (bytes : List UInt8) : Lost old (sent ++ bytes) s' := by
  obtain ⟨k, blank, begins⟩ := lost
  obtain ⟨more, longer⟩ := step_lines done
  refine ⟨k, ?_, fun later => ?_⟩
  · rw [← longer, List.getElem?_append_left (List.getElem?_eq_some_iff.mp blank).1, blank]
  · rw [List.append_assoc]
    exact begins (bytes ++ later)

theorem Lost.lines_ne (lost : Lost old sent s) :
    s.lines ++ [s.unread] ≠ old ++ sent.splitOn ctrlTerminator := by
  intro same
  obtain ⟨k, blank, begins⟩ := lost
  obtain ⟨b, rest, there⟩ := begins []
  have inside : k < s.lines.length := (List.getElem?_eq_some_iff.mp blank).1
  rw [List.append_nil, ← same, List.getElem?_append_left inside, blank] at there
  cases there

/-- A chunk up to its first terminator, and what follows that. -/
theorem chunk_cases (bytes : List UInt8) :
    (ctrlTerminator ∉ bytes ∧ Tidy bytes) ∨
      ∃ a y, bytes = a ++ ctrlTerminator :: y ∧ ctrlTerminator ∉ a ∧
        (Tidy bytes ↔ ∀ b ∈ y, b = ctrlTerminator) := by
  by_cases member : ctrlTerminator ∈ bytes
  · obtain ⟨a, y, rfl, absent⟩ := List.eq_append_cons_of_mem member
    refine .inr ⟨a, y, rfl, absent, ?_⟩
    have skipped : (a ++ ctrlTerminator :: y).dropWhile (· ≠ ctrlTerminator) = ctrlTerminator :: y := by
      rw [List.dropWhile_append_of_pos]
      · exact List.dropWhile_cons_of_neg (by simp)
      · intro b inside
        exact decide_eq_true fun same => absent (same ▸ inside)
    rw [Tidy, skipped, List.forall_mem_cons]
    exact ⟨And.right, fun rest => ⟨rfl, rest⟩⟩
  · refine .inl ⟨member, ?_⟩
    have all : bytes.dropWhile (· ≠ ctrlTerminator) = [] := by
      rw [List.dropWhile_eq_nil_iff]
      intro b inside
      exact decide_eq_true fun same => member (same ▸ inside)
    rw [Tidy, all]
    intro b none
    cases none

theorem Plain.append {more : List UInt8} (plain : Plain bytes) (free : ∀ b ∈ more, b ≠ ctrlEof)
    (absent : ctrlTerminator ∉ more) : Plain (bytes ++ more) := by
  intro b member
  rcases List.mem_append.mp member with early | late
  · exact plain b early
  · exact ⟨free b late, fun same => absent (same ▸ late)⟩

/-- Bytes without a terminator go on waiting. -/
theorem Framed.wait {now : Int} (framed : Framed old sent s) (free : ∀ b ∈ bytes, b ≠ ctrlEof)
    (absent : ctrlTerminator ∉ bytes) : Framed old (sent ++ bytes) (s.stored now bytes) := by
  obtain ⟨connected, reading, http, stays, plain, pieces, lines, split⟩ := framed
  have waits : Plain (s.unread ++ bytes) := plain.append free absent
  refine ⟨connected, reading, http, stays, ?_, pieces, lines, ?_⟩
  · rw [unread_stored]
    exact waits
  · rw [unread_stored, splitOn_append split,
      List.splitOn_eq_singleton fun member => (waits _ member).2 rfl]

/-- The stream up to a terminator, and what follows it. -/
theorem Framed.split {a y : List UInt8} (framed : Framed old sent s)
    (free : ∀ b ∈ a, b ≠ ctrlEof) (absent : ctrlTerminator ∉ a) :
    ∃ pieces, s.lines = old ++ pieces ∧ ∀ later,
      (sent ++ (a ++ ctrlTerminator :: y) ++ later).splitOn ctrlTerminator =
        pieces ++ (s.unread ++ a) :: (y ++ later).splitOn ctrlTerminator := by
  obtain ⟨pieces, lines, split⟩ := framed.pieces
  refine ⟨pieces, lines, fun later => ?_⟩
  have waits : Plain (s.unread ++ a) := framed.plain.append free absent
  have closed : ctrlTerminator ∉ s.unread ++ a := fun member => (waits _ member).2 rfl
  rw [List.append_assoc, splitOn_append split, List.append_assoc, List.cons_append,
    ← List.append_assoc, List.splitOn_append_cons_self_of_not_mem closed]

/-- The line that is closed is passed, with an empty one for each byte after it. -/
theorem Framed.close {now : Int} {a y : List UInt8} (framed : Framed old sent s)
    (free : ∀ b ∈ a, b ≠ ctrlEof) (absent : ctrlTerminator ∉ a)
    (fits : s.rbufpos + (a ++ ctrlTerminator :: y).length < ctrlBufsiz)
    (stays : ¬ Closes false (s.unread ++ a))
    (done : s.controlRead now (.data (a ++ ctrlTerminator :: y)) answers = some s') :
    0 ≤ s'.clientfd ∧ s'.ioRead = true ∧ s'.http = false ∧ s'.closeAfterWrite = false ∧
      s'.unread = [] ∧ s'.lines = s.lines ++ [s.unread ++ a] ++ List.replicate y.length [] := by
  let s₁ := s.stored now (a ++ ctrlTerminator :: y)
  have split : s₁.unread = (s.unread ++ a) ++ ctrlTerminator :: y := by
    rw [unread_stored, List.append_assoc]
  have waits : Plain (s.unread ++ a) := framed.plain.append free absent
  rw [controlRead_data framed.connected (by simp) fits,
    readLines_line split waits fits (Nat.lt_succ_self _)] at done
  obtain ⟨s₂, parsed, rfl⟩ := Option.map_eq_some_iff.mp done
  have http : (s₁.taken (s.unread ++ a)).http = false := framed.http
  rcases controlParse_cases parsed with ⟨_, aside⟩ | ⟨closes, _⟩
  · refine ⟨?_, aside.ioRead.trans framed.reading, aside.http.trans http,
      (aside.stays http).trans framed.stays, rfl, ?_⟩
    · exact framed.connected.trans_eq aside.clientfd.symm
    · rw [spent, aside.lines]
      rfl
  · rw [http] at closes
    exact absurd closes stays

/-- Terminators only, or some and then another byte. -/
theorem terminators_or_split (y : List UInt8) :
    y = List.replicate y.length ctrlTerminator ∨
      ∃ n c z, y = List.replicate n ctrlTerminator ++ c :: z ∧ c ≠ ctrlTerminator := by
  induction y with
  | nil => exact .inl rfl
  | cons b rest ih =>
      by_cases terminator : b = ctrlTerminator
      · subst terminator
        rcases ih with all | ⟨n, c, z, split, other⟩
        · exact .inl (by rw [List.length_cons, List.replicate_succ, ← all])
        · exact .inr ⟨n + 1, c, z, by rw [split, List.replicate_succ]; rfl, other⟩
      · exact .inr ⟨0, b, rest, rfl, terminator⟩

/-- The lines of a stream, without what is not terminated. -/
def terminated (bytes : List UInt8) : List (List UInt8) := (bytes.splitOn ctrlTerminator).dropLast

/-- A byte that is taken for an empty line begins a line of the stream. -/
theorem lost_of_split {passed : List (List UInt8)} {n : Nat} {c : UInt8} {z : List UInt8}
    (different : c ≠ ctrlTerminator)
    (lines : s.lines = passed ++ List.replicate (List.replicate n ctrlTerminator ++ c :: z).length [])
    (split : ∀ later, old ++ (sent ++ later).splitOn ctrlTerminator =
      passed ++ (List.replicate n ctrlTerminator ++ c :: z ++ later).splitOn ctrlTerminator) :
    Lost old sent s := by
  let before := passed ++ List.replicate n []
  have there : ∀ piece rest, (before ++ piece :: rest)[before.length]? = some piece := by
    intro piece rest
    rw [List.getElem?_append_right (le_refl _), Nat.sub_self]
    rfl
  refine ⟨before.length, ?_, fun more => ?_⟩
  · have blanks : s.lines = before ++ [] :: List.replicate z.length [] := by
      rw [lines, List.length_append, List.length_replicate, List.length_cons, List.replicate_add,
        List.replicate_succ, ← List.append_assoc]
    rw [blanks]
    exact there ..
  · obtain ⟨rest, others, begins⟩ := splitOn_cons_of_ne (l := z ++ more) different
    have whole : old ++ (sent ++ more).splitOn ctrlTerminator = before ++ (c :: rest) :: others := by
      rw [split, List.append_assoc, List.cons_append, splitOn_replicate_append, begins,
        ← List.append_assoc]
    rw [whole]
    exact ⟨c, rest, there ..⟩

/-- A read keeps the lines right, or loses bytes, as its chunk is tidy or not. -/
theorem Framed.read {now : Int} (framed : Framed old sent s) (given : bytes ≠ [])
    (fits : s.rbufpos + bytes.length < ctrlBufsiz) (free : ∀ b ∈ bytes, b ≠ ctrlEof) {later : List UInt8}
    (calm : ∀ line ∈ terminated (sent ++ bytes ++ later), ¬ Closes false line)
    (done : s.controlRead now (.data bytes) answers = some s') :
    (Tidy bytes ∧ Framed old (sent ++ bytes) s') ∨ (¬ Tidy bytes ∧ Lost old (sent ++ bytes) s') := by
  rcases chunk_cases bytes with ⟨absent, tidy⟩ | ⟨a, y, rfl, absent, tidy⟩
  · refine .inl ⟨tidy, ?_⟩
    have waits : Framed old (sent ++ bytes) (s.stored now bytes) := framed.wait free absent
    rw [controlRead_data framed.connected given fits, readLines_plain waits.plain] at done
    cases done
    exact waits
  · have front : ∀ b ∈ a, b ≠ ctrlEof := fun b member => free b (List.mem_append_left _ member)
    obtain ⟨pieces, lines, split⟩ := framed.split (y := y) front absent
    have stays : ¬ Closes false (s.unread ++ a) := by
      apply calm
      have cut : (y ++ later).splitOn ctrlTerminator ≠ [] := List.splitOn_ne_nil _ _
      rw [terminated, split, List.dropLast_append_of_ne_nil (List.cons_ne_nil _ _),
        List.dropLast_cons_of_ne_nil cut]
      exact List.mem_append_right _ List.mem_cons_self
    obtain ⟨connected, reading, http, kept, empty, passed⟩ :=
      framed.close front absent fits stays done
    rw [lines] at passed
    rw [tidy]
    rcases terminators_or_split y with all | ⟨n, c, z, rfl, different⟩
    · refine .inl ⟨?_, connected, reading, http, kept, ?_, ?_⟩
      · rw [all]
        intro b member
        exact List.eq_of_mem_replicate member
      · rw [empty]
        intro b none
        cases none
      · refine ⟨pieces ++ [s.unread ++ a] ++ List.replicate y.length [], ?_, ?_⟩
        · rw [passed]
          simp only [List.append_assoc]
        · have whole := split []
          rw [List.append_nil, all, splitOn_replicate_append, List.splitOn_nil] at whole
          rw [empty, all, whole, List.length_replicate]
          simp only [List.append_assoc, List.cons_append, List.nil_append]
    · refine .inr ⟨fun only => ?_, lost_of_split different passed fun more => ?_⟩
      · exact different (only c (List.mem_append_right _ List.mem_cons_self))
      · rw [split]
        simp only [List.append_assoc, List.cons_append, List.nil_append]

theorem Framed.aside (framed : Framed old sent s) (aside : Aside s s') : Framed old sent s' := by
  have same : s'.unread = s.unread := by rw [unread, unread, aside.rbuf, aside.rbufpos]
  obtain ⟨connected, reading, http, stays, plain, pieces, lines, split⟩ := framed
  refine ⟨connected.trans_eq aside.clientfd.symm, aside.ioRead.trans reading, aside.http.trans http,
    (aside.stays http).trans stays, same ▸ plain, pieces, aside.lines.trans lines, ?_⟩
  rw [same]
  exact split

/-- Without HTTP the connection outlives the answers. -/
theorem afterSend_aside (stays : s.closeAfterWrite = false) : Aside s s.afterSend := by
  unfold afterSend
  simp only [stays, Bool.false_eq_true, false_and, if_false]
  split
  next => exact Aside.of_control rfl fun _ => stays.symm
  next => exact .refl s

theorem controlSend_aside {n : Nat} (connected : 0 ≤ s.clientfd) (stays : s.closeAfterWrite = false) :
    Aside s (s.controlSend (some n)) := by
  unfold controlSend
  split
  next => exact .refl s
  next =>
    rw [if_neg (Int.not_lt.mpr connected)]
    have consumed : Aside s { s with toControl := consume s.toControl (min n s.wbufpos.toNat) } :=
      Aside.of_control rfl fun _ => rfl
    exact consumed.trans (afterSend_aside stays)

theorem stream_cons (e : Event) (events : List Event) :
    stream (e :: events) = e.chunk?.getD [] ++ stream events := by
  unfold stream
  cases chunk : e.chunk? with
  | none => rw [List.filterMap_cons_none chunk, Option.getD_none, List.nil_append]
  | some bytes => rw [List.filterMap_cons_some chunk, List.flatten_cons, Option.getD_some]

/-- What a read has lost is missing in the end. -/
theorem Lost.never {events : List Event} (lost : Lost old sent s) (reached : run step s events = some s') :
    s'.lines ++ [s'.unread] ≠ old ++ (sent ++ stream events).splitOn ctrlTerminator := by
  induction events generalizing s sent with
  | nil =>
      cases reached
      rw [stream, List.filterMap_nil, List.flatten_nil, List.append_nil]
      exact lost.lines_ne
  | cons e rest ih =>
      obtain ⟨s₁, first, later⟩ := run_cons_eq_some.mp reached
      rw [stream_cons, ← List.append_assoc]
      exact ih (lost.onward first _) later

/-- One event of a client. -/
theorem Framed.event {e : Event} {later : List UInt8} (framed : Framed old sent s)
    (traffic : e.Traffic) (fits : Fits s e) (free : ∀ b ∈ e.chunk?.getD [], b ≠ ctrlEof)
    (calm : ∀ line ∈ terminated (sent ++ e.chunk?.getD [] ++ later), ¬ Closes false line)
    (done : s.step e = some s') :
    ((∀ bytes ∈ e.chunk?, Tidy bytes) ∧ Framed old (sent ++ e.chunk?.getD []) s') ∨
      ((¬ ∀ bytes ∈ e.chunk?, Tidy bytes) ∧ Lost old (sent ++ e.chunk?.getD []) s') := by
  have silent : Event.chunk? e = none → Framed old sent s' →
      (∀ bytes ∈ e.chunk?, Tidy bytes) ∧ Framed old (sent ++ e.chunk?.getD []) s' := by
    intro none kept
    rw [none, Option.getD_none, List.append_nil]
    exact ⟨(fun bytes member => by cases member), kept⟩
  cases e with
  | accept now answer => cases traffic
  | timeout now => cases traffic
  | write result =>
      refine .inl (silent rfl ?_)
      unfold step at done
      dsimp only at done
      split at done
      next =>
        cases done
        cases result with
        | none => exact absurd rfl traffic
        | some n => exact framed.aside (controlSend_aside framed.connected framed.stays)
      next =>
        cases done
        exact framed
  | read now result answers =>
      simp only [step, framed.reading, if_true] at done
      cases result with
      | failed again =>
          refine .inl (silent rfl ?_)
          cases traffic
          simp only [controlRead, Int.not_lt.mpr framed.connected, if_false, if_true,
            Option.some.injEq] at done
          exact done ▸ framed
      | data bytes =>
          obtain ⟨given, small⟩ := fits bytes rfl framed.reading
          have each : (∀ chunk ∈ Event.chunk? (.read now (.data bytes) answers), Tidy chunk) ↔ Tidy bytes := by
            simp only [Event.chunk?, Option.mem_some_iff, forall_eq']
          rw [each]
          exact framed.read given small free calm done

theorem Framed.iff_tidy {events : List Event} (framed : Framed old sent s)
    (traffic : ∀ e ∈ events, e.Traffic) (fits : Meets step Fits s events)
    (free : ∀ b ∈ stream events, b ≠ ctrlEof)
    (calm : ∀ line ∈ terminated (sent ++ stream events), ¬ Closes false line)
    (reached : run step s events = some s') :
    s'.lines ++ [s'.unread] = old ++ (sent ++ stream events).splitOn ctrlTerminator ↔
      ∀ e ∈ events, ∀ bytes ∈ e.chunk?, Tidy bytes := by
  induction events generalizing s sent with
  | nil =>
      cases reached
      rw [stream, List.filterMap_nil, List.flatten_nil, List.append_nil]
      exact ⟨fun _ e member => (by cases member), fun _ => framed.lines_eq⟩
  | cons e rest ih =>
      obtain ⟨s₁, first, later⟩ := run_cons_eq_some.mp reached
      obtain ⟨now, next⟩ := List.forall_mem_cons.mp traffic
      rw [stream_cons, ← List.append_assoc] at calm
      rw [stream_cons] at free
      rw [stream_cons, ← List.append_assoc, List.forall_mem_cons]
      have front : ∀ b ∈ e.chunk?.getD [], b ≠ ctrlEof :=
        fun b member => free b (List.mem_append_left _ member)
      rcases framed.event now fits.1 front calm first with ⟨tidy, kept⟩ | ⟨untidy, lost⟩
      · have onward := ih kept next (fits.2 s₁ first)
          (fun b member => free b (List.mem_append_right _ member)) calm later
        rw [onward]
        exact ⟨fun others => ⟨tidy, others⟩, And.right⟩
      · exact ⟨fun same => absurd same (lost.never later), fun all => absurd all.1 untidy⟩

/-- A socket without HTTP. -/
structure Bare (s : ControlSocket) : Prop where
  enabled : s.enabled = true
  http : s.http = false
  stays : s.closeAfterWrite = false

theorem Bare.kept (bare : s.Bare) (kept : Kept s s') : s'.Bare :=
  ⟨kept.enabled.trans bare.enabled, kept.http.trans bare.http, (kept.stays bare.http).trans bare.stays⟩

theorem Bare.close (bare : s.Bare) : s.controlCloseClient.Bare := ⟨bare.enabled, bare.http, bare.stays⟩

theorem step_bare {e : Event} (roomy : s.Roomy) (bare : s.Bare) (done : s.step e = some s') :
    s'.Roomy ∧ s'.Bare := by
  obtain ⟨room, ⟨now, answer, rfl⟩ | outcome | ⟨_, _, _, _, _, rfl⟩⟩ := step_outcome roomy done
  · refine ⟨room, ?_⟩
    cases done
    rcases answer with _ | ⟨fd, nonblocking⟩
    · exact bare
    · by_cases idle : s.clientfd = -1
      · have welcomes := controlAccept_welcomes now fd nonblocking bare.enabled idle
        exact ⟨welcomes.enabled.trans bare.enabled, welcomes.http.trans bare.http,
          welcomes.stays.trans bare.stays⟩
      · rw [controlAccept_refuses now fd nonblocking bare.enabled idle]
        exact ⟨bare.enabled, bare.http, bare.stays⟩
  · cases outcome with
    | kept kept _ => exact ⟨room, bare.kept kept⟩
    | closed kept _ => exact ⟨room, bare.close.kept kept⟩
  · exact ⟨room, bare.enabled, bare.http, bare.stays⟩

theorem run_bare {garbage : Nat → UInt8} {events : List Event}
    (reached : run step (controlInit false garbage) events = some s) : s.Bare := by
  have start : (controlInit false garbage).Roomy ∧ (controlInit false garbage).Bare :=
    ⟨.of_clientfd rfl, rfl, rfl, rfl⟩
  exact (run_preserves (I := fun s => s.Roomy ∧ s.Bare) events
    (fun _ _ _ _ before done => step_bare before.1 before.2 done) start reached).2

theorem Welcomes.framed {fd : Nat} (welcomes : Welcomes s s' fd true) (bare : s.Bare) :
    Framed s.lines [] s' := by
  have empty : s'.unread = [] := by rw [unread, welcomes.rbufpos, List.range_zero, List.map_nil]
  refine ⟨?_, welcomes.ioRead, welcomes.http.trans bare.http, welcomes.stays.trans bare.stays, ?_,
    [], ?_, ?_⟩
  · rw [welcomes.clientfd, if_pos rfl]
    exact Int.natCast_nonneg fd
  · rw [empty]
    intro b none
    cases none
  · rw [welcomes.lines, List.append_nil]
  · rw [empty]
    rfl

/-- In a run without HTTP a client is accepted and sends bytes, of which no read fills the
    buffer, none ends the file and no line ends the connection.  The lines that are passed,
    and the rest that waits, are those of the stream if and only if every read has only
    terminators after its first one. -/
theorem control_framing_iff {garbage : Nat → UInt8} {before events : List Event} {now : Int} {fd : Nat}
    (reached : run step (controlInit false garbage) before = some s) (idle : s.clientfd = -1)
    (traffic : ∀ e ∈ events, e.Traffic)
    (fits : Meets step Fits (s.controlAccept now (some (fd, true))) events)
    (free : ∀ b ∈ stream events, b ≠ ctrlEof)
    (calm : ∀ line ∈ terminated (stream events), ¬ Closes false line)
    (served : run step (s.controlAccept now (some (fd, true))) events = some s') :
    s'.lines ++ [s'.unread] = s.lines ++ (stream events).splitOn ctrlTerminator ↔
      ∀ e ∈ events, ∀ bytes ∈ e.chunk?, Tidy bytes := by
  have bare := run_bare reached
  have framed := (controlAccept_welcomes now fd true bare.enabled idle).framed bare
  exact framed.iff_tidy traffic fits free calm served

/-- A read of what a client has typed. -/
def typed (text : String) : Event := .read 1 (.data text.toUTF8.toList) ⟨[], []⟩

/-- A line in two reads, a terminator that ends an empty line, and a line that waits. -/
theorem control_framing_tidy :
    ∃ s ∈ run step ((controlInit false fun _ => 0).controlAccept 0 (some (7, true)))
        [typed "up", typed "time\n\n", typed "rest"],
      s.lines ++ [s.unread] = ["uptime", "", "rest"].map (·.toUTF8.toList) := by
  obtain ⟨s, served⟩ :
      ∃ s, run step ((controlInit false fun _ => 0).controlAccept 0 (some (7, true)))
        [typed "up", typed "time\n\n", typed "rest"] = some s :=
    Option.isSome_iff_exists.mp (by decide +kernel)
  refine ⟨s, served, ?_⟩
  have reached : run step (controlInit false fun _ => 0) [] = some (controlInit false fun _ => 0) := rfl
  have framing := control_framing_iff reached rfl (by decide +kernel) (by decide +kernel)
    (by decide +kernel) (by decide +kernel) served
  rw [framing.mpr (by decide +kernel)]
  decide +kernel

/-- Two commands in one read: the second one is passed as empty lines. -/
theorem control_framing_lost :
    ∃ s ∈ run step ((controlInit false fun _ => 0).controlAccept 0 (some (7, true)))
        [typed "a\nbc\n"],
      s.lines ++ [s.unread] = ["a", "", "", "", ""].map (·.toUTF8.toList) ∧
        (stream [typed "a\nbc\n"]).splitOn ctrlTerminator =
          ["a", "bc", ""].map (·.toUTF8.toList) := by
  decide +kernel

end Mlvpn.ControlSocket
