import Mlvpn.Control.Outcome
import Mlvpn.Library.Loop

/-! # The arrays of the control read path

`mlvpn_control_read_check` and `mlvpn_control_parse` store in `rbuf` and in two arrays of
their own, all of 1024 bytes.  The stores are written out here as the C text makes them;
what the model of `Mlvpn.Control.Client` has in `rbuf` is what they leave.

The loop of `mlvpn_control_read` ends since a line costs its bytes and one more, whatever is
left in front of the buffer.
-/

namespace Mlvpn.ControlSocket

open Library Library.Machine Library.Loop Control

variable {s s' : ControlSocket} {answers : Answers} {line : List UInt8}

/-- The arrays, each of `MLVPN_CTRL_BUFSIZ` bytes. -/
inductive ReadArray where
  | rbuf
  | line
  | cline
  deriving DecidableEq

/-- A byte stored in an array. -/
structure Store where
  array : ReadArray
  index : Nat
  value : UInt8

/-- What stores leave of an array, in their order. -/
def written (array : ReadArray) (before : Nat → UInt8) (stores : List Store) : Nat → UInt8 :=
  stores.foldl (fun bytes store =>
    if store.array = array then Function.update bytes store.index store.value else bytes) before

/-- The loop of `mlvpn_control_parse` that leaves out the `\r`: the indices in `cline`, with what is
    stored there. -/
def cleanup : Nat → List UInt8 → List (Nat × UInt8)
  | _, [] => []
  | j, c :: rest => if c ≠ 13 then (j, c) :: cleanup (j + 1) rest else cleanup j rest

/-- `strtok(…, " ")` from a position of the text on: the word, the index where it is ended by a
    NUL, and the position for the next call. -/
def strtok (text : List UInt8) (pos : Nat) : Option (List UInt8) × Option Nat × Nat :=
  let start := pos + ((text.drop pos).takeWhile (· = 32)).length
  let word := (text.drop start).takeWhile (· ≠ 32)
  let stop := start + word.length
  if word = [] then (none, none, start)
  else if stop < text.length then (some word, some stop, stop + 1)
  else (some word, none, stop)

/-- The text of a line, up to its NUL, without the `\r`. -/
def cleaned (line : List UInt8) : List UInt8 := (line.takeWhile (· ≠ 0)).filter (· ≠ 13)

/-- What `mlvpn_control_parse` stores in `cline`. -/
def parseStores (http : Bool) (line : List UInt8) : List Store :=
  let first := strtok (cleaned line) 0
  let second := if http then (strtok (cleaned line) first.2.2).2.1 else none
  (cleanup 0 (line.takeWhile (· ≠ 0) ++ [0])).map (fun (j, c) => ⟨.cline, j, c⟩) ++
    (first.2.1.toList ++ second.toList).map fun j => ⟨.cline, j, 0⟩

/-- What `mlvpn_control_read_check` stores: the line with its NUL, the bytes that are moved to the
    front, and what parsing the line stores. -/
def readCheckStores (s : ControlSocket) : List Store :=
  match (List.range s.rbufpos).find? fun i => s.rbuf i = ctrlEof ∨ s.rbuf i = ctrlTerminator with
  | none => []
  | some i =>
      if s.rbuf i = ctrlEof then []
      else
        (List.range i).map (fun j => ⟨.line, j, s.rbuf j⟩) ++ [⟨.line, i, 0⟩] ++
          (List.range (ctrlBufsiz - i)).map (fun j => ⟨.rbuf, j, s.rbuf (j + i)⟩) ++
          parseStores s.http ((List.range i).map s.rbuf)

/-- The bytes that are kept are stored one after the other. -/
theorem cleanup_eq (j : Nat) (text : List UInt8) :
    cleanup j text = ((text.filter (· ≠ 13)).zipIdx j).map Prod.swap := by
  induction text generalizing j with
  | nil => rfl
  | cons c rest ih => by_cases kept : c = 13 <;> simp [cleanup, kept, ih]

/-- The loop leaves the text of the line in `cline`, with its NUL. -/
theorem cleanup_line (line : List UInt8) :
    cleanup 0 (line.takeWhile (· ≠ 0) ++ [0]) = ((cleaned line ++ [0]).zipIdx).map Prod.swap := by
  rw [cleanup_eq, List.filter_append]
  rfl

theorem length_cleaned (line : List UInt8) : (cleaned line).length ≤ line.length :=
  (List.length_filter_le _ _).trans (List.takeWhile_prefix _).length_le

theorem strtok_stop {text : List UInt8} {pos j : Nat} (stored : j ∈ (strtok text pos).2.1) :
    j < text.length := by
  unfold strtok at stored
  dsimp only at stored
  split_ifs at stored with empty inside
  · cases stored
  · cases stored
    exact inside
  · cases stored

theorem parseStores_array {http : Bool} {store : Store} (stored : store ∈ parseStores http line) :
    store.array = .cline := by
  unfold parseStores at stored
  rcases List.mem_append.mp stored with copied | ended
  · obtain ⟨_, _, rfl⟩ := List.mem_map.mp copied
    rfl
  · obtain ⟨_, _, rfl⟩ := List.mem_map.mp ended
    rfl

/-- Parsing a line stores no more than the line with its NUL takes. -/
theorem parseStores_index {http : Bool} {store : Store} (stored : store ∈ parseStores http line) :
    store.index ≤ line.length := by
  have short := length_cleaned line
  unfold parseStores at stored
  rw [cleanup_line] at stored
  rcases List.mem_append.mp stored with copied | ended
  · simp only [List.map_map, List.mem_map] at copied
    obtain ⟨⟨c, j⟩, member, rfl⟩ := copied
    have bound := List.snd_lt_of_mem_zipIdx member
    simp only [List.length_append, List.length_singleton] at bound
    change j ≤ line.length
    omega
  · obtain ⟨j, member, rfl⟩ := List.mem_map.mp ended
    change j ≤ line.length
    have inside : j < (cleaned line).length := by
      rcases List.mem_append.mp member with first | second
      · exact strtok_stop (Option.mem_toList.mp first)
      · cases http with
        | false => cases second
        | true => exact strtok_stop (Option.mem_toList.mp second)
    omega

theorem written_append (array : ReadArray) (before : Nat → UInt8) (first second : List Store) :
    written array before (first ++ second) = written array (written array before first) second :=
  List.foldl_append

/-- Stores in other arrays. -/
theorem written_other {array : ReadArray} {stores : List Store} (other : ∀ store ∈ stores, store.array ≠ array)
    (before : Nat → UInt8) : written array before stores = before := by
  induction stores generalizing before with
  | nil => rfl
  | cons store rest ih =>
      obtain ⟨first, later⟩ := List.forall_mem_cons.mp other
      rw [written, List.foldl_cons, if_neg first]
      exact ih later before

/-- A block that is stored from the start of an array. -/
theorem written_block (array : ReadArray) (before : Nat → UInt8) (n : Nat) (value : Nat → UInt8) :
    written array before ((List.range n).map fun j => ⟨array, j, value j⟩) =
      fun j => if j < n then value j else before j := by
  induction n with
  | zero => simp [written]
  | succ n ih =>
      rw [List.range_succ, List.map_append, written_append, ih]
      funext j
      simp only [written, List.map_cons, List.map_nil, List.foldl_cons, List.foldl_nil, if_true,
        Function.update_apply]
      grind

/-- What is stored for a line. -/
def lineStores (s : ControlSocket) (line : List UInt8) : List Store :=
  (List.range line.length).map (fun j => ⟨.line, j, s.rbuf j⟩) ++ [⟨.line, line.length, 0⟩] ++
    (List.range (ctrlBufsiz - line.length)).map (fun j => ⟨.rbuf, j, s.rbuf (j + line.length)⟩) ++
      parseStores s.http line

/-- A call finds nothing to do, or closes the client, or takes a line. -/
inductive Checked (s : ControlSocket) (answers : Answers) : Prop where
  | waits : s.readCheckStores = [] → s.controlReadCheck answers = some (false, s) → Checked s answers
  | ends : s.readCheckStores = [] → s.controlReadCheck answers = some (false, s.controlCloseClient) →
      Checked s answers
  | takes (line : List UInt8) : line.length < s.rbufpos → s.readCheckStores = s.lineStores line →
      s.controlReadCheck answers = ((s.taken line).controlParse answers line).map (fun s => (true, s)) →
      Checked s answers

theorem checked (small : s.rbufpos ≤ ctrlBufsiz) (answers : Answers) : Checked s answers := by
  rcases plain_or_split s.unread with plain | ⟨x, c, y, split, plain, rfl | rfl⟩
  · refine .waits ?_ (controlReadCheck_plain plain)
    unfold readCheckStores
    rw [find_plain plain]
  · refine .ends ?_ (controlReadCheck_eof split plain)
    unfold readCheckStores
    rw [find_special split plain (.inl rfl)]
    dsimp only
    rw [if_pos (rbuf_of_unread split).1]
  · obtain ⟨here, inside, front⟩ := rbuf_of_unread split
    refine .takes x inside ?_ (controlReadCheck_line split plain (by omega))
    have other : s.rbuf x.length ≠ ctrlEof := by
      rw [here]
      decide
    unfold readCheckStores
    rw [find_special split plain (.inr rfl)]
    dsimp only
    rw [if_neg other, front]
    rfl

theorem readCheckStores_index (small : s.rbufpos ≤ ctrlBufsiz) :
    ∀ store ∈ s.readCheckStores, store.index < ctrlBufsiz := by
  intro store member
  cases checked small ⟨[], []⟩ with
  | waits stores | ends stores =>
      rw [stores] at member
      cases member
  | takes line inside stores =>
      rw [stores] at member
      simp only [lineStores, List.mem_append, List.mem_map, List.mem_range, List.mem_singleton] at member
      rcases member with ((⟨j, before, rfl⟩ | rfl) | ⟨j, before, rfl⟩) | parsed
      · exact Nat.lt_of_lt_of_le (Nat.lt_trans before inside) small
      · exact Nat.lt_of_lt_of_le inside small
      · exact Nat.lt_of_lt_of_le before (Nat.sub_le _ _)
      · exact Nat.lt_of_le_of_lt (parseStores_index parsed) (Nat.lt_of_lt_of_le inside small)

/-- A line costs its bytes and one more. -/
theorem controlReadCheck_falls (s s' : ControlSocket) (small : s.rbufpos < ctrlBufsiz)
    (done : s.controlReadCheck answers = some (true, s')) :
    s'.rbufpos < ctrlBufsiz ∧ s'.rbufpos < s.rbufpos := by
  cases checked (Nat.le_of_lt small) answers with
  | waits _ found | ends _ found =>
      rw [found] at done
      cases done
  | takes line inside _ found =>
      rw [found] at done
      obtain ⟨s₁, parsed, same⟩ := Option.map_eq_some_iff.mp done
      cases same
      have left : s'.rbufpos = s.rbufpos - (line.length + 1) := (controlParse_buffer parsed).2
      omega

/-- What the model leaves in `rbuf` is what is stored there. -/
theorem controlReadCheck_rbuf {again : Bool} (small : s.rbufpos ≤ ctrlBufsiz)
    (done : s.controlReadCheck answers = some (again, s')) :
    s'.rbuf = written .rbuf s.rbuf s.readCheckStores := by
  cases checked small answers with
  | waits stores found | ends stores found =>
      rw [found] at done
      cases done
      rw [stores]
      rfl
  | takes line inside stores found =>
      rw [found] at done
      obtain ⟨s₁, parsed, same⟩ := Option.map_eq_some_iff.mp done
      cases same
      have copied : ∀ store ∈ (List.range line.length).map (fun j => (⟨.line, j, s.rbuf j⟩ : Store)) ++
          [⟨.line, line.length, 0⟩], store.array ≠ .rbuf := by
        intro store member
        simp only [List.mem_append, List.mem_map, List.mem_singleton] at member
        obtain ⟨_, _, rfl⟩ | rfl := member <;> simp
      have cleans : ∀ store ∈ parseStores s.http line, store.array ≠ .rbuf := by
        intro store member
        simp [parseStores_array member]
      rw [(controlParse_buffer parsed).1, stores, lineStores, written_append, written_append,
        written_other copied, written_other cleans, written_block]
      funext j
      have inRange : j < ctrlBufsiz - line.length ↔ j + line.length < ctrlBufsiz := by omega
      simp only [taken, inRange]

/-- A call is undefined only where writing the answer is. -/
theorem controlReadCheck_undefined (small : s.rbufpos ≤ ctrlBufsiz)
    (undefined : s.controlReadCheck answers = none) :
    ∃ line, (s.taken line).controlParse answers line = none := by
  cases checked small answers with
  | waits _ found | ends _ found =>
      rw [found] at undefined
      cases undefined
  | takes line _ _ found =>
      rw [found] at undefined
      exact ⟨line, Option.map_eq_none_iff.mp undefined⟩

theorem run_roomy {http : Bool} {garbage : Nat → UInt8} {events : List Event}
    (reached : run step (controlInit http garbage) events = some s) : s.Roomy :=
  run_preserves events (fun _ _ _ _ roomy done => (step_outcome roomy done).1) (.of_clientfd rfl) reached

theorem readLines_eq_iterate (answers : Answers) (fuel : Nat) (s : ControlSocket) :
    readLines answers fuel s = iterate (controlReadCheck · answers) fuel s := by
  induction fuel generalizing s with
  | zero => rfl
  | succ fuel ih => simp only [readLines, iterate, ih]

/-- Bytes that fill the buffer are not looked at. -/
theorem controlRead_overflow {now : Int} {bytes : List UInt8} (connected : 0 ≤ s.clientfd)
    (room : s.rbufpos < ctrlBufsiz) (overflow : ctrlBufsiz ≤ s.rbufpos + bytes.length) :
    ∃ s', s.controlRead now (.data bytes) answers = some s' ∧ s'.clientfd = -1 := by
  have filled : (bytes.take (ctrlBufsiz - s.rbufpos)).length = ctrlBufsiz - s.rbufpos := by
    rw [List.length_take]
    omega
  have given : bytes.take (ctrlBufsiz - s.rbufpos) ≠ [] := by
    intro empty
    rw [empty] at filled
    simp at filled
    omega
  have full : s.rbufpos + (ctrlBufsiz - s.rbufpos) ≥ ctrlBufsiz := by omega
  simp only [controlRead, Int.not_lt.mpr connected, if_false, given, filled, full, if_true]
  exact ⟨_, rfl, rfl⟩

/-- What holds of a call in the loop: it stores inside the arrays, and it is defined unless
    writing the answer is not. -/
def Round (s : ControlSocket) (answers : Answers) : Prop :=
  (∀ store ∈ s.readCheckStores, store.index < 1024) ∧
    (s.controlReadCheck answers = none → ∃ line, (s.taken line).controlParse answers line = none)

/-- From every state that the events of clients lead to: the loop of a read ends after at most
    1023 rounds that find a line, which store inside the arrays, and are undefined only where an
    answer does not fit the write buffer; a read that does not fit closes the client; and the
    buffer of a client that stays has room. -/
theorem control_read_bounded {http : Bool} {garbage : Nat → UInt8} {events : List Event}
    (reached : run step (controlInit http garbage) events = some s) :
    (∀ e s', s.step e = some s' → 0 ≤ s'.clientfd → s'.rbufpos ≤ 1023) ∧
      (∀ now bytes answers, 0 ≤ s.clientfd → ctrlBufsiz ≤ s.rbufpos + bytes.length →
        ∃ s', s.controlRead now (.data bytes) answers = some s' ∧ s'.clientfd = -1) ∧
      ∀ now bytes answers, 0 ≤ s.clientfd → bytes ≠ [] → s.rbufpos + bytes.length < ctrlBufsiz →
        Ends (controlReadCheck · answers) (s.stored now bytes)
            (s.controlRead now (.data bytes) answers) ∧
          ∀ n s₁, Rounds (controlReadCheck · answers) n (s.stored now bytes) s₁ →
            n ≤ 1023 ∧ s₁.Round answers := by
  have roomy := run_roomy reached
  refine ⟨?_, ?_, ?_⟩
  · intro e s' done connected
    have room := (step_outcome roomy done).1.2 connected
    exact Nat.le_of_lt_succ room
  · intro now bytes answers connected overflow
    exact controlRead_overflow connected (roomy.2 connected) overflow
  · intro now bytes answers connected given fits
    constructor
    · rw [controlRead_data connected given fits, readLines_eq_iterate]
      exact ends_iterate controlReadCheck_falls (Nat.lt_succ_self _) fits
    · intro n s₁ rounds
      obtain ⟨small, bounded⟩ := rounds.bounded controlReadCheck_falls fits
      have few : n < ctrlBufsiz := by
        change _ ≤ s.rbufpos + bytes.length at bounded
        omega
      exact ⟨Nat.le_of_lt_succ few, readCheckStores_index (Nat.le_of_lt small),
        controlReadCheck_undefined (Nat.le_of_lt small)⟩

/-- A client whose line ends in a second read, with bytes after it. -/
theorem control_read_two_chunks :
    ∃ s ∈ run step (controlInit false fun _ => 0)
        [.accept 0 (some (7, true)), .read 1 (.data [113, 13]) ⟨[], []⟩],
      s.rbufpos = 2 ∧
        Ends (controlReadCheck · ⟨[], []⟩) (s.stored 2 [0, 10, 4, 65])
          (s.controlRead 2 (.data [0, 10, 4, 65]) ⟨[], []⟩) := by
  obtain ⟨s, reached, connected, waiting⟩ :
      ∃ s ∈ run step (controlInit false fun _ => 0)
        [.accept 0 (some (7, true)), .read 1 (.data [113, 13]) ⟨[], []⟩],
      0 ≤ s.clientfd ∧ s.rbufpos = 2 := by
    decide +kernel
  have fits : s.rbufpos + [0, 10, 4, (65 : UInt8)].length < ctrlBufsiz := by
    rw [waiting]
    decide
  exact ⟨s, reached, waiting,
    ((control_read_bounded reached).2.2 2 [0, 10, 4, 65] ⟨[], []⟩ connected (by decide) fits).1⟩

end Mlvpn.ControlSocket
