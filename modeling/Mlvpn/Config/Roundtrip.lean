import Mlvpn.Config.Lines

/-! # Configuration files that are written and read

A file that is written line by line is read as it was written, as long as no value has
an opening bracket that its next bracket closes: the line of such a value is taken for
the header of a section.
-/

namespace Mlvpn

open Library.Machine

/-- A line of a file that is written. -/
inductive ConfLine where
  | header (name : String)
  | entry (var val : String)
  deriving Repr, DecidableEq

def ConfLine.text : ConfLine → List Char
  | .header name => ['['] ++ name.toList ++ [']']
  | .entry var val => var.toList ++ [' ', '=', ' ', '\x22'] ++ val.toList ++ ['\x22']

/-- The lines, each with its newline. -/
def printed (lines : List ConfLine) : List Char := lines.flatMap fun line => line.text ++ ['\n']

/-- The lines that write a list of entries: the header of a section stands before its
    entries, at least where the section is another one than before. -/
inductive ConfFile.Writes : Option String → ConfFile → List ConfLine → Prop where
  | done {last : Option String} : Writes last [] []
  | header {last : Option String} {e : ConfEntry} {file : ConfFile} {lines : List ConfLine} :
      Writes (some e.sectionName) (e :: file) lines →
        Writes last (e :: file) (.header e.sectionName :: lines)
  | entry {last : Option String} {e : ConfEntry} {file : ConfFile} {lines : List ConfLine} :
      last = some e.sectionName → Writes last file lines →
        Writes last (e :: file) (.entry e.var e.val :: lines)

/-- With a header only where the section is another one. -/
def ConfFile.layout (last : Option String) : ConfFile → List ConfLine
  | [] => []
  | e :: file =>
      if last = some e.sectionName then .entry e.var e.val :: layout last file
      else .header e.sectionName :: .entry e.var e.val :: layout (some e.sectionName) file

/-- Every list can be written. -/
theorem ConfFile.writes_layout (last : Option String) (file : ConfFile) :
    Writes last file (layout last file) := by
  induction file generalizing last with
  | nil => exact .done
  | cons e file ih =>
      rw [layout]
      split
      next same => exact .entry same (ih last)
      next => exact .header (.entry rfl (ih _))

-- searches the list, and not all characters
instance decidableForallMemChars {P : Char → Prop} [DecidablePred P] {l : List Char} : Decidable (∀ c ∈ l, P c) :=
  List.decidableBAll P l

/-- A word of letters, digits and the two marks. -/
def IsWord (word : String) : Prop :=
  word ≠ "" ∧ ∀ c ∈ word.toList,
    ('a' ≤ c ∧ c ≤ 'z') ∨ ('A' ≤ c ∧ c ≤ 'Z') ∨ ('0' ≤ c ∧ c ≤ '9') ∨ c = '_' ∨ c = '-'

instance : DecidablePred IsWord := fun _ => inferInstanceAs (Decidable (_ ∧ ∀ c ∈ _, _))

/-- Printable characters without a quote, and not with a space at an end. -/
@[mk_iff]
structure IsValue (val : String) : Prop where
  given : val ≠ ""
  printable : ∀ c ∈ val.toList, 32 ≤ c.toNat ∧ c.toNat ≤ 126 ∧ c ≠ '\x22'
  first : val.toList.head? ≠ some ' '
  last : val.toList.getLast? ≠ some ' '

instance : DecidablePred IsValue := fun val => decidable_of_iff _ (isValue_iff val).symm

/-- An entry that can be written. -/
@[mk_iff]
structure ConfEntry.Printable (e : ConfEntry) : Prop where
  sectionName : IsWord e.sectionName
  var : IsWord e.var
  val : IsValue e.val

instance : DecidablePred ConfEntry.Printable := fun e =>
  decidable_of_iff _ (ConfEntry.printable_iff e).symm

/-- The lines of such entries. -/
def ConfLine.Printable : ConfLine → Prop
  | .header name => IsWord name
  | .entry var val => IsWord var ∧ IsValue val

/-- The codes of the characters of a word. -/
theorem IsWord.codes {word : String} (isWord : IsWord word) {c : Char} (member : c ∈ word.toList) :
    45 ≤ c.toNat ∧ c.toNat ≤ 122 ∧ c.toNat ≠ 61 ∧ c.toNat ≠ 91 ∧ c.toNat ≠ 93 := by
  have word := isWord.2 c member
  simp only [Char.le_def, UInt32.le_iff_toNat_le, Char.toNat_val, Char.reduceToNat] at word
  rcases word with lower | upper | digit | rfl | rfl
  · omega
  · omega
  · omega
  · decide
  · decide

theorem IsWord.wordChar {word : String} (isWord : IsWord word) :
    ∀ c ∈ word.toList, LineParser.IsWordChar c := by
  intro c member
  have codes := isWord.codes member
  refine ⟨decide_eq_true (by omega), ne_of_code ?_, ne_of_code ?_, ne_of_code ?_⟩ <;>
    simp only [Char.reduceToNat] <;> omega

theorem IsWord.not_bracket {word : String} (isWord : IsWord word) :
    ∀ c ∈ word.toList, ¬ IsBracket c := by
  intro c member bracket
  have codes := isWord.codes member
  rcases bracket with rfl | rfl
  · exact codes.2.2.2.1 rfl
  · exact codes.2.2.2.2 rfl

/-- A word neither opens a quote nor a comment. -/
theorem IsWord.kept {word : String} (isWord : IsWord word) :
    ∀ c ∈ word.toList, c ≠ '\x22' ∧ c ≠ '#' := by
  intro c member
  have codes := isWord.codes member
  refine ⟨(isWord.wordChar c member).2.1, ?_⟩
  rintro rfl
  simp only [Char.reduceToNat] at codes
  omega

theorem ConfLine.text_code {line : ConfLine} (printable : line.Printable) :
    ∀ c ∈ line.text, 32 ≤ c.toNat := by
  intro c member
  cases line with
  | header name =>
      simp only [text, List.mem_append, List.mem_singleton] at member
      rcases member with (rfl | inside) | rfl
      · decide
      · have codes := IsWord.codes printable inside
        omega
      · decide
  | entry var val =>
      obtain ⟨word, value⟩ := printable
      simp only [text, List.mem_append, List.mem_cons, List.not_mem_nil, or_false] at member
      rcases member with ((inside | rfl | rfl | rfl | rfl) | inside) | rfl
      · have codes := word.codes inside
        omega
      · decide
      · decide
      · decide
      · decide
      · exact (value.printable c inside).1
      · decide

theorem stripFrom_text {line : ConfLine} (printable : line.Printable) :
    stripFrom false line.text = line.text := by
  cases line with
  | header name =>
      have opening : ∀ rest, stripFrom false (['['] ++ rest) = ['['] ++ stripFrom false rest := fun _ => rfl
      have name : ∀ c ∈ name.toList, c ≠ '\x22' ∧ (c = '#' → false = true) :=
        fun c member => ⟨(printable.kept c member).1, fun hash => absurd hash (printable.kept c member).2⟩
      rw [ConfLine.text, List.append_assoc, opening, stripFrom_append name]
      rfl
  | entry var val =>
      obtain ⟨word, value⟩ := printable
      exact stripFrom_quoted word.kept fun c member => (value.printable c member).2.2

theorem stripComment_text {line : ConfLine} (printable : line.Printable) :
    stripComment line.text = some line.text := by
  have given : line.text ≠ [] := by cases line <;> simp [ConfLine.text]
  rw [stripComment, stripFrom_text printable, if_neg given]

theorem getSection_header {name : String} (isWord : IsWord name) :
    getSection (ConfLine.header name).text = .ok (some name.toList) := by
  have named := sectionFrom_append isWord.not_bracket (some []) [']']
  rw [Option.map_some, List.nil_append] at named
  exact named

/-- The line of an entry is taken for a header if its value looks like one. -/
theorem bracketed_entry {var val : String} (isWord : IsWord var) :
    Bracketed (ConfLine.entry var val).text ↔ Bracketed val.toList := by
  have none : var.toList.filter IsBracket = [] := by
    rw [List.filter_eq_nil_iff]
    intro c member
    simpa using isWord.not_bracket c member
  have equals : [' ', '=', ' ', '\x22'].filter IsBracket = [] := rfl
  have closing : ['\x22'].filter IsBracket = [] := rfl
  rw [Bracketed, ConfLine.text, List.filter_append, List.filter_append, List.filter_append, none, equals,
    closing, List.nil_append, List.nil_append, List.append_nil, Bracketed]

theorem parseLine_entry {var val : String} (isWord : IsWord var) (isValue : IsValue val) :
    parseLine (ConfLine.entry var val).text = .ok (some (var.toList, val.toList)) := by
  have inside : ∀ c ∈ val.toList, isascii c = true ∧ c ≠ '\x22' := by
    intro c member
    have codes := isValue.printable c member
    exact ⟨decide_eq_true (by omega), codes.2.2⟩
  have named : var.toList ≠ [] := by simpa using isWord.1
  have given : val.toList ≠ [] := by simpa using isValue.given
  exact parseLine_quoted isWord.wordChar named inside given isValue.first isValue.last

/-- A value in quotes is kept, whatever else stands in it. -/
theorem quoted_value_survives {name value : String} (named : name ≠ "")
    (word : ∀ c ∈ name.toList, isascii c = true ∧ c ∉ ['\x00', ' ', '\x22', '=', '#']) (given : value ≠ "")
    (inside : ∀ c ∈ value.toList, isascii c = true ∧ c ∉ ['\x00', '\r', '\n', '\x22'])
    (first : value.toList.head? ≠ some ' ') (last : value.toList.getLast? ≠ some ' ') :
    (stripComment (ConfLine.entry name value).text).map (fun line => parseLine (cString line)) =
      some (.ok (some (name.toList, value.toList))) := by
  simp only [List.mem_cons, List.not_mem_nil, or_false, not_or] at word inside
  have kept : stripComment (ConfLine.entry name value).text = some (ConfLine.entry name value).text := by
    have same := stripFrom_quoted (fun c member => ⟨(word c member).2.2.2.1, (word c member).2.2.2.2.2⟩)
      fun c member => (inside c member).2.2.2.2
    rw [stripComment, ConfLine.text, same]
    exact if_neg (by simp)
  -- neither part has the byte that would end the string
  have whole : cString (ConfLine.entry name value).text = (ConfLine.entry name value).text := by
    apply cString_eq_self
    simp only [ConfLine.text, List.mem_append, List.mem_cons, List.not_mem_nil, or_false]
    rintro (((zero | zero) | zero) | zero)
    · exact (word _ zero).2.1 rfl
    · revert zero
      decide
    · exact (inside _ zero).2.1 rfl
    · revert zero
      decide
  rw [kept, Option.map_some, whole]
  congr 1
  apply parseLine_quoted
  · intro c member
    obtain ⟨ascii, _, space, quote, equals, _⟩ := word c member
    exact ⟨ascii, quote, equals, space⟩
  · simpa using named
  · intro c member
    exact ⟨(inside c member).1, (inside c member).2.2.2.2⟩
  · simpa using given
  · exact first
  · exact last

theorem quoted_value_survives_marks :
    (stripComment "password = \"#1 [a]  = b\"".toList).map (fun line => parseLine (cString line)) =
      some (.ok (some ("password".toList, "#1 [a]  = b".toList))) :=
  @quoted_value_survives "password" "#1 [a]  = b" (by decide) (by decide) (by decide) (by decide) (by decide)
    (by decide)

namespace ConfParser

variable {s s' : ConfParser}

/-- A line is taken for a header, or for a setting with a report at most. -/
theorem readLine_cases (line : ConfLine) (printable : line.Printable) (given : s.buf = line.text) :
    (∃ name, getSection line.text = .ok (some name) ∧ s.readLine = { s with name := some name }) ∨
      ¬ Bracketed line.text ∧ ∃ log, s.readLine = setting { s with log := log } line.text := by
  unfold readLine
  rw [given, stripComment_text printable]
  simp only [Nat.sub_self, List.replicate_zero, List.append_nil]
  rw [← getSection_iff]
  cases found : getSection line.text with
  | error error =>
      refine .inr ⟨?_, s.log ++ [error.message s.linenum], by rw [← given]; rfl⟩
      rintro ⟨name, other⟩
      cases other
  | ok name? =>
      cases name? with
      | none =>
          refine .inr ⟨?_, s.log, by rw [← given]⟩
          rintro ⟨name, other⟩
          cases other
      | some name => exact .inl ⟨name, rfl, by rw [← given]⟩

/-- The header of a section opens it. -/
theorem endLine_header {name : String} (isWord : IsWord name)
    (given : s.buf = (ConfLine.header name).text) :
    s.endLine = { s with linenum := s.linenum + 1, buf := [], name := some name.toList } := by
  have header := getSection_header isWord
  rcases readLine_cases (s := { s with linenum := s.linenum + 1 }) (.header name) isWord given with
    ⟨found, same, read⟩ | ⟨other, _⟩
  · rw [header, Except.ok.injEq, Option.some.injEq] at same
    rw [endLine, read, ← same]
  · exact absurd (getSection_iff.mp ⟨_, header⟩) other

/-- An entry is set in the section that is open, unless it is taken for a header. -/
theorem endLine_entry {var val name : String} (isWord : IsWord var) (isValue : IsValue val)
    (given : s.buf = (ConfLine.entry var val).text) (opened : s.name = some name.toList)
    (isName : IsWord name) (plain : ¬ Bracketed val.toList) :
    s.endLine.name = s.name ∧ s.endLine.config = s.config ++ [⟨name, var, val⟩] := by
  have printable : (ConfLine.entry var val).Printable := ⟨isWord, isValue⟩
  have whole : cString (ConfLine.entry var val).text = (ConfLine.entry var val).text :=
    cString_of_code (ConfLine.text_code printable)
  have inName : cString name.toList = name.toList := by
    apply cString_of_code
    intro c member
    have codes := isName.codes member
    omega
  rcases readLine_cases (s := { s with linenum := s.linenum + 1 }) _ printable given with
    ⟨found, same, _⟩ | ⟨_, log, read⟩
  · exact absurd ((bracketed_entry isWord).mp (getSection_iff.mp ⟨found, same⟩)) plain
  · rw [endLine, read, setting, whole, parseLine_entry isWord isValue]
    simp only [opened, ConfFile.setValue, inName, String.ofList_toList, and_self]

/-- The line of an entry sets one value at most, and none if it is taken for a header. -/
theorem endLine_length {var val : String} (isWord : IsWord var) (isValue : IsValue val)
    (given : s.buf = (ConfLine.entry var val).text) :
    s.endLine.config.length ≤ s.config.length + 1 ∧
      (Bracketed val.toList → s.endLine.config.length = s.config.length) := by
  have printable : (ConfLine.entry var val).Printable := ⟨isWord, isValue⟩
  rcases readLine_cases (s := { s with linenum := s.linenum + 1 }) _ printable given with
    ⟨found, _, read⟩ | ⟨plain, log, read⟩
  · rw [endLine, read]
    exact ⟨Nat.le_succ _, fun _ => rfl⟩
  · rw [endLine, read]
    refine ⟨(setting_cases _).2.2, fun taken => ?_⟩
    exact absurd ((bracketed_entry isWord).mpr taken) plain

theorem run_text (line : ConfLine) (printable : line.Printable) (ready : s.Ready)
    (fits : line.text.length ≤ lineMax) :
    ∃ bufsize, run readChar s (line.text ++ ['\n']) =
        some (endLine { s with bufsize := bufsize, buf := line.text }) ∧
      (endLine { s with bufsize := bufsize, buf := line.text }).Ready := by
  have short : s.buf.length + line.text.length ≤ lineMax := by
    rwa [ready.empty, List.length_nil, Nat.zero_add]
  obtain ⟨bufsize, blocks, room, most, read⟩ :=
    (run_line ready.toSpacious (ConfLine.text_code printable)).1 short
  rw [ready.empty, List.nil_append] at read
  exact ⟨bufsize, read, endLine_ready blocks room most⟩

/-- Only lines that are not too long are read. -/
theorem run_text_eq_some (line : ConfLine) (printable : line.Printable) (ready : s.Ready)
    (read : run readChar s (line.text ++ ['\n']) = some s') :
    line.text.length ≤ lineMax ∧
      ∃ bufsize, s' = endLine { s with bufsize := bufsize, buf := line.text } ∧ s'.Ready := by
  have fits : line.text.length ≤ lineMax := by
    by_contra long
    have overflows := (run_line ready.toSpacious (ConfLine.text_code printable)).2
    rw [ready.empty, List.length_nil, Nat.zero_add] at overflows
    rw [overflows (Nat.lt_of_not_le long)] at read
    cases read
  obtain ⟨bufsize, ends, next⟩ := run_text line printable ready fits
  rw [read, Option.some.injEq] at ends
  exact ⟨fits, bufsize, ends, ends ▸ next⟩

end ConfParser

/-- The value of a line. -/
def ConfLine.value? : ConfLine → Option String
  | .header _ => none
  | .entry _ val => some val

/-- A line can be read, and is not taken for a header because of its value. -/
def ConfLine.Survives (line : ConfLine) : Prop :=
  line.text.length ≤ ConfParser.lineMax ∧ ∀ val ∈ line.value?, ¬ Bracketed val.toList

instance : DecidablePred ConfLine.Survives := fun line =>
  inferInstanceAs (Decidable (line.text.length ≤ _ ∧ ∀ val ∈ line.value?, _))

section Runs

open ConfParser

variable {s s' : ConfParser} {last : Option String} {file : ConfFile} {lines : List ConfLine}

theorem printed_cons (line : ConfLine) (lines : List ConfLine) :
    printed (line :: lines) = line.text ++ ['\n'] ++ printed lines := List.flatMap_cons

/-- Lines that survive are read as they were written. -/
theorem ConfFile.Writes.config_eq (writes : ConfFile.Writes last file lines) (printable : ∀ e ∈ file, e.Printable)
    (ready : s.Ready) (opened : ∀ name ∈ last, s.name = some name.toList)
    (survive : ∀ line ∈ lines, line.Survives) :
    ∃ s', run readChar s (printed lines) = some s' ∧ s'.config = s.config ++ file := by
  induction writes generalizing s with
  | done => exact ⟨s, rfl, (List.append_nil _).symm⟩
  | @header last e file lines later ih =>
      obtain ⟨first, rest⟩ := List.forall_mem_cons.mp survive
      have named : IsWord e.sectionName := (printable e List.mem_cons_self).sectionName
      obtain ⟨bufsize, read, next⟩ := run_text (.header e.sectionName) named ready first.1
      have header := endLine_header
        (s := { s with bufsize := bufsize, buf := (ConfLine.header e.sectionName).text }) named rfl
      rw [header] at read next
      obtain ⟨s', reads, config⟩ := ih printable next (fun name same => by cases same; rfl) rest
      refine ⟨s', ?_, config⟩
      rw [printed_cons, run_append_eq_some]
      exact ⟨_, read, reads⟩
  | @entry last e file lines same later ih =>
      obtain ⟨first, rest⟩ := List.forall_mem_cons.mp survive
      obtain ⟨fine, others⟩ := List.forall_mem_cons.mp printable
      obtain ⟨bufsize, read, next⟩ := run_text (.entry e.var e.val) ⟨fine.var, fine.val⟩ ready first.1
      obtain ⟨name, config⟩ := endLine_entry
        (s := { s with bufsize := bufsize, buf := (ConfLine.entry e.var e.val).text })
        fine.var fine.val rfl (opened _ same) fine.sectionName (first.2 _ rfl)
      obtain ⟨s', reads, all⟩ := ih others next (fun other same => by rw [name]; exact opened other same) rest
      refine ⟨s', ?_, ?_⟩
      · rw [printed_cons, run_append_eq_some]
        exact ⟨_, read, reads⟩
      · rw [all, config, List.append_assoc]
        rfl

/-- No more than what was written is read, and all of it only if every line survives. -/
theorem ConfFile.Writes.survive (writes : ConfFile.Writes last file lines) (printable : ∀ e ∈ file, e.Printable)
    (ready : s.Ready) (reads : run readChar s (printed lines) = some s') :
    s'.config.length ≤ s.config.length + file.length ∧
      (s'.config.length = s.config.length + file.length → ∀ line ∈ lines, line.Survives) := by
  induction writes generalizing s with
  | done =>
      cases reads
      exact ⟨le_refl _, fun _ line none => by cases none⟩
  | @header last e file lines later ih =>
      have named : IsWord e.sectionName := (printable e List.mem_cons_self).sectionName
      rw [printed_cons, run_append_eq_some] at reads
      obtain ⟨s₁, read, rest⟩ := reads
      obtain ⟨fits, bufsize, ends, next⟩ := run_text_eq_some (.header e.sectionName) named ready read
      have config : s₁.config = s.config := by rw [ends, endLine_header named rfl]
      obtain ⟨most, all⟩ := ih printable next rest
      rw [config] at most all
      refine ⟨most, fun same => List.forall_mem_cons.mpr ⟨⟨fits, ?_⟩, all same⟩⟩
      intro val none
      cases none
  | @entry last e file lines same later ih =>
      obtain ⟨fine, others⟩ := List.forall_mem_cons.mp printable
      rw [printed_cons, run_append_eq_some] at reads
      obtain ⟨s₁, read, rest⟩ := reads
      obtain ⟨fits, bufsize, ends, next⟩ :=
        run_text_eq_some (.entry e.var e.val) ⟨fine.var, fine.val⟩ ready read
      obtain ⟨most, taken⟩ := endLine_length
        (s := { s with bufsize := bufsize, buf := (ConfLine.entry e.var e.val).text })
        fine.var fine.val rfl
      rw [← ends] at most taken
      dsimp only at most taken
      obtain ⟨later, all⟩ := ih others next rest
      rw [List.length_cons]
      refine ⟨by omega, fun same => List.forall_mem_cons.mpr ⟨⟨fits, ?_⟩, all (by omega)⟩⟩
      rintro val ⟨⟩ bracketed
      have fewer := taken bracketed
      omega

/-- The list of a file that is written and read is the list it was written from if and
    only if no line is too long and no value has an opening bracket that its next
    bracket closes. -/
theorem config_roundtrip_iff (writes : ConfFile.Writes none file lines) (printable : ∀ e ∈ file, e.Printable) :
    (parseConfig (printed lines) false).bind Prod.fst = some file ↔
      ∀ line ∈ lines, line.Survives := by
  have ready : ConfParser.init.Ready := ⟨⟨⟨4, rfl⟩, by decide, by decide⟩, rfl⟩
  have parsed : ∀ s', run readChar .init (printed lines) = some s' →
      (parseConfig (printed lines) false).bind Prod.fst = some s'.config := by
    intro s' read
    simp only [parseConfig, read, Option.map_some, Bool.false_eq_true, if_false, Option.bind_some]
  constructor
  · intro same
    cases read : run readChar .init (printed lines) with
    | none =>
        simp only [parseConfig, read, Option.map_none, Option.bind_none] at same
        cases same
    | some s' =>
        rw [parsed s' read, Option.some.injEq] at same
        apply (writes.survive printable ready read).2
        rw [same]
        exact (Nat.zero_add _).symm
  · intro survive
    obtain ⟨s', read, config⟩ := writes.config_eq printable ready (fun _ none => by cases none) survive
    rw [parsed s' read, config]
    rfl

/-- Two sections, the first of them twice. -/
def sampleFile : ConfFile :=
  [⟨"general", "password", "pass=word #1  [x"⟩, ⟨"adsl", "bindhost", "10.0.0.1"⟩,
    ⟨"adsl", "bindport", "5080"⟩, ⟨"general", "ip4", "]10/8["⟩]

theorem config_roundtrip_sample :
    (parseConfig (printed (ConfFile.layout none sampleFile)) false).bind Prod.fst = some sampleFile :=
  (config_roundtrip_iff (ConfFile.writes_layout none sampleFile) (by decide +kernel)).mpr (by decide +kernel)

/-- An address in brackets opens a section: the entry is lost, and the ones after it are in
    that section. -/
theorem config_roundtrip_lost :
    (parseConfig
        (printed (ConfFile.layout none [⟨"adsl", "bindhost", "[::1]"⟩, ⟨"adsl", "bindport", "5080"⟩]))
        false).bind Prod.fst =
      some [⟨"::1", "bindport", "5080"⟩] := by
  decide +kernel

end Runs

end Mlvpn
