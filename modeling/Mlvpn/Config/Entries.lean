import Mlvpn.Config.Lines

/-! # The entries of a configuration file

What `_conf_parseConfig` makes of a file, without the size of its buffer and the reports: each
terminated line opens a section, or sets a variable of the section that is open, or does
nothing.  The parser refines this as long as no line is too long for its buffer.

A line counts once its newline has been read, so the last line of a file may be lost.
-/

namespace Mlvpn

open Library.Machine ConfParser

/-- The section that a line opens. -/
def headerOf (line : List Char) : Option (List Char) := (getSection (stripFrom false line)).toOption.join

/-- The variable and the value of a line that opens no section. -/
def settingOf (line : List Char) : Option (List Char × List Char) :=
  if (headerOf line).isSome then none else (parseLine (cString (stripFrom false line))).toOption.join

/-- What follows the brackets of a line has no part in its header. -/
theorem header_append {l rest : List Char} (other : ∀ c ∈ rest, ¬ IsBracket c) (name : Option (List Char)) :
    (sectionFrom name (l ++ rest)).toOption.join = (sectionFrom name l).toOption.join := by
  induction l generalizing name with
  | nil =>
      have none : ∀ name : Option (List Char), (sectionFrom name []).toOption.join = none := by
        intro name
        cases name <;> rfl
      have all := sectionFrom_append other name []
      rw [List.append_nil] at all
      rw [List.nil_append, all, none, none]
  | cons c l ih =>
      by_cases opens : c = '['
      · cases name <;> simp [sectionFrom, opens, ih]
      · by_cases closes : c = ']'
        · cases name <;> simp [sectionFrom, closes]
        · have plain : ¬ IsBracket c := not_or.mpr ⟨opens, closes⟩
          rw [List.cons_append, sectionFrom_cons plain, sectionFrom_cons plain, ih]

/-- A file that has been read so far: the line that is not terminated yet, the section that is
    open, and the entries. -/
structure Reading where
  buf : List Char
  name : Option (List Char)
  config : ConfFile

namespace Reading

def init : Reading := ⟨[], none, []⟩

def endLine (r : Reading) : Reading :=
  { buf := []
    name := (headerOf r.buf).or r.name
    config := (r.name.bind fun name => (settingOf r.buf).map (r.config.setValue name)).getD r.config }

def readChar (r : Reading) (c : Char) : Reading :=
  if c = '\r' then r
  else if c = '\n' then r.endLine
  else { r with buf := r.buf ++ [c] }

/-- The rest of a file. -/
def read (r : Reading) (content : List Char) : Reading := content.foldl readChar r

/-- No line becomes too long before the next character is read. -/
def Fits : Reading → List Char → Prop
  | _, [] => True
  | r, c :: rest => r.buf.length ≤ lineMax ∧ (r.readChar c).Fits rest

variable {r : Reading}

theorem read_append (first second : List Char) : r.read (first ++ second) = (r.read first).read second :=
  List.foldl_append

theorem fits_append {first second : List Char} :
    r.Fits (first ++ second) ↔ r.Fits first ∧ (r.read first).Fits second := by
  induction first generalizing r with
  | nil => simp [Fits, read]
  | cons c first ih => simp [Fits, read, ih, and_assoc]

/-- A character other than a newline is added to the line, unless it is a carriage return. -/
theorem readChar_inside {c : Char} (inside : c ≠ '\n') :
    r.readChar c = { r with buf := r.buf ++ [c].filter (· ≠ '\r') } := by
  by_cases ignored : c = '\r' <;> simp [readChar, inside, ignored]

theorem read_line {line : List Char} (inside : '\n' ∉ line) :
    r.read line = { r with buf := r.buf ++ line.filter (· ≠ '\r') } := by
  induction line generalizing r with
  | nil => simp [read]
  | cons c line ih =>
      obtain ⟨first, later⟩ := not_or.mp (mt List.mem_cons.mpr inside)
      calc
        r.read (c :: line) = (r.readChar c).read line := rfl
        _ = { r with buf := r.buf ++ [c].filter (· ≠ '\r') ++ line.filter (· ≠ '\r') } := by
          rw [ih later, readChar_inside (Ne.symm first)]
        _ = { r with buf := r.buf ++ (c :: line).filter (· ≠ '\r') } := by
          rw [List.append_assoc, ← List.filter_append, List.singleton_append]

/-- A line can be read if it is not too long with what is there of it. -/
theorem fits_line {line : List Char} (inside : '\n' ∉ line) :
    r.Fits (line ++ ['\n']) ↔ r.buf.length + (line.filter (· ≠ '\r')).length ≤ lineMax := by
  induction line generalizing r with
  | nil => simp [Fits]
  | cons c line ih =>
      obtain ⟨first, later⟩ := not_or.mp (mt List.mem_cons.mpr inside)
      have length : (r.readChar c).buf.length + (line.filter (· ≠ '\r')).length =
          r.buf.length + ((c :: line).filter (· ≠ '\r')).length := by
        rw [readChar_inside (Ne.symm first), List.length_append, Nat.add_assoc, ← List.length_append,
          ← List.filter_append, List.singleton_append]
      rw [List.cons_append, Fits, ih later, length]
      omega

/-- Where a line begins. -/
theorem buf_of_begins {before : List Char} (begins : before = [] ∨ ∃ earlier, before = earlier ++ ['\n']) :
    (init.read before).buf = [] := by
  rcases begins with rfl | ⟨earlier, rfl⟩
  · rfl
  · rw [read_append]
    rfl

/-- A whole line. -/
theorem read_terminated {line : List Char} (begins : r.buf = []) (inside : '\n' ∉ line) :
    r.read (line ++ ['\n']) = endLine { r with buf := line.filter (· ≠ '\r') } := by
  rw [read_append, read_line inside, begins, List.nil_append]
  rfl

/-- The end of a line adds an entry, or it has no setting or stands in no section. -/
theorem endLine_config_iff : r.endLine.config = r.config ↔ r.name = none ∨ settingOf r.buf = none := by
  cases named : r.name with
  | none => simp [endLine, named]
  | some name => cases set : settingOf r.buf <;> simp [endLine, named, set, ConfFile.setValue]

theorem settingOf_value_ne_nil {line var val : List Char} (set : settingOf line = some (var, val)) :
    val ≠ [] := by
  unfold settingOf at set
  split at set
  next => cases set
  next =>
    cases parsed : parseLine (cString (stripFrom false line)) with
    | error error => simp [parsed, Except.toOption] at set
    | ok obj =>
        simp only [parsed, Except.toOption, Option.join_some] at set
        exact parseLine_value_ne_nil (set ▸ parsed)

/-- Every entry of a file has a value. -/
theorem read_values (content : List Char) (given : ∀ entry ∈ r.config, entry.val ≠ "") :
    ∀ entry ∈ (r.read content).config, entry.val ≠ "" := by
  refine List.foldlRecOn (motive := fun r => ∀ entry ∈ r.config, entry.val ≠ "") content readChar given ?_
  intro r given c _
  unfold readChar
  split
  next => exact given
  next =>
    split
    next =>
      unfold endLine
      cases named : r.name with
      | none => simpa [named] using given
      | some name =>
          cases set : settingOf r.buf with
          | none => simpa [set] using given
          | some obj =>
              have value : obj.2 ≠ [] := settingOf_value_ne_nil set
              intro entry member
              simp only [ConfFile.setValue, Option.bind_some, Option.map_some, Option.getD_some,
                List.mem_append, List.mem_singleton] at member
              rcases member with old | rfl
              · exact given entry old
              · simpa using value
    next => exact given

end Reading

namespace ConfParser

variable {s s' : ConfParser} {c : Char}

/-- What is read, whatever the size of the buffer. -/
def reading (s : ConfParser) : Reading := ⟨s.buf, s.name, s.config⟩

theorem stripComment_getD (line : List Char) : (stripComment line).getD [] = stripFrom false line := by
  unfold stripComment
  split
  next empty => exact empty.symm
  next => rfl

theorem setting_reading (line : List Char) :
    (s.setting line).reading =
      { s.reading with
        config := (s.name.bind fun name =>
          (parseLine (cString line)).toOption.join.map (s.config.setValue name)).getD s.config } := by
  unfold setting
  cases found : parseLine (cString line) with
  | error error => simp [warn, reading, Except.toOption]
  | ok obj? =>
      cases obj? with
      | none => simp [reading, Except.toOption]
      | some obj => cases named : s.name <;> simp [warn, reading, named, Except.toOption]

theorem headerOf_of_stripped_none {text : List Char} (stripped : stripComment text = none) :
    headerOf text = none := by
  rw [headerOf, ← stripComment_getD, stripped]
  rfl

theorem settingOf_of_stripped_none {text : List Char} (stripped : stripComment text = none) :
    settingOf text = none := by
  rw [settingOf, headerOf_of_stripped_none stripped, ← stripComment_getD, stripped]
  rfl

/-- The zeros where the comment was are no part of a header. -/
theorem headerOf_of_stripped {text line : List Char} (stripped : stripComment text = some line) (zeros : Nat) :
    headerOf text = (getSection (line ++ List.replicate zeros '\x00')).toOption.join := by
  rw [headerOf, ← stripComment_getD, stripped, Option.getD_some]
  refine (header_append ?_ none).symm
  intro c member
  rw [List.eq_of_mem_replicate member]
  decide

theorem settingOf_of_stripped {text line : List Char} (stripped : stripComment text = some line)
    (plain : headerOf text = none) : settingOf text = (parseLine (cString line)).toOption.join := by
  simp [settingOf, plain, ← stripComment_getD, stripped]

theorem readLine_reading :
    s.readLine.reading =
      { s.reading with
        name := (headerOf s.buf).or s.name
        config := (s.name.bind fun name =>
          (settingOf s.buf).map (s.config.setValue name)).getD s.config } := by
  unfold readLine
  cases stripped : stripComment s.buf with
  | none => simp [reading, headerOf_of_stripped_none stripped, settingOf_of_stripped_none stripped]
  | some line =>
      have header := headerOf_of_stripped stripped (s.buf.length - line.length)
      have setting := settingOf_of_stripped stripped
      dsimp only
      split
      next name found =>
        rw [found] at header
        simp [reading, settingOf, header, Except.toOption]
      next found =>
        rw [found] at header
        rw [setting_reading, header, setting header]
        rfl
      next error found =>
        rw [found] at header
        rw [setting_reading, header, setting header]
        rfl

theorem endLine_reading : s.endLine.reading = s.reading.endLine := by
  have line : ({ s with linenum := s.linenum + 1 } : ConfParser).readLine.reading = _ := readLine_reading
  simp only [reading, Reading.mk.injEq] at line
  simp [endLine, reading, Reading.endLine, line.2.1, line.2.2]

/-- A step of the parser is one of the reading, and there is one unless the line is too long. -/
theorem readChar_reading (spacious : s.Spacious) (c : Char) :
    (s.buf.length ≤ lineMax → ∃ s', s.readChar c = some s' ∧ s'.Spacious ∧
        s'.reading = s.reading.readChar c) ∧
      (lineMax < s.buf.length → s.readChar c = none) := by
  constructor
  · intro fits
    obtain ⟨bufsize, reserved, blocks, room, most⟩ := reserve_fits spacious fits
    rw [readChar, reserved, Option.map_some]
    refine ⟨_, rfl, ?_, ?_⟩
    · split_ifs
      · exact ⟨blocks, by dsimp only; omega, most⟩
      · exact (endLine_ready (l := s.buf) blocks (by omega) most).toSpacious
      · refine ⟨blocks, ?_, most⟩
        simp only [List.length_append, List.length_singleton]
        omega
    · unfold Reading.readChar
      split_ifs
      · rfl
      · exact endLine_reading
      · rfl
  · intro long
    rw [readChar, reserve_overflows spacious long, Option.map_none]

/-- The parser reads as far as the lines fit. -/
theorem run_reading (content : List Char) (spacious : s.Spacious) :
    (s.reading.Fits content → ∃ s', run readChar s content = some s' ∧
        s'.reading = s.reading.read content) ∧
      (¬ s.reading.Fits content → run readChar s content = none) := by
  induction content generalizing s with
  | nil => exact ⟨fun _ => ⟨s, rfl, rfl⟩, fun long => absurd trivial long⟩
  | cons c rest ih =>
      obtain ⟨reads, overflows⟩ := readChar_reading spacious c
      by_cases fits : s.buf.length ≤ lineMax
      · obtain ⟨s₁, first, spacious₁, same⟩ := reads fits
        obtain ⟨later, stops⟩ := ih spacious₁
        rw [run, first, Option.bind_some]
        rw [same] at later stops
        exact ⟨fun all => later all.2, fun long => stops fun all => long ⟨fits, all⟩⟩
      · rw [run, overflows (Nat.lt_of_not_le fits)]
        exact ⟨fun all => absurd all.1 fits, fun _ => rfl⟩

theorem spacious_init : ConfParser.init.Spacious := ⟨⟨4, rfl⟩, by decide, by decide⟩

end ConfParser

/-- The list that `_conf_parseConfig` returns. -/
def entries (content : List Char) : Option ConfFile := (parseConfig content false).bind Prod.fst

theorem entries_of_fits {content : List Char} (fits : Reading.init.Fits content) :
    entries content = some (Reading.init.read content).config := by
  obtain ⟨s, reached, same⟩ := (run_reading content spacious_init).1 fits
  rw [entries, parseConfig, reached]
  exact congrArg (some ∘ Reading.config) same

theorem entries_of_not_fits {content : List Char} (long : ¬ Reading.init.Fits content) :
    entries content = none := by
  rw [entries, parseConfig, (run_reading content spacious_init).2 long]
  rfl

theorem entries_values {content : List Char} {file : ConfFile} (parsed : entries content = some file) :
    ∀ entry ∈ file, entry.val ≠ "" := by
  have fits : Reading.init.Fits content := by
    by_contra long
    rw [entries_of_not_fits long] at parsed
    cases parsed
  rw [entries_of_fits fits] at parsed
  cases parsed
  exact Reading.read_values content nofun

/-- A part of a file is replaced by one that is read to the same state, but may not fit where the
    other does. -/
theorem entries_replace_iff {before one other after : List Char}
    (same : (Reading.init.read before).read other = (Reading.init.read before).read one)
    (shorter : (Reading.init.read before).Fits other → (Reading.init.read before).Fits one) :
    entries (before ++ one ++ after) = entries (before ++ other ++ after) ↔
      (Reading.init.Fits (before ++ one ++ after) → (Reading.init.read before).Fits other) := by
  have reads : Reading.init.read (before ++ other ++ after) = Reading.init.read (before ++ one ++ after) := by
    simp only [Reading.read_append, same]
  have split : ∀ part, Reading.init.Fits (before ++ part ++ after) ↔
      (Reading.init.Fits before ∧ (Reading.init.read before).Fits part) ∧
        ((Reading.init.read before).read part).Fits after := by
    intro part
    rw [Reading.fits_append, Reading.fits_append, Reading.read_append]
  by_cases fits : Reading.init.Fits (before ++ one ++ after)
  · obtain ⟨⟨start, _⟩, rest⟩ := (split one).mp fits
    by_cases short : (Reading.init.read before).Fits other
    · have all : Reading.init.Fits (before ++ other ++ after) := (split other).mpr ⟨⟨start, short⟩, same ▸ rest⟩
      rw [entries_of_fits fits, entries_of_fits all, reads]
      simp only [short, implies_true]
    · have long : ¬ Reading.init.Fits (before ++ other ++ after) := fun all => short ((split other).mp all).1.2
      rw [entries_of_fits fits, entries_of_not_fits long]
      simp only [fits, short, reduceCtorEq, imp_false, not_true_eq_false]
  · have long : ¬ Reading.init.Fits (before ++ other ++ after) := by
      intro all
      obtain ⟨⟨start, here⟩, rest⟩ := (split other).mp all
      exact fits ((split one).mpr ⟨⟨start, shorter here⟩, same ▸ rest⟩)
    rw [entries_of_not_fits fits, entries_of_not_fits long]
    simp only [fits, false_implies]

/-- The line at the end of a file that has no newline. -/
def lastLine (content : List Char) : List Char := (content.rtakeWhile (· ≠ '\n')).filter (· ≠ '\r')

theorem buf_read (content : List Char) : (Reading.init.read content).buf = lastLine content := by
  induction content using List.reverseRecOn with
  | nil => rfl
  | append_singleton content c ih =>
      rw [Reading.read_append, lastLine, List.rtakeWhile_concat]
      by_cases newline : c = '\n'
      · rw [newline]
        rfl
      · rw [if_pos (by simpa using newline), List.filter_append]
        change (Reading.readChar _ c).buf = _
        rw [Reading.readChar_inside newline, ih]
        rfl

/-- The last line of a file counts if it ends with a newline, or sets nothing: the entries of a
    file are those of the file with one more newline if and only if the last line is not too long
    to be ended, and has no setting or stands in no section. -/
theorem last_line_counts_iff (content : List Char) :
    entries content = entries (content ++ ['\n']) ↔
      (Reading.init.Fits content → (lastLine content).length ≤ lineMax ∧
        ((Reading.init.read content).name = none ∨ settingOf (lastLine content) = none)) := by
  rw [← buf_read]
  by_cases fits : Reading.init.Fits content
  · have ended : Reading.init.read (content ++ ['\n']) = (Reading.init.read content).endLine :=
      Reading.read_append content ['\n']
    by_cases short : (Reading.init.read content).buf.length ≤ lineMax
    · have all : Reading.init.Fits (content ++ ['\n']) := Reading.fits_append.mpr ⟨fits, short, trivial⟩
      rw [entries_of_fits fits, entries_of_fits all, ended, Option.some.injEq, eq_comm,
        Reading.endLine_config_iff]
      simp [fits, short]
    · have long : ¬ Reading.init.Fits (content ++ ['\n']) :=
        fun all => short (Reading.fits_append.mp all).2.1
      rw [entries_of_fits fits, entries_of_not_fits long]
      simp [fits, short]
  · have long : ¬ Reading.init.Fits (content ++ ['\n']) := fun all => fits (Reading.fits_append.mp all).1
    rw [entries_of_not_fits fits, entries_of_not_fits long]
    simp [fits]

/-- A file that ends with a setting, without a newline after it. -/
theorem last_line_lost :
    entries "[a]\nb = c".toList = some [] ∧
      entries ("[a]\nb = c".toList ++ ['\n']) = some [⟨"a", "b", "c"⟩] := by
  decide +kernel

end Mlvpn
