import Mlvpn.Config.Text

/-! # The lines of a configuration file

What each function makes of a line: comments end outside quotes only, brackets make a
header wherever they stand, and a value in quotes is taken as it is.  A line that is too
long for the size of the buffer, an `int`, is not read.
-/

namespace Mlvpn

open Library.Machine

/-- What stays when a comment is stripped: quoted or not a comment. -/
theorem stripFrom_append {quote : Bool} {l : List Char}
    (kept : ∀ c ∈ l, c ≠ '\x22' ∧ (c = '#' → quote = true)) (rest : List Char) :
    stripFrom quote (l ++ rest) = l ++ stripFrom quote rest := by
  induction l with
  | nil => rfl
  | cons c l ih =>
      obtain ⟨⟨noQuote, comment⟩, later⟩ := List.forall_mem_cons.mp kept
      have stays : ¬ (c = '#' ∧ quote = false) := by
        rintro ⟨hash, outside⟩
        exact Bool.false_ne_true (outside.symm.trans (comment hash))
      rw [List.cons_append, stripFrom, if_neg noQuote, if_neg stays, ih later, List.cons_append]

/-- A setting in quotes has no comment, unless its name has one. -/
theorem stripFrom_quoted {var val : List Char} (bare : ∀ c ∈ var, c ≠ '\x22' ∧ c ≠ '#')
    (inside : ∀ c ∈ val, c ≠ '\x22') :
    stripFrom false (var ++ [' ', '=', ' ', '\x22'] ++ val ++ ['\x22']) =
      var ++ [' ', '=', ' ', '\x22'] ++ val ++ ['\x22'] := by
  have name : ∀ c ∈ var, c ≠ '\x22' ∧ (c = '#' → false = true) :=
    fun c member => ⟨(bare c member).1, fun hash => absurd hash (bare c member).2⟩
  have quoted : ∀ c ∈ val, c ≠ '\x22' ∧ (c = '#' → true = true) :=
    fun c member => ⟨inside c member, fun _ => rfl⟩
  have equals : ∀ rest, stripFrom false ([' ', '=', ' ', '\x22'] ++ rest) =
      [' ', '=', ' ', '\x22'] ++ stripFrom true rest := fun _ => rfl
  have closing : stripFrom true ['\x22'] = ['\x22'] := rfl
  simp only [List.append_assoc]
  rw [stripFrom_append name, equals, stripFrom_append quoted, closing]

/-- A bracket of a header. -/
def IsBracket (c : Char) : Prop := c = '[' ∨ c = ']'

instance : DecidablePred IsBracket := fun c => inferInstanceAs (Decidable (c = '[' ∨ c = ']'))

theorem sectionFrom_cons {c : Char} (other : ¬ IsBracket c) (name : Option (List Char)) (l : List Char) :
    sectionFrom name (c :: l) = sectionFrom (name.map (· ++ [c])) l := by
  obtain ⟨opens, closes⟩ := not_or.mp other
  simp only [sectionFrom, opens, closes, if_false]

theorem sectionFrom_append {l : List Char} (other : ∀ c ∈ l, ¬ IsBracket c) (name : Option (List Char))
    (rest : List Char) :
    sectionFrom name (l ++ rest) = sectionFrom (name.map (· ++ l)) rest := by
  induction l generalizing name with
  | nil => cases name <;> simp
  | cons c l ih =>
      obtain ⟨first, later⟩ := List.forall_mem_cons.mp other
      rw [List.cons_append, sectionFrom_cons first, ih later]
      cases name <;> simp

/-- The first bracket opens, and the next one closes. -/
def Bracketed (l : List Char) : Prop := ['[', ']'] <+: l.filter IsBracket

instance : DecidablePred Bracketed := fun l =>
  inferInstanceAs (Decidable (['[', ']'] <+: l.filter IsBracket))

theorem sectionFrom_some_iff {name l : List Char} :
    (∃ found, sectionFrom (some name) l = .ok (some found)) ↔ [']'] <+: l.filter IsBracket := by
  induction l generalizing name with
  | nil => simp [sectionFrom]
  | cons c l ih =>
      by_cases opens : c = '['
      · subst opens
        simp [sectionFrom, IsBracket]
      · by_cases closes : c = ']'
        · subst closes
          simp [sectionFrom, IsBracket]
        · have other : ¬ IsBracket c := not_or.mpr ⟨opens, closes⟩
          rw [sectionFrom_cons other, Option.map_some, ih, List.filter_cons_of_neg (by simpa using other)]

/-- The lines that are taken for a header. -/
theorem getSection_iff {l : List Char} : (∃ found, getSection l = .ok (some found)) ↔ Bracketed l := by
  unfold getSection Bracketed
  induction l with
  | nil => simp [sectionFrom]
  | cons c l ih =>
      by_cases opens : c = '['
      · subst opens
        have next : (∃ found, sectionFrom (some []) l = .ok (some found)) ↔ [']'] <+: l.filter IsBracket :=
          sectionFrom_some_iff
        simp only [sectionFrom, if_true]
        rw [next, List.filter_cons_of_pos (by decide), List.cons_prefix_cons]
        simp
      · by_cases closes : c = ']'
        · subst closes
          simp [sectionFrom, IsBracket]
        · have other : ¬ IsBracket c := not_or.mpr ⟨opens, closes⟩
          rw [sectionFrom_cons other, Option.map_none, ih, List.filter_cons_of_neg (by simpa using other)]

namespace LineParser

variable {p : LineParser} {c : Char} {l : List Char}

/-- A line is read part by part. -/
theorem parse_append {q : LineParser} (read : l.foldlM parseChar p = .ok q) (rest : List Char) :
    (l ++ rest).foldlM parseChar p = rest.foldlM parseChar q := by
  rw [List.foldlM_append, read]
  rfl

/-- A character that a line keeps wherever it stands. -/
def IsWordChar (c : Char) : Prop := isascii c = true ∧ c ≠ '\x22' ∧ c ≠ '=' ∧ c ≠ ' '

theorem parseChar_word (word : IsWordChar c) :
    p.parseChar c = .ok { p with space := false, buf := p.buf ++ [c] } := by
  obtain ⟨ascii, quote, equals, space⟩ := word
  simp only [parseChar, quote, equals, space, ascii, false_and, if_false, ne_eq, not_false_eq_true,
    if_true, Bool.false_eq_true, not_true_eq_false]

/-- A space is kept in quotes only, and not at their start. -/
theorem parseChar_space :
    p.parseChar ' ' = .ok { p with
      space := true
      buf := if p.quote ∧ p.buf ≠ [] then p.buf ++ [' '] else p.buf } := by
  have spaced : (if p.space = false then true else p.space) = true := by
    cases p.space <;> rfl
  have ascii : isascii ' ' = true := by decide
  have mark : ¬ ' ' = '\x22' := by decide
  have equals : ¬ ' ' = '=' := by decide
  simp only [parseChar, mark, equals, if_false, true_and, ne_eq, not_true_eq_false, spaced, ascii]
  cases p.quote with
  | false => simp
  | true =>
      by_cases empty : p.buf = []
      · simp [empty]
      · simp [empty]

theorem parse_word (word : ∀ c ∈ l, IsWordChar c) (given : l ≠ []) :
    l.foldlM parseChar p = .ok { p with space := false, buf := p.buf ++ l } := by
  induction l generalizing p with
  | nil => exact absurd rfl given
  | cons c l ih =>
      obtain ⟨first, later⟩ := List.forall_mem_cons.mp word
      rw [List.foldlM_cons, parseChar_word first]
      change l.foldlM parseChar _ = _
      cases l with
      | nil => rfl
      | cons d l =>
          rw [ih later (List.cons_ne_nil d l)]
          simp only [List.append_assoc, List.cons_append, List.nil_append]

/-- In quotes everything is kept but a space at the start. -/
theorem parse_quoted (quoted : p.quote = true) (inside : ∀ c ∈ l, isascii c = true ∧ c ≠ '\x22')
    (start : p.buf ≠ [] ∨ l.head? ≠ some ' ') :
    ∃ space, l.foldlM parseChar p = .ok { p with space := space, buf := p.buf ++ l } := by
  induction l generalizing p with
  | nil => exact ⟨p.space, by rw [List.append_nil]; rfl⟩
  | cons c l ih =>
      obtain ⟨⟨ascii, mark⟩, later⟩ := List.forall_mem_cons.mp inside
      have kept : ∃ space, p.parseChar c = .ok { p with space := space, buf := p.buf ++ [c] } := by
        by_cases equals : c = '='
        · refine ⟨p.space, ?_⟩
          rw [parseChar, if_neg mark, if_pos equals, if_pos quoted]
        · by_cases space : c = ' '
          · subst space
            have begun : p.buf ≠ [] := start.resolve_right fun other => other rfl
            refine ⟨true, ?_⟩
            rw [parseChar_space, if_pos ⟨quoted, begun⟩]
          · exact ⟨false, parseChar_word ⟨ascii, mark, equals, space⟩⟩
      obtain ⟨space, kept⟩ := kept
      have begun : p.buf ++ [c] ≠ [] := by simp
      obtain ⟨space', rest⟩ :=
        ih (p := { p with space := space, buf := p.buf ++ [c] }) quoted later (.inl begun)
      refine ⟨space', ?_⟩
      rw [List.foldlM_cons, kept]
      change l.foldlM parseChar _ = _
      rw [rest]
      simp only [List.append_assoc, List.cons_append, List.nil_append]

theorem stripEnd_of_last (last : l.getLast? ≠ some ' ') : stripEnd l = l := by
  cases l with
  | nil => rfl
  | cons c rest =>
      rw [stripEnd, List.rdropWhile_eq_self_iff.mpr]
      intro given space
      apply last
      rw [List.getLast?_cons, List.getLast?_eq_some_getLast given]
      simpa using space

/-- What stands between a variable and its value. -/
theorem parse_assign (outside : p.quote = false) (named : p.buf ≠ []) (fresh : p.var = none) :
    [' ', '=', ' '].foldlM parseChar p = .ok ⟨false, true, [], some (stripEnd p.buf)⟩ := by
  have equals : ∀ space, parseChar { p with space := space } '=' =
      .ok ⟨false, space, [], some (stripEnd p.buf)⟩ := by
    intro space
    simp only [parseChar, outside, named, fresh, ne_eq, not_true_eq_false, if_false, if_true,
      Bool.false_eq_true]
    rfl
  have spaced : p.parseChar ' ' = .ok { p with space := true } := by
    rw [parseChar_space]
    simp only [outside, Bool.false_eq_true, false_and, if_false]
  rw [List.foldlM_cons, spaced]
  change (parseChar { p with space := true } '=').bind _ = _
  rw [equals]
  rfl

theorem parse_variable {var : List Char} (word : ∀ c ∈ var, IsWordChar c) (named : var ≠ []) :
    (var ++ [' ', '=', ' ']).foldlM parseChar .init = .ok ⟨false, true, [], some var⟩ := by
  have bare : stripEnd var = var := by
    apply stripEnd_of_last
    intro space
    exact (word ' ' (List.mem_of_getLast? space)).2.2.2 rfl
  have read : var.foldlM parseChar .init = .ok ⟨false, false, var, none⟩ := parse_word word named
  rw [parse_append read, parse_assign rfl named rfl, bare]

/-- A value that neither begins nor ends with a space is taken as it is. -/
theorem finish_value {var : List Char} (named : p.var = some var) (given : p.buf ≠ [])
    (first : p.buf.head? ≠ some ' ') (last : p.buf.getLast? ≠ some ' ') :
    p.finish = .ok (some (var, p.buf)) := by
  have still : ∀ rounds, leading p.buf rounds 0 = 0 := by
    intro rounds
    cases rounds with
    | zero => rfl
    | succ rounds =>
        rw [List.head?_eq_getElem?] at first
        rw [leading, if_neg first]
  unfold finish
  rw [named]
  simp only [given, if_false, stripEnd_of_last last, still, List.drop_zero]

/-- A setting has a value. -/
theorem finish_value_ne_nil {var val : List Char} (read : p.finish = .ok (some (var, val))) : val ≠ [] := by
  unfold finish at read
  split at read
  next => cases read
  next =>
    split at read
    next => cases read
    next =>
      dsimp only at read
      split at read
      next => cases read
      next given =>
        cases read
        exact given

end LineParser

theorem parseLine_value_ne_nil {line var val : List Char} (read : parseLine line = .ok (some (var, val))) :
    val ≠ [] := by
  unfold parseLine at read
  split at read
  next => cases read
  next =>
    cases parsed : line.foldlM LineParser.parseChar .init with
    | error error =>
        rw [parsed] at read
        cases read
    | ok p =>
        rw [parsed] at read
        exact LineParser.finish_value_ne_nil read

/-- A variable and a value in quotes. -/
theorem parseLine_quoted {var val : List Char} (word : ∀ c ∈ var, LineParser.IsWordChar c)
    (named : var ≠ []) (inside : ∀ c ∈ val, isascii c = true ∧ c ≠ '\x22') (given : val ≠ [])
    (first : val.head? ≠ some ' ') (last : val.getLast? ≠ some ' ') :
    parseLine (var ++ [' ', '=', ' ', '\x22'] ++ val ++ ['\x22']) = .ok (some (var, val)) := by
  have whole : var ++ [' ', '=', ' ', '\x22'] ++ val ++ ['\x22'] ≠ [] := by simp
  have opened : ['\x22'].foldlM LineParser.parseChar ⟨false, true, [], some var⟩ =
      .ok ⟨true, true, [], some var⟩ := rfl
  obtain ⟨space, quoted⟩ := LineParser.parse_quoted (p := ⟨true, true, [], some var⟩) rfl inside (.inr first)
  have closed : ['\x22'].foldlM LineParser.parseChar ⟨true, space, val, some var⟩ =
      .ok ⟨false, space, val, some var⟩ := rfl
  have split : var ++ [' ', '=', ' ', '\x22'] ++ val ++ ['\x22'] =
      (var ++ [' ', '=', ' ']) ++ (['\x22'] ++ (val ++ ['\x22'])) := by simp
  have read : (var ++ [' ', '=', ' ', '\x22'] ++ val ++ ['\x22']).foldlM LineParser.parseChar .init =
      .ok ⟨false, space, val, some var⟩ := by
    rw [split, LineParser.parse_append (LineParser.parse_variable word named),
      LineParser.parse_append opened, LineParser.parse_append quoted]
    exact closed
  rw [parseLine, if_neg whole, read]
  exact LineParser.finish_value (p := ⟨false, space, val, some var⟩) rfl given first last

theorem cString_eq_self {l : List Char} (ended : '\x00' ∉ l) : cString l = l := by
  rw [cString, List.takeWhile_eq_self_iff]
  intro c member
  exact decide_eq_true (ne_of_mem_of_not_mem member ended)

theorem ne_of_code {c d : Char} (code : c.toNat ≠ d.toNat) : c ≠ d := fun same => code (congrArg _ same)

theorem cString_of_code {l : List Char} (code : ∀ c ∈ l, 32 ≤ c.toNat) : cString l = l := by
  apply cString_eq_self
  intro zero
  exact absurd (code _ zero) (by decide)

namespace ConfParser

variable {s : ConfParser}

/-- A line that is not taken for a header leaves the section, and adds a setting at most. -/
theorem setting_cases (line : List Char) :
    (s.setting line).name = s.name ∧ (s.setting line).bufsize = s.bufsize ∧
      (s.setting line).config.length ≤ s.config.length + 1 := by
  unfold setting
  split
  next => exact ⟨rfl, rfl, Nat.le_succ _⟩
  next => exact ⟨rfl, rfl, Nat.le_succ _⟩
  next =>
    split
    next => exact ⟨rfl, rfl, Nat.le_succ _⟩
    next =>
      refine ⟨rfl, rfl, ?_⟩
      rw [ConfFile.setValue, List.length_append, List.length_singleton]

theorem readLine_bufsize : s.readLine.bufsize = s.bufsize := by
  unfold readLine
  split
  next => rfl
  next =>
    split
    next => rfl
    next => exact (setting_cases _).2.1
    next => exact (setting_cases _).2.1

/-- The longest line that can be read. -/
def lineMax : Nat := 2 ^ 31 - 128

/-- The buffer is a multiple of 64 bytes, larger than what it holds. -/
structure Spacious (s : ConfParser) : Prop where
  blocks : 64 ∣ s.bufsize
  room : (s.buf.length : Int) + 63 ≤ s.bufsize
  most : s.bufsize ≤ 2 ^ 31 - 1

theorem reserve_fits (spacious : s.Spacious) (fits : s.buf.length ≤ lineMax) :
    ∃ bufsize, s.reserve = some { s with bufsize := bufsize } ∧ 64 ∣ bufsize ∧
      (s.buf.length : Int) + 64 ≤ bufsize ∧ bufsize ≤ 2 ^ 31 - 1 := by
  obtain ⟨⟨blocks, size⟩, room, most⟩ := spacious
  unfold lineMax at fits
  have small : (s.buf.length : Int) + 64 ≤ 2 ^ 31 - 1 := by omega
  unfold reserve
  rw [if_pos small]
  by_cases short : s.bufsize < s.buf.length + 64
  · have grows : s.bufsize + 64 ≤ 2 ^ 31 - 1 := by omega
    rw [if_pos short, if_pos grows]
    exact ⟨_, rfl, ⟨blocks + 1, by omega⟩, by omega, grows⟩
  · rw [if_neg short]
    exact ⟨s.bufsize, rfl, ⟨blocks, size⟩, by omega, most⟩

/-- The size of the buffer would not fit an `int`. -/
theorem reserve_overflows (spacious : s.Spacious) (long : lineMax < s.buf.length) : s.reserve = none := by
  obtain ⟨⟨blocks, size⟩, room, most⟩ := spacious
  unfold lineMax at long
  have short : s.bufsize < s.buf.length + 64 := by omega
  have full : ¬ s.bufsize + 64 ≤ 2 ^ 31 - 1 := by omega
  unfold reserve
  rw [if_pos short, if_neg full, ite_self]

theorem readChar_code {c : Char} (code : 32 ≤ c.toNat) :
    s.readChar c = s.reserve.map fun s => { s with buf := s.buf ++ [c] } := by
  have noReturn : c ≠ '\r' := by
    rintro rfl
    simp only [Char.reduceToNat] at code
    omega
  have noNewline : c ≠ '\n' := by
    rintro rfl
    simp only [Char.reduceToNat] at code
    omega
  simp only [readChar, noReturn, noNewline, if_false]

/-- A line is read to its end if it is not too long, and nothing is read after one that is. -/
theorem run_line {l : List Char} (spacious : s.Spacious) (code : ∀ c ∈ l, 32 ≤ c.toNat) :
    (s.buf.length + l.length ≤ lineMax → ∃ bufsize, 64 ∣ bufsize ∧ 63 ≤ bufsize ∧
        bufsize ≤ 2 ^ 31 - 1 ∧ run readChar s (l ++ ['\n']) =
          some (endLine { s with bufsize := bufsize, buf := s.buf ++ l })) ∧
      (lineMax < s.buf.length + l.length → run readChar s (l ++ ['\n']) = none) := by
  induction l generalizing s with
  | nil =>
      rw [List.length_nil, Nat.add_zero, List.append_nil, List.nil_append]
      constructor
      · intro fits
        obtain ⟨bufsize, reserved, blocks, room, most⟩ := reserve_fits spacious fits
        refine ⟨bufsize, blocks, by omega, most, ?_⟩
        simp [run, readChar, reserved]
      · intro long
        simp [run, readChar, reserve_overflows spacious long]
  | cons c l ih =>
      obtain ⟨first, later⟩ := List.forall_mem_cons.mp code
      rw [List.length_cons, List.cons_append, run, readChar_code first]
      by_cases fits : s.buf.length ≤ lineMax
      · obtain ⟨bufsize, reserved, blocks, room, most⟩ := reserve_fits spacious fits
        let s₁ : ConfParser := { s with bufsize := bufsize, buf := s.buf ++ [c] }
        have length : s₁.buf.length = s.buf.length + 1 := List.length_append
        have spacious₁ : s₁.Spacious := by
          refine ⟨blocks, ?_, most⟩
          rw [length]
          change ((s.buf.length + 1 : Nat) : Int) + 63 ≤ bufsize
          omega
        obtain ⟨read, overflows⟩ := ih spacious₁ later
        rw [reserved, Option.map_some, Option.bind_some]
        constructor
        · intro short
          obtain ⟨bufsize', blocks', room', most', reads⟩ := read (by omega)
          refine ⟨bufsize', blocks', room', most', ?_⟩
          rw [reads]
          simp only [s₁, List.append_assoc, List.cons_append, List.nil_append]
        · intro long
          exact overflows (by omega)
      · have long : lineMax < s.buf.length := Nat.lt_of_not_le fits
        rw [reserve_overflows spacious long]
        exact ⟨fun short => absurd short (by omega), fun _ => rfl⟩

/-- Between two lines. -/
structure Ready (s : ConfParser) : Prop extends Spacious s where
  empty : s.buf = []

theorem endLine_ready {bufsize : Int} {l : List Char} (blocks : 64 ∣ bufsize) (room : 63 ≤ bufsize)
    (most : bufsize ≤ 2 ^ 31 - 1) : (endLine { s with bufsize := bufsize, buf := l }).Ready := by
  have same : (endLine { s with bufsize := bufsize, buf := l }).bufsize = bufsize := readLine_bufsize
  refine ⟨⟨?_, ?_, ?_⟩, rfl⟩
  · rwa [same]
  · rw [same]
    exact room
  · rwa [same]

end ConfParser

end Mlvpn
