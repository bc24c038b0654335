import Mlvpn.Config.Entries
import Mlvpn.Config.Roundtrip

/-! # Spaces and comments of a configuration file

A space outside quotes is left out wherever it stands, so the words of a value that is not in
quotes run together.  A space and a comment at the end of a line change nothing but its
length, which the size of the parser's buffer bounds.
-/

namespace Mlvpn

open Library.Machine ConfParser

section Values

open LineParser

variable {p : LineParser} {var : List Char} {words : List (List Char)}

/-- A word of printable characters that mean nothing to the parser. -/
@[mk_iff]
structure IsPlainWord (word : List Char) : Prop where
  given : word ≠ []
  printable : ∀ c ∈ word, 33 ≤ c.toNat ∧ c.toNat ≤ 126
  plain : ∀ c ∈ word, c ≠ '\x22' ∧ c ≠ '#' ∧ c ≠ '=' ∧ ¬ IsBracket c

instance : DecidablePred IsPlainWord := fun word => decidable_of_iff _ (isPlainWord_iff word).symm

theorem IsPlainWord.wordChar {word : List Char} (isWord : IsPlainWord word) : ∀ c ∈ word, IsWordChar c := by
  intro c member
  have codes := isWord.printable c member
  obtain ⟨mark, _, equals, _⟩ := isWord.plain c member
  refine ⟨decide_eq_true (by omega), mark, equals, ne_of_code ?_⟩
  simp only [Char.reduceToNat]
  omega

/-- The words of a value, with a space between them. -/
def spaced (words : List (List Char)) : List Char := [' '].intercalate words

/-- A line that sets a variable to words. -/
def assignment (var : List Char) (words : List (List Char)) : List Char :=
  var ++ [' ', '=', ' '] ++ spaced words

theorem spaced_singleton (word : List Char) : spaced [word] = word := List.intercalate_singleton

theorem spaced_cons_cons (word next : List Char) (rest : List (List Char)) :
    spaced (word :: next :: rest) = word ++ ([' '] ++ spaced (next :: rest)) := by
  simp [spaced]

/-- The spaces are what the words lack. -/
theorem length_spaced (words : List (List Char)) (given : words ≠ []) :
    (spaced words).length + 1 = words.flatten.length + words.length := by
  induction words with
  | nil => exact absurd rfl given
  | cons word rest ih =>
      cases rest with
      | nil => simp [spaced_singleton]
      | cons next rest =>
          have later := ih (List.cons_ne_nil next rest)
          rw [spaced_cons_cons]
          simp only [List.length_append, List.length_cons, List.flatten_cons, List.length_nil] at later ⊢
          omega

/-- Outside quotes the spaces between words are left out. -/
theorem parse_spaced (outside : p.quote = false) (given : words ≠ [])
    (plain : ∀ word ∈ words, IsPlainWord word) :
    (spaced words).foldlM parseChar p = .ok { p with space := false, buf := p.buf ++ words.flatten } := by
  induction words generalizing p with
  | nil => exact absurd rfl given
  | cons word rest ih =>
      obtain ⟨first, later⟩ := List.forall_mem_cons.mp plain
      have read := parse_word (p := p) first.wordChar first.given
      cases rest with
      | nil => simpa [spaced_singleton] using read
      | cons next rest =>
          have skipped : [' '].foldlM parseChar { p with space := false, buf := p.buf ++ word } =
              .ok { p with space := true, buf := p.buf ++ word } := by
            rw [List.foldlM_cons, parseChar_space]
            simp [outside]
          have others := ih (p := { p with space := true, buf := p.buf ++ word }) outside
            (List.cons_ne_nil next rest) later
          rw [spaced_cons_cons, parse_append read, parse_append skipped, others]
          simp

theorem mem_spaced {c : Char} (member : c ∈ spaced words) : c = ' ' ∨ ∃ word ∈ words, c ∈ word := by
  induction words with
  | nil => cases member
  | cons word rest ih =>
      cases rest with
      | nil => exact .inr ⟨word, List.mem_cons_self, by simpa [spaced_singleton] using member⟩
      | cons next rest =>
          rw [spaced_cons_cons, List.mem_append, List.mem_append] at member
          rcases member with here | space | later
          · exact .inr ⟨word, List.mem_cons_self, here⟩
          · exact .inl (List.mem_singleton.mp space)
          · rcases ih later with space | ⟨other, among, inside⟩
            · exact .inl space
            · exact .inr ⟨other, List.mem_cons_of_mem _ among, inside⟩

section Assignment

variable (isWord : IsPlainWord var) (given : words ≠ []) (plain : ∀ word ∈ words, IsPlainWord word)

include isWord plain in
/-- Nothing in the line is a comment, a quote or a bracket. -/
theorem assignment_chars {c : Char} (member : c ∈ assignment var words) :
    32 ≤ c.toNat ∧ c ≠ '\x22' ∧ c ≠ '#' ∧ ¬ IsBracket c := by
  have ofWord : ∀ {word}, IsPlainWord word → c ∈ word → 32 ≤ c.toNat ∧ c ≠ '\x22' ∧ c ≠ '#' ∧ ¬ IsBracket c := by
    intro word fine inside
    obtain ⟨mark, hash, _, bracket⟩ := fine.plain c inside
    have codes := fine.printable c inside
    exact ⟨by omega, mark, hash, bracket⟩
  simp only [assignment, List.mem_append, List.mem_cons, List.not_mem_nil, or_false] at member
  rcases member with (named | rfl | rfl | rfl) | value
  · exact ofWord isWord named
  · decide
  · decide
  · decide
  · rcases mem_spaced value with rfl | ⟨word, among, inside⟩
    · decide
    · exact ofWord (plain word among) inside

include isWord plain in
theorem stripFrom_assignment : stripFrom false (assignment var words) = assignment var words := by
  have kept : ∀ c ∈ assignment var words, c ≠ '\x22' ∧ (c = '#' → false = true) := by
    intro c member
    obtain ⟨_, mark, hash, _⟩ := assignment_chars isWord plain member
    exact ⟨mark, fun same => absurd same hash⟩
  have all := stripFrom_append kept []
  rwa [List.append_nil, stripFrom, List.append_nil] at all

include isWord plain in
theorem headerOf_assignment : headerOf (assignment var words) = none := by
  have other : ∀ c ∈ assignment var words, ¬ IsBracket c :=
    fun c member => (assignment_chars isWord plain member).2.2.2
  rw [headerOf, stripFrom_assignment isWord plain]
  exact header_append (l := []) other none

include isWord given plain in
/-- The value is the words without the spaces between them. -/
theorem settingOf_assignment : settingOf (assignment var words) = some (var, words.flatten) := by
  have code : ∀ c ∈ assignment var words, 32 ≤ c.toNat :=
    fun c member => (assignment_chars isWord plain member).1
  have whole : assignment var words ≠ [] := by simp [assignment]
  have read : (assignment var words).foldlM parseChar .init = .ok ⟨false, false, words.flatten, some var⟩ := by
    rw [assignment, parse_append (parse_variable isWord.wordChar isWord.given)]
    exact parse_spaced rfl given plain
  have noSpace : ' ' ∉ words.flatten := by
    intro member
    obtain ⟨word, among, inside⟩ := List.mem_flatten.mp member
    exact ((plain word among).wordChar ' ' inside).2.2.2 rfl
  have value : words.flatten ≠ [] := by
    obtain ⟨word, rest, rfl⟩ := List.exists_cons_of_ne_nil given
    have first := (plain word List.mem_cons_self).given
    simp [first]
  have parsed : parseLine (assignment var words) = .ok (some (var, words.flatten)) := by
    rw [parseLine, if_neg whole, read]
    exact finish_value (p := ⟨false, false, words.flatten, some var⟩) rfl value
      (fun first => noSpace (List.mem_of_head? first)) (fun last => noSpace (List.mem_of_getLast? last))
  rw [settingOf, headerOf_assignment isWord plain, stripFrom_assignment isWord plain, cString_of_code code,
    parsed]
  rfl

end Assignment

theorem setValue_inj {config : ConfFile} {name : List Char} {val val' : List Char} :
    config.setValue name (var, val) = config.setValue name (var, val') ↔ val = val' := by
  simp [ConfFile.setValue, String.ofList_inj]

theorem flatten_eq_spaced_iff (given : words ≠ []) : words.flatten = spaced words ↔ words.length = 1 := by
  constructor
  · intro same
    have length := length_spaced words given
    rw [same] at length
    omega
  · intro one
    obtain ⟨word, rfl⟩ := List.length_eq_one_iff.mp one
    simp [spaced_singleton]

/-- The words of a value that is not in quotes stay apart if and only if there is only one of
    them, on a line that is not too long. -/
theorem unquoted_words_iff {before name : List Char} {config : ConfFile}
    (parsed : entries before = some config) (begins : ∃ earlier, before = earlier ++ ['\n'])
    (inside : (Reading.init.read before).name = some name) (isWord : IsPlainWord var) (given : words ≠ [])
    (plain : ∀ word ∈ words, IsPlainWord word) :
    entries (before ++ (assignment var words ++ ['\n'])) = some (config.setValue name (var, spaced words)) ↔
      words.length = 1 ∧ (assignment var words).length ≤ lineMax := by
  have fits : Reading.init.Fits before := by
    by_contra long
    rw [entries_of_not_fits long] at parsed
    cases parsed
  have same : (Reading.init.read before).config = config := by
    rw [entries_of_fits fits] at parsed
    exact Option.some.inj parsed
  have blank : (Reading.init.read before).buf = [] := Reading.buf_of_begins (.inr begins)
  have code : ∀ c ∈ assignment var words, c ≠ '\n' ∧ c ≠ '\r' := by
    intro c member
    have codes := (assignment_chars isWord plain member).1
    constructor <;> (rintro rfl; simp only [Char.reduceToNat] at codes; omega)
  have inLine : '\n' ∉ assignment var words := fun member => (code _ member).1 rfl
  have kept : (assignment var words).filter (· ≠ '\r') = assignment var words := by
    rw [List.filter_eq_self]
    exact fun c member => decide_eq_true (code c member).2
  have line := Reading.fits_line (r := Reading.init.read before) inLine
  rw [blank, kept, List.length_nil, Nat.zero_add] at line
  by_cases short : (assignment var words).length ≤ lineMax
  · have all : Reading.init.Fits (before ++ (assignment var words ++ ['\n'])) :=
      Reading.fits_append.mpr ⟨fits, line.mpr short⟩
    have ended : (Reading.init.read (before ++ (assignment var words ++ ['\n']))).config =
        config.setValue name (var, words.flatten) := by
      rw [Reading.read_append, Reading.read_terminated blank inLine, kept]
      simp [Reading.endLine, inside, settingOf_assignment isWord given plain, same]
    rw [entries_of_fits all, ended, Option.some.injEq, setValue_inj, flatten_eq_spaced_iff given]
    simp [short]
  · have long : ¬ Reading.init.Fits (before ++ (assignment var words ++ ['\n'])) :=
      fun all => short (line.mp (Reading.fits_append.mp all).2)
    rw [entries_of_not_fits long]
    simp [short]

/-- One word in a section of filters. -/
theorem one_word_kept :
    entries ("[filters]\n".toList ++ (assignment "sdsl".toList ["udp".toList] ++ ['\n'])) =
      some [⟨"filters", "sdsl", "udp"⟩] := by
  have parsed : entries "[filters]\n".toList = some [] := by decide +kernel
  have inside : (Reading.init.read "[filters]\n".toList).name = some "filters".toList := by decide +kernel
  have isWord : IsPlainWord "sdsl".toList := by decide
  have plain : ∀ word ∈ ["udp".toList], IsPlainWord word := by decide
  exact (unquoted_words_iff parsed ⟨"[filters]".toList, by decide⟩ inside isWord (by decide) plain).mpr
    ⟨rfl, by decide⟩

/-- The words of a filter run together. -/
theorem filter_words_joined :
    entries ("[filters]\n".toList ++
        (assignment "sdsl".toList ["udp".toList, "port".toList, "5060".toList] ++ ['\n'])) =
      some [⟨"filters", "sdsl", "udpport5060"⟩] := by
  decide +kernel

end Values

section Comments

variable {line comment : List Char}

/-- Whether a quote is open after a part of a line. -/
def quoteAfter (quote : Bool) (l : List Char) : Bool := if Even (l.count '\x22') then quote else !quote

theorem quoteAfter_cons_quote (quote : Bool) (l : List Char) :
    quoteAfter quote ('\x22' :: l) = quoteAfter (!quote) l := by
  simp only [quoteAfter, List.count_cons_self, Nat.even_add_one]
  split_ifs <;> simp

theorem quoteAfter_cons_other (quote : Bool) {c : Char} (other : c ≠ '\x22') (l : List Char) :
    quoteAfter quote (c :: l) = quoteAfter quote l := by
  simp [quoteAfter, List.count_cons_of_ne other]

/-- A comment begins in a line, or the line goes on. -/
theorem stripFrom_append_cases (quote : Bool) (l : List Char) :
    (∀ rest, stripFrom quote (l ++ rest) = stripFrom quote l) ∨
      stripFrom quote l = l ∧
        ∀ rest, stripFrom quote (l ++ rest) = l ++ stripFrom (quoteAfter quote l) rest := by
  induction l generalizing quote with
  | nil => exact .inr ⟨rfl, fun rest => by simp [quoteAfter]⟩
  | cons c l ih =>
      by_cases mark : c = '\x22'
      · subst mark
        rw [quoteAfter_cons_quote]
        rcases ih (!quote) with ends | ⟨all, goes⟩
        · exact .inl fun rest => by simp [stripFrom, ends]
        · exact .inr ⟨by simp [stripFrom, all], fun rest => by simp [stripFrom, goes]⟩
      · by_cases begins : c = '#' ∧ quote = false
        · exact .inl fun rest => by simp [stripFrom, begins]
        · rw [quoteAfter_cons_other quote mark]
          rcases ih quote with ends | ⟨all, goes⟩
          · exact .inl fun rest => by simp [stripFrom, mark, begins, ends]
          · exact .inr ⟨by simp [stripFrom, mark, begins, all],
              fun rest => by simp [stripFrom, mark, begins, goes]⟩

/-- Carriage returns are no part of a comment's beginning. -/
theorem stripFrom_filter (quote : Bool) (l : List Char) :
    stripFrom quote (l.filter (· ≠ '\r')) = (stripFrom quote l).filter (· ≠ '\r') := by
  induction l generalizing quote with
  | nil => rfl
  | cons c l ih =>
      by_cases mark : c = '\x22'
      · simpa [stripFrom, mark] using ih (!quote)
      · by_cases begins : c = '#' ∧ quote = false
        · simp [stripFrom, begins]
        · by_cases ignored : c = '\r'
          · simpa [stripFrom, ignored] using ih quote
          · simpa [stripFrom, mark, begins, ignored] using ih quote

theorem parseChar_quote {p q : LineParser} {c : Char} (read : p.parseChar c = .ok q) :
    q.quote = quoteAfter p.quote [c] := by
  by_cases mark : c = '\x22'
  · subst mark
    cases read
    simp [quoteAfter]
  · rw [quoteAfter_cons_other p.quote mark, quoteAfter, if_pos (by simp)]
    simp only [LineParser.parseChar, mark, if_false] at read
    split_ifs at read <;> cases read <;> rfl

/-- The parser of a line counts the same quotes. -/
theorem parse_quote {p q : LineParser} {l : List Char} (read : l.foldlM LineParser.parseChar p = .ok q) :
    q.quote = quoteAfter p.quote l := by
  induction l generalizing p with
  | nil =>
      cases read
      simp [quoteAfter]
  | cons c l ih =>
      cases first : p.parseChar c with
      | error error =>
          rw [List.foldlM_cons, first] at read
          cases read
      | ok p₁ =>
          rw [List.foldlM_cons, first] at read
          rw [ih read, parseChar_quote first]
          by_cases mark : c = '\x22'
          · rw [mark, quoteAfter_cons_quote, quoteAfter_cons_quote]
            simp [quoteAfter]
          · rw [quoteAfter_cons_other _ mark, quoteAfter_cons_other _ mark]
            simp [quoteAfter]

/-- A space at the end of a line is left out, unless a quote is open. -/
theorem parseLine_space {l : List Char} (closed : quoteAfter false l = false) :
    parseLine (l ++ [' ']) = parseLine l := by
  by_cases empty : l = []
  · subst empty
    rfl
  · have longer : l ++ [' '] ≠ [] := by simp
    rw [parseLine, parseLine, if_neg empty, if_neg longer]
    cases read : l.foldlM LineParser.parseChar .init with
    | error error =>
        rw [List.foldlM_append, read]
        rfl
    | ok p =>
        have outside : p.quote = false := (parse_quote read).trans closed
        rw [LineParser.parse_append read, List.foldlM_cons, LineParser.parseChar_space, outside]
        simp only [Bool.false_eq_true, false_and, if_false]
        rfl

theorem parseLine_cString_space {l : List Char} (closed : quoteAfter false l = false) :
    parseLine (cString (l ++ [' '])) = parseLine (cString l) := by
  unfold cString
  rw [List.takeWhile_append]
  split
  next whole =>
    have all : l.takeWhile (· ≠ '\x00') = l := (List.takeWhile_prefix _).eq_of_length whole
    rw [all]
    exact parseLine_space closed
  next => rfl

/-- A comment changes neither the header nor the setting of a line. -/
theorem commented (closed : quoteAfter false (stripFrom false line) = false) (comment : List Char) :
    headerOf (line ++ [' ', '#'] ++ comment) = headerOf line ∧
      settingOf (line ++ [' ', '#'] ++ comment) = settingOf line := by
  rw [List.append_assoc]
  rcases stripFrom_append_cases false line with ends | ⟨all, goes⟩
  · have header : headerOf (line ++ ([' ', '#'] ++ comment)) = headerOf line := by
      rw [headerOf, headerOf, ends]
    refine ⟨header, ?_⟩
    rw [settingOf, settingOf, header, ends]
  · rw [all] at closed
    have stripped : stripFrom false (line ++ ([' ', '#'] ++ comment)) = line ++ [' '] := by
      rw [goes, closed]
      rfl
    have header : headerOf (line ++ ([' ', '#'] ++ comment)) = headerOf line := by
      rw [headerOf, headerOf, stripped, all]
      exact header_append (by decide) none
    refine ⟨header, ?_⟩
    rw [settingOf, settingOf, header, stripped, all, parseLine_cString_space closed]

/-- A line is read as it is without its comment. -/
theorem read_commented {r : Reading} (begins : r.buf = []) (inLine : '\n' ∉ line)
    (closed : Even ((stripFrom false line).count '\x22')) (inComment : '\n' ∉ comment) :
    r.read (line ++ [' ', '#'] ++ comment ++ ['\n']) = r.read (line ++ ['\n']) := by
  have inBoth : '\n' ∉ line ++ [' ', '#'] ++ comment := by simp [inLine, inComment]
  have text : (line ++ [' ', '#'] ++ comment).filter (· ≠ '\r') =
      line.filter (· ≠ '\r') ++ [' ', '#'] ++ comment.filter (· ≠ '\r') := by
    rw [List.filter_append, List.filter_append]
    rfl
  have quotes : quoteAfter false (stripFrom false (line.filter (· ≠ '\r'))) = false := by
    rw [stripFrom_filter, quoteAfter, List.count_filter (by decide), if_pos closed]
  obtain ⟨header, setting⟩ := commented quotes (comment.filter (· ≠ '\r'))
  rw [Reading.read_terminated begins inBoth, Reading.read_terminated begins inLine, text, Reading.endLine,
    Reading.endLine, header, setting]

/-- A comment at the end of a line with closed quotes leaves the entries of a file, if and only if
    the file could not be read or the line with its comment is not too long. -/
theorem comment_unread_iff {before after : List Char}
    (begins : before = [] ∨ ∃ earlier, before = earlier ++ ['\n']) (inLine : '\n' ∉ line)
    (closed : Even ((stripFrom false line).count '\x22')) (inComment : '\n' ∉ comment) :
    entries (before ++ (line ++ ['\n']) ++ after) =
        entries (before ++ (line ++ [' ', '#'] ++ comment ++ ['\n']) ++ after) ↔
      (Reading.init.Fits (before ++ (line ++ ['\n']) ++ after) →
        ((line ++ [' ', '#'] ++ comment).filter (· ≠ '\r')).length ≤ lineMax) := by
  have inBoth : '\n' ∉ line ++ [' ', '#'] ++ comment := by simp [inLine, inComment]
  have blank := Reading.buf_of_begins begins
  have plain := Reading.fits_line (r := Reading.init.read before) inLine
  have longer := Reading.fits_line (r := Reading.init.read before) inBoth
  rw [blank, List.length_nil, Nat.zero_add] at plain longer
  rw [entries_replace_iff (read_commented blank inLine closed inComment), longer]
  intro fits
  have most := longer.mp fits
  rw [List.append_assoc, List.filter_append, List.length_append] at most
  exact plain.mpr (by omega)

/-- A value with a quoted `#`, and a comment that looks like a header. -/
theorem header_in_comment :
    entries ("[a]\n".toList ++ ("b = \x22c#\x22".toList ++ ['\n']) ++ []) = some [⟨"a", "b", "c#"⟩] ∧
      entries ("[a]\n".toList ++ ("b = \x22c#\x22".toList ++ ['\n']) ++ []) =
        entries ("[a]\n".toList ++ ("b = \x22c#\x22".toList ++ [' ', '#'] ++ "[d]".toList ++ ['\n']) ++ []) := by
  refine ⟨by decide +kernel, ?_⟩
  exact (comment_unread_iff (.inr ⟨"[a]".toList, rfl⟩) (by decide) (by decide) (by decide)).mpr
    fun _ => by decide

/-- An empty line, with a comment that is too long for the size of the buffer. -/
theorem comment_overflows :
    entries ['\n'] = some [] ∧
      entries ([' ', '#'] ++ List.replicate lineMax 'c' ++ ['\n']) = none := by
  refine ⟨by decide +kernel, ?_⟩
  have inside : '\n' ∉ [' ', '#'] ++ List.replicate lineMax 'c' := by simp
  have kept : ∀ n, (List.replicate n 'c').filter (· ≠ '\r') = List.replicate n 'c' :=
    fun n => List.filter_replicate_of_pos (by decide)
  apply entries_of_not_fits
  rw [Reading.fits_line inside, List.filter_append, kept, List.length_append, List.length_replicate]
  intro short
  have more : ([' ', '#'].filter (· ≠ '\r')).length = 2 := by decide
  omega

end Comments

end Mlvpn
