import Mlvpn.Library.Machine
import Mlvpn.Library.Printf

/-! # JSON texts

Objects, arrays, strings without escapes and natural numbers, which is the part of the format
that a program needs to report what it has counted.  A text is scanned character by character
into tokens; it reads as a value if its tokens are those of the value, and as no other value.
-/

namespace Mlvpn.Library.Json

open Machine Printf

inductive Token where
  | lbrace | rbrace | lbracket | rbracket | comma | colon
  | str (s : List Char)
  | num (n : Nat)
  deriving Repr, DecidableEq

/-- What the scanner is in the middle of. -/
inductive Mode where
  | between
  | string (read : List Char)
  | number (n : Nat)
  deriving Repr, DecidableEq

structure Scanner where
  tokens : List Token
  mode : Mode
  deriving Repr, DecidableEq

/-- A character that stands for itself in a string. -/
def Plain (c : Char) : Prop := c ≠ '"' ∧ c ≠ '\\' ∧ ' ' ≤ c

instance (c : Char) : Decidable (Plain c) := inferInstanceAs (Decidable (_ ∧ _ ∧ _))

def punctuation : Char → Option Token
  | '\x7b' => some .lbrace
  | '\x7d' => some .rbrace
  | '[' => some .lbracket
  | ']' => some .rbracket
  | ',' => some .comma
  | ':' => some .colon
  | _ => none

namespace Scanner

/-- A character outside strings and numbers. -/
def outside (tokens : List Token) (c : Char) : Option Scanner :=
  if c = ' ' ∨ c = '\n' ∨ c = '\r' ∨ c = '\t' then some ⟨tokens, .between⟩
  else if c = '"' then some ⟨tokens, .string []⟩
  else if c.isDigit then some ⟨tokens, .number (c.toNat - 48)⟩
  else (punctuation c).map fun token => ⟨tokens ++ [token], .between⟩

def step (s : Scanner) (c : Char) : Option Scanner :=
  match s.mode with
  | .between => outside s.tokens c
  | .string read =>
      if c = '"' then some ⟨s.tokens ++ [.str read], .between⟩
      else if Plain c then some ⟨s.tokens, .string (read ++ [c])⟩
      else none
  | .number n =>
      -- a number does not start with a zero that says nothing
      if c.isDigit then
        if n = 0 then none else some ⟨s.tokens, .number (10 * n + (c.toNat - 48))⟩
      else outside (s.tokens ++ [.num n]) c

/-- The tokens at the end of a text. -/
def finish (s : Scanner) : Option (List Token) :=
  match s.mode with
  | .between => some s.tokens
  | .string _ => none
  | .number n => some (s.tokens ++ [.num n])

end Scanner

def tokenize (text : List Char) : Option (List Token) :=
  (run Scanner.step ⟨[], .between⟩ text).bind Scanner.finish

inductive Value where
  | str (s : List Char)
  | num (n : Nat)
  | arr (items : List Value)
  | obj (members : List (List Char × Value))

mutual

/-- The tokens of a value. -/
def Value.tokens : Value → List Token
  | .str s => [.str s]
  | .num n => [.num n]
  | .arr items => .lbracket :: (itemsTokens items ++ [.rbracket])
  | .obj members => .lbrace :: (membersTokens members ++ [.rbrace])

def itemsTokens : List Value → List Token
  | [] => []
  | item :: rest => item.tokens ++ moreItems rest

def moreItems : List Value → List Token
  | [] => []
  | item :: rest => .comma :: (item.tokens ++ moreItems rest)

def memberTokens : List Char × Value → List Token
  | (key, value) => .str key :: .colon :: value.tokens

def membersTokens : List (List Char × Value) → List Token
  | [] => []
  | member :: rest => memberTokens member ++ moreMembers rest

def moreMembers : List (List Char × Value) → List Token
  | [] => []
  | member :: rest => .comma :: (memberTokens member ++ moreMembers rest)

end

/-- A value starts with a token of its own, which closes nothing. -/
theorem Value.tokens_ne (value : Value) {token : Token} {rest others : List Token}
    (closing : token = .rbracket ∨ token = .rbrace) : value.tokens ++ rest ≠ token :: others := by
  rcases closing with rfl | rfl <;> cases value <;> simp [Value.tokens]

mutual

/-- The tokens of a value say where it ends, and which value it is. -/
theorem Value.tokens_append_inj : (value value' : Value) → {rest rest' : List Token} →
    value.tokens ++ rest = value'.tokens ++ rest' → value = value' ∧ rest = rest'
  | .str s, .str s', _, _, same => by simpa [Value.tokens] using same
  | .num n, .num n', _, _, same => by simpa [Value.tokens] using same
  | .arr items, .arr items', _, _, same => by
      simp only [Value.tokens, List.cons_append, List.append_assoc, List.nil_append, List.cons.injEq,
        true_and] at same
      obtain ⟨rfl, rfl⟩ := itemsTokens_append_inj items items' same
      exact ⟨rfl, rfl⟩
  | .obj members, .obj members', _, _, same => by
      simp only [Value.tokens, List.cons_append, List.append_assoc, List.nil_append, List.cons.injEq,
        true_and] at same
      obtain ⟨rfl, rfl⟩ := membersTokens_append_inj members members' same
      exact ⟨rfl, rfl⟩
  | .str _, .num _, _, _, same | .str _, .arr _, _, _, same | .str _, .obj _, _, _, same
  | .num _, .str _, _, _, same | .num _, .arr _, _, _, same | .num _, .obj _, _, _, same
  | .arr _, .str _, _, _, same | .arr _, .num _, _, _, same | .arr _, .obj _, _, _, same
  | .obj _, .str _, _, _, same | .obj _, .num _, _, _, same | .obj _, .arr _, _, _, same => by
      simp [Value.tokens] at same

theorem itemsTokens_append_inj : (items items' : List Value) → {rest rest' : List Token} →
    itemsTokens items ++ .rbracket :: rest = itemsTokens items' ++ .rbracket :: rest' →
    items = items' ∧ rest = rest'
  | [], [], _, _, same => by simpa [itemsTokens] using same
  | [], item :: _, _, _, same => by
      rw [itemsTokens, itemsTokens, List.append_assoc] at same
      exact absurd same.symm (item.tokens_ne (.inl rfl))
  | item :: _, [], _, _, same => by
      rw [itemsTokens, itemsTokens, List.append_assoc] at same
      exact absurd same (item.tokens_ne (.inl rfl))
  | item :: items, item' :: items', _, _, same => by
      rw [itemsTokens, itemsTokens, List.append_assoc, List.append_assoc] at same
      obtain ⟨rfl, more⟩ := Value.tokens_append_inj item item' same
      obtain ⟨rfl, rfl⟩ := moreItems_append_inj items items' more
      exact ⟨rfl, rfl⟩

theorem moreItems_append_inj : (items items' : List Value) → {rest rest' : List Token} →
    moreItems items ++ .rbracket :: rest = moreItems items' ++ .rbracket :: rest' →
    items = items' ∧ rest = rest'
  | [], [], _, _, same => by simpa [moreItems] using same
  | [], _ :: _, _, _, same | _ :: _, [], _, _, same => by simp [moreItems] at same
  | item :: items, item' :: items', _, _, same => by
      simp only [moreItems, List.cons_append, List.append_assoc, List.cons.injEq, true_and] at same
      obtain ⟨rfl, more⟩ := Value.tokens_append_inj item item' same
      obtain ⟨rfl, rfl⟩ := moreItems_append_inj items items' more
      exact ⟨rfl, rfl⟩

theorem memberTokens_append_inj : (member member' : List Char × Value) → {rest rest' : List Token} →
    memberTokens member ++ rest = memberTokens member' ++ rest' → member = member' ∧ rest = rest'
  | (key, value), (key', value'), _, _, same => by
      simp only [memberTokens, List.cons_append, List.cons.injEq, Token.str.injEq, true_and] at same
      obtain ⟨rfl, rest⟩ := same
      obtain ⟨rfl, rfl⟩ := Value.tokens_append_inj value value' rest
      exact ⟨rfl, rfl⟩

theorem membersTokens_append_inj : (members members' : List (List Char × Value)) →
    {rest rest' : List Token} →
    membersTokens members ++ .rbrace :: rest = membersTokens members' ++ .rbrace :: rest' →
    members = members' ∧ rest = rest'
  | [], [], _, _, same => by simpa [membersTokens] using same
  | [], (_, _) :: _, _, _, same | (_, _) :: _, [], _, _, same => by
      simp [membersTokens, memberTokens] at same
  | member :: members, member' :: members', _, _, same => by
      rw [membersTokens, membersTokens, List.append_assoc, List.append_assoc] at same
      obtain ⟨rfl, more⟩ := memberTokens_append_inj member member' same
      obtain ⟨rfl, rfl⟩ := moreMembers_append_inj members members' more
      exact ⟨rfl, rfl⟩

theorem moreMembers_append_inj : (members members' : List (List Char × Value)) →
    {rest rest' : List Token} →
    moreMembers members ++ .rbrace :: rest = moreMembers members' ++ .rbrace :: rest' →
    members = members' ∧ rest = rest'
  | [], [], _, _, same => by simpa [moreMembers] using same
  | [], _ :: _, _, _, same | _ :: _, [], _, _, same => by simp [moreMembers] at same
  | member :: members, member' :: members', _, _, same => by
      simp only [moreMembers, List.cons_append, List.append_assoc, List.cons.injEq, true_and] at same
      obtain ⟨rfl, more⟩ := memberTokens_append_inj member member' same
      obtain ⟨rfl, rfl⟩ := moreMembers_append_inj members members' more
      exact ⟨rfl, rfl⟩

end

/-- A text is JSON for a value. -/
def Reads (text : List Char) (value : Value) : Prop := tokenize text = some value.tokens

theorem Reads.unique {text : List Char} {value value' : Value} (first : Reads text value)
    (second : Reads text value') : value = value' := by
  have same : value.tokens ++ [] = value'.tokens ++ [] := by
    rw [List.append_nil, List.append_nil]
    exact Option.some.inj (first.symm.trans second)
  exact (Value.tokens_append_inj value value' same).1

theorem mem_itemsTokens {item : Value} {token : Token} {items : List Value} (listed : item ∈ items)
    (member : token ∈ item.tokens) : token ∈ itemsTokens items := by
  have later (rest : List Value) (found : item ∈ rest) : token ∈ moreItems rest := by
    induction rest with
    | nil => cases found
    | cons first rest ih =>
        rw [moreItems]
        refine List.mem_cons_of_mem _ (List.mem_append.mpr ?_)
        cases found with
        | head => exact .inl member
        | tail _ found => exact .inr (ih found)
  cases listed with
  | head => exact List.mem_append_left _ member
  | tail _ found => exact List.mem_append_right _ (later _ found)

/-! ## What the scanner accepts -/

/-- The strings that have been read, and the one that is being read, are plain. -/
structure Scanner.Clean (s : Scanner) : Prop where
  tokens : ∀ text, .str text ∈ s.tokens → ∀ c ∈ text, Plain c
  mode : ∀ read, s.mode = .string read → ∀ c ∈ read, Plain c

theorem Scanner.Clean.add {tokens : List Token} {mode mode' : Mode} {token : Token}
    (clean : Clean ⟨tokens, mode⟩) (plain : ∀ text, token = .str text → ∀ c ∈ text, Plain c)
    (next : ∀ read, mode' = .string read → read = []) : Clean ⟨tokens ++ [token], mode'⟩ where
  tokens text member := by
    rcases List.mem_append.mp member with old | new
    · exact clean.tokens text old
    · exact plain text (List.mem_singleton.mp new).symm
  mode read same c member := by
    rw [next read same] at member
    cases member

theorem Scanner.outside_clean {tokens : List Token} {mode : Mode} {c : Char} {s : Scanner}
    (clean : Clean ⟨tokens, mode⟩) (done : outside tokens c = some s) : Clean s := by
  have bare (next : Mode) (fresh : ∀ read, next = .string read → read = []) : Clean ⟨tokens, next⟩ :=
    ⟨clean.tokens, fun read same c member => by rw [fresh read same] at member; cases member⟩
  unfold outside at done
  split at done
  next =>
    cases done
    exact bare _ nofun
  next =>
    split at done
    next =>
      cases done
      exact bare _ fun read same => (Mode.string.inj same).symm
    next =>
      split at done
      next =>
        cases done
        exact bare _ nofun
      next =>
        obtain ⟨token, mark, rfl⟩ := Option.map_eq_some_iff.mp done
        refine clean.add (fun text same => ?_) nofun
        subst same
        unfold punctuation at mark
        split at mark <;> cases mark

theorem Scanner.step_clean {s s' : Scanner} {c : Char} (clean : s.Clean) (done : s.step c = some s') :
    s'.Clean := by
  unfold step at done
  split at done
  next between => exact outside_clean clean done
  next read string =>
    have before := clean.mode read string
    split at done
    next =>
      cases done
      exact clean.add (fun text same => Token.str.inj same ▸ before) nofun
    next =>
      split at done
      next plain =>
        cases done
        refine ⟨clean.tokens, fun text same d member => ?_⟩
        rw [← Mode.string.inj same] at member
        rcases List.mem_append.mp member with old | new
        · exact before d old
        · rw [List.mem_singleton.mp new]
          exact plain
      next => cases done
  next n number =>
    split at done
    next =>
      split at done
      next => cases done
      next =>
        cases done
        exact ⟨clean.tokens, fun read same => by cases same⟩
    next =>
      have numbered : Clean ⟨s.tokens ++ [.num n], .between⟩ :=
        clean.add (fun _ same => by cases same) fun _ same => by cases same
      exact outside_clean numbered done

/-- Every string of a text that is read is plain. -/
theorem tokenize_plain {text : List Char} {tokens : List Token} (done : tokenize text = some tokens)
    {s : List Char} (member : .str s ∈ tokens) : ∀ c ∈ s, Plain c := by
  obtain ⟨last, scanned, finished⟩ := Option.bind_eq_some_iff.mp done
  have start : Scanner.Clean ⟨[], .between⟩ :=
    ⟨fun _ member => absurd member List.not_mem_nil, fun _ same => by cases same⟩
  have clean : last.Clean := run_preserves text
    (fun _ _ _ _ clean stepped => Scanner.step_clean clean stepped) start scanned
  unfold Scanner.finish at finished
  split at finished
  next =>
    cases finished
    exact clean.tokens s member
  next => cases finished
  next n _ =>
    cases finished
    have numbered : Scanner.Clean ⟨last.tokens ++ [.num n], .between⟩ :=
      clean.add (fun _ same => by cases same) fun _ same => by cases same
    exact numbered.tokens s member

/-! ## Scanning a formatted text -/

/-- The scanner comes from one state to another over a text. -/
def Scans (s : Scanner) (text : List Char) (s' : Scanner) : Prop := run Scanner.step s text = some s'

theorem Scans.append {s s₁ s' : Scanner} {front rest : List Char} (first : Scans s front s₁)
    (second : Scans s₁ rest s') : Scans s (front ++ rest) s' :=
  run_append_eq_some.mpr ⟨s₁, first, second⟩

theorem Scans.trans {s s₁ s' : Scanner} {text : List Char} (scans : Scans s text s₁) (same : s₁ = s') :
    Scans s text s' :=
  same ▸ scans

theorem Scans.piece {s s₁ s' : Scanner} {piece : Piece} {rest : List Piece}
    (first : Scans s piece.render s₁) (second : Scans s₁ (format rest) s') :
    Scans s (format (piece :: rest)) s' :=
  first.append second

theorem Scans.pieces {s s₁ s' : Scanner} {front rest : List Piece} (first : Scans s (format front) s₁)
    (second : Scans s₁ (format rest) s') : Scans s (format (front ++ rest)) s' := by
  rw [format, List.flatMap_append]
  exact first.append second

theorem scans_plain {tokens : List Token} (read text : List Char) (plain : ∀ c ∈ text, Plain c) :
    Scans ⟨tokens, .string read⟩ text ⟨tokens, .string (read ++ text)⟩ := by
  induction text generalizing read with
  | nil =>
      rw [List.append_nil]
      rfl
  | cons c rest ih =>
      have here := plain c List.mem_cons_self
      have stepped : Scanner.step ⟨tokens, .string read⟩ c = some ⟨tokens, .string (read ++ [c])⟩ := by
        simp only [Scanner.step, here.1, here, if_false, if_true]
      refine run_cons_eq_some.mpr ⟨_, stepped, ?_⟩
      have split : read ++ c :: rest = read ++ [c] ++ rest := by simp
      rw [split]
      exact ih (read ++ [c]) fun c member => plain c (List.mem_cons_of_mem _ member)

theorem digitChar_digit : ∀ d < 10,
    ¬ (Nat.digitChar d = ' ' ∨ Nat.digitChar d = '\n' ∨ Nat.digitChar d = '\r' ∨
      Nat.digitChar d = '\t') ∧ Nat.digitChar d ≠ '"' ∧ (Nat.digitChar d).isDigit = true ∧
      (Nat.digitChar d).toNat - 48 = d := by
  decide

theorem scans_digits (tokens : List Token) (n : Nat) :
    Scans ⟨tokens, .between⟩ (Nat.toDigits 10 n) ⟨tokens, .number n⟩ := by
  induction n using Nat.strongRecOn with
  | ind n ih =>
      by_cases small : n < 10
      · obtain ⟨visible, unquoted, digit, value⟩ := digitChar_digit n small
        rw [Nat.toDigits_of_lt_base small]
        refine run_cons_eq_some.mpr ⟨⟨tokens, .number n⟩, ?_, rfl⟩
        simp only [Scanner.step, Scanner.outside, visible, if_false, unquoted, digit, if_true, value]
      · obtain ⟨_, _, digit, value⟩ := digitChar_digit (n % 10) (Nat.mod_lt _ (by decide))
        have positive : n / 10 ≠ 0 := by omega
        have whole : 10 * (n / 10) + n % 10 = n := Nat.div_add_mod n 10
        rw [Nat.toDigits_of_base_le (by decide) (by omega)]
        refine (ih (n / 10) (by omega)).append (run_cons_eq_some.mpr ⟨⟨tokens, .number n⟩, ?_, rfl⟩)
        simp only [Scanner.step, digit, if_true, positive, if_false, value, whole]

end Mlvpn.Library.Json
