import Mathlib.Data.Nat.Digits.Defs
import Mathlib.Data.Int.Notation

/-! # Formatted text

A format is a list of pieces: text of its own, and conversions with their arguments.  What
`snprintf` stores is cut to the array, but what it returns is the length of the whole text.
-/

namespace Mlvpn.Library.Printf

inductive Piece where
  | text (s : String)
  /-- `%s` -/
  | string (s : String)
  /-- `%u` -/
  | unsigned (n : Nat)
  /-- `%d` -/
  | signed (n : Int)

def Piece.render : Piece → List Char
  | .text s => s.toList
  | .string s => s.toList
  | .unsigned n => Nat.toDigits 10 n
  | .signed n => if n < 0 then '-' :: Nat.toDigits 10 n.natAbs else Nat.toDigits 10 n.natAbs

def format (pieces : List Piece) : List Char := pieces.flatMap Piece.render

/-- The text in an array of `size` characters, which ends with a NUL, and the result. -/
def snprintf (size : Nat) (pieces : List Piece) : List Char × Nat :=
  ((format pieces).take (size - 1), (format pieces).length)

/-- The digits of a number. -/
def digits (n : Nat) : Nat := (Nat.toDigits 10 n).length

theorem digits_zero : digits 0 = 1 := rfl

theorem digits_le {n k : Nat} (positive : 0 < k) (below : n < 10 ^ k) : digits n ≤ k :=
  Nat.toDigits_length 10 n k positive below

theorem digits_mod_le (n : Nat) : digits (n % 2 ^ 32) ≤ 10 := digits_le (by decide) (by omega)

theorem digits_toNat_le (n : UInt64) : digits n.toNat ≤ 20 :=
  digits_le (by decide) (Nat.lt_trans n.toNat_lt (by decide))

/-- The characters of the format itself. -/
def templateLength : List Piece → Nat
  | [] => 0
  | .text s :: rest => s.length + templateLength rest
  | _ :: rest => templateLength rest

/-- The characters of the arguments. -/
def argumentLength : List Piece → Nat
  | [] => 0
  | .text _ :: rest => argumentLength rest
  | .string s :: rest => s.length + argumentLength rest
  | .unsigned n :: rest => digits n + argumentLength rest
  | .signed n :: rest => (if n < 0 then 1 else 0) + digits n.natAbs + argumentLength rest

theorem snprintf_returns (size : Nat) (pieces : List Piece) :
    (snprintf size pieces).2 = templateLength pieces + argumentLength pieces := by
  have whole : (format pieces).length = templateLength pieces + argumentLength pieces := by
    induction pieces with
    | nil => rfl
    | cons piece rest ih =>
        have split : (format (piece :: rest)).length = piece.render.length + (format rest).length := by
          simp [format]
        rw [split, ih]
        cases piece with
        | text s => simp [Piece.render, templateLength, argumentLength, String.length_toList, Nat.add_assoc]
        | string s =>
            simp only [Piece.render, templateLength, argumentLength, String.length_toList]
            omega
        | unsigned n =>
            simp only [Piece.render, templateLength, argumentLength, digits]
            omega
        | signed n =>
            simp only [Piece.render, templateLength, argumentLength, digits]
            split_ifs
            · rw [List.length_cons]
              omega
            · omega
  exact whole

end Mlvpn.Library.Printf
