import Mathlib.Tactic.Ring

/-! # Numbers as bytes

Fixed-width encodings of natural numbers in both byte orders, and fields at
fixed offsets of a byte string.
-/

namespace Mlvpn.Library.Bytes

/-- The `n` low bytes of `x`, least significant first. -/
def leBytes : Nat → Nat → List UInt8
  | 0, _ => []
  | n + 1, x => UInt8.ofNat x :: leBytes n (x / 256)

def ofLe : List UInt8 → Nat
  | [] => 0
  | b :: rest => b.toNat + 256 * ofLe rest

/-- The `n` low bytes of `x`, most significant first. -/
def beBytes (n x : Nat) : List UInt8 := (leBytes n x).reverse

def ofBe (bytes : List UInt8) : Nat := ofLe bytes.reverse

@[simp] theorem leBytes_length (n x : Nat) : (leBytes n x).length = n := by
  induction n generalizing x with
  | zero => rfl
  | succ n ih => rw [leBytes, List.length_cons, ih]

@[simp] theorem beBytes_length (n x : Nat) : (beBytes n x).length = n := by
  rw [beBytes, List.length_reverse, leBytes_length]

theorem ofLe_leBytes (n x : Nat) : ofLe (leBytes n x) = x % 256 ^ n := by
  induction n generalizing x with
  | zero => rw [leBytes, ofLe, pow_zero, Nat.mod_one]
  | succ n ih =>
      have low : (UInt8.ofNat x).toNat = x % 256 := by simp
      rw [leBytes, ofLe, ih, low, pow_succ', Nat.mod_mul]

theorem ofLe_leBytes_of_lt {n x : Nat} (small : x < 256 ^ n) : ofLe (leBytes n x) = x := by
  rw [ofLe_leBytes, Nat.mod_eq_of_lt small]

theorem ofBe_beBytes_of_lt {n x : Nat} (small : x < 256 ^ n) : ofBe (beBytes n x) = x := by
  rw [ofBe, beBytes, List.reverse_reverse, ofLe_leBytes_of_lt small]

/-- The order in which a host stores the bytes of a number. -/
inductive Endian where
  | little
  | big
  deriving Repr, DecidableEq

def hostBytes : Endian → Nat → Nat → List UInt8
  | .little => leBytes
  | .big => beBytes

def ofHost : Endian → List UInt8 → Nat
  | .little => ofLe
  | .big => ofBe

@[simp] theorem hostBytes_length (e : Endian) (n x : Nat) : (hostBytes e n x).length = n := by
  cases e
  · exact leBytes_length n x
  · exact beBytes_length n x

theorem ofHost_hostBytes {e : Endian} {n x : Nat} (small : x < 256 ^ n) :
    ofHost e (hostBytes e n x) = x := by
  cases e
  · exact ofLe_leBytes_of_lt small
  · exact ofBe_beBytes_of_lt small

theorem hostBytes_injective {e : Endian} {n x y : Nat} (smallX : x < 256 ^ n)
    (smallY : y < 256 ^ n) (same : hostBytes e n x = hostBytes e n y) : x = y := by
  rw [← ofHost_hostBytes (e := e) smallX, same, ofHost_hostBytes smallY]

/-- The `n` bytes from `offset` on. -/
def field (bytes : List UInt8) (offset n : Nat) : List UInt8 := (bytes.drop offset).take n

theorem drop_right {bytes rest : List UInt8} {offset : Nat} (past : bytes.length ≤ offset) :
    (bytes ++ rest).drop offset = rest.drop (offset - bytes.length) := by
  rw [List.drop_append, List.drop_eq_nil_of_le past, List.nil_append]

theorem field_left {bytes rest : List UInt8} {n : Nat} (whole : bytes.length = n) :
    field (bytes ++ rest) 0 n = bytes := by
  rw [field, List.drop_zero, List.take_left' whole]

theorem field_right {bytes rest : List UInt8} {offset n : Nat} (past : bytes.length ≤ offset) :
    field (bytes ++ rest) offset n = field rest (offset - bytes.length) n := by
  rw [field, drop_right past, field]

theorem field_take {bytes : List UInt8} {offset n m : Nat} (inside : offset + n ≤ m) :
    field (bytes.take m) offset n = field bytes offset n := by
  rw [field, List.drop_take, List.take_take, Nat.min_eq_left (by omega), field]

end Mlvpn.Library.Bytes
