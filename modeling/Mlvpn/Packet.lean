import Mathlib.Logic.Function.Basic

/-! # Packets

`pkt.h`: the packet as the program queues it.  A received header carries six
bits of packet type, so types outside the enumeration are kept by their code.
-/

namespace Mlvpn

/-- `MLVPN_PKT_*`, and every other value a `uint8_t` type can have. -/
inductive PktType where
  | auth
  | authOk
  | keepalive
  | data
  | disconnect
  | other (code : Nat)
  deriving Repr, DecidableEq

namespace PktType

/-- The value stored in the `flags` bit-field. -/
def code : PktType → Nat
  | .auth => 0
  | .authOk => 1
  | .keepalive => 2
  | .data => 3
  | .disconnect => 4
  | .other code => code

def ofCode : Nat → PktType
  | 0 => .auth
  | 1 => .authOk
  | 2 => .keepalive
  | 3 => .data
  | 4 => .disconnect
  | code => .other code

/-- One of the five types the program sends. -/
def Known : PktType → Prop
  | .other _ => False
  | _ => True

theorem ofCode_code {type : PktType} (known : type.Known) : ofCode type.code = type := by
  cases type <;> first | rfl | exact known.elim

theorem code_ofCode (code : Nat) : (ofCode code).code = code := by
  unfold ofCode
  split <;> rfl

theorem code_lt {type : PktType} (known : type.Known) : type.code < 5 := by
  cases type <;> first | decide | exact known.elim

/-- The bit-field is wide enough for it. -/
theorem ofCode_code_mod {type : PktType} (known : type.Known) : ofCode (type.code % 64) = type := by
  rw [Nat.mod_eq_of_lt (by have := code_lt known; omega), ofCode_code known]

end PktType

/-- `mlvpn_pkt_t`.  `data` lists the bytes written to the array; what follows
    them is zero. -/
structure Pkt where
  len : Nat
  type : PktType
  reorder : Bool
  seq : UInt64
  data : List UInt8
  deriving Repr, DecidableEq

/-- A packet cleared by `calloc` or `memset`. -/
def Pkt.zero : Pkt := { len := 0, type := .auth, reorder := false, seq := 0, data := [] }

/-- The first `n` bytes of a packet's array. -/
def Pkt.bytes (pkt : Pkt) (n : Nat) : List UInt8 :=
  pkt.data.take n ++ List.replicate (n - pkt.data.length) 0

/-- The array of `dst` after `memcpy` of `n` bytes of `src` to its start. -/
def Pkt.copyData (dst src : Pkt) (n : Nat) : List UInt8 := src.bytes n ++ dst.data.drop n

def defaultMtu : Nat := 1500

/-- `PKTBUFSIZE`: the capacity of every packet queue. -/
def pktbufsize : Nat := 1024

end Mlvpn
