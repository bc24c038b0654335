import Mlvpn.Wire.Proto

/-! # What the reader of a datagram accepts

The length that a header declares is compared with the size of the payload
array, not with the bytes that arrived: the structure is cleared before the
datagram is copied into it, and the missing bytes read as zeros.
-/

namespace Mlvpn

open Library.Bytes

variable {κ : Type}

/-- The length field of the header. -/
def declaredLen (host : Host κ) (datagram : List UInt8) : Nat :=
  (Proto.decode host.endian datagram).len.toNat

/-- The bytes behind the header. -/
def presentLen (datagram : List UInt8) : Nat := datagram.length - pkthdrsiz

/-- `crypto_decrypt` is called for the datagram, and refuses the payload of the
    declared length. -/
def Undecipherable (host : Host κ) (cleartextData : Bool) (datagram : List UInt8) : Prop :=
  let proto := Proto.decode host.endian datagram
  ¬ (cleartextData = true ∧ proto.flags = PktType.data.code) ∧
    cryptoDecrypt host (proto.payload proto.len.toNat) (nonce host.endian proto.seq proto.flowId) =
      none

/-- The declared length is present, or the datagram is refused on other grounds:
    its size, an empty or oversized payload, or its authenticator. -/
def Framed (host : Host κ) (cleartextData : Bool) (datagram : List UInt8) : Prop :=
  declaredLen host datagram ≤ presentLen datagram ∨
    datagram.length < pkthdrsiz ∨ datagram.length > defaultMtu ∨
    declaredLen host datagram = 0 ∨ declaredLen host datagram > defaultMtu ∨
    Undecipherable host cleartextData datagram

theorem protocolOpen_eq_none_iff {host : Host κ} {cleartextData : Bool} {datagram : List UInt8} :
    protocolOpen host cleartextData (Proto.decode host.endian datagram) = none ↔
      Undecipherable host cleartextData datagram := by
  by_cases clear : cleartextData = true ∧
      (Proto.decode host.endian datagram).flags = PktType.data.code
  · simp [protocolOpen, Undecipherable, clear]
  · simp [protocolOpen, Undecipherable, clear]

/-- A refused datagram leaves the tunnel as it was. -/
theorem protocolRead_refused {host : Host κ} {cleartextData : Bool} {now64 : UInt64} {t : Tunnel}
    {datagram : List UInt8} (refused : (protocolRead host cleartextData now64 t datagram).1 = none) :
    (protocolRead host cleartextData now64 t datagram).2 = t := by
  revert refused
  simp only [protocolRead]
  split
  · exact fun _ => rfl
  · split
    · exact fun _ => rfl
    · split
      · exact fun _ => rfl
      · intro refused
        cases refused

theorem protocolRead_eq_none_iff {host : Host κ} {cleartextData : Bool} (now64 : UInt64)
    (t : Tunnel) {datagram : List UInt8} :
    (protocolRead host cleartextData now64 t datagram).1 = none ↔
      datagram.length < pkthdrsiz ∨ datagram.length > defaultMtu ∨
        declaredLen host datagram = 0 ∨ declaredLen host datagram > defaultMtu ∨
        Undecipherable host cleartextData datagram := by
  have zero : (Proto.decode host.endian datagram).len = 0 ↔ declaredLen host datagram = 0 := by
    rw [← UInt16.toNat_inj]
    rfl
  simp only [protocolRead]
  split
  next misfit => exact ⟨fun _ => by simp only [defaultMtu] at misfit ⊢; omega, fun _ => rfl⟩
  next fits =>
    have inside : ¬ datagram.length < pkthdrsiz ∧ ¬ datagram.length > defaultMtu := by omega
    split
    next undeclared =>
      rw [zero] at undeclared
      exact ⟨fun _ => .inr (.inr (undeclared.imp_right .inl)), fun _ => rfl⟩
    next declared =>
      rw [zero, not_or] at declared
      simp only [inside.1, inside.2, declared.1, false_or]
      have bounded : ¬ declaredLen host datagram > defaultMtu := declared.2
      rw [← protocolOpen_eq_none_iff]
      simp only [bounded, false_or]
      split
      next none => exact ⟨fun _ => none, fun _ => rfl⟩
      next some => simp [some]

/-- A datagram is accepted only with its whole payload exactly when it is framed;
    and one that is refused leaves no trace. -/
theorem accepted_whole_iff_framed (host : Host κ) (cleartextData : Bool) (now64 : UInt64)
    (t : Tunnel) (datagram : List UInt8) :
    (((protocolRead host cleartextData now64 t datagram).1 ≠ none →
        declaredLen host datagram ≤ presentLen datagram ∧
          (Proto.decode host.endian datagram).payload (declaredLen host datagram) =
            field datagram pkthdrsiz (declaredLen host datagram)) ↔
      Framed host cleartextData datagram) ∧
    ((protocolRead host cleartextData now64 t datagram).1 = none →
      (protocolRead host cleartextData now64 t datagram).2 = t) := by
  have whole : declaredLen host datagram ≤ presentLen datagram →
      (Proto.decode host.endian datagram).payload (declaredLen host datagram) =
        field datagram pkthdrsiz (declaredLen host datagram) := by
    intro present
    have enough : declaredLen host datagram - (datagram.drop pkthdrsiz).length = 0 := by
      rw [List.length_drop]
      exact Nat.sub_eq_zero_of_le present
    rw [Proto.payload, field]
    simp only [Proto.decode, enough, List.replicate_zero, List.append_nil]
  refine ⟨?_, protocolRead_refused⟩
  rw [Framed, ← protocolRead_eq_none_iff now64 t]
  constructor
  · intro accepted
    by_cases refused : (protocolRead host cleartextData now64 t datagram).1 = none
    · exact .inr refused
    · exact .inl (accepted refused).1
  · rintro (present | refused) accepted
    · exact ⟨present, whole present⟩
    · exact absurd refused accepted

/-- A header of type DATA and nothing else, which declares 100 bytes. -/
def emptyDatagram : List UInt8 :=
  Proto.encode .little
    { len := 100, version := 1, flags := 3, reorder := 1, unused := 0, timestamp := 0
      timestampReply := 0xFFFF, flowId := 1, seq := 1, dataSeq := 7, data := [] }

/-- With `cleartext_data` it is accepted as a packet of 100 bytes, all of them zeros. -/
theorem empty_datagram_accepted :
    emptyDatagram.length = 28 ∧ declaredLen ⟨.little, plainBox, ()⟩ emptyDatagram = 100 ∧
      (protocolRead ⟨.little, plainBox, ()⟩ true 0
          (Tunnel.init ⟨"adsl", none, none, 0, none, none, 30, 0, 0, 100, 1000⟩ true 1 0)
          emptyDatagram).1 =
        some (false, ⟨100, .data, true, 7, List.replicate 100 0⟩) := by
  decide +kernel

end Mlvpn
