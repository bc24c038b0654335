import Mlvpn.Library.Bytes

/-! # Encryption

`crypto.c` hands messages to the secretbox of libsodium under one key.  The box
is a parameter: what is assumed of it is stated where it is used.
-/

namespace Mlvpn

open Library.Bytes

/-- `crypto_secretbox_easy` and `crypto_secretbox_open_easy`, given a nonce and
    the bytes; `none` is a return value other than zero. -/
structure Secretbox (κ : Type) where
  easy : κ → List UInt8 → List UInt8 → Option (List UInt8)
  openEasy : κ → List UInt8 → List UInt8 → Option (List UInt8)

/-- `crypto_PADSIZE`. -/
def padsize : Nat := 16

/-- Sealing a message succeeds, adds the authenticator, and is undone by opening. -/
def Secretbox.OpensAt {κ : Type} (box : Secretbox κ) (key : κ) (nonce message : List UInt8) : Prop :=
  ∃ sealed, box.easy key nonce message = some sealed ∧
    sealed.length = message.length + padsize ∧ box.openEasy key nonce sealed = some message

/-- Sealing succeeds, adds the authenticator, and is undone by opening. -/
structure Secretbox.Correct {κ : Type} (box : Secretbox κ) : Prop where
  opens : ∀ key nonce message, ∃ sealed, box.easy key nonce message = some sealed ∧
    sealed.length = message.length + padsize ∧ box.openEasy key nonce sealed = some message

/-- A box that hides nothing: the assumption can be met. -/
def plainBox : Secretbox Unit where
  easy _ _ message := some (message ++ List.replicate padsize 0)
  openEasy _ _ sealed :=
    if padsize ≤ sealed.length then some (sealed.take (sealed.length - padsize)) else none

theorem plainBox_correct : plainBox.Correct where
  opens _ _ message := by
    refine ⟨_, rfl, ?_, ?_⟩
    · rw [List.length_append, List.length_replicate]
    · simp [plainBox]

/-- What does not change while a process runs: its byte order and its key. -/
structure Host (κ : Type) where
  endian : Endian
  box : Secretbox κ
  key : κ

variable {κ : Type}

/-- `crypto_encrypt`. -/
def cryptoEncrypt (host : Host κ) (message nonce : List UInt8) : Option (List UInt8) :=
  host.box.easy host.key nonce message

/-- `crypto_decrypt`. -/
def cryptoDecrypt (host : Host κ) (sealed nonce : List UInt8) : Option (List UInt8) :=
  host.box.openEasy host.key nonce sealed

/-- The nonce of 24 bytes: the sequence number of the tunnel and its flow, as the
    host stores them, and zeros. -/
def nonce (e : Endian) (seq : UInt64) (flowId : UInt32) : List UInt8 :=
  hostBytes e 8 seq.toNat ++ hostBytes e 4 flowId.toNat ++ List.replicate 12 0

theorem nonce_injective {e : Endian} {seq seq' : UInt64} {flowId flowId' : UInt32}
    (same : nonce e seq flowId = nonce e seq' flowId') : seq = seq' ∧ flowId = flowId' := by
  have both := List.append_cancel_right same
  obtain ⟨seqs, flows⟩ := List.append_inj both (by rw [hostBytes_length, hostBytes_length])
  refine ⟨UInt64.toNat_inj.mp (hostBytes_injective ?_ ?_ seqs),
    UInt32.toNat_inj.mp (hostBytes_injective ?_ ?_ flows)⟩
  · exact seq.toNat_lt
  · exact seq'.toNat_lt
  · exact flowId.toNat_lt
  · exact flowId'.toNat_lt

end Mlvpn
