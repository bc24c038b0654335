import Mlvpn.Wire.Proto

/-! # The round trip time

A datagram carries the time it was sent at, in milliseconds modulo `2 ^ 16`, and the last
such time that was received, advanced by how long it was held.  The value `0xFFFF` stands
for no time and is left out by the clock, so a stamp can be one millisecond late.
-/

namespace Mlvpn

theorem timestamp16_toNat (now : UInt64) :
    (timestamp16 now).toNat = if now.toNat % 65536 = 65535 then 0 else now.toNat % 65536 := by
  have below : now.toNat % 65536 < 65536 := Nat.mod_lt _ (by decide)
  have low : (UInt16.ofNat (now.toNat % 65536)).toNat = now.toNat % 65536 :=
    UInt16.toNat_ofNat_of_lt' below
  unfold timestamp16
  simp only [← UInt16.toNat_inj, low, apply_ite UInt16.toNat, UInt16.toNat_add, UInt16.reduceToNat]
  by_cases sentinel : now.toNat % 65536 = 65535
  · simp [sentinel]
  · simp [sentinel]

theorem timestamp16_ne (now : UInt64) : timestamp16 now ≠ 0xFFFF := by
  intro sentinel
  have stamp := timestamp16_toNat now
  simp only [sentinel, UInt16.reduceToNat] at stamp
  split at stamp <;> omega

/-- A difference modulo `2 ^ 16`. -/
theorem timestamp16Diff_toNat (tsnew tsold : UInt16) :
    (timestamp16Diff tsnew tsold).toNat = (tsnew.toNat + 65536 - tsold.toNat) % 65536 := by
  have new := tsnew.toNat_lt
  have old := tsold.toNat_lt
  unfold timestamp16Diff
  simp only [UInt16.toNat_ofNat']
  split <;> omega

/-- What is stored of a datagram that was sent. -/
theorem protocolMeasure_stamp (sender peer : Tunnel) (dataSeq t₀ p₀ : UInt64) (pkt : Pkt) :
    (protocolMeasure peer p₀ (sendHeader sender dataSeq t₀ pkt).1).savedTimestamp.toNat =
        (timestamp16 t₀).toNat ∧
      (protocolMeasure peer p₀ (sendHeader sender dataSeq t₀ pkt).1).savedTimestampReceivedAt = p₀ := by
  have stamped : (sendHeader sender dataSeq t₀ pkt).1.timestamp ≠ 0xFFFF := timestamp16_ne t₀
  have small : (timestamp16 t₀).toNat < 2 ^ 64 := (timestamp16 t₀).toNat_lt.trans (by decide)
  have updated : ∀ (t : Tunnel) (sample : ℚ),
      (rttUpdate t sample).savedTimestamp = t.savedTimestamp ∧
        (rttUpdate t sample).savedTimestampReceivedAt = t.savedTimestampReceivedAt := by
    intro t sample
    unfold rttUpdate
    split <;> exact ⟨rfl, rfl⟩
  unfold protocolMeasure
  simp only [stamped, ne_eq, not_false_eq_true, if_true]
  split
  · split
    · rw [(updated _ _).1, (updated _ _).2]
      exact ⟨UInt64.toNat_ofNat_of_lt' small, rfl⟩
    · exact ⟨UInt64.toNat_ofNat_of_lt' small, rfl⟩
  · exact ⟨UInt64.toNat_ofNat_of_lt' small, rfl⟩

/-- What is replied to a time that has been held. -/
theorem sendHeader_reply (t : Tunnel) (dataSeq : UInt64) (pkt : Pkt) {h : Nat} (held : h < 1000) :
    (sendHeader t dataSeq (t.savedTimestampReceivedAt + UInt64.ofNat h) pkt).1.timestampReply.toNat =
      (t.savedTimestamp.toNat + h) % 65536 := by
  have since : t.savedTimestampReceivedAt + UInt64.ofNat h - t.savedTimestampReceivedAt =
      UInt64.ofNat h := by
    rw [UInt64.add_comm, UInt64.add_sub_cancel]
  have small : (UInt64.ofNat h).toNat = h := by
    rw [UInt64.toNat_ofNat']
    omega
  have recent : UInt64.ofNat h < 1000 := by
    rw [UInt64.lt_iff_toNat_lt, small]
    exact held
  simp only [sendHeader, since, recent, if_true, UInt16.toNat_ofNat', UInt64.toNat_add, small]
  omega

/-- A sample is the round trip time up to a millisecond, and one below five seconds is not
    passed over. -/
theorem rtt_sample_accurate (sender peer : Tunnel) (dataSeq dataSeq' t₀ p₀ : UInt64) (pkt pkt' : Pkt)
    {h d : Nat} (held : h < 1000) (trip : d < 65535) :
    let stored := protocolMeasure peer p₀ (sendHeader sender dataSeq t₀ pkt).1
    let reply := (sendHeader stored dataSeq' (p₀ + UInt64.ofNat h) pkt').1.timestampReply
    let sample := timestamp16Diff (timestamp16 (t₀ + UInt64.ofNat (h + d))) reply
    reply ≠ 0xFFFF →
      (sample < 5000 → |(sample.toNat : Int) - d| ≤ 1) ∧ (1 ≤ d → d ≤ 4998 → sample < 5000) := by
  intro stored reply sample _
  obtain ⟨stamp, received⟩ := protocolMeasure_stamp sender peer dataSeq t₀ p₀ pkt
  have replied : reply.toNat = ((timestamp16 t₀).toNat + h) % 65536 := by
    have sent := sendHeader_reply stored dataSeq' pkt' held
    rw [received, stamp] at sent
    exact sent
  have later : (t₀ + UInt64.ofNat (h + d)).toNat % 65536 = (t₀.toNat + h + d) % 65536 := by
    rw [UInt64.toNat_add, UInt64.toNat_ofNat']
    omega
  have first := timestamp16_toNat t₀
  have second := timestamp16_toNat (t₀ + UInt64.ofNat (h + d))
  have difference : sample.toNat = _ := timestamp16Diff_toNat _ _
  rw [replied] at difference
  rw [later] at second
  simp only [UInt16.lt_iff_toNat_lt, UInt16.reduceToNat, abs_le]
  -- each of the two stamps is the clock, or one more where the clock shows the sentinel
  split at first <;> split at second <;> omega

/-- The first stamp skips the sentinel, so that the sample is a millisecond short. -/
theorem rtt_sample_at_wrap :
    let pkt : Pkt := .zero
    let stored := protocolMeasure .blank 7 (sendHeader .blank 0 65535 pkt).1
    let reply := (sendHeader stored 0 (7 + UInt64.ofNat 10) pkt).1.timestampReply
    let sample := timestamp16Diff (timestamp16 (65535 + UInt64.ofNat (10 + 100))) reply
    sample = 99 ∧ (sample < 5000 → |(sample.toNat : Int) - (100 : Nat)| ≤ 1) ∧
      (1 ≤ 100 → 100 ≤ 4998 → sample < 5000) :=
  ⟨by decide +kernel,
    rtt_sample_accurate .blank .blank 0 0 65535 7 .zero .zero (by decide) (by decide) (by decide +kernel)⟩

end Mlvpn
