import Mlvpn.Wire.Proto

/-! # Reading back what was sent

The header decodes to what was encoded on a host of either byte order, and the
reader of a datagram undoes its sender.
-/

namespace Mlvpn

open Library.Bytes

namespace Proto

/-- The bit-fields hold values of their width. -/
structure Narrow (p : Proto) : Prop where
  version : p.version < 16
  flags : p.flags < 64
  reorder : p.reorder < 2
  unused : p.unused < 32

variable {e : Endian} {p : Proto}

theorem bits_lt (e : Endian) (p : Proto) : p.bits e < 256 ^ 2 := by
  cases e <;> simp only [bits] <;> omega

theorem encode_length (e : Endian) (p : Proto) :
    (p.encode e).length = pkthdrsiz + p.data.length := by
  simp only [encode, List.length_append, beBytes_length, hostBytes_length, pkthdrsiz]
  omega

/-- A header field is read back from its offset. -/
theorem ofBe_field {n x offset : Nat} {bytes : List UInt8} (small : x < 256 ^ n)
    (there : field bytes offset n = beBytes n x) : ofBe (field bytes offset n) = x := by
  rw [there, ofBe_beBytes_of_lt small]

theorem word_encode : ofHost e (field (p.encode e) 2 2) = p.bits e := by
  have there : field (p.encode e) 2 2 = hostBytes e 2 (p.bits e) := by
    simp [encode, field_left, field_right]
  rw [there]
  exact ofHost_hostBytes (bits_lt e p)

theorem decode_encode (narrow : p.Narrow) : decode e (p.encode e) = p := by
  obtain ⟨version, flags, reorder, unused⟩ := narrow
  have word := word_encode (e := e) (p := p)
  have len : ofBe (field (p.encode e) 0 2) = p.len.toNat :=
    ofBe_field p.len.toNat_lt (by simp [encode, field_left])
  have timestamp : ofBe (field (p.encode e) 4 2) = p.timestamp.toNat :=
    ofBe_field p.timestamp.toNat_lt (by simp [encode, field_left, field_right])
  have timestampReply : ofBe (field (p.encode e) 6 2) = p.timestampReply.toNat :=
    ofBe_field p.timestampReply.toNat_lt (by simp [encode, field_left, field_right])
  have flowId : ofBe (field (p.encode e) 8 4) = p.flowId.toNat :=
    ofBe_field p.flowId.toNat_lt (by simp [encode, field_left, field_right])
  have seq : ofBe (field (p.encode e) 12 8) = p.seq.toNat :=
    ofBe_field p.seq.toNat_lt (by simp [encode, field_left, field_right])
  have dataSeq : ofBe (field (p.encode e) 20 8) = p.dataSeq.toNat :=
    ofBe_field p.dataSeq.toNat_lt (by simp [encode, field_left, field_right])
  have data : (p.encode e).drop pkthdrsiz = p.data := by
    simp [encode, pkthdrsiz, drop_right]
  simp only [decode, word, len, timestamp, timestampReply, flowId, seq, dataSeq, data,
    UInt16.ofNat_toNat, UInt32.ofNat_toNat, UInt64.ofNat_toNat]
  cases p
  simp only at version flags reorder unused
  cases e <;> simp only [bits, Proto.mk.injEq, true_and, and_true] <;> omega

/-- The bit-fields stand in the first four bytes. -/
theorem word_take {bytes : List UInt8} {n : Nat} (header : 4 ≤ n) :
    ofHost e (field (bytes.take n) 2 2) = ofHost e (field bytes 2 2) := by
  rw [show field (bytes.take n) 2 2 = field bytes 2 2 from field_take header]

theorem decode_take_flags {bytes : List UInt8} {n : Nat} (header : 4 ≤ n) :
    (decode e (bytes.take n)).flags = (decode e bytes).flags := by
  simp only [decode, word_take header]

theorem payload_eq {n : Nat} (whole : p.data.length = n) : p.payload n = p.data := by
  rw [payload, ← whole, List.take_length, Nat.sub_self, List.replicate_zero, List.append_nil]

end Proto

theorem Pkt.bytes_length (pkt : Pkt) (n : Nat) : (pkt.bytes n).length = n := by
  simp only [Pkt.bytes, List.length_append, List.length_take, List.length_replicate]
  omega

/-- A packet as the program queues it. -/
structure Pkt.Queueable (pkt : Pkt) : Prop where
  known : pkt.type.Known
  data : pkt.type = .data → 1 ≤ pkt.len ∧ pkt.len ≤ maxmtu
  control : pkt.type ≠ .data → pkt.len = 0 ∨ pkt.len = 2

variable {κ : Type} {host : Host κ} {pkt : Pkt}

theorem Pkt.Queueable.len_le (queueable : pkt.Queueable) : pkt.len ≤ 1444 := by
  by_cases isData : pkt.type = .data
  · exact (queueable.data isData).2
  · have := queueable.control isData
    omega

/-- The payload is sent in clear with its own length, or sealed with 16 bytes
    more, and opens to what it was. -/
theorem sendPayload_opens (cleartextData : Bool) (queueable : pkt.Queueable) (proto : Proto)
    (opens : host.box.OpensAt host.key (nonce host.endian proto.seq proto.flowId)
      (pkt.bytes pkt.len))
    (len : proto.len = UInt16.ofNat pkt.len) (flags : proto.flags = pkt.type.code) :
    ∃ data pad decrypted, sendPayload host cleartextData proto pkt = some (data, pad) ∧
      data.length = pkt.len + pad ∧ 1 ≤ pkt.len + pad ∧ pad ≤ padsize ∧
      protocolOpen host cleartextData
          { proto with len := proto.len + UInt16.ofNat pad, data := data } =
        some (decrypted, pkt.len, pkt.bytes pkt.len) := by
  have small := queueable.len_le
  have isData : proto.flags = PktType.data.code ↔ pkt.type = .data := by
    rw [flags]
    refine ⟨fun same => ?_, fun same => by rw [same]⟩
    rw [← PktType.ofCode_code queueable.known, same]
    rfl
  by_cases clear : cleartextData = true ∧ pkt.type = .data
  · have total : (proto.len + UInt16.ofNat 0).toNat = pkt.len := by
      rw [len]
      simp
      omega
    refine ⟨pkt.bytes pkt.len, 0, false, by simp only [sendPayload, clear, and_self, if_true],
      pkt.bytes_length _, (queueable.data clear.2).1, Nat.zero_le _, ?_⟩
    simp only [protocolOpen, isData, clear, and_self, if_true, total]
    rw [Proto.payload_eq (pkt.bytes_length _)]
  · obtain ⟨sealed, done, sealedLength, opened⟩ := opens
    rw [pkt.bytes_length] at sealedLength
    have fits : ¬ pkthdrsiz + pkt.len + padsize > defaultMtu := by
      simp only [pkthdrsiz, padsize, defaultMtu]
      omega
    have total : (proto.len + UInt16.ofNat padsize).toNat = pkt.len + padsize := by
      rw [len, padsize]
      simp
      omega
    refine ⟨sealed, padsize, true, ?_, sealedLength, by simp only [padsize]; omega, le_refl _, ?_⟩
    · simp only [sendPayload, clear, if_false, fits, cryptoEncrypt, done, Option.map_some]
    · have shrunk : (pkt.len + padsize + 2 ^ 16 - padsize) % 2 ^ 16 = pkt.len := by
        simp only [padsize]
        omega
      simp only [protocolOpen, isData, clear, if_false, total, cryptoDecrypt, shrunk]
      rw [Proto.payload_eq sealedLength, opened, Option.map_some]

/-- The header of a packet, once the padding is counted. -/
theorem sendHeader_narrow (t : Tunnel) (dataSeq now64 : UInt64) (queueable : pkt.Queueable) :
    (sendHeader t dataSeq now64 pkt).1.Narrow := by
  have known := PktType.code_lt queueable.known
  constructor <;> simp only [sendHeader, protocolVersion] <;> omega

/-- A datagram shows the bit-fields of its header. -/
theorem sendDatagram_word {cleartextData : Bool} {proto : Proto} {datagram : List UInt8}
    (sent : sendDatagram host cleartextData proto pkt = some datagram) :
    ofHost host.endian (field datagram 2 2) = proto.bits host.endian := by
  obtain ⟨⟨data, pad⟩, _, rfl⟩ := Option.map_eq_some_iff.mp sent
  have header : 4 ≤ pkthdrsiz + pkt.len + pad := by
    simp only [pkthdrsiz]
    omega
  rw [Proto.word_take header, Proto.word_encode]
  rfl

theorem sendDatagram_flags {cleartextData : Bool} {proto : Proto} {datagram : List UInt8}
    (sent : sendDatagram host cleartextData proto pkt = some datagram) :
    (Proto.decode host.endian datagram).flags = proto.flags % 64 := by
  simp only [Proto.decode, sendDatagram_word sent]
  cases host.endian <;> simp only [Proto.bits] <;> omega

theorem sendDatagram_reorder {cleartextData : Bool} {proto : Proto} {datagram : List UInt8}
    (sent : sendDatagram host cleartextData proto pkt = some datagram) :
    (Proto.decode host.endian datagram).reorder = proto.reorder % 2 := by
  simp only [Proto.decode, sendDatagram_word sent]
  cases host.endian <;> simp only [Proto.bits] <;> omega

theorem rttUpdate_loss (t : Tunnel) (sample : ℚ) :
    (rttUpdate t sample).seqLast = t.seqLast ∧ (rttUpdate t sample).seqVect = t.seqVect := by
  rw [rttUpdate]
  split <;> exact ⟨rfl, rfl⟩

/-- The window of losses is what `mlvpn_loss_update` makes of the sequence number. -/
theorem protocolMeasure_loss (t : Tunnel) (now64 : UInt64) (proto : Proto)
    (version : proto.version ≥ 1) :
    (protocolMeasure t now64 proto).seqLast = (lossUpdate t proto.seq).seqLast ∧
      (protocolMeasure t now64 proto).seqVect = (lossUpdate t proto.seq).seqVect := by
  rw [protocolMeasure, if_pos version]
  dsimp only
  split_ifs <;> simp only [rttUpdate_loss, and_self]

/-- The structure that `mlvpn_rtun_send` has filled in: the fields of the header,
    and the payload with its length. -/
structure Carries (host : Host κ) (cleartextData : Bool) (header : Proto) (pkt : Pkt) (proto : Proto)
    (decrypted : Bool) : Prop where
  fields : { proto with len := header.len, data := header.data } = header
  narrow : proto.Narrow
  len : proto.len.toNat = proto.data.length
  bounds : 1 ≤ proto.data.length ∧ proto.data.length ≤ maxmtu + padsize
  opened : protocolOpen host cleartextData proto = some (decrypted, pkt.len, pkt.bytes pkt.len)

/-- The whole structure is sent, up to the end of the payload. -/
theorem sendDatagram_carries (cleartextData : Bool) (sender : Tunnel) (dataSeq sentAt : UInt64)
    (queueable : pkt.Queueable)
    (opens : host.box.OpensAt host.key (nonce host.endian sender.seq sender.flowId)
      (pkt.bytes pkt.len)) :
    let header := (sendHeader sender dataSeq sentAt pkt).1
    ∃ proto decrypted, Carries host cleartextData header pkt proto decrypted ∧
      sendDatagram host cleartextData header pkt = some (proto.encode host.endian) := by
  intro header
  have small := queueable.len_le
  obtain ⟨data, pad, decrypted, sent, length, nonempty, padding, opened⟩ :=
    sendPayload_opens cleartextData queueable header opens rfl rfl
  let proto : Proto := { header with len := header.len + UInt16.ofNat pad, data := data }
  have whole : (proto.encode host.endian).length = pkthdrsiz + (pkt.len + pad) := by
    rw [Proto.encode_length]
    exact congrArg (pkthdrsiz + ·) length
  simp only [padsize] at padding
  have narrow := sendHeader_narrow sender dataSeq sentAt queueable
  refine ⟨proto, decrypted, ⟨rfl, ?_, ?_, ?_, opened⟩, ?_⟩
  · exact ⟨narrow.version, narrow.flags, narrow.reorder, narrow.unused⟩
  · simp only [proto, header, sendHeader, UInt16.toNat_add, UInt16.toNat_ofNat', length]
    omega
  · simp only [proto, length, maxmtu, pkthdrsiz, padsize]
    omega
  · simp only [sendDatagram, sent, Option.map_some]
    rw [List.take_of_length_le (by rw [whole]; omega)]

/-- What is sent is accepted, and read as it was written. -/
theorem Carries.read {cleartextData : Bool} {header proto : Proto} {decrypted : Bool}
    (h : Carries host cleartextData header pkt proto decrypted) (version : proto.version ≥ 1)
    (now64 : UInt64) (t : Tunnel) :
    protocolRead host cleartextData now64 t (proto.encode host.endian) =
      (some (decrypted,
        { len := pkt.len
          type := .ofCode proto.flags
          reorder := decide (proto.reorder ≠ 0)
          seq := proto.dataSeq
          data := pkt.bytes pkt.len }), protocolMeasure t now64 proto) := by
  have bounds := h.bounds
  simp only [maxmtu, pkthdrsiz, padsize] at bounds
  have framed : ¬ ((proto.encode host.endian).length > defaultMtu ∨
      (proto.encode host.endian).length > pkthdrsiz + defaultMtu ∨
      (proto.encode host.endian).length < pkthdrsiz) := by
    simp only [Proto.encode_length, pkthdrsiz, defaultMtu]
    omega
  have declared : ¬ (proto.len = 0 ∨ proto.len.toNat > defaultMtu) := by
    rw [← UInt16.toNat_inj, h.len]
    simp only [defaultMtu, UInt16.toNat_zero]
    omega
  simp only [protocolRead, framed, if_false, Proto.decode_encode h.narrow, declared, h.opened,
    version, if_true]

theorem Pkt.bytes_of_length {message : Pkt} {n : Nat} (whole : message.data.length = n) :
    message.bytes n = message.data := by
  rw [Pkt.bytes, ← whole, List.take_length, Nat.sub_self, List.replicate_zero, List.append_nil]

/-- Whatever the tunnels and the clocks, a packet the program can queue is read
    back as it was, and the receiver feeds the sender's sequence number to
    `mlvpn_loss_update`. -/
theorem sent_datagram_read (correct : host.box.Correct) (cleartextData : Bool)
    (sender receiver : Tunnel) (dataSeq sentAt readAt : UInt64) (queueable : pkt.Queueable) :
    ∃ datagram decrypted message receiver',
      sendDatagram host cleartextData (sendHeader sender dataSeq sentAt pkt).1 pkt = some datagram ∧
      protocolRead host cleartextData readAt receiver datagram =
        (some (decrypted, message), receiver') ∧
      message.type = pkt.type ∧ message.len = pkt.len ∧
      message.bytes pkt.len = pkt.bytes pkt.len ∧ message.reorder = true ∧
      message.seq = (if pkt.type = .data then dataSeq else 0) ∧
      receiver'.seqLast = (lossUpdate receiver sender.seq).seqLast ∧
      receiver'.seqVect = (lossUpdate receiver sender.seq).seqVect := by
  obtain ⟨proto, decrypted, carries, sent⟩ :=
    sendDatagram_carries cleartextData sender dataSeq sentAt queueable (correct.opens _ _ _)
  have fields := carries.fields
  have version : proto.version = 1 := congrArg Proto.version fields
  have type : PktType.ofCode proto.flags = pkt.type := by
    rw [show proto.flags = pkt.type.code from congrArg Proto.flags fields]
    exact PktType.ofCode_code queueable.known
  have reorder : proto.reorder = 1 := congrArg Proto.reorder fields
  have seq : proto.seq = sender.seq := congrArg Proto.seq fields
  have dataSeq : proto.dataSeq = if pkt.type = .data then dataSeq else 0 :=
    congrArg Proto.dataSeq fields
  have loss := protocolMeasure_loss receiver readAt proto version.ge
  rw [seq] at loss
  refine ⟨_, _, _, _, sent, carries.read version.ge readAt receiver, type, rfl, ?_, ?_, dataSeq, loss⟩
  · exact Pkt.bytes_of_length (pkt.bytes_length _)
  · rw [reorder]
    rfl

theorem sent_data_read :
    let host : Host Unit := ⟨.big, plainBox, ()⟩
    let pkt : Pkt := { len := 3, type := .data, reorder := true, seq := 0, data := [69, 0, 7] }
    let sender : Tunnel := { Tunnel.blank with seq := 9 }
    ∃ datagram decrypted message receiver',
      sendDatagram host false (sendHeader sender 5 0 pkt).1 pkt = some datagram ∧
      protocolRead host false 0 .blank datagram = (some (decrypted, message), receiver') ∧
      message.bytes 3 = [69, 0, 7] ∧ message.seq = 5 ∧ receiver'.seqLast = 9 := by
  intro host pkt sender
  have correct : host.box.Correct := plainBox_correct
  have queueable : pkt.Queueable :=
    ⟨trivial, fun _ => ⟨by decide, by decide⟩, fun control => absurd rfl control⟩
  obtain ⟨datagram, decrypted, message, receiver', sent, read, _, _, bytes, _, seq, last, _⟩ :=
    sent_datagram_read correct false sender .blank 5 0 0 queueable
  exact ⟨datagram, decrypted, message, receiver', sent, read, bytes, seq, last⟩

end Mlvpn
