import Mlvpn.Wire.Roundtrip

/-! # What the authenticator covers

The box authenticates the payload under a nonce, and the nonce is made of the
tunnel's sequence number and the flow.  The other fields of the header are read
as they come: the type, the version, the reorder bit and the data sequence
number of a sealed datagram can be exchanged on its way.
-/

namespace Mlvpn

open Library.Bytes

variable {κ : Type}

/-- A box that has sealed the given messages under their nonces and opens nothing
    it has not produced. -/
structure Secretbox.Ideal (box : Secretbox κ) (key : κ)
    (sealed : List UInt8 → List UInt8 → Prop) : Prop where
  opens : ∀ nonce message, sealed nonce message → box.OpensAt key nonce message
  rejects : ∀ nonce ciphertext, box.openEasy key nonce ciphertext ≠ none →
    ∃ message, sealed nonce message ∧ box.easy key nonce message = some ciphertext

theorem Secretbox.Ideal.open_iff {box : Secretbox κ} {key : κ}
    {sealed : List UInt8 → List UInt8 → Prop} (ideal : box.Ideal key sealed)
    {nonce ciphertext message : List UInt8} :
    box.openEasy key nonce ciphertext = some message ↔
      sealed nonce message ∧ box.easy key nonce message = some ciphertext := by
  constructor
  · intro opened
    obtain ⟨message', produced, made⟩ := ideal.rejects nonce ciphertext (by rw [opened]; simp)
    obtain ⟨ciphertext', made', _, opened'⟩ := ideal.opens nonce message' produced
    obtain rfl : ciphertext = ciphertext' := Option.some.inj (made.symm.trans made')
    obtain rfl : message = message' := Option.some.inj (opened.symm.trans opened')
    exact ⟨produced, made⟩
  · rintro ⟨produced, made⟩
    obtain ⟨ciphertext', made', _, opened⟩ := ideal.opens nonce message produced
    obtain rfl : ciphertext = ciphertext' := Option.some.inj (made.symm.trans made')
    exact opened

/-- A box that keeps a record of what it has sealed; its key is the record. -/
def recordBox : Secretbox (List (List UInt8 × List UInt8)) where
  easy _ _ message := some (message ++ List.replicate padsize 0)
  openEasy record nonce ciphertext :=
    let message := ciphertext.take (ciphertext.length - padsize)
    if (nonce, message) ∈ record ∧ message ++ List.replicate padsize 0 = ciphertext then some message
    else none

theorem recordBox_ideal (record : List (List UInt8 × List UInt8)) :
    recordBox.Ideal record fun nonce message => (nonce, message) ∈ record where
  opens nonce message recorded := by
    refine ⟨_, rfl, by rw [List.length_append, List.length_replicate], ?_⟩
    have body : (message ++ List.replicate padsize (0 : UInt8)).take
        ((message ++ List.replicate padsize (0 : UInt8)).length - padsize) = message := by simp
    simp only [recordBox, body]
    exact if_pos ⟨recorded, trivial⟩
  rejects nonce ciphertext opened := by
    simp only [recordBox] at opened
    split at opened
    next produced => exact ⟨_, produced.1, congrArg some produced.2⟩
    next => exact absurd rfl opened

variable {host : Host κ} {sealed : List UInt8 → List UInt8 → Prop}

/-- The box has made what a datagram carries from `message`, under the nonce the
    datagram names. -/
def Authentic (host : Host κ) (sealed : List UInt8 → List UInt8 → Prop) (datagram message : List UInt8) :
    Prop :=
  let proto := Proto.decode host.endian datagram
  proto.len.toNat ≤ defaultMtu ∧
    sealed (nonce host.endian proto.seq proto.flowId) message ∧
    host.box.easy host.key (nonce host.endian proto.seq proto.flowId) message =
      some (proto.payload proto.len.toNat)

/-- The packet that is read when a datagram carries `message`. -/
def Proto.packet (proto : Proto) (message : List UInt8) : Pkt :=
  { len := message.length
    type := .ofCode proto.flags
    reorder := if proto.version ≥ 1 then decide (proto.reorder ≠ 0) else false
    seq := if proto.version ≥ 1 then proto.dataSeq else 0
    data := message }

theorem Proto.payload_length (proto : Proto) (n : Nat) : (proto.payload n).length = n := by
  simp only [payload, List.length_append, List.length_take, List.length_replicate]
  omega

/-- The length of a datagram that `mlvpn_protocol_read` looks at. -/
def Sized (datagram : List UInt8) : Prop :=
  pkthdrsiz ≤ datagram.length ∧ datagram.length ≤ defaultMtu

/-- The authenticator is part of the length. -/
theorem opened_length (ideal : host.box.Ideal host.key sealed) {proto : Proto} {message : List UInt8}
    (opened : host.box.openEasy host.key (nonce host.endian proto.seq proto.flowId)
      (proto.payload proto.len.toNat) = some message) :
    proto.len.toNat = message.length + padsize := by
  obtain ⟨produced, made⟩ := ideal.open_iff.mp opened
  obtain ⟨ciphertext, made', length, _⟩ := ideal.opens _ _ produced
  obtain rfl : _ = ciphertext := Option.some.inj (made.symm.trans made')
  rw [← length, Proto.payload_length]

/-- The length without the authenticator, in sixteen bits. -/
theorem length_without_pad {proto : Proto} {n : Nat} (length : proto.len.toNat = n + padsize) :
    (proto.len.toNat + 2 ^ 16 - padsize) % 2 ^ 16 = n := by
  have small := proto.len.toNat_lt
  omega

/-- With encryption on, a datagram is accepted if and only if it is authentic. -/
theorem protocolRead_eq_some_iff (ideal : host.box.Ideal host.key sealed) {datagram : List UInt8}
    (sized : Sized datagram) (now64 : UInt64) (t : Tunnel) {decrypted : Bool} {pkt : Pkt} :
    (protocolRead host false now64 t datagram).1 = some (decrypted, pkt) ↔
      ∃ message, Authentic host sealed datagram message ∧ decrypted = true ∧
        pkt = (Proto.decode host.endian datagram).packet message := by
  have inside : ¬ (datagram.length > defaultMtu ∨ datagram.length > pkthdrsiz + defaultMtu ∨
      datagram.length < pkthdrsiz) := by
    obtain ⟨header, short⟩ := sized
    omega
  unfold protocolRead Authentic
  rw [if_neg inside]
  dsimp only
  generalize Proto.decode host.endian datagram = proto
  have read : protocolOpen host false proto =
      (cryptoDecrypt host (proto.payload proto.len.toNat)
        (nonce host.endian proto.seq proto.flowId)).map
        fun message => (true, (proto.len.toNat + 2 ^ 16 - padsize) % 2 ^ 16, message) := by
    simp only [protocolOpen, Bool.false_eq_true, false_and, if_false]
  rw [read]
  constructor
  · intro accepted
    split at accepted
    next => cases accepted
    next declared =>
      cases opened : cryptoDecrypt host (proto.payload proto.len.toNat)
          (nonce host.endian proto.seq proto.flowId) with
      | none =>
          rw [opened] at accepted
          cases accepted
      | some message =>
          rw [opened] at accepted
          cases accepted
          have length := opened_length ideal opened
          refine ⟨message, ⟨?_, ideal.open_iff.mp opened⟩, rfl, ?_⟩
          · omega
          · simp only [Proto.packet, length_without_pad length]
  · rintro ⟨message, ⟨short, produced⟩, rfl, rfl⟩
    have opened : cryptoDecrypt host (proto.payload proto.len.toNat)
        (nonce host.endian proto.seq proto.flowId) = some message := ideal.open_iff.mpr produced
    have length := opened_length ideal opened
    have declared : ¬ (proto.len = 0 ∨ proto.len.toNat > defaultMtu) := by
      rintro (zero | long)
      · rw [zero] at length
        simp [padsize] at length
      · omega
    rw [if_neg declared, opened]
    simp only [Option.map_some, Proto.packet, length_without_pad length]

/-- A datagram is read as another was, unless it is refused: the same type, data
    sequence number, reorder flag and payload. -/
def SameReading (read read' : Option (Bool × Pkt)) : Prop :=
  ∀ decrypted' pkt', read' = some (decrypted', pkt') → ∃ decrypted pkt,
    read = some (decrypted, pkt) ∧ pkt'.type = pkt.type ∧ pkt'.seq = pkt.seq ∧
      pkt'.reorder = pkt.reorder ∧ pkt'.len = pkt.len ∧ pkt'.bytes pkt'.len = pkt.bytes pkt.len

/-- Whatever the box has produced in the altered datagram is the message of the
    original, under the same type, reorder bit and data sequence number, and the
    version still says that these count. -/
def Preserved (host : Host κ) (sealed : List UInt8 → List UInt8 → Prop)
    (datagram altered : List UInt8) : Prop :=
  let proto := Proto.decode host.endian datagram
  let proto' := Proto.decode host.endian altered
  ∀ message, Authentic host sealed altered message →
    Authentic host sealed datagram message ∧ proto'.flags = proto.flags ∧ proto'.version ≥ 1 ∧
      proto'.reorder = proto.reorder ∧ proto'.dataSeq = proto.dataSeq

theorem Proto.decode_reorder_lt (e : Endian) (bytes : List UInt8) : (decode e bytes).reorder < 2 := by
  cases e <;> simp only [decode] <;> omega

theorem Proto.packet_bytes (proto : Proto) (message : List UInt8) :
    (proto.packet message).bytes (proto.packet message).len = message :=
  Pkt.bytes_of_length rfl

/-- Two authentic datagrams are read alike if and only if they carry one message
    and show the same fields. -/
theorem packet_same_iff {proto proto' : Proto} {message message' : List UInt8}
    (version : proto.version = 1) (reorder : proto.reorder = 1) (bit : proto'.reorder < 2) :
    ((proto'.packet message').type = (proto.packet message).type ∧
        (proto'.packet message').seq = (proto.packet message).seq ∧
        (proto'.packet message').reorder = (proto.packet message).reorder ∧
        (proto'.packet message').len = (proto.packet message).len ∧
        (proto'.packet message').bytes (proto'.packet message').len =
          (proto.packet message).bytes (proto.packet message).len) ↔
      message' = message ∧ proto'.flags = proto.flags ∧ proto'.version ≥ 1 ∧
        proto'.reorder = proto.reorder ∧ proto'.dataSeq = proto.dataSeq := by
  rw [Proto.packet_bytes, Proto.packet_bytes]
  constructor
  · rintro ⟨type, seq, flag, _, same⟩
    have flags : proto'.flags = proto.flags := by
      rw [← PktType.code_ofCode proto'.flags, ← PktType.code_ofCode proto.flags]
      exact congrArg PktType.code type
    simp only [Proto.packet, version, reorder] at flag seq
    have versioned : proto'.version ≥ 1 := by
      by_contra old
      rw [if_neg old] at flag
      cases flag
    rw [if_pos versioned] at flag seq
    have nonzero : proto'.reorder ≠ 0 := of_decide_eq_true flag
    refine ⟨same, flags, versioned, ?_, seq⟩
    omega
  · rintro ⟨rfl, flags, versioned, bits, seq⟩
    have first : proto.version ≥ 1 := version.ge
    simp only [Proto.packet, flags, bits, seq, if_pos versioned, if_pos first, and_self]

/-- What a sealed datagram shows of its packet, and that it is authentic. -/
theorem sendDatagram_authentic (ideal : host.box.Ideal host.key sealed) (sender : Tunnel)
    (dataSeq sentAt : UInt64) {pkt : Pkt} (queueable : pkt.Queueable)
    (produced : sealed (nonce host.endian sender.seq sender.flowId) (pkt.bytes pkt.len))
    {datagram : List UInt8}
    (sent : sendDatagram host false (sendHeader sender dataSeq sentAt pkt).1 pkt = some datagram) :
    Sized datagram ∧ Authentic host sealed datagram (pkt.bytes pkt.len) ∧
      (Proto.decode host.endian datagram).version = 1 ∧
      (Proto.decode host.endian datagram).reorder = 1 := by
  obtain ⟨proto, decrypted, carries, sent'⟩ :=
    sendDatagram_carries false sender dataSeq sentAt queueable (ideal.opens _ _ produced)
  obtain rfl : datagram = proto.encode host.endian := Option.some.inj (sent.symm.trans sent')
  have fields := carries.fields
  have bounds := carries.bounds
  simp only [maxmtu, pkthdrsiz, padsize] at bounds
  have opened := carries.opened
  simp only [protocolOpen, Bool.false_eq_true, false_and, if_false] at opened
  obtain ⟨message, opened, same⟩ := Option.map_eq_some_iff.mp opened
  rw [show message = pkt.bytes pkt.len from congrArg (fun result => result.2.2) same] at opened
  unfold Sized Authentic
  rw [Proto.encode_length, Proto.decode_encode carries.narrow]
  refine ⟨⟨?_, ?_⟩, ⟨?_, ideal.open_iff.mp opened⟩, congrArg Proto.version fields,
    congrArg Proto.reorder fields⟩
  · exact Nat.le_add_right _ _
  · simp only [pkthdrsiz, defaultMtu]
    omega
  · rw [carries.len]
    simp only [defaultMtu]
    omega

/-- A sealed datagram whose header is altered is refused or read as it was, if and
    only if the alteration spares what the authenticator does not cover. -/
theorem altered_header_harmless_iff (ideal : host.box.Ideal host.key sealed)
    (sender receiver receiver' : Tunnel) (dataSeq sentAt readAt readAt' : UInt64) {pkt : Pkt}
    (queueable : pkt.Queueable)
    (produced : sealed (nonce host.endian sender.seq sender.flowId) (pkt.bytes pkt.len))
    {datagram altered : List UInt8}
    (sent : sendDatagram host false (sendHeader sender dataSeq sentAt pkt).1 pkt = some datagram)
    (length : altered.length = datagram.length) :
    SameReading (protocolRead host false readAt receiver datagram).1
        (protocolRead host false readAt' receiver' altered).1 ↔
      Preserved host sealed datagram altered := by
  obtain ⟨sized, authentic, version, reorder⟩ :=
    sendDatagram_authentic ideal sender dataSeq sentAt queueable produced sent
  have sized' : Sized altered := by
    rw [Sized, length]
    exact sized
  have bit := Proto.decode_reorder_lt host.endian altered
  constructor
  · intro same message' authentic'
    obtain ⟨decrypted, pkt, read, fields⟩ := same true _
      ((protocolRead_eq_some_iff ideal sized' readAt' receiver').mpr ⟨message', authentic', rfl, rfl⟩)
    obtain ⟨message, authentic, _, rfl⟩ :=
      (protocolRead_eq_some_iff ideal sized readAt receiver).mp read
    obtain ⟨rfl, shown⟩ := (packet_same_iff version reorder bit).mp fields
    exact ⟨authentic, shown⟩
  · intro preserved decrypted' pkt' read'
    obtain ⟨message, authentic', _, rfl⟩ :=
      (protocolRead_eq_some_iff ideal sized' readAt' receiver').mp read'
    obtain ⟨authentic, shown⟩ := preserved message authentic'
    refine ⟨true, _, (protocolRead_eq_some_iff ideal sized readAt receiver).mpr
      ⟨message, authentic, rfl, rfl⟩, ?_⟩
    exact (packet_same_iff version reorder bit).mpr ⟨rfl, shown⟩

/-- A box that has sealed one empty message. -/
def keepaliveHost : Host (List (List UInt8 × List UInt8)) :=
  ⟨.little, recordBox, [(nonce .little 7 1, [])]⟩

def keepalivePkt : Pkt := { Pkt.zero with type := .keepalive }

/-- The keepalive it was sealed for, as sent at 5000 ms. -/
def keepaliveDatagram : List UInt8 :=
  [0, 16, 0x21, 4, 19, 136, 255, 255, 0, 0, 0, 1, 0, 0, 0, 0, 0, 0, 0, 7] ++ List.replicate 24 0

theorem keepaliveDatagram_sent :
    sendDatagram keepaliveHost false
      (sendHeader { Tunnel.blank with seq := 7, flowId := 1 } 0 5000 keepalivePkt).1 keepalivePkt =
        some keepaliveDatagram := by
  decide +kernel

/-- Another timestamp is no harm. -/
theorem keepalive_with_other_timestamp :
    SameReading (protocolRead keepaliveHost false 5010 .blank keepaliveDatagram).1
      (protocolRead keepaliveHost false 5010 .blank (keepaliveDatagram.set 4 0)).1 := by
  have queueable : keepalivePkt.Queueable := ⟨trivial, fun data => (by cases data), fun _ => .inl rfl⟩
  refine (altered_header_harmless_iff (recordBox_ideal keepaliveHost.key)
    { Tunnel.blank with seq := 7, flowId := 1 } .blank .blank 0 5000 5010 5010 queueable
    List.mem_cons_self keepaliveDatagram_sent rfl).mpr ?_
  rintro message ⟨_, recorded, _⟩
  have named : nonce .little (Proto.decode .little (keepaliveDatagram.set 4 0)).seq
      (Proto.decode .little (keepaliveDatagram.set 4 0)).flowId = nonce .little 7 1 := by
    decide +kernel
  obtain rfl : message = [] := congrArg Prod.snd (List.mem_singleton.mp recorded)
  refine ⟨⟨by decide +kernel, List.mem_singleton.mpr ?_, by decide +kernel⟩, ?_⟩
  · decide +kernel
  · decide +kernel

/-- The type is not authenticated: one bit-field turns a keepalive into the end of
    the connection. -/
theorem keepalive_read_as_disconnect :
    keepaliveHost.box.Ideal keepaliveHost.key
        (fun nonce message => (nonce, message) ∈ keepaliveHost.key) ∧
      sendDatagram keepaliveHost false
        (sendHeader { Tunnel.blank with seq := 7, flowId := 1 } 0 5000 keepalivePkt).1 keepalivePkt =
          some keepaliveDatagram ∧
      (keepaliveDatagram.set 2 0x41).drop pkthdrsiz = keepaliveDatagram.drop pkthdrsiz ∧
      (protocolRead keepaliveHost false 5010 .blank keepaliveDatagram).1.map (·.2.type) =
        some .keepalive ∧
      (protocolRead keepaliveHost false 5010 .blank (keepaliveDatagram.set 2 0x41)).1.map (·.2.type) =
        some .disconnect :=
  ⟨recordBox_ideal _, keepaliveDatagram_sent, by decide, by decide +kernel, by decide +kernel⟩

end Mlvpn
