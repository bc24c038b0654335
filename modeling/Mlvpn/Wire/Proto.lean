import Mlvpn.Crypto
import Mlvpn.Tunnel.State

/-! # Datagrams

`pkt.h` and the two functions of `mlvpn.c` that build and read a datagram.  The
header has 28 bytes.  Its numbers are big-endian on the wire, except for the
word of bit-fields, which stays as the host lays it out.
-/

namespace Mlvpn

open Library.Bytes

/-- `mlvpn_proto_t`, its numbers in the order of the host.  `data` lists the bytes
    written to the array; what follows them is zero. -/
structure Proto where
  len : UInt16
  version : Nat
  flags : Nat
  reorder : Nat
  unused : Nat
  timestamp : UInt16
  timestampReply : UInt16
  flowId : UInt32
  seq : UInt64
  dataSeq : UInt64
  data : List UInt8
  deriving Repr, DecidableEq

/-- `PKTHDRSIZ`. -/
def pkthdrsiz : Nat := 28

/-- `tuntap.maxmtu`. -/
def maxmtu : Nat := 1500 - pkthdrsiz - 28

def protocolVersion : Nat := 1

namespace Proto

/-- The 16 bits of the bit-fields: the first of them is the lowest on a
    little-endian host and the highest on a big-endian one. -/
def bits (e : Endian) (p : Proto) : Nat :=
  match e with
  | .little => p.version % 16 + 16 * (p.flags % 64) + 1024 * (p.reorder % 2) + 2048 * (p.unused % 32)
  | .big => 4096 * (p.version % 16) + 64 * (p.flags % 64) + 32 * (p.reorder % 2) + p.unused % 32

/-- The structure in memory once its numbers are big-endian. -/
def encode (e : Endian) (p : Proto) : List UInt8 :=
  beBytes 2 p.len.toNat ++ (hostBytes e 2 (p.bits e) ++ (beBytes 2 p.timestamp.toNat ++
    (beBytes 2 p.timestampReply.toNat ++ (beBytes 4 p.flowId.toNat ++ (beBytes 8 p.seq.toNat ++
      (beBytes 8 p.dataSeq.toNat ++ p.data))))))

/-- The fields of a datagram copied over a cleared structure. -/
def decode (e : Endian) (bytes : List UInt8) : Proto :=
  let word := ofHost e (field bytes 2 2)
  { len := UInt16.ofNat (ofBe (field bytes 0 2))
    version := match e with | .little => word % 16 | .big => word / 4096
    flags := match e with | .little => word / 16 % 64 | .big => word / 64 % 64
    reorder := match e with | .little => word / 1024 % 2 | .big => word / 32 % 2
    unused := match e with | .little => word / 2048 | .big => word % 32
    timestamp := UInt16.ofNat (ofBe (field bytes 4 2))
    timestampReply := UInt16.ofNat (ofBe (field bytes 6 2))
    flowId := UInt32.ofNat (ofBe (field bytes 8 4))
    seq := UInt64.ofNat (ofBe (field bytes 12 8))
    dataSeq := UInt64.ofNat (ofBe (field bytes 20 8))
    data := bytes.drop pkthdrsiz }

/-- The first `n` bytes of the payload array. -/
def payload (p : Proto) (n : Nat) : List UInt8 :=
  p.data.take n ++ List.replicate (n - p.data.length) 0

end Proto

variable {κ : Type}

/-- What `mlvpn_protocol_read` records of an accepted datagram. -/
def protocolMeasure (t : Tunnel) (now64 : UInt64) (proto : Proto) : Tunnel :=
  let t := if proto.version ≥ 1 then lossUpdate t proto.seq else t
  let t :=
    if proto.timestamp ≠ 0xFFFF then
      { t with
        savedTimestamp := UInt64.ofNat proto.timestamp.toNat
        savedTimestampReceivedAt := now64 }
    else t
  if proto.timestampReply ≠ 0xFFFF then
    let sample := timestamp16Diff (timestamp16 now64) proto.timestampReply
    if sample < 5000 then rttUpdate t sample.toNat else t
  else t

/-- A tunnel with the measurements of another. -/
def Tunnel.withMeasures (t m : Tunnel) : Tunnel :=
  { t with
    savedTimestamp := m.savedTimestamp
    savedTimestampReceivedAt := m.savedTimestampReceivedAt
    seqLast := m.seqLast
    seqVect := m.seqVect
    rttHit := m.rttHit
    srtt := m.srtt
    rttvar := m.rttvar }

/-- Two tunnels that differ in their measurements only. -/
def Tunnel.Remeasured (t t' : Tunnel) : Prop := t' = t.withMeasures t'

theorem Tunnel.Remeasured.trans {t t' t'' : Tunnel} (first : t.Remeasured t')
    (second : t'.Remeasured t'') : t.Remeasured t'' := by
  unfold Remeasured at first second ⊢
  rw [second, first]
  rfl

theorem lossUpdate_remeasured (t : Tunnel) (seq : UInt64) : t.Remeasured (lossUpdate t seq) := by
  unfold lossUpdate
  split_ifs <;> rfl

theorem rttUpdate_remeasured (t : Tunnel) (sample : ℚ) : t.Remeasured (rttUpdate t sample) := by
  unfold rttUpdate
  split_ifs <;> rfl

theorem protocolMeasure_remeasured (t : Tunnel) (now64 : UInt64) (proto : Proto) :
    t.Remeasured (protocolMeasure t now64 proto) := by
  unfold protocolMeasure
  dsimp only
  have counted : t.Remeasured (if proto.version ≥ 1 then lossUpdate t proto.seq else t) := by
    split
    next => exact lossUpdate_remeasured t proto.seq
    next => rfl
  generalize (if proto.version ≥ 1 then lossUpdate t proto.seq else t) = t₁ at counted ⊢
  have stamped : t₁.Remeasured (if proto.timestamp ≠ 0xFFFF then
      { t₁ with
        savedTimestamp := UInt64.ofNat proto.timestamp.toNat
        savedTimestampReceivedAt := now64 } else t₁) := by
    split <;> rfl
  refine (counted.trans stamped).trans ?_
  split_ifs
  all_goals first | exact rttUpdate_remeasured _ _ | rfl

/-- The payload in clear and its length, with whether it went through
    `crypto_decrypt`; `none` if it was refused there. -/
def protocolOpen (host : Host κ) (cleartextData : Bool) (proto : Proto) :
    Option (Bool × Nat × List UInt8) :=
  let rlen := proto.len.toNat
  if cleartextData ∧ proto.flags = PktType.data.code then
    some (false, rlen, proto.payload rlen)
  else
    (cryptoDecrypt host (proto.payload rlen) (nonce host.endian proto.seq proto.flowId)).map
      -- the length is a `uint16_t`
      fun message => (true, (rlen + 2 ^ 16 - padsize) % 2 ^ 16, message)

/-- `mlvpn_protocol_read`: the packet, unless it is refused, and the tunnel.  The
    flag says whether the payload passed `crypto_decrypt`. -/
def protocolRead (host : Host κ) (cleartextData : Bool) (now64 : UInt64) (t : Tunnel)
    (datagram : List UInt8) : Option (Bool × Pkt) × Tunnel :=
  if datagram.length > defaultMtu ∨ datagram.length > pkthdrsiz + defaultMtu ∨
      datagram.length < pkthdrsiz then (none, t)
  else
    let proto := Proto.decode host.endian datagram
    if proto.len = 0 ∨ proto.len.toNat > defaultMtu then (none, t)
    else
      match protocolOpen host cleartextData proto with
      | none => (none, t)
      | some (decrypted, rlen, data) =>
          let pkt : Pkt :=
            { len := rlen
              type := .ofCode proto.flags
              reorder := if proto.version ≥ 1 then decide (proto.reorder ≠ 0) else false
              seq := if proto.version ≥ 1 then proto.dataSeq else 0
              data := data }
          (some (decrypted, pkt), protocolMeasure t now64 proto)

/-- The type of a packet is that of its header, and only data is taken in clear. -/
theorem protocolRead_accepts {host : Host κ} {cleartextData : Bool} {now64 : UInt64}
    {t t' : Tunnel} {datagram : List UInt8} {decrypted : Bool} {pkt : Pkt}
    (accepted : protocolRead host cleartextData now64 t datagram = (some (decrypted, pkt), t')) :
    pkt.type = .ofCode (Proto.decode host.endian datagram).flags ∧
      (pkt.type ≠ .data → decrypted = true) := by
  rw [protocolRead] at accepted
  split at accepted
  next => cases accepted
  next =>
    dsimp only at accepted
    split at accepted
    next => cases accepted
    next =>
      split at accepted
      next => cases accepted
      next _ opened =>
        cases accepted
        refine ⟨rfl, fun control => ?_⟩
        rw [protocolOpen] at opened
        split at opened
        next clear =>
          rw [clear.2] at control
          exact absurd rfl control
        next =>
          obtain ⟨_, _, same⟩ := Option.map_eq_some_iff.mp opened
          exact (congrArg Prod.fst same).symm

/-- A datagram is measured if it is accepted, and otherwise nothing changes. -/
theorem protocolRead_measures (host : Host κ) (cleartextData : Bool) (now64 : UInt64) (t : Tunnel)
    (datagram : List UInt8) :
    (protocolRead host cleartextData now64 t datagram).2 = t ∨
      ∃ proto, (protocolRead host cleartextData now64 t datagram).2 = protocolMeasure t now64 proto := by
  unfold protocolRead
  dsimp only
  split
  next => exact .inl rfl
  next =>
    split
    next => exact .inl rfl
    next =>
      split
      next => exact .inl rfl
      next => exact .inr ⟨_, rfl⟩

theorem protocolRead_remeasured (host : Host κ) (cleartextData : Bool) (now64 : UInt64) (t : Tunnel)
    (datagram : List UInt8) :
    t.Remeasured (protocolRead host cleartextData now64 t datagram).2 := by
  rcases protocolRead_measures host cleartextData now64 t datagram with same | ⟨proto, measured⟩
  · rw [same]
    rfl
  · rw [measured]
    exact protocolMeasure_remeasured t now64 proto

theorem remeasured_of_read {host : Host κ} {cleartextData : Bool} {now64 : UInt64} {t t' : Tunnel}
    {bytes : List UInt8} {outcome : Option (Bool × Pkt)}
    (read : protocolRead host cleartextData now64 t bytes = (outcome, t')) : t.Remeasured t' := by
  have remeasured := protocolRead_remeasured host cleartextData now64 t bytes
  rwa [read] at remeasured

/-- The header `mlvpn_rtun_send` fills in for a packet, the tunnel it leaves, and
    the next data sequence number. -/
def sendHeader (t : Tunnel) (dataSeq now64 : UInt64) (pkt : Pkt) : Proto × Tunnel × UInt64 :=
  let isData := pkt.type = .data
  let recent := now64 - t.savedTimestampReceivedAt < 1000
  let proto : Proto :=
    { len := UInt16.ofNat pkt.len
      version := protocolVersion
      flags := pkt.type.code
      reorder := 1
      unused := 0
      timestamp := timestamp16 now64
      timestampReply :=
        if recent then
          UInt16.ofNat (t.savedTimestamp + (now64 - t.savedTimestampReceivedAt)).toNat
        else 0xFFFF
      flowId := t.flowId
      seq := t.seq
      dataSeq := if isData then dataSeq else 0
      data := [] }
  let t := { t with seq := t.seq + 1 }
  let t :=
    if recent then
      { t with savedTimestamp := 0xFFFFFFFFFFFFFFFF, savedTimestampReceivedAt := 0 }
    else t
  (proto, t, if isData then dataSeq + 1 else dataSeq)

/-- The payload of `mlvpn_rtun_send`, and the bytes it adds; `none` if the packet
    is too long or encryption fails. -/
def sendPayload (host : Host κ) (cleartextData : Bool) (proto : Proto) (pkt : Pkt) :
    Option (List UInt8 × Nat) :=
  if cleartextData ∧ pkt.type = .data then some (pkt.bytes pkt.len, 0)
  else if pkthdrsiz + pkt.len + padsize > defaultMtu then none
  else
    (cryptoEncrypt host (pkt.bytes pkt.len) (nonce host.endian proto.seq proto.flowId)).map
      fun sealed => (sealed, padsize)

/-- The `wlen` bytes that `mlvpn_rtun_send` hands to `sendto`. -/
def sendDatagram (host : Host κ) (cleartextData : Bool) (proto : Proto) (pkt : Pkt) :
    Option (List UInt8) :=
  (sendPayload host cleartextData proto pkt).map fun (data, pad) =>
    (Proto.encode host.endian { proto with len := proto.len + UInt16.ofNat pad, data := data }).take
      (pkthdrsiz + pkt.len + pad)

end Mlvpn
