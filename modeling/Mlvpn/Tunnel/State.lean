import Mlvpn.Buffer.Pktbuffer
import Mlvpn.Receive.Path

/-! # A tunnel

`struct mlvpn_tunnel_s`, and the measurements a tunnel keeps of its link: the
sequence numbers seen, and the round trip time.  Times are rational numbers of
seconds or milliseconds, as the doubles of the program are read.
-/

namespace Mlvpn

/-- `enum chap_status`. -/
inductive Status where
  | disconnected
  | authsent
  | authok
  | lossy
  | highLatency
  deriving Repr, DecidableEq

namespace Status

/-- The value of the enumeration. -/
def code : Status → Nat
  | .disconnected => 0
  | .authsent => 1
  | .authok => 2
  | .lossy => 3
  | .highLatency => 4

/-- `status >= MLVPN_AUTHOK`. -/
def Up (s : Status) : Prop := s.code ≥ Status.authok.code

instance (s : Status) : Decidable s.Up := inferInstanceAs (Decidable (_ ≥ _))

end Status

/-- The bytes of a socket address; `addrlen` is their number. -/
abbrev Addr := List UInt8

structure Tunnel where
  name : String
  bindaddr : String
  bindport : String
  bindfib : UInt32
  destaddr : String
  destport : String
  fd : Int
  serverMode : Bool
  disconnects : Int32
  connAttempts : Nat
  fallbackOnly : Nat
  lossTolerence : Nat
  latencyTolerence : Nat
  seq : UInt64
  savedTimestamp : UInt64
  savedTimestampReceivedAt : UInt64
  seqLast : UInt64
  seqVect : UInt64
  rttHit : Bool
  srtt : ℚ
  rttvar : ℚ
  weight : ℚ
  flowId : UInt32
  sentpackets : UInt64
  recvpackets : UInt64
  sentbytes : UInt64
  recvbytes : UInt64
  timeout : Nat
  bandwidth : UInt32
  /-- The send queue, and the one of higher priority -/
  sbuf : Pktbuffer
  hpsbuf : Pktbuffer
  addrinfo : Option Addr
  status : Status
  lastActivity : ℚ
  lastConnectionAttempt : ℚ
  nextKeepalive : ℚ
  lastKeepaliveAck : ℚ
  lastKeepaliveAckSent : ℚ
  /-- Whether the watchers are active -/
  ioRead : Bool
  ioWrite : Bool
  ioTimeout : Timer

/-- What the configuration says of a tunnel. -/
structure TunnelConf where
  name : String
  bindaddr : Option String
  bindport : Option String
  bindfib : UInt32
  destaddr : Option String
  destport : Option String
  timeout : Nat
  fallbackOnly : Nat
  bandwidth : UInt32
  lossTolerence : Nat
  latencyTolerence : Nat

/-- The addresses that `mlvpn_rtun_new` cannot do without are missing. -/
def TunnelConf.Incomplete (conf : TunnelConf) (serverMode : Bool) : Prop :=
  if serverMode then conf.bindport = none else conf.destaddr = none ∨ conf.destport = none

instance (conf : TunnelConf) (serverMode : Bool) : Decidable (conf.Incomplete serverMode) :=
  inferInstanceAs (Decidable (ite _ _ _))

/-- A field of `size` bytes after `strlcpy`, which a null source leaves alone. -/
def strlcpy (old : String) (size : Nat) (src : Option String) : String :=
  match src with
  | none => old
  | some src => String.ofList (src.toList.take (size - 1))

/-- The structure that `mlvpn_rtun_new` fills in; the rest is cleared by `calloc`. -/
def Tunnel.init (conf : TunnelConf) (serverMode : Bool) (flowId : UInt32) (now : ℚ) : Tunnel :=
  { name := conf.name
    bindaddr := strlcpy "" 256 conf.bindaddr
    bindport := strlcpy "" 6 conf.bindport
    bindfib := conf.bindfib
    destaddr := strlcpy "" 256 conf.destaddr
    destport := strlcpy "" 6 conf.destport
    fd := -1
    serverMode := serverMode
    disconnects := 0
    connAttempts := 0
    fallbackOnly := conf.fallbackOnly
    lossTolerence := conf.lossTolerence
    latencyTolerence := conf.latencyTolerence
    seq := 0
    savedTimestamp := 0xFFFFFFFFFFFFFFFF
    savedTimestampReceivedAt := 0
    seqLast := 0
    seqVect := 0xFFFFFFFFFFFFFFFF
    rttHit := false
    srtt := 1000
    rttvar := 500
    weight := 1
    flowId := flowId
    sentpackets := 0
    recvpackets := 0
    sentbytes := 0
    recvbytes := 0
    timeout := conf.timeout
    bandwidth := conf.bandwidth
    sbuf := pktbufferInit pktbufsize
    hpsbuf := pktbufferInit pktbufsize
    addrinfo := none
    status := .disconnected
    lastActivity := now
    lastConnectionAttempt := 0
    nextKeepalive := 0
    lastKeepaliveAck := 0
    lastKeepaliveAckSent := 0
    ioRead := false
    ioWrite := false
    ioTimeout := ⟨true, 1⟩ }

/-- A tunnel that was never created: no watcher is active. -/
def Tunnel.blank : Tunnel :=
  let conf : TunnelConf :=
    { name := "", bindaddr := none, bindport := none, bindfib := 0, destaddr := none
      destport := none, timeout := 0, fallbackOnly := 0, bandwidth := 0, lossTolerence := 0
      latencyTolerence := 0 }
  { Tunnel.init conf false 0 0 with ioTimeout := ⟨false, 0⟩ }

/-- `mlvpn_timestamp64`: seconds to milliseconds. -/
def timestamp64 (now : ℚ) : UInt64 := UInt64.ofNat (now * 1000).floor.toNat

/-- `mlvpn_timestamp16`: the value `-1` is left out. -/
def timestamp16 (now : UInt64) : UInt16 :=
  let ts := UInt16.ofNat (now.toNat % 65536)
  if ts = 0xFFFF then ts + 1 else ts

/-- `mlvpn_timestamp16_diff`. -/
def timestamp16Diff (tsnew tsold : UInt16) : UInt16 :=
  let diff : Int := tsnew.toNat - tsold.toNat
  UInt16.ofNat (if diff < 0 then diff + 65536 else diff).toNat

/-- `1 << n` for an `int`, widened to 64 bits.  The program shifts by up to 63,
    which C leaves open from 31 on; the count is taken as the hardware takes it,
    modulo 32. -/
def intBit (n : UInt64) : UInt64 :=
  if n % 32 = 31 then 0xFFFFFFFF80000000 else 1 <<< (n % 32)

/-- `mlvpn_loss_update`: a window over the last 64 sequence numbers. -/
def lossUpdate (t : Tunnel) (seq : UInt64) : Tunnel :=
  if seq > t.seqLast + 64 then
    { t with seqVect := 0xFFFFFFFFFFFFFFFF, seqLast := seq }
  else if seq > t.seqLast then
    { t with seqVect := t.seqVect <<< (seq - t.seqLast) ||| 1, seqLast := seq }
  else if seq ≥ t.seqLast - 63 then
    { t with seqVect := t.seqVect ||| intBit (t.seqLast - seq) }
  else t

/-- `mlvpn_loss_ratio`: the zeros of the window, in percent. -/
def lossRatio (t : Tunnel) : Nat :=
  ((List.range 64).filter fun i => 1 &&& (t.seqVect >>> UInt64.ofNat i) = 0).length * 100 / 64

/-- The round trip time is smoothed from the second sample on. -/
def rttUpdate (t : Tunnel) (sample : ℚ) : Tunnel :=
  if t.rttHit then
    let alpha : ℚ := 1 / 8
    let beta : ℚ := 1 / 4
    { t with
      rttvar := (1 - beta) * t.rttvar + beta * |t.srtt - sample|
      srtt := (1 - alpha) * t.srtt + alpha * sample }
  else { t with srtt := sample, rttvar := sample / 2, rttHit := true }

end Mlvpn
