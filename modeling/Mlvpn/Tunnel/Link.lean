import Mlvpn.Tunnel.State

/-! # What the program does to one tunnel

The functions of `mlvpn.c`, or the parts of them, that touch no other tunnel and
no global: queueing control packets, opening the socket, and the comparison of
the measurements with what is tolerated.
-/

namespace Mlvpn

/-- A control packet of a queue: `mlvpn_pktbuffer_write` and the text stored after it. -/
def queueControl (buf : Pktbuffer) (type : PktType) (text : List UInt8) : Pktbuffer :=
  pktbufferWrite buf fun slot =>
    { slot with len := text.length, type := type, data := text ++ slot.data.drop text.length }

/-- What the system answers to `mlvpn_rtun_start`. -/
inductive StartResult where
  /-- No address was found. -/
  | unresolved
  /-- An address, but no socket. -/
  | noSocket (addr : Addr)
  /-- A socket that could not be set up or bound. -/
  | refused (addr : Addr) (fd : Nat)
  | opened (addr : Addr) (fd : Nat)

namespace Tunnel

/-- The status that `mlvpn_rtun_check_lossy` stores, where it changes. -/
def lossyStatus (t : Tunnel) : Option Status :=
  if lossRatio t ≥ t.lossTolerence ∧ t.status = .authok then some .lossy
  else if lossRatio t < t.lossTolerence ∧ t.status = .lossy then some .authok
  else none

/-- The status that `mlvpn_rtun_check_slow` stores, where it changes. -/
def slowStatus (t : Tunnel) : Option Status :=
  if t.latencyTolerence = 1000 then none
  else if t.srtt ≥ t.latencyTolerence ∧ t.status = .authok then some .highLatency
  else if t.srtt < t.latencyTolerence ∧ t.status = .highLatency then some .authok
  else none

/-- A check of a measurement changes one connected status for another. -/
theorem lossyStatus_up {t : Tunnel} {status : Status} (changed : t.lossyStatus = some status) :
    t.status.Up ∧ status.Up := by
  rw [lossyStatus] at changed
  split at changed
  next found =>
    cases changed
    rw [found.2]
    decide
  next =>
    split at changed
    next found =>
      cases changed
      rw [found.2]
      decide
    next => cases changed

theorem slowStatus_up {t : Tunnel} {status : Status} (changed : t.slowStatus = some status) :
    t.status.Up ∧ status.Up := by
  rw [slowStatus] at changed
  repeat' split at changed
  all_goals cases changed
  all_goals
    rename_i found
    rw [found.2]
    decide

/-- The tunnel that `mlvpn_rtun_status_up` leaves. -/
def raised (t : Tunnel) (now : ℚ) : Tunnel :=
  { t with
    status := .authok
    nextKeepalive := now + 1
    lastActivity := now
    lastKeepaliveAck := now
    lastKeepaliveAckSent := now }

/-- The tunnel that `mlvpn_rtun_status_down` leaves. -/
def lowered (t : Tunnel) : Tunnel :=
  { t with
    status := .disconnected
    disconnects := t.disconnects + 1
    sbuf := pktbufferReset t.sbuf
    hpsbuf := pktbufferReset t.hpsbuf
    ioWrite := false }

/-- `mlvpn_rtun_tick`. -/
def tick (t : Tunnel) (now : ℚ) : Tunnel := { t with lastActivity := now }

/-- `mlvpn_rtun_challenge_send`: an `AU`. -/
def challengeSend (t : Tunnel) : Tunnel :=
  { t with hpsbuf := queueControl t.hpsbuf .auth [65, 85], status := .authsent }

/-- The `OK` of a server, which empties a full queue first. -/
def queueAuthOk (t : Tunnel) : Tunnel :=
  let hpsbuf := if cbIsFull t.hpsbuf then pktbufferReset t.hpsbuf else t.hpsbuf
  { t with
    hpsbuf := queueControl hpsbuf .authOk [79, 75]
    status := if t.status.Up then t.status else .authsent }

/-- A control packet without text, unless the queue is full. -/
def queueBare (t : Tunnel) (type : PktType) : Tunnel :=
  if cbIsFull t.hpsbuf then t else { t with hpsbuf := queueControl t.hpsbuf type [] }

/-- `mlvpn_rtun_send_keepalive`. -/
def sendKeepalive (t : Tunnel) (now : ℚ) : Tunnel :=
  { t.queueBare .keepalive with nextKeepalive := now + 1 }

/-- What `mlvpn_rtun_read` does with a keepalive: it is answered, but not more than
    once a second. -/
def keepaliveReceived (t : Tunnel) (now : ℚ) : Tunnel :=
  let t := { t.tick now with lastKeepaliveAck := now }
  if t.lastKeepaliveAckSent + 1 < t.lastKeepaliveAck then
    { t with lastKeepaliveAckSent := t.lastKeepaliveAck }.sendKeepalive now
  else t

def countReceived (t : Tunnel) (len : Nat) : Tunnel :=
  { t with recvbytes := t.recvbytes + UInt64.ofNat len, recvpackets := t.recvpackets + 1 }

def countSent (t : Tunnel) (len : Nat) : Tunnel :=
  { t with sentpackets := t.sentpackets + 1, sentbytes := t.sentbytes + UInt64.ofNat len }

/-- The end of `mlvpn_rtun_start` when it fails: `MLVPN_IO_TIMEOUT_MAXIMUM` is 60. -/
def startError (t : Tunnel) : Tunnel :=
  { t with
    fd := if t.fd > 0 then -1 else t.fd
    ioTimeout :=
      if t.ioTimeout.period < 60 then { t.ioTimeout with period := t.ioTimeout.period * 2 }
      else t.ioTimeout }

/-- `mlvpn_rtun_start`, and whether it returns 0. -/
def start (t : Tunnel) (now : ℚ) : StartResult → Bool × Tunnel
  | .unresolved => (false, t)
  | .noSocket addr => (false, { t with addrinfo := some addr }.startError)
  | .refused addr fd => (false, { t with addrinfo := some addr, fd := fd }.startError)
  | .opened addr fd =>
      let t := { t with addrinfo := some addr, fd := fd }.tick now
      (true, { t with ioRead := true, ioTimeout := { t.ioTimeout with period := 1 } })

/-- `mlvpn_rtun_start` where there is no socket yet, and whether to go on. -/
def startIfClosed (t : Tunnel) (now : ℚ) (result : StartResult) : Bool × Tunnel :=
  if t.fd < 0 then
    let (started, t) := t.start now result
    (started, if started then { t with connAttempts := 0 } else t)
  else (true, t)

/-- `mlvpn_rtun_tick_connect`. -/
def tickConnect (t : Tunnel) (now : ℚ) (result : StartResult) : Tunnel :=
  if t.serverMode then (t.startIfClosed now result).2
  else
    let (ready, t) :=
      if t.status.Up then (true, t)
      else
        { t with connAttempts := t.connAttempts + 1, lastConnectionAttempt := now }.startIfClosed
          now result
    if ready then t.challengeSend else t

/-- The socket, and what is noted of the attempts to open it, are those of `u`. -/
def withSocket (t u : Tunnel) : Tunnel :=
  { t with
    fd := u.fd
    connAttempts := u.connAttempts
    addrinfo := u.addrinfo
    lastActivity := u.lastActivity
    lastConnectionAttempt := u.lastConnectionAttempt
    ioRead := u.ioRead
    ioTimeout := u.ioTimeout }

/-- Two tunnels that differ in their socket and in the attempts to open it only. -/
def Started (t t' : Tunnel) : Prop := t' = t.withSocket t'

theorem startIfClosed_started (t : Tunnel) (now : ℚ) (result : StartResult) :
    t.Started (t.startIfClosed now result).2 := by
  unfold startIfClosed
  split
  next => cases result <;> rfl
  next => rfl

/-- A tunnel that is to be connected opens its socket, and may send its challenge. -/
theorem tickConnect_started (t : Tunnel) (now : ℚ) (result : StartResult) :
    t.Started (t.tickConnect now result) ∨
      ∃ opened, t.Started opened ∧ t.tickConnect now result = opened.challengeSend := by
  have attempted := startIfClosed_started
    { t with connAttempts := t.connAttempts + 1, lastConnectionAttempt := now } now result
  unfold tickConnect
  split
  next => exact .inl (startIfClosed_started t now result)
  next =>
    dsimp only
    split
    next => exact .inr ⟨t, rfl, rfl⟩
    next =>
      split
      next => exact .inr ⟨_, attempted.trans rfl, rfl⟩
      next => exact .inl (attempted.trans rfl)

/-- A tunnel follows its peer to the address of an accepted datagram; `named` is
    the answer of `getnameinfo`.  The program means to keep strangers out by
    `! tun->status >= MLVPN_AUTHOK`, which compares 0 or 1 with 2 and never holds. -/
def adoptAddr (t : Tunnel) (sender : Addr) (named : Bool) : Option Tunnel :=
  match t.addrinfo with
  | none => none
  | some addr =>
      if addr ≠ sender ∧ named = true then
        -- the copy goes into the allocation of the old address
        if sender.length ≤ addr.length then
          some { t with addrinfo := some (sender ++ addr.drop sender.length) }
        else none
      else some t

/-- Nothing but the address changes, and there is one. -/
theorem adoptAddr_eq {t t' : Tunnel} {sender : Addr} {named : Bool}
    (adopted : t.adoptAddr sender named = some t') : ∃ addr, t' = { t with addrinfo := some addr } := by
  unfold adoptAddr at adopted
  split at adopted
  next => cases adopted
  next addr stored =>
    split_ifs at adopted
    · cases adopted
      exact ⟨_, rfl⟩
    · cases adopted
      exact ⟨addr, by rw [← stored]⟩

/-- What a reload changes of a tunnel that exists. -/
def refit (t : Tunnel) (conf : TunnelConf) : Tunnel :=
  { t with
    bindaddr := strlcpy t.bindaddr 256 conf.bindaddr
    bindport := strlcpy t.bindport 6 conf.bindport
    bindfib := conf.bindfib
    destaddr := strlcpy t.destaddr 256 conf.destaddr
    destport := strlcpy t.destport 6 conf.destport
    fallbackOnly := conf.fallbackOnly
    bandwidth := conf.bandwidth
    lossTolerence := conf.lossTolerence
    latencyTolerence := conf.latencyTolerence }

/-- The queue a packet is sent from: `hpsbuf` or `sbuf`. -/
def queue (t : Tunnel) (highPriority : Bool) : Pktbuffer :=
  if highPriority then t.hpsbuf else t.sbuf

def setQueue (t : Tunnel) (highPriority : Bool) (buf : Pktbuffer) : Tunnel :=
  if highPriority then { t with hpsbuf := buf } else { t with sbuf := buf }

/-- The watcher is stopped once the queue is empty. -/
def stopIfEmpty (t : Tunnel) (highPriority : Bool) : Tunnel :=
  if t.ioWrite = true ∧ cbIsEmpty (t.queue highPriority) then { t with ioWrite := false } else t

/-- The weight of a tunnel by its share of the bandwidth. -/
def weigh (t : Tunnel) (total : UInt32) : Tunnel :=
  if t.bandwidth > 0 ∧ total > 0 then
    { t with weight := t.bandwidth.toNat / total.toNat * 100 }
  else t

/-- The timer of a tunnel and its reads are stopped. -/
def stopWatching (t : Tunnel) : Tunnel := { t with ioTimeout := t.ioTimeout.stop, ioRead := false }

/-- A packet of the tuntap device on a queue. -/
def queueData (t : Tunnel) (highPriority : Bool) (data : List UInt8) : Tunnel :=
  let buf := pktbufferWrite (t.queue highPriority) fun slot =>
    { slot with len := data.length, data := data ++ slot.data.drop data.length }
  let t := t.setQueue highPriority buf
  if t.ioWrite = false ∧ ¬ cbIsEmpty buf then { t with ioWrite := true } else t

/-- The addresses of a configuration are not those of the tunnel.  `mystr_eq` is
    false of a setting that is missing. -/
def Moved (t : Tunnel) (conf : TunnelConf) : Prop :=
  conf.bindaddr ≠ some t.bindaddr ∨ conf.bindport ≠ some t.bindport ∨ t.bindfib ≠ conf.bindfib ∨
    conf.destaddr ≠ some t.destaddr ∨ conf.destport ≠ some t.destport

instance (t : Tunnel) (conf : TunnelConf) : Decidable (t.Moved conf) :=
  inferInstanceAs (Decidable (_ ∨ _))

end Tunnel

end Mlvpn
