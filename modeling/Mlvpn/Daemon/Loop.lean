import Mlvpn.Daemon.State
import Mlvpn.Library.Machine
import Mathlib.Data.UInt

/-! # The event loop

The callbacks of `mlvpn.c`: datagrams in and out, the timers of the tunnels, the
tuntap device, a reload of the configuration, and the end.  Each is an event
with the answers of the system to the calls it makes, and with the time of the
loop.  The configuration comes parsed: `config.c` with its defaults applied.
-/

namespace Mlvpn

open Library.Machine

/-- The answer of `sendto`. -/
inductive SendResult where
  /-- `EAGAIN` or `EWOULDBLOCK` -/
  | blocked
  | failed
  | sent (len : Nat)

/-- The answer of `recvfrom`. -/
inductive ReadResult where
  | blocked
  | failed
  | closed
  /-- A datagram, where it came from, and whether `getnameinfo` names that. -/
  | datagram (bytes : List UInt8) (sender : Addr) (named : Bool)

/-- The section `general`. -/
structure General (κ : Type) where
  serverMode : Bool
  key : κ
  cleartextData : Bool
  reorderBufferSize : UInt32

/-- A section of the configuration.  A tunnel comes with the `flow_id` that
    `randombytes_random` yields if it has to be created. -/
inductive Section (κ : Type) where
  | general (general : General κ)
  | tunnel (conf : TunnelConf) (flowId : UInt32)

/-- Whether a section is that of a tunnel with this name. -/
def Section.names {κ : Type} (name : String) : Section κ → Bool
  | .general _ => false
  | .tunnel conf _ => conf.name = name

structure Config (κ : Type) where
  sections : List (Section κ)
  /-- The compiled filters, and the names of their tunnels -/
  filters : List ((List UInt8 → Bool) × String)

variable {κ : Type}

/-- The packet is sealed: it is not data in clear, and not too long. -/
def Seals (cleartextData : Bool) (pkt : Pkt) : Prop :=
  ¬ (cleartextData = true ∧ pkt.type = .data) ∧ ¬ pkthdrsiz + pkt.len + padsize > defaultMtu

instance (cleartextData : Bool) (pkt : Pkt) : Decidable (Seals cleartextData pkt) :=
  inferInstanceAs (Decidable (_ ∧ _))

namespace Daemon

/-- What `mlvpn_rtun_send` does after `sendto`. -/
def afterSendto (d : Daemon κ) (i : Nat) (type : PktType) (datagram : List UInt8) :
    SendResult → Option (Daemon κ)
  | .blocked => some d
  | .failed => d.statusDown i
  | .sent len =>
      some ((d.modify i (·.countSent len)).log (.sent i type datagram))

/-- The first part of `mlvpn_rtun_send`: a packet leaves its queue and is numbered,
    and sealed if need be. -/
def takePacket (d : Daemon κ) (i : Nat) (highPriority : Bool) (now : ℚ) : Pkt × Proto × Daemon κ :=
  let (pkt, buf) := pktbufferRead ((d.tun i).queue highPriority)
  let (proto, t, dataSeq) :=
    sendHeader ((d.tun i).setQueue highPriority buf) d.dataSeq (timestamp64 now) pkt
  let d := { d.modify i (fun _ => t) with dataSeq := dataSeq }.log (.sending i)
  if Seals d.cleartextData pkt then
    (pkt, proto, d.log (.encrypted (nonce d.host.endian proto.seq proto.flowId)))
  else (pkt, proto, d)

/-- `mlvpn_rtun_send`. -/
def rtunSend (d : Daemon κ) (i : Nat) (highPriority : Bool) (now : ℚ) (result : SendResult) :
    Option (Daemon κ) :=
  let (pkt, proto, d) := d.takePacket i highPriority now
  match sendDatagram d.host d.cleartextData proto pkt with
  | none => some d
  | some datagram =>
      match (d.tun i).addrinfo with
      | none => none
      | some _ =>
          (d.afterSendto i pkt.type datagram result).map fun d =>
            d.modify i (·.stopIfEmpty highPriority)

/-- How `mlvpn_rtun_send` can end: the packet is not sealed, or its datagram is given to `sendto`. -/
inductive SendsPacket (d : Daemon κ) (i : Nat) (highPriority : Bool) (now : ℚ) (result : SendResult) :
    Daemon κ → Prop where
  | refuses : (let packet := d.takePacket i highPriority now
      sendDatagram packet.2.2.host packet.2.2.cleartextData packet.2.1 packet.1 = none) →
      SendsPacket d i highPriority now result (d.takePacket i highPriority now).2.2
  | hands {datagram : List UInt8} {d₁ : Daemon κ} : (let packet := d.takePacket i highPriority now
      sendDatagram packet.2.2.host packet.2.2.cleartextData packet.2.1 packet.1 = some datagram) →
      (let packet := d.takePacket i highPriority now
      packet.2.2.afterSendto i packet.1.type datagram result = some d₁) →
      SendsPacket d i highPriority now result (d₁.modify i (·.stopIfEmpty highPriority))

theorem rtunSend_cases {d d' : Daemon κ} {i : Nat} {highPriority : Bool} {now : ℚ} {result : SendResult}
    (done : d.rtunSend i highPriority now result = some d') :
    SendsPacket d i highPriority now result d' := by
  unfold rtunSend at done
  dsimp only at done
  split at done
  next refused =>
    cases done
    exact .refuses refused
  next built =>
    split at done
    next => cases done
    next =>
      obtain ⟨d₁, sent, rfl⟩ := Option.map_eq_some_iff.mp done
      exact .hands built sent

/-- One queue of `mlvpn_rtun_write`. -/
def writeQueue (d : Daemon κ) (i : Nat) (highPriority : Bool) (now : ℚ) (result : SendResult) :
    Option (Daemon κ) :=
  if cbIsEmpty ((d.tun i).queue highPriority) then some d else d.rtunSend i highPriority now result

/-- `mlvpn_rtun_write`. -/
def rtunWrite (d : Daemon κ) (i : Nat) (now : ℚ) (first second : SendResult) : Option (Daemon κ) :=
  (d.writeQueue i true now first).bind fun d => d.writeQueue i false now second

/-- What `mlvpn_rtun_read` does with a packet, by its type. -/
def dispatch (d : Daemon κ) (i : Nat) (now : ℚ) (pkt : Pkt) : Option (Daemon κ) :=
  let connected := (d.tun i).status.Up
  match pkt.type with
  | .data =>
      if connected then
        let d := d.modify i (·.tick now)
        (d.rx.step (.recv i pkt)).map d.withRx
      else some d
  | .keepalive => some (if connected then d.modify i (·.keepaliveReceived now) else d)
  | .disconnect => if connected then d.statusDown i else some d
  | .auth => d.sendAuth i now
  | .authOk => d.sendAuth i now
  | .other _ => some d

/-- What can become of a packet. -/
inductive Dispatches (d : Daemon κ) (i : Nat) (now : ℚ) (pkt : Pkt) : Daemon κ → Prop where
  | ignores : Dispatches d i now pkt d
  | delivers {rx : Receive} : pkt.type = .data → (d.tun i).status.Up →
      (d.modify i (·.tick now)).rx.step (.recv i pkt) = some rx →
      Dispatches d i now pkt ((d.modify i (·.tick now)).withRx rx)
  | keepsAlive : (d.tun i).status.Up → Dispatches d i now pkt (d.modify i (·.keepaliveReceived now))
  | disconnects {d' : Daemon κ} : (d.tun i).status.Up → d.statusDown i = some d' →
      Dispatches d i now pkt d'
  | handshakes {d' : Daemon κ} : pkt.type = .auth ∨ pkt.type = .authOk → d.sendAuth i now = some d' →
      Dispatches d i now pkt d'

theorem dispatch_cases {d d' : Daemon κ} {i : Nat} {now : ℚ} {pkt : Pkt}
    (done : d.dispatch i now pkt = some d') : Dispatches d i now pkt d' := by
  unfold dispatch at done
  dsimp only at done
  split at done
  next isData =>
    split at done
    next connected =>
      obtain ⟨rx, stepped, rfl⟩ := Option.map_eq_some_iff.mp done
      exact .delivers isData connected stepped
    next =>
      cases done
      exact .ignores
  next =>
    cases done
    split
    next connected => exact .keepsAlive connected
    next => exact .ignores
  next =>
    split at done
    next connected => exact .disconnects connected done
    next =>
      cases done
      exact .ignores
  next isAuth => exact .handshakes (.inl isAuth) done
  next isAuthOk => exact .handshakes (.inr isAuthOk) done
  next =>
    cases done
    exact .ignores

/-- `mlvpn_rtun_read`. -/
def rtunRead (d : Daemon κ) (i : Nat) (now : ℚ) : ReadResult → Option (Daemon κ)
  | .blocked => some d
  | .failed => d.statusDown i
  | .closed => some d
  | .datagram bytes sender named =>
      -- `recvfrom` cuts a datagram to the size of the packet's array
      let bytes := bytes.take defaultMtu
      match protocolRead d.host d.cleartextData (timestamp64 now) (d.tun i) bytes with
      | (none, t) => some (d.modify i fun _ => t)
      | (some (decrypted, pkt), t) =>
          ((t.countReceived bytes.length).adoptAddr sender named).bind fun t =>
            ((d.modify i fun _ => t).log (.accepted i pkt.type decrypted)).dispatch i now pkt

/-- What can become of a call of `mlvpn_rtun_read`. -/
inductive ReadsPacket (d : Daemon κ) (i : Nat) (now : ℚ) : ReadResult → Daemon κ → Prop where
  | waits {result : ReadResult} : result = .blocked ∨ result = .closed → ReadsPacket d i now result d
  | fails {d' : Daemon κ} : d.statusDown i = some d' → ReadsPacket d i now .failed d'
  | refuses {bytes : List UInt8} {sender : Addr} {named : Bool} {t : Tunnel} :
      protocolRead d.host d.cleartextData (timestamp64 now) (d.tun i) (bytes.take defaultMtu) = (none, t) →
      ReadsPacket d i now (.datagram bytes sender named) (d.modify i fun _ => t)
  | accepts {bytes : List UInt8} {sender : Addr} {named decrypted : Bool} {pkt : Pkt} {t t₁ : Tunnel}
      {d' : Daemon κ} : protocolRead d.host d.cleartextData (timestamp64 now) (d.tun i)
        (bytes.take defaultMtu) = (some (decrypted, pkt), t) →
      (t.countReceived (bytes.take defaultMtu).length).adoptAddr sender named = some t₁ →
      ((d.modify i fun _ => t₁).log (.accepted i pkt.type decrypted)).dispatch i now pkt = some d' →
      ReadsPacket d i now (.datagram bytes sender named) d'

theorem rtunRead_cases {d d' : Daemon κ} {i : Nat} {now : ℚ} {result : ReadResult}
    (done : d.rtunRead i now result = some d') : ReadsPacket d i now result d' := by
  cases result with
  | blocked =>
      cases done
      exact .waits (.inl rfl)
  | closed =>
      cases done
      exact .waits (.inr rfl)
  | failed => exact .fails done
  | datagram bytes sender named =>
      simp only [rtunRead] at done
      split at done
      next read =>
        cases done
        exact .refuses read
      next read =>
        obtain ⟨_, adopted, dispatched⟩ := Option.bind_eq_some_iff.mp done
        exact .accepts read adopted dispatched

/-- The first part of `mlvpn_rtun_check_timeout`. -/
def checkAlive (d : Daemon κ) (i : Nat) (now : ℚ) (result : StartResult) : Option (Daemon κ) :=
  let t := d.tun i
  if t.status.Up then
    if t.timeout > 0 then
      if t.lastKeepaliveAck ≠ 0 ∧ t.lastKeepaliveAck + t.timeout < now then d.statusDown i
      else if now > t.nextKeepalive then some (d.modify i (·.sendKeepalive now))
      else some d
    else some d
  else some (d.modify i (·.tickConnect now result))

/-- `mlvpn_rtun_check_timeout`. -/
def checkTimeout (d : Daemon κ) (i : Nat) (now : ℚ) (result : StartResult) : Option (Daemon κ) :=
  (d.checkAlive i now result).bind fun d =>
    let d := d.modify i fun t =>
      if t.ioWrite = false ∧ ¬ cbIsEmpty t.hpsbuf then { t with ioWrite := true } else t
    (d.checkLossy i).bind fun d => d.checkSlow i

/-- `mlvpn_filters_choose`. -/
def filtersChoose (d : Daemon κ) (data : List UInt8) : Option Nat :=
  (d.filters.find? fun (filter, i) => filter data && decide (d.tun i).status.Up).map Prod.snd

/-- `mlvpn_tuntap_generic_read`. -/
def tuntapGenericRead (d : Daemon κ) (data : List UInt8) : Daemon κ :=
  match d.filtersChoose data with
  | some i => d.modify i (·.queueData true data)
  | none =>
      match d.rtunChoose with
      | (none, d) => d
      | (some i, d) => d.modify i (·.queueData false data)

/-- `mlvpn_tuntap_read`: a device that was closed is fatal, a packet that is too
    long is cut. -/
def tuntapRead (d : Daemon κ) (data : List UInt8) : Option (Daemon κ) :=
  if data = [] then none else some (d.tuntapGenericRead (data.take maxmtu))

/-- `mlvpn_rtun_adjust_reorder_timeout`. -/
def adjustReorderTimeout (d : Daemon κ) : Option (Daemon κ) :=
  let watched := d.up.filter fun i => (d.tun i).fallbackOnly = 0 ∧ (d.tun i).rttHit = true
  let maxSrtt : ℚ := (watched.map fun i => (d.tun i).srtt + 4 * (d.tun i).rttvar).foldl
    (fun max srtt => if max > srtt then max else srtt) 0
  let period := if maxSrtt > 0 then maxSrtt * (22 / 10) / 1000 else 8 / 10
  (d.rx.step (.adjust period)).map d.withRx

/-- `mlvpn_rtun_send_disconnect`. -/
def sendDisconnect (d : Daemon κ) (i : Nat) (now : ℚ) (result : SendResult) : Option (Daemon κ) :=
  (d.modify i (·.queueBare .disconnect)).rtunSend i true now result

/-- `mlvpn_rtun_new`. -/
def rtunNew (d : Daemon κ) (conf : TunnelConf) (serverMode : Bool) (flowId : UInt32) (now : ℚ) :
    Daemon κ :=
  if conf.Incomplete serverMode then d
  else
    let i := d.tuns.length
    { d with
      tuns := d.tuns ++ [Tunnel.init conf serverMode flowId now]
      rtuns := i :: d.rtuns }.log (.created i)

/-- `mlvpn_rtun_drop`. -/
def rtunDrop (d : Daemon κ) (i : Nat) (now : ℚ) (result : SendResult) : Option (Daemon κ) :=
  (d.sendDisconnect i now result).bind fun d =>
    (d.statusDown i).map fun d =>
      let d := d.modify i Tunnel.stopWatching
      { d with rtuns := d.rtuns.eraseP fun j => (d.tun j).name = (d.tun i).name }

/-- `mlvpn_rtun_recalc_weight`: by bandwidth, if every tunnel has one. -/
def recalcWeight (d : Daemon κ) : Daemon κ :=
  let total : UInt32 := (d.rtuns.map fun i => (d.tun i).bandwidth).sum
  if ∃ i ∈ d.rtuns, (d.tun i).bandwidth = 0 then d
  else d.rtuns.foldl (fun d i => d.modify i (·.weigh total)) d

def named (d : Daemon κ) (name : String) : Option Nat :=
  d.rtuns.find? fun i => (d.tun i).name = name

/-- A section of a tunnel in `mlvpn_config`: a tunnel of that name is refitted,
    and otherwise created. -/
def configTunnel (d : Daemon κ) (conf : TunnelConf) (serverMode : Bool) (flowId : UInt32)
    (now : ℚ) : Option (Daemon κ) :=
  let d := if conf.fallbackOnly ≠ 0 then { d with fallbackAvailable := 1 } else d
  match d.named conf.name with
  | none => some (d.rtunNew conf serverMode flowId now)
  | some i =>
      (if (d.tun i).Moved conf then d.statusDown i else some d).map fun d =>
        d.modify i (·.refit conf)

/-- The section `general` in `mlvpn_config`. -/
def configGeneral (d : Daemon κ) (general : General κ) : Option (Daemon κ) :=
  let d :=
    { d with host := { d.host with key := general.key }, cleartextData := general.cleartextData }
  (d.rx.step (.reload general.reorderBufferSize)).map d.withRx

/-- One section, with `default_server_mode`, which is never cleared. -/
def configSection (now : ℚ) : Bool × Daemon κ → Section κ → Option (Bool × Daemon κ)
  | (serverMode, d), .general general =>
      (d.configGeneral general).map fun d => (serverMode || general.serverMode, d)
  | (serverMode, d), .tunnel conf flowId =>
      (d.configTunnel conf serverMode flowId now).map fun d => (serverMode, d)

/-- The end of `mlvpn_config`: a tunnel without a section is dropped. -/
def dropIfMissing (conf : Config κ) (now : ℚ) (send : Nat → SendResult) (d : Daemon κ) (i : Nat) :
    Option (Daemon κ) :=
  if conf.sections.any (Section.names (d.tun i).name) then some d else d.rtunDrop i now (send i)

/-- `mlvpn_config` and `mlvpn_config_reload`; `none` is a configuration that does
    not parse. -/
def configReload (d : Daemon κ) (conf : Option (Config κ)) (now : ℚ) (send : Nat → SendResult) :
    Option (Daemon κ) :=
  let d := { d with fallbackAvailable := 0, filters := [] }
  match conf with
  | none => some d
  | some conf =>
      (run (configSection now) (false, d) conf.sections).bind fun result =>
        (run (dropIfMissing conf now send) result.2 result.2.rtuns).map fun d =>
          let found := conf.filters.filterMap fun (filter, name) =>
            (d.named name).map fun i => (filter, i)
          { d with filters := found.take 255 }.recalcWeight

/-- The loop of `mlvpn_quit`. -/
def quitTunnel (now : ℚ) (send : Nat → SendResult) (d : Daemon κ) (i : Nat) : Option (Daemon κ) :=
  let d := d.modify i Tunnel.stopWatching
  if (d.tun i).status.Up then d.sendDisconnect i now (send i) else some d

/-- `mlvpn_quit`. -/
def quit (d : Daemon κ) (now : ℚ) (send : Nat → SendResult) : Option (Daemon κ) :=
  (run (quitTunnel now send) d d.rtuns).map fun d => { d with stopped := true }

/-- What the loop can call back for. -/
inductive Event (κ : Type) where
  | read (i : Nat) (result : ReadResult)
  | write (i : Nat) (first second : SendResult)
  | timeout (i : Nat) (result : StartResult)
  | tuntapRead (data : List UInt8)
  | tuntapWrite
  | drainTimeout
  | adjustTimeout
  | reload (conf : Option (Config κ)) (send : Nat → SendResult)
  | quit (send : Nat → SendResult)

/-- One event at a time; a watcher that is not active is not called back. -/
def step (d : Daemon κ) : ℚ × Event κ → Option (Daemon κ)
  | (now, e) =>
      if d.stopped then some d
      else
        match e with
        | .read i result => if (d.tun i).ioRead then d.rtunRead i now result else some d
        | .write i first second =>
            if (d.tun i).ioWrite then d.rtunWrite i now first second else some d
        | .timeout i result =>
            if (d.tun i).ioTimeout.active then d.checkTimeout i now result else some d
        | .tuntapRead data => d.tuntapRead data
        | .tuntapWrite => (d.rx.step .tuntapWrite).map d.withRx
        | .drainTimeout => (d.rx.step .timeout).map d.withRx
        | .adjustTimeout => d.adjustReorderTimeout
        | .reload conf send => d.configReload conf now send
        | .quit send => d.quit now send

end Daemon

end Mlvpn
