import Mlvpn.Daemon.Sockets
import Mlvpn.Wire.Framing

/-! # An event, stroke by stroke

Every callback of the loop is taken apart into strokes: a packet leaves its queue and is sent or
lost, a datagram is accepted, a packet is handed to the receive path, a tunnel comes up or goes
down, and the rest is done to one tunnel without a record.  A stroke tells everything that it
does, so what holds of every stroke holds of every run.
-/

namespace Mlvpn

namespace Tunnel

/-- Both queues are rings in order, with packets that may be sent. -/
structure Queued (t : Tunnel) : Prop where
  rings : ∀ highPriority, (t.queue highPriority).Wf
  stocked : t.Stocked

variable {t t' : Tunnel}

theorem queueBare_eq (t : Tunnel) (type : PktType) :
    t.queueBare type = { t with hpsbuf := (t.queueBare type).hpsbuf } := by
  unfold queueBare
  split <;> rfl

theorem queueData_eq (t : Tunnel) (highPriority : Bool) (data : List UInt8) :
    t.queueData highPriority data = { t with
      sbuf := (t.queueData highPriority data).sbuf
      hpsbuf := (t.queueData highPriority data).hpsbuf
      ioWrite := (t.queueData highPriority data).ioWrite } := by
  unfold queueData
  dsimp only
  cases highPriority <;> split <;> rfl

/-- A packet that leaves its queue takes the next number. -/
theorem taken_eq (t : Tunnel) (highPriority : Bool) (dataSeq now64 : UInt64) :
    t.taken highPriority dataSeq now64 = { t with
      sbuf := (t.taken highPriority dataSeq now64).sbuf
      hpsbuf := (t.taken highPriority dataSeq now64).hpsbuf
      savedTimestamp := (t.taken highPriority dataSeq now64).savedTimestamp
      savedTimestampReceivedAt := (t.taken highPriority dataSeq now64).savedTimestampReceivedAt
      seq := t.seq + 1 } := by
  unfold taken sendHeader
  dsimp only
  cases highPriority <;> split <;> rfl

theorem Queued.of_queues (queued : t.Queued) (serverMode : t'.serverMode = t.serverMode)
    (hpsbuf : t'.hpsbuf = t.hpsbuf) (sbuf : t'.sbuf = t.sbuf) : t'.Queued where
  rings := fun highPriority => by
    have same : t'.queue highPriority = t.queue highPriority := by
      cases highPriority
      · exact sbuf
      · exact hpsbuf
    rw [same]
    exact queued.rings highPriority
  stocked := by
    rw [Stocked, serverMode, hpsbuf, sbuf]
    exact queued.stocked

theorem queued_init (conf : TunnelConf) (serverMode : Bool) (flowId : UInt32) (now : ℚ) :
    (init conf serverMode flowId now).Queued where
  rings := fun highPriority => by
    cases highPriority <;> exact Pktbuffer.wf_init (by decide)
  stocked := ⟨.init _ _, .init _ _⟩

theorem queued_blank : blank.Queued where
  rings := fun highPriority => by
    cases highPriority <;> exact Pktbuffer.wf_init (by decide)
  stocked := ⟨.init _ _, .init _ _⟩

/-- One queue is another ring. -/
theorem Queued.setQueue {highPriority : Bool} {buf : Pktbuffer} (queued : t.Queued) (wf : buf.Wf)
    (stocked : buf.Stocked t.serverMode) : (t.setQueue highPriority buf).Queued where
  rings := fun other => by
    cases highPriority <;> cases other
    · exact wf
    · exact queued.rings true
    · exact queued.rings false
    · exact wf
  stocked := (Quiet.setQueue fun _ => stocked).stocked queued.stocked

theorem Queued.control (queued : t.Queued) (type : PktType) (text : List UInt8) (known : type.Known)
    (control : type ≠ .data) (len : text.length = 0 ∨ text.length = 2)
    (role : type = .authOk → t.serverMode = true) :
    { t with hpsbuf := queueControl t.hpsbuf type text }.Queued := by
  have stocked := queued.stocked.1.control known control len role
  have written : (t.setQueue true (queueControl t.hpsbuf type text)).Queued :=
    queued.setQueue ((queued.rings true).write _).1 stocked
  exact written

theorem Queued.queueBare (queued : t.Queued) (type : PktType) (known : type.Known)
    (control : type ≠ .data) (notOk : type ≠ .authOk) : (t.queueBare type).Queued := by
  unfold Tunnel.queueBare
  split
  next => exact queued
  next => exact queued.control type [] known control (.inl rfl) fun authOk => absurd authOk notOk

/-- A queue that was offered a packet has one. -/
theorem queueBare_filled (wf : t.hpsbuf.Wf) (type : PktType) : ¬ cbIsEmpty (t.queueBare type).hpsbuf := by
  unfold Tunnel.queueBare
  split
  next full =>
    intro empty
    unfold cbIsFull at full
    rw [empty] at full
    exact Pktbuffer.succ_mod_ne wf.roomy wf.startLt full
  next => exact (wf.write _).2

theorem Queued.sendKeepalive (queued : t.Queued) (now : ℚ) : (t.sendKeepalive now).Queued :=
  (queued.queueBare .keepalive trivial (by decide) (by decide)).of_queues rfl rfl rfl

theorem Queued.keepaliveReceived (queued : t.Queued) (now : ℚ) : (t.keepaliveReceived now).Queued := by
  unfold Tunnel.keepaliveReceived
  dsimp only
  split
  next =>
    refine Queued.sendKeepalive ?_ now
    exact queued.of_queues rfl rfl rfl
  next => exact queued.of_queues rfl rfl rfl

theorem Queued.queueAuthOk (queued : t.Queued) (server : t.serverMode = true) : t.queueAuthOk.Queued := by
  have emptied : { t with
      hpsbuf := if cbIsFull t.hpsbuf then pktbufferReset t.hpsbuf else t.hpsbuf }.Queued := by
    split
    next =>
      have reset : (t.setQueue true (pktbufferReset t.hpsbuf)).Queued :=
        queued.setQueue (queued.rings true).reset queued.stocked.1
      exact reset
    next => exact queued
  have answered := emptied.control .authOk [79, 75] trivial (by decide) (.inr rfl) fun _ => server
  exact answered.of_queues rfl rfl rfl

theorem Queued.tickConnect (queued : t.Queued) (now : ℚ) (result : StartResult) :
    (t.tickConnect now result).Queued := by
  rcases t.tickConnect_started now result with started | ⟨opened, started, challenged⟩
  · rw [started]
    exact queued.of_queues rfl rfl rfl
  · rw [challenged]
    have kept : opened.Queued := by
      rw [started]
      exact queued.of_queues rfl rfl rfl
    have written := kept.control .auth [65, 85] trivial (by decide) (.inr rfl) fun other => by cases other
    exact written.of_queues rfl rfl rfl

theorem Queued.queueData {highPriority : Bool} {data : List UInt8} (queued : t.Queued)
    (positive : 1 ≤ data.length) (small : data.length ≤ maxmtu) : (t.queueData highPriority data).Queued where
  rings := fun other => by
    have wf := ((queued.rings highPriority).write fun slot =>
      { slot with len := data.length, data := data ++ slot.data.drop data.length }).1
    unfold Tunnel.queueData
    dsimp only
    split <;> cases highPriority <;> cases other
    all_goals first | exact wf | exact queued.rings true | exact queued.rings false
  stocked := (Quiet.queueData positive small).stocked queued.stocked

theorem Queued.taken (queued : t.Queued) (highPriority : Bool) (dataSeq now64 : UInt64) :
    (t.taken highPriority dataSeq now64).Queued where
  rings := fun other => by
    rw [taken_queue]
    split
    next => exact (queued.rings highPriority).read
    next => exact queued.rings other
  stocked := by
    have kept : Quiet t (t.setQueue highPriority (pktbufferRead (t.queue highPriority)).2) :=
      .setQueue fun stocked n => stocked n
    exact (kept.next.trans (.sendHeader ..)).stocked queued.stocked

theorem Queued.lowered (queued : t.Queued) : t.lowered.Queued where
  rings := fun highPriority => by
    cases highPriority
    · exact (queued.rings false).reset
    · exact (queued.rings true).reset
  stocked := queued.stocked

theorem Queued.stopIfEmpty (queued : t.Queued) (highPriority : Bool) :
    (t.stopIfEmpty highPriority).Queued := by
  unfold Tunnel.stopIfEmpty
  split
  next => exact queued.of_queues rfl rfl rfl
  next => exact queued

theorem Queued.remeasured (queued : t.Queued) (remeasured : t.Remeasured t') : t'.Queued := by
  rw [remeasured]
  exact queued.of_queues rfl rfl rfl

end Tunnel

namespace Daemon

open Library.Machine Tunnel

variable {κ : Type} {d d' d'' : Daemon κ} {i : Nat} {now : ℚ} {e : Event κ}

/-- What a callback does to a tunnel without a record of it. -/
inductive Tends (now : ℚ) : Event κ → Nat → Tunnel → Tunnel → Prop where
  | tick {i : Nat} {result : ReadResult} {t : Tunnel} : Tends now (.read i result) i t (t.tick now)
  | keepaliveReceived {i : Nat} {result : ReadResult} {t : Tunnel} : t.status.Up →
      Tends now (.read i result) i t (t.keepaliveReceived now)
  /-- The `OK` of a server. -/
  | answer {i : Nat} {result : ReadResult} {t : Tunnel} : t.serverMode = true →
      Tends now (.read i result) i t (t.queueAuthOk.tick now)
  | watchAnswer {i : Nat} {result : ReadResult} {t : Tunnel} :
      Tends now (.read i result) i t { t with ioWrite := true }
  | sendKeepalive {i : Nat} {result : StartResult} {t : Tunnel} : t.status.Up → t.nextKeepalive < now →
      Tends now (.timeout i result) i t (t.sendKeepalive now)
  | tickConnect {i : Nat} {result : StartResult} {t : Tunnel} : ¬ t.status.Up →
      Tends now (.timeout i result) i t (t.tickConnect now result)
  | watchIfQueued {i : Nat} {result : StartResult} {t : Tunnel} :
      Tends now (.timeout i result) i t t.watchIfQueued
  | queueData {i : Nat} {data : List UInt8} {t : Tunnel} (highPriority : Bool) : data ≠ [] →
      Tends now (.tuntapRead data) i t (t.queueData highPriority (data.take maxmtu))
  | queueDisconnect {e : Event κ} {i : Nat} {t : Tunnel} : Tends now e i t (t.queueBare .disconnect)
  | stopIfEmpty {e : Event κ} {i : Nat} {t : Tunnel} (highPriority : Bool) :
      Tends now e i t (t.stopIfEmpty highPriority)
  | stopWatching {send : Nat → SendResult} {i : Nat} {t : Tunnel} :
      Tends now (.quit send) i t t.stopWatching
  | refit {e : Event κ} {i : Nat} {t : Tunnel} (conf : TunnelConf) : e.Reloads →
      Tends now e i t (t.refit conf)
  | weigh {e : Event κ} {i : Nat} {t : Tunnel} (total : UInt32) : e.Reloads →
      Tends now e i t (t.weigh total)

/-- The tunnels, the receive path, the trace and the key are as they were. -/
structure Steady (d d' : Daemon κ) : Prop where
  tuns : d'.tuns = d.tuns
  rx : d'.rx = d.rx
  trace : d'.trace = d.trace
  host : d'.host = d.host
  cleartextData : d'.cleartextData = d.cleartextData
  rtuns : d'.rtuns = d.rtuns

/-- A packet that `mlvpn_protocol_read` makes of the datagram of an event. -/
def Reads (d : Daemon κ) (now : ℚ) (e : Event κ) (i : Nat) (pkt : Pkt) : Prop :=
  ∃ bytes sender named t decrypted t', e = .read i (.datagram bytes sender named) ∧
    protocolRead d.host d.cleartextData (timestamp64 now) t (bytes.take defaultMtu) =
      (some (decrypted, pkt), t')

/-- What an event asks of the receive path, besides the packets and the changes of status. -/
inductive Asks : Event κ → Receive.Event → Prop where
  | drain : Asks .drainTimeout .timeout
  | write : Asks .tuntapWrite .tuntapWrite
  | adjust (period : ℚ) : Asks .adjustTimeout (.adjust period)
  | resize {e : Event κ} (size : UInt32) : e.Reloads → Asks e (.reload size)

/-- The parts of a callback. -/
inductive Stroke (now : ℚ) (e : Event κ) : Daemon κ → Daemon κ → Prop where
  | settle {d d' : Daemon κ} : Steady d d' → Stroke now e d d'
  | configure {d : Daemon κ} (general : General κ) : e.Reloads →
      Stroke now e d
        { d with host := { d.host with key := general.key }, cleartextData := general.cleartextData }
  | tend {d : Daemon κ} {i : Nat} {f : Tunnel → Tunnel} : Tends now e i (d.tun i) (f (d.tun i)) →
      Stroke now e d (d.modify i f)
  /-- A packet leaves its queue and goes no further. -/
  | lose {d : Daemon κ} {i : Nat} (highPriority : Bool) : i < d.tuns.length →
      ¬ cbIsEmpty ((d.tun i).queue highPriority) →
      Stroke now e d (d.takePacket i highPriority now).2.2
  /-- A packet leaves its queue, and `sendto` takes its datagram. -/
  | send {d : Daemon κ} {i : Nat} (highPriority : Bool) (len : Nat) {datagram : List UInt8} :
      i < d.tuns.length → ¬ cbIsEmpty ((d.tun i).queue highPriority) →
      sendDatagram d.host d.cleartextData (d.takePacket i highPriority now).2.1
        (d.takePacket i highPriority now).1 = some datagram →
      Stroke now e d (((d.takePacket i highPriority now).2.2.modify i (·.countSent len)).log
        (.sent i (d.takePacket i highPriority now).1.type datagram))
  | accept {d : Daemon κ} {i : Nat} {bytes : List UInt8} {sender : Addr} {named decrypted : Bool}
      {pkt : Pkt} {t t' : Tunnel} : e = .read i (.datagram bytes sender named) → i < d.tuns.length →
      protocolRead d.host d.cleartextData (timestamp64 now) (d.tun i) (bytes.take defaultMtu) =
        (some (decrypted, pkt), t) →
      (t.countReceived (bytes.take defaultMtu).length).adoptAddr sender named = some t' →
      Stroke now e d ((d.modify i fun _ => t').log (.accepted i pkt.type decrypted))
  /-- The receive path is handed a packet by a connected tunnel. -/
  | deliver {d : Daemon κ} {i : Nat} {pkt : Pkt} {rx : Receive} : Reads d now e i pkt →
      pkt.type = .data → (d.tun i).status.Up → d.rx.step (.recv i pkt) = some rx →
      Stroke now e d (d.withRx rx)
  | receive {d : Daemon κ} {event : Receive.Event} {rx : Receive} : Asks e event →
      d.rx.step event = some rx → Stroke now e d (d.withRx rx)
  | down {d d' : Daemon κ} {i : Nat} : i < d.tuns.length → d.statusDown i = some d' → Stroke now e d d'
  | up {d d' : Daemon κ} {i : Nat} {result : ReadResult} : e = .read i result →
      d.statusUp i now = some d' → Stroke now e d d'
  | regrade {d d' : Daemon κ} {i : Nat} {grade : Option Status} :
      grade = (d.tun i).lossyStatus ∨ grade = (d.tun i).slowStatus → d.regrade i grade = some d' →
      Stroke now e d d'
  /-- A tunnel that was dropped leaves the list by its name. -/
  | drop {d : Daemon κ} (i : Nat) : e.Reloads →
      Stroke now e d { d.modify i Tunnel.stopWatching with
        rtuns := d.rtuns.eraseP fun j => ((d.modify i Tunnel.stopWatching).tun j).name =
          ((d.modify i Tunnel.stopWatching).tun i).name }
  | create {d : Daemon κ} (conf : TunnelConf) (serverMode : Bool) (flowId : UInt32) : e.Reloads →
      d.named conf.name = none → Stroke now e d ({ d with
        tuns := d.tuns ++ [Tunnel.init conf serverMode flowId now]
        rtuns := d.tuns.length :: d.rtuns }.log (.created d.tuns.length))

abbrev Strokes (now : ℚ) (e : Event κ) : Daemon κ → Daemon κ → Prop :=
  Relation.ReflTransGen (Stroke now e)

/-- What every stroke preserves, a sequence of strokes does. -/
theorem Strokes.preserve {I : Daemon κ → Prop} (preserved : ∀ d d', Stroke now e d d' → I d → I d')
    (strokes : Strokes now e d d') (initially : I d) : I d' := by
  induction strokes with
  | refl => exact initially
  | tail _ last ih => exact preserved _ _ last ih

theorem Strokes.tend {f : Tunnel → Tunnel} (tends : Tends now e i (d.tun i) (f (d.tun i))) :
    Strokes now e d (d.modify i f) :=
  .single (.tend tends)

theorem Strokes.settle (steady : Steady d d') : Strokes now e d d' := .single (.settle steady)

/-- The bytes that `mlvpn_tuntap_read` passes on. -/
theorem take_maxmtu_bounds {data : List UInt8} (nonempty : data ≠ []) :
    1 ≤ (data.take maxmtu).length ∧ (data.take maxmtu).length ≤ maxmtu := by
  have := List.length_pos_iff.mpr nonempty
  rw [List.length_take]
  exact ⟨Nat.le_min.mpr ⟨by decide, this⟩, Nat.min_le_left ..⟩

/-- What a callback does without a record is neither counted nor measured. -/
theorem Tends.unrecorded {t t' : Tunnel} (tends : Tends now e i t t') : t' = { t' with
    sentpackets := t.sentpackets
    recvpackets := t.recvpackets
    disconnects := t.disconnects
    seq := t.seq
    rttHit := t.rttHit
    srtt := t.srtt
    rttvar := t.rttvar } := by
  cases tends with
  | tick | watchAnswer | answer _ | stopWatching | refit _ _ => rfl
  | keepaliveReceived _ =>
      unfold Tunnel.keepaliveReceived Tunnel.sendKeepalive
      dsimp only
      split
      next =>
        rw [queueBare_eq]
        rfl
      next => rfl
  | sendKeepalive _ _ =>
      unfold Tunnel.sendKeepalive
      rw [queueBare_eq]
  | @tickConnect _ result _ _ =>
      rcases t.tickConnect_started now result with started | ⟨opened, started, challenged⟩
      · rw [started]
        rfl
      · rw [challenged, started]
        rfl
  | watchIfQueued =>
      unfold Tunnel.watchIfQueued
      split <;> rfl
  | queueData highPriority _ => rw [queueData_eq]
  | queueDisconnect => rw [queueBare_eq]
  | stopIfEmpty highPriority =>
      unfold Tunnel.stopIfEmpty
      split <;> rfl
  | weigh total _ =>
      unfold Tunnel.weigh
      split <;> rfl

theorem Tends.queued {t t' : Tunnel} (tends : Tends now e i t t') (queued : t.Queued) : t'.Queued := by
  cases tends with
  | tick | watchAnswer | stopWatching | refit _ _ => exact queued.of_queues rfl rfl rfl
  | keepaliveReceived _ => exact queued.keepaliveReceived now
  | answer server => exact (queued.queueAuthOk server).of_queues rfl rfl rfl
  | sendKeepalive _ _ => exact queued.sendKeepalive now
  | tickConnect _ => exact queued.tickConnect now _
  | watchIfQueued =>
      unfold Tunnel.watchIfQueued
      split
      next => exact queued.of_queues rfl rfl rfl
      next => exact queued
  | queueData highPriority nonempty =>
      obtain ⟨positive, small⟩ := take_maxmtu_bounds nonempty
      exact queued.queueData positive small
  | queueDisconnect => exact queued.queueBare .disconnect trivial (by decide) (by decide)
  | stopIfEmpty highPriority => exact queued.stopIfEmpty highPriority
  | weigh total _ =>
      unfold Tunnel.weigh
      split
      next => exact queued.of_queues rfl rfl rfl
      next => exact queued

/-- The key and the setting for data in clear are as they were. -/
structure SameKey (d d' : Daemon κ) : Prop where
  host : d'.host = d.host
  cleartextData : d'.cleartextData = d.cleartextData

theorem SameKey.trans (first : SameKey d d') (second : SameKey d' d'') : SameKey d d'' :=
  ⟨second.host.trans first.host, second.cleartextData.trans first.cleartextData⟩

theorem wrrReset_sameKey {mode : Nat} (done : d.wrrReset mode = some d') : SameKey d d' := by
  unfold wrrReset at done
  dsimp only at done
  split at done
  next =>
    cases done
    exact ⟨rfl, rfl⟩
  next => cases done

theorem statusDown_sameKey (done : d.statusDown i = some d') : SameKey d d' := by
  have closed (s : Daemon κ) : SameKey s s.tuntapDown := by
    unfold tuntapDown
    split <;> exact ⟨rfl, rfl⟩
  obtain ⟨d₁, ended, rfl⟩ := Option.map_eq_some_iff.mp done
  split at ended
  next =>
    obtain ⟨d₂, reset, rest⟩ := Option.bind_eq_some_iff.mp ended
    obtain ⟨rx, _, rfl⟩ := Option.map_eq_some_iff.mp rest
    have rebuilt := (wrrReset_sameKey reset).trans (closed d₂)
    exact ⟨rebuilt.host, rebuilt.cleartextData⟩
  next =>
    cases ended
    exact ⟨rfl, rfl⟩

theorem statusUp_sameKey (done : d.statusUp i now = some d') : SameKey d d' := by
  obtain ⟨d₂, reset, rest⟩ := Option.bind_eq_some_iff.mp done
  have rebuilt := wrrReset_sameKey reset
  dsimp only at rest
  split at rest
  next =>
    obtain ⟨rx, _, rfl⟩ := Option.map_eq_some_iff.mp rest
    exact ⟨rebuilt.host, rebuilt.cleartextData⟩
  next =>
    cases rest
    exact ⟨rebuilt.host, rebuilt.cleartextData⟩

/-- What `mlvpn_rtun_status_up` leaves. -/
theorem statusUp_passes (done : d.statusUp i now = some d') :
    Passes (d.modify i (·.raised now)) d' (d'.rx.injected.drop d.rx.injected.length) ∧
      (d'.rx = d.rx ∨ d.rx.statusDrain = some d'.rx) := by
  obtain ⟨d₂, reset, rest⟩ := Option.bind_eq_some_iff.mp done
  obtain ⟨placed, kept⟩ := wrrReset_passes (d'.rx.injected.drop d.rx.injected.length) reset
  have updated : Passes (d.modify i (·.raised now)) (d.modify i (·.raised now)).updateStatus
      (d'.rx.injected.drop d.rx.injected.length) := .silent rfl rfl rfl rfl rfl
  have reported := (updated.trans placed).trans (.script (.rtunUp (d₂.tun i).name))
  dsimp only at rest
  split at rest
  next =>
    obtain ⟨rx, drained, rfl⟩ := Option.map_eq_some_iff.mp rest
    have before : d₂.rx = d.rx := kept
    have switched (s : Daemon κ) (new : List Reception) : Passes s { s with initialized := true } new :=
      .silent rfl rfl rfl rfl rfl
    refine ⟨?_, .inr (before ▸ drained)⟩
    have opened := reported.trans (.script .tuntapUp)
    rw [← before] at opened ⊢
    exact (opened.trans (switched _ _)).trans (withRx_passes _ rx)
  next =>
    cases rest
    exact ⟨reported, .inl kept⟩

/-- What a changed grade leaves. -/
theorem regrade_passes {grade : Option Status} (done : d.regrade i grade = some d') :
    Passes (d.modify i fun t => { t with status := grade.getD t.status }) d' [] ∧ d'.rx = d.rx ∧
      SameKey d d' := by
  cases grade with
  | none =>
      cases done
      refine ⟨.silent ?_ rfl rfl rfl rfl, rfl, ⟨rfl, rfl⟩⟩
      exact (List.modify_id i d.tuns).symm
  | some status =>
      have switched (mode : Nat) (s : Daemon κ) : Passes s { s with fallbackMode := mode } [] :=
        .silent rfl rfl rfl rfl rfl
      have stored : SameKey d (d.modify i fun t => { t with status := status }) := ⟨rfl, rfl⟩
      simp only [regrade, switchToFallbackIfNecessary] at done
      split at done
      next =>
        obtain ⟨placed, kept⟩ := wrrReset_passes [] done
        have sameKey := wrrReset_sameKey done
        exact ⟨(switched 0 _).trans placed, kept, sameKey.host, sameKey.cleartextData⟩
      next =>
        split at done
        next =>
          obtain ⟨placed, kept⟩ := wrrReset_passes [] done
          have sameKey := wrrReset_sameKey done
          exact ⟨(switched 1 _).trans placed, kept, sameKey.host, sameKey.cleartextData⟩
        next =>
          cases done
          exact ⟨.silent rfl rfl rfl rfl rfl, rfl, stored⟩

/-- What is left once a packet has been taken. -/
structure Takes (d d' : Daemon κ) (i : Nat) (highPriority : Bool) (now : ℚ) : Prop where
  tuns : d'.tuns = (d.modify i (·.taken highPriority d.dataSeq (timestamp64 now))).tuns
  rtuns : d'.rtuns = d.rtuns
  rx : d'.rx = d.rx
  host : d'.host = d.host
  cleartextData : d'.cleartextData = d.cleartextData
  trace : d'.trace = .sending i :: d.trace ∨
    ∃ nonce, d'.trace = .encrypted nonce :: .sending i :: d.trace

theorem takePacket_takes (d : Daemon κ) (i : Nat) (highPriority : Bool) (now : ℚ) :
    Takes d (d.takePacket i highPriority now).2.2 i highPriority now := by
  refine ⟨takePacket_tuns highPriority now, ?_, ?_, ?_, ?_, ?_⟩
  all_goals
    unfold takePacket
    dsimp only
    split
  all_goals first | rfl | exact .inl rfl | exact .inr ⟨_, rfl⟩

theorem takePacket_pkt (d : Daemon κ) (i : Nat) (highPriority : Bool) (now : ℚ) :
    (d.takePacket i highPriority now).1 = (pktbufferRead ((d.tun i).queue highPriority)).1 := by
  unfold takePacket
  dsimp only
  split <;> rfl

/-- The header is that of the tunnel before. -/
theorem takePacket_proto (d : Daemon κ) (i : Nat) (highPriority : Bool) (now : ℚ) :
    (d.takePacket i highPriority now).2.1 =
      (sendHeader ((d.tun i).setQueue highPriority (pktbufferRead ((d.tun i).queue highPriority)).2)
        d.dataSeq (timestamp64 now) (pktbufferRead ((d.tun i).queue highPriority)).1).1 := by
  unfold takePacket
  dsimp only
  split <;> rfl

/-- Every listed tunnel exists, and the queues of every tunnel are in order. -/
structure Tidy (d : Daemon κ) : Prop where
  inside : d.Inside
  queued : ∀ j, (d.tun j).Queued

theorem tidy_init (host : Host κ) : (init host).Tidy where
  inside := fun j member => by cases member
  queued := fun j => queued_blank

/-- What a stroke can do to a tunnel. -/
structure Kept (now : ℚ) (e : Event κ) (j : Nat) (P : Tunnel → Prop) : Prop where
  tend : ∀ t t', Tends now e j t t' → P t → P t'
  take : ∀ t highPriority dataSeq, ¬ cbIsEmpty (t.queue highPriority) → P t →
    P (t.taken highPriority dataSeq (timestamp64 now))
  countSent : ∀ t len, P t → P (t.countSent len)
  accept : ∀ (d : Daemon κ) t bytes sender named decrypted pkt t₁ t', (∃ result, e = .read j result) →
    protocolRead d.host d.cleartextData (timestamp64 now) t bytes = (some (decrypted, pkt), t₁) →
    (t₁.countReceived bytes.length).adoptAddr sender named = some t' → P t → P t'
  lower : ∀ t, P t → P t.lowered
  raise : ∀ t result, e = .read j result → P t → P (t.raised now)
  regrade : ∀ t status, t.lossyStatus = some status ∨ t.slowStatus = some status → P t →
    P { t with status := status }
  stop : ∀ t, e.Reloads → P t → P t.stopWatching

theorem Kept.modify {P : Tunnel → Prop} {f : Tunnel → Tunnel} {j : Nat}
    (changed : j = i → P (d.tun i) → P (f (d.tun i))) (before : P (d.tun j)) :
    P ((d.modify i f).tun j) := by
  rw [tun_modify]
  split
  next here => exact changed here.1 (here.1 ▸ before)
  next => exact before

theorem tun_congr (tuns : d'.tuns = d.tuns) (j : Nat) : d'.tun j = d.tun j := by rw [tun, tuns, tun]

/-- A property of a tunnel that everything done to it keeps; a tunnel that does not exist yet may
    be created. -/
theorem Kept.stroke {P : Tunnel → Prop} {j : Nat} (kept : Kept now e j P)
    (fresh : j < d.tuns.length ∨ ∀ conf serverMode flowId, P (.init conf serverMode flowId now))
    (stroke : Stroke now e d d') (before : P (d.tun j)) : P (d'.tun j) := by
  cases stroke with
  | settle steady => exact tun_congr steady.tuns j ▸ before
  | configure _ _ | deliver _ _ _ _ | receive _ _ => exact before
  | tend tends => exact Kept.modify (fun here => here ▸ kept.tend _ _ (here ▸ tends)) before
  | lose highPriority _ filled =>
      rw [tun_congr (takePacket_takes d _ highPriority now).tuns]
      exact Kept.modify (fun _ => kept.take _ _ _ filled) before
  | @send i highPriority len _ _ filled _ =>
      have taken : P ((d.takePacket i highPriority now).2.2.tun j) := by
        rw [tun_congr (takePacket_takes d i highPriority now).tuns]
        exact Kept.modify (fun _ => kept.take _ _ _ filled) before
      exact Kept.modify (fun _ => kept.countSent _ len) taken
  | accept reads _ read adopted =>
      exact Kept.modify (fun here => kept.accept d _ _ _ _ _ _ _ _ ⟨_, here ▸ reads⟩ read adopted) before
  | down _ done =>
      rw [tun_congr (statusDown_tuns done)]
      exact Kept.modify (fun _ => kept.lower _) before
  | up read done =>
      rw [tun_congr (statusUp_passes done).1.tuns]
      exact Kept.modify (fun here => kept.raise _ _ (here ▸ read)) before
  | @regrade _ i grade found done =>
      rw [tun_congr (regrade_passes done).1.tuns]
      refine Kept.modify (fun _ graded => ?_) before
      cases grade with
      | none => exact graded
      | some status => exact kept.regrade _ status (found.imp Eq.symm Eq.symm) graded
  | drop i reloads =>
      exact Kept.modify (fun _ => kept.stop _ reloads) before
  | create conf serverMode flowId _ _ =>
      rw [tun_append (d := d) rfl]
      split
      next new =>
        rcases fresh with old | fresh
        · exact absurd new old.ne
        · exact fresh conf serverMode flowId
      next => exact before

theorem kept_queued (now : ℚ) (e : Event κ) (j : Nat) : Kept now e j Tunnel.Queued where
  tend := fun _ _ tends => tends.queued
  take := fun _ highPriority dataSeq _ queued => queued.taken highPriority dataSeq _
  countSent := fun _ _ queued => queued.of_queues rfl rfl rfl
  accept := fun d t bytes _ _ _ _ t₁ t' _ read adopted queued => by
    have measured : t₁.Queued := queued.remeasured (remeasured_of_read read)
    obtain ⟨addr, rfl⟩ := adoptAddr_eq adopted
    exact measured.of_queues rfl rfl rfl
  lower := fun _ queued => queued.lowered
  raise := fun _ _ _ queued => queued.of_queues rfl rfl rfl
  regrade := fun _ _ _ queued => queued.of_queues rfl rfl rfl
  stop := fun _ _ queued => queued.of_queues rfl rfl rfl

theorem Passes.inside {f : Tunnel → Tunnel} {new : List Reception} (passes : Passes (d.modify i f) d' new)
    (inside : d.Inside) : d'.Inside := by
  refine (inside.modify i f).grow ?_ ?_
  · rw [passes.rtuns]
    exact List.Subset.refl _
  · rw [passes.tuns]

theorem Stroke.inside (stroke : Stroke now e d d') (inside : d.Inside) :
    d'.Inside ∧ d.tuns.length ≤ d'.tuns.length := by
  have taken (i : Nat) (highPriority : Bool) : (d.takePacket i highPriority now).2.2.Inside ∧
      (d.takePacket i highPriority now).2.2.tuns.length = d.tuns.length := by
    have takes := takePacket_takes d i highPriority now
    have length : (d.takePacket i highPriority now).2.2.tuns.length = d.tuns.length := by
      rw [takes.tuns, length_modify]
    exact ⟨inside.grow (by rw [takes.rtuns]; exact List.Subset.refl _) length.ge, length⟩
  cases stroke with
  | settle steady =>
      have length : d.tuns.length ≤ d'.tuns.length := by rw [steady.tuns]
      exact ⟨inside.grow (by rw [steady.rtuns]; exact List.Subset.refl _) length, length⟩
  | configure _ _ | deliver _ _ _ _ | receive _ _ => exact ⟨inside, le_refl _⟩
  | tend _ | accept _ _ _ _ => exact ⟨inside.modify _ _, (length_modify ..).ge⟩
  | lose highPriority _ _ => exact ⟨(taken _ highPriority).1, (taken _ highPriority).2.ge⟩
  | @send i highPriority len _ _ _ _ =>
      refine ⟨(taken i highPriority).1.modify _ _, ?_⟩
      simp only [log, length_modify, (taken i highPriority).2, le_refl]
  | down _ done =>
      obtain ⟨d₁, rfl, passes⟩ := (statusDown_lowers done).passes
      refine ⟨passes.inside inside, ?_⟩
      simp only [log, passes.tuns, length_modify, le_refl]
  | up _ done =>
      obtain ⟨passes, _⟩ := statusUp_passes done
      refine ⟨passes.inside inside, ?_⟩
      rw [passes.tuns, length_modify]
  | regrade _ done =>
      obtain ⟨passes, _⟩ := regrade_passes done
      refine ⟨passes.inside inside, ?_⟩
      rw [passes.tuns, length_modify]
  | drop i _ =>
      exact ⟨(inside.modify i _).grow List.eraseP_subset (le_refl _), (length_modify ..).ge⟩
  | create conf serverMode flowId _ _ =>
      simp only [Inside, log, List.length_append, List.length_singleton, List.mem_cons,
        Nat.le_add_right, and_true, forall_eq_or_imp, Nat.lt_succ_self, true_and]
      exact fun j member => Nat.lt_succ_of_lt (inside j member)

theorem Stroke.tidy (stroke : Stroke now e d d') (tidy : d.Tidy) : d'.Tidy where
  inside := (stroke.inside tidy.inside).1
  queued := fun j => (kept_queued now e j).stroke
    (.inr fun conf serverMode flowId => queued_init conf serverMode flowId now) stroke (tidy.queued j)

theorem Strokes.tidy (strokes : Strokes now e d d') (tidy : d.Tidy) :
    d'.Tidy ∧ d.tuns.length ≤ d'.tuns.length := by
  induction strokes with
  | refl => exact ⟨tidy, le_refl _⟩
  | tail _ last ih => exact ⟨last.tidy ih.1, ih.2.trans (last.inside ih.1.inside).2⟩

theorem sendAuth_strokes {result : ReadResult} (done : d.sendAuth i now = some d') :
    Strokes now (.read i result) d d' := by
  cases sendAuth_cases done with
  | answers server _ raised =>
      have answered : Strokes now (.read i result) d (d.modify i fun t => t.queueAuthOk.tick now) :=
        .tend (.answer server)
      exact (answered.tail (.up rfl raised)).trans (Strokes.tend .watchAnswer)
  | confirms _ _ raised =>
      have ticked : Strokes now (.read i result) d (d.modify i (·.tick now)) := .tend .tick
      exact ticked.tail (.up rfl raised)
  | ignores _ => exact .refl

theorem rtunSend_strokes {highPriority : Bool} {result : SendResult} (inside : i < d.tuns.length)
    (filled : ¬ cbIsEmpty ((d.tun i).queue highPriority))
    (done : d.rtunSend i highPriority now result = some d') : Strokes now e d d' := by
  have takes := takePacket_takes d i highPriority now
  have lost : Strokes now e d (d.takePacket i highPriority now).2.2 :=
    .single (.lose highPriority inside filled)
  cases rtunSend_cases done with
  | refuses _ => exact lost
  | hands built sent =>
      dsimp only at built
      rw [takes.host, takes.cleartextData] at built
      refine Relation.ReflTransGen.trans ?_ (Strokes.tend (.stopIfEmpty highPriority))
      cases result with
      | blocked =>
          cases sent
          exact lost
      | failed =>
          refine lost.tail (.down ?_ sent)
          rwa [takes.tuns, length_modify]
      | sent len =>
          cases sent
          exact .single (.send highPriority len inside filled built)

theorem writeQueue_strokes {highPriority : Bool} {result : SendResult}
    (done : d.writeQueue i highPriority now result = some d') : Strokes now e d d' := by
  unfold writeQueue at done
  split at done
  next =>
    cases done
    exact .refl
  next filled =>
    have inside : i < d.tuns.length := by
      by_contra outside
      rw [tun_eq_blank outside] at filled
      cases highPriority <;> exact filled rfl
    exact rtunSend_strokes inside filled done

theorem receive_strokes {event : Receive.Event} (asks : Asks e event)
    (done : (d.rx.step event).map d.withRx = some d') : Strokes now e d d' := by
  obtain ⟨rx, stepped, rfl⟩ := Option.map_eq_some_iff.mp done
  exact .single (.receive asks stepped)

/-- What is done with a packet that was read, by its type. -/
theorem dispatch_strokes {pkt : Pkt} {result : ReadResult}
    (reads : Reads d now (.read i result) i pkt) (done : d.dispatch i now pkt = some d') :
    Strokes now (.read i result) d d' := by
  cases dispatch_cases done with
  | ignores => exact .refl
  | delivers isData connected stepped =>
      have ticked : Strokes now (.read i result) d (d.modify i (·.tick now)) := .tend .tick
      refine ticked.tail (.deliver reads isData ?_ stepped)
      rw [tun_modify_self (lt_of_up connected)]
      exact connected
  | keepsAlive connected => exact .tend (.keepaliveReceived connected)
  | disconnects connected down => exact .single (.down (lt_of_up connected) down)
  | handshakes _ answered => exact sendAuth_strokes answered

theorem modify_same (d : Daemon κ) (i : Nat) : (d.modify i fun _ => d.tun i).tuns = d.tuns := by
  have same : (d.modify i fun _ => d.tun i) = d.modify i id := modify_congr rfl
  rw [same]
  exact List.modify_id i d.tuns

theorem rtunRead_strokes {result : ReadResult} (inside : i < d.tuns.length)
    (done : d.rtunRead i now result = some d') : Strokes now (.read i result) d d' := by
  cases rtunRead_cases done with
  | waits _ => exact .refl
  | fails down => exact .single (.down inside down)
  | refuses read =>
      have same := protocolRead_refused (congrArg Prod.fst read)
      rw [read] at same
      cases same
      exact .settle ⟨modify_same d i, rfl, rfl, rfl, rfl, rfl⟩
  | @accepts bytes sender named decrypted pkt t t₁ _ read adopted dispatched =>
      have accepted : Strokes now (.read i (.datagram bytes sender named)) d
          ((d.modify i fun _ => t₁).log (.accepted i pkt.type decrypted)) :=
        .single (.accept rfl inside read adopted)
      exact accepted.trans
        (dispatch_strokes ⟨bytes, sender, named, _, decrypted, t, rfl, read⟩ dispatched)

theorem checkAlive_strokes {result : StartResult} (done : d.checkAlive i now result = some d') :
    Strokes now (.timeout i result) d d' := by
  unfold checkAlive at done
  dsimp only at done
  split at done
  next connected =>
    split at done
    next =>
      split at done
      next => exact .single (.down (lt_of_up connected) done)
      next =>
        split at done
        next due =>
          cases done
          exact .tend (.sendKeepalive connected due)
        next =>
          cases done
          exact .refl
    next =>
      cases done
      exact .refl
  next idle =>
    cases done
    exact .tend (.tickConnect idle)

theorem checkTimeout_strokes {result : StartResult} (done : d.checkTimeout i now result = some d') :
    Strokes now (.timeout i result) d d' := by
  obtain ⟨d₁, alive, rest⟩ := Option.bind_eq_some_iff.mp done
  obtain ⟨d₂, lossy, slow⟩ := Option.bind_eq_some_iff.mp rest
  have watched : Strokes now (.timeout i result) d₁ (d₁.modify i watchIfQueued) := .tend .watchIfQueued
  exact (((checkAlive_strokes alive).trans watched).tail (.regrade (.inl rfl) lossy)).tail
    (.regrade (.inr rfl) slow)

theorem tuntapRead_strokes {data : List UInt8} (done : d.tuntapRead data = some d') :
    Strokes now (.tuntapRead data) d d' := by
  unfold tuntapRead at done
  split at done
  next => cases done
  next nonempty =>
    cases done
    unfold tuntapGenericRead
    split
    next => exact .tend (.queueData true nonempty)
    next =>
      have chosen : Steady d d.rtunChoose.2 := by
        unfold rtunChoose wrrChoose
        dsimp only
        split <;> exact ⟨rfl, rfl, rfl, rfl, rfl, rfl⟩
      split
      next answer =>
        rw [answer] at chosen
        exact .settle chosen
      next answer =>
        rw [answer] at chosen
        exact (Strokes.settle chosen).trans (Strokes.tend (.queueData false nonempty))

theorem sendDisconnect_strokes {result : SendResult} (tidy : d.Tidy) (inside : i < d.tuns.length)
    (done : d.sendDisconnect i now result = some d') : Strokes now e d d' := by
  have queued : Strokes now e d (d.modify i (·.queueBare .disconnect)) := .tend .queueDisconnect
  have filled : ¬ cbIsEmpty (((d.modify i (·.queueBare .disconnect)).tun i).queue true) := by
    rw [tun_modify_self inside]
    exact queueBare_filled ((tidy.queued i).rings true) .disconnect
  exact queued.trans (rtunSend_strokes (by rwa [length_modify]) filled done)

theorem rtunDrop_strokes {result : SendResult} (tidy : d.Tidy) (inside : i < d.tuns.length)
    (reloads : e.Reloads) (done : d.rtunDrop i now result = some d') : Strokes now e d d' := by
  obtain ⟨d₁, sent, rest⟩ := Option.bind_eq_some_iff.mp done
  obtain ⟨d₂, down, rfl⟩ := Option.map_eq_some_iff.mp rest
  have told : Strokes now e d d₁ := sendDisconnect_strokes tidy inside sent
  have still : i < d₁.tuns.length := Nat.lt_of_lt_of_le inside (told.tidy tidy).2
  exact (told.tail (.down still down)).tail (.drop i reloads)

theorem configTunnel_strokes {conf : TunnelConf} {serverMode : Bool} {flowId : UInt32}
    (inside : d.Inside) (reloads : e.Reloads)
    (done : d.configTunnel conf serverMode flowId now = some d') : Strokes now e d d' := by
  obtain ⟨d₁, flagged, configured⟩ := configTunnel_cases done
  have noted : Steady d d₁ := by
    rcases flagged with rfl | rfl <;> exact ⟨rfl, rfl, rfl, rfl, rfl, rfl⟩
  refine (Strokes.settle noted).trans ?_
  rcases configured with ⟨unnamed, rfl⟩ | ⟨j, d₂, named, down, rfl⟩
  · unfold rtunNew
    split
    next => exact .refl
    next => exact .single (.create conf serverMode flowId reloads unnamed)
  · have refitted : Strokes now e d₂ (d₂.modify j (·.refit conf)) := .tend (.refit conf reloads)
    rcases down with ⟨_, down⟩ | ⟨_, rfl⟩
    · have listed : j < d₁.tuns.length := by
        rw [noted.tuns]
        exact inside j (noted.rtuns ▸ List.mem_of_find?_eq_some named)
      exact (Relation.ReflTransGen.single (.down listed down)).trans refitted
    · exact refitted

theorem configGeneral_strokes {general : General κ} (reloads : e.Reloads)
    (done : d.configGeneral general = some d') : Strokes now e d d' := by
  have configured : Strokes now e d { d with
      host := { d.host with key := general.key }
      cleartextData := general.cleartextData } := .single (.configure general reloads)
  unfold configGeneral at done
  obtain ⟨rx, sized, rfl⟩ := Option.map_eq_some_iff.mp done
  exact configured.tail (.receive (.resize _ reloads) sized)

theorem configSection_strokes {s s' : Bool × Daemon κ} {part : Section κ} (inside : s.2.Inside)
    (reloads : e.Reloads) (done : configSection now s part = some s') : Strokes now e s.2 s'.2 := by
  rcases configSection_cases done with ⟨general, configured⟩ | ⟨conf, flowId, configured⟩
  · exact configGeneral_strokes reloads configured
  · exact configTunnel_strokes inside reloads configured

theorem configReload_strokes {conf : Option (Config κ)} {send : Nat → SendResult} (tidy : d.Tidy)
    (reloads : e.Reloads) (done : d.configReload conf now send = some d') : Strokes now e d d' := by
  have cleared : Strokes now e d { d with fallbackAvailable := 0, filters := [] } :=
    .settle ⟨rfl, rfl, rfl, rfl, rfl, rfl⟩
  cases conf with
  | none =>
      cases done
      exact cleared
  | some conf =>
      obtain ⟨⟨serverMode, d₁⟩, parsed, rest⟩ := Option.bind_eq_some_iff.mp done
      obtain ⟨d₂, dropped, rfl⟩ := Option.map_eq_some_iff.mp rest
      have sections : Strokes now e d d₁ :=
        run_preserves (I := fun s => Strokes now e d s.2) conf.sections
          (fun _ _ _ _ before taken => before.trans
            (configSection_strokes (before.tidy tidy).1.inside reloads taken)) cleared parsed
      have inside := (sections.tidy tidy).1.inside
      have left : Strokes now e d₁ d₂ := by
        refine run_preserves (I := fun s => Strokes now e d₁ s) d₁.rtuns ?_ .refl dropped
        intro s j member s' before taken
        obtain ⟨kept, longer⟩ := before.tidy (sections.tidy tidy).1
        unfold dropIfMissing at taken
        split at taken
        next =>
          cases taken
          exact before
        next => exact before.trans (rtunDrop_strokes kept (Nat.lt_of_lt_of_le (inside j member) longer) reloads taken)
      have filtered (filters : List ((List UInt8 → Bool) × Nat)) :
          Strokes now e d₂ { d₂ with filters := filters } :=
        .settle ⟨rfl, rfl, rfl, rfl, rfl, rfl⟩
      refine sections.trans (left.trans ?_)
      refine recalcWeight_keeps (I := Strokes now e d₂) (filtered _) fun s j total before => ?_
      exact before.trans (Strokes.tend (.weigh total reloads))

theorem quit_strokes {send : Nat → SendResult} (tidy : d.Tidy) (done : d.quit now send = some d') :
    Strokes now (.quit send) d d' := by
  obtain ⟨d₁, told, rfl⟩ := Option.map_eq_some_iff.mp done
  have disconnected : Strokes now (.quit send) d d₁ := by
    refine run_preserves (I := fun s => Strokes now (.quit send) d s) d.rtuns ?_ .refl told
    intro s j _ s' before taken
    have unwatched : Strokes now (.quit send) d (s.modify j Tunnel.stopWatching) :=
      before.trans (Strokes.tend .stopWatching)
    rcases quitTunnel_cases taken with ⟨up, sent⟩ | rfl
    · exact unwatched.trans (sendDisconnect_strokes (unwatched.tidy tidy).1 (lt_of_up up) sent)
    · exact unwatched
  exact disconnected.tail (.settle ⟨rfl, rfl, rfl, rfl, rfl, rfl⟩)

/-- An event is a sequence of strokes. -/
theorem step_strokes (tidy : d.Tidy) (done : d.step (now, e) = some d') : Strokes now e d d' := by
  cases step_cases done with
  | pass => exact .refl
  | @read i _ _ _ reads done =>
      have inside : i < d.tuns.length := by
        by_contra outside
        rw [tun_eq_blank outside] at reads
        cases reads
      exact rtunRead_strokes inside done
  | write done =>
      obtain ⟨d₁, high, low⟩ := Option.bind_eq_some_iff.mp done
      exact (writeQueue_strokes high).trans (writeQueue_strokes low)
  | timeout _ _ done => exact checkTimeout_strokes done
  | tuntapRead done => exact tuntapRead_strokes done
  | tuntapWrite done => exact receive_strokes .write done
  | drainTimeout done => exact receive_strokes .drain done
  | adjustTimeout done => exact receive_strokes (.adjust _) done
  | reload done => exact configReload_strokes tidy trivial done
  | quit done => exact quit_strokes tidy done

theorem step_tidy {event : ℚ × Event κ} (tidy : d.Tidy) (done : d.step event = some d') :
    d'.Tidy :=
  ((step_strokes tidy done).tidy tidy).1

/-- What can become of the receive path. -/
theorem Stroke.rx {R : Receive → Receive → Prop} (stroke : Stroke now e d d') (same : R d.rx d.rx)
    (delivered : ∀ i pkt rx, Reads d now e i pkt → pkt.type = .data → d.rx.step (.recv i pkt) = some rx →
      R d.rx rx)
    (asked : ∀ event rx, Asks e event → d.rx.step event = some rx → R d.rx rx)
    (drained : ∀ rx, d.rx.statusDrain = some rx → R d.rx rx) : R d.rx d'.rx := by
  have kept {rx : Receive} (still : rx = d.rx) : R d.rx rx := still ▸ same
  cases stroke with
  | settle steady => exact kept steady.rx
  | configure _ _ | tend _ | accept _ _ _ _ | drop _ _ | create _ _ _ _ _ => exact same
  | lose highPriority _ _ | send highPriority _ _ _ _ =>
      exact kept (takePacket_takes d _ highPriority now).rx
  | deliver read isData _ stepped => exact delivered _ _ _ read isData stepped
  | receive asks stepped => exact asked _ _ asks stepped
  | @down _ i _ done =>
      have lowers := statusDown_lowers done
      by_cases connected : (d.tun i).status.Up
      · exact drained _ (lowers.drained connected)
      · exact kept (lowers.idle connected)
  | up _ done =>
      rcases (statusUp_passes done).2 with still | drains
      · exact kept still
      · exact drained _ drains
  | regrade _ done => exact kept (regrade_passes done).2.1

/-- What every stroke preserves, every step of a daemon in order does. -/
theorem step_preserves {I : Daemon κ → Prop} {event : ℚ × Event κ}
    (preserved : ∀ d d', Stroke event.1 event.2 d d' → d.Tidy → I d → I d')
    (tidy : d.Tidy) (before : I d) (done : d.step event = some d') : I d' := by
  have both := (step_strokes tidy done).preserve (I := fun s => s.Tidy ∧ I s)
    (fun s s' stroke kept => ⟨stroke.tidy kept.1, preserved s s' stroke kept.1 kept.2⟩)
    ⟨tidy, before⟩
  exact both.2

/-- What everything done to a tunnel keeps, an event does. -/
theorem Kept.step {P : Tunnel → Prop} {j : Nat} {event : ℚ × Event κ}
    (kept : Kept event.1 event.2 j P)
    (fresh : j < d.tuns.length ∨ ∀ conf serverMode flowId, P (.init conf serverMode flowId event.1))
    (tidy : d.Tidy) (before : P (d.tun j)) (done : d.step event = some d') : P (d'.tun j) := by
  have both := step_preserves 
    (I := fun s => (j < s.tuns.length ∨ ∀ conf serverMode flowId,
      P (.init conf serverMode flowId event.1)) ∧ P (s.tun j))
    (fun s s' stroke tidy held => by
      refine ⟨held.1.imp_left fun inside => ?_, kept.stroke held.1 stroke held.2⟩
      exact Nat.lt_of_lt_of_le inside (stroke.inside tidy.inside).2)
    tidy ⟨fresh, before⟩ done
  exact both.2

/-- What every stroke of every event preserves, a run does. -/
theorem run_stroked {I : Daemon κ → Prop} {events : List (ℚ × Event κ)}
    (preserved : ∀ event ∈ events, ∀ d d', Stroke event.1 event.2 d d' → d.Tidy → I d → I d')
    (tidy : d.Tidy) (initially : I d) (reached : run step d events = some d') : d'.Tidy ∧ I d' :=
  run_preserves (I := fun s => s.Tidy ∧ I s) events
    (fun _ event member _ held done =>
      ⟨step_tidy held.1 done, step_preserves (preserved event member) held.1 held.2 done⟩)
    ⟨tidy, initially⟩ reached

end Daemon

end Mlvpn
