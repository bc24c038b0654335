import Mlvpn.Tunnel.Link
import Mlvpn.Wire.Roundtrip

/-! # Changes of a tunnel that nobody else has to know of

Most of what the program does to a tunnel leaves its numbering and its role
alone, and neither connects nor disconnects it.  What is queued is a packet that
the program may send: an `AUTH_OK` only by a server.
-/

namespace Mlvpn

/-- Every slot of a queue holds a packet that may be sent, or did so once. -/
def Pktbuffer.Stocked (serverMode : Bool) (buf : Pktbuffer) : Prop :=
  ∀ n, (buf.pkts n).Queueable ∧ ((buf.pkts n).type = .authOk → serverMode = true)

theorem Pktbuffer.Stocked.init (serverMode : Bool) (size : Nat) :
    (pktbufferInit size).Stocked serverMode := by
  intro n
  exact ⟨⟨trivial, (nomatch ·), fun _ => .inl rfl⟩, (nomatch ·)⟩

theorem Pktbuffer.Stocked.write {serverMode : Bool} {buf : Pktbuffer} {fill : Pkt → Pkt}
    (stocked : buf.Stocked serverMode)
    (filled : ∀ slot : Pkt, slot.type = .data → (fill slot).Queueable ∧
      ((fill slot).type = .authOk → serverMode = true)) :
    (pktbufferWrite buf fill).Stocked serverMode := by
  intro n
  simp only [pktbufferWrite]
  by_cases written : n = buf.stop
  · subst written
    rw [Function.update_self]
    exact filled _ rfl
  · rw [Function.update_of_ne written]
    exact stocked n

/-- A control packet has no text, or two letters. -/
theorem Pktbuffer.Stocked.control {serverMode : Bool} {buf : Pktbuffer} {type : PktType}
    {text : List UInt8} (stocked : buf.Stocked serverMode) (known : type.Known)
    (control : type ≠ .data) (len : text.length = 0 ∨ text.length = 2)
    (role : type = .authOk → serverMode = true) :
    (queueControl buf type text).Stocked serverMode :=
  stocked.write fun _ _ => ⟨⟨known, fun data => absurd data control, fun _ => len⟩, role⟩

namespace Tunnel

def Stocked (t : Tunnel) : Prop :=
  t.hpsbuf.Stocked t.serverMode ∧ t.sbuf.Stocked t.serverMode

/-- The numbering, the role and the queues are still in order. -/
structure Alike (t t' : Tunnel) : Prop where
  seq : t'.seq = t.seq
  flowId : t'.flowId = t.flowId
  serverMode : t'.serverMode = t.serverMode
  stocked : t.Stocked → t'.Stocked

/-- Besides, the tunnel is connected as it was. -/
structure Quiet (t t' : Tunnel) : Prop extends Alike t t' where
  up : t'.status.Up ↔ t.status.Up

variable {t t' t'' : Tunnel}

theorem Alike.trans (first : Alike t t') (second : Alike t' t'') : Alike t t'' where
  seq := second.seq.trans first.seq
  flowId := second.flowId.trans first.flowId
  serverMode := second.serverMode.trans first.serverMode
  stocked := second.stocked ∘ first.stocked

theorem Quiet.trans (first : Quiet t t') (second : Quiet t' t'') : Quiet t t'' where
  toAlike := first.toAlike.trans second.toAlike
  up := second.up.trans first.up

/-- The next number on both sides. -/
theorem Quiet.next (quiet : Quiet t t') :
    Quiet { t with seq := t.seq + 1 } { t' with seq := t'.seq + 1 } where
  seq := congrArg (· + 1) quiet.seq
  flowId := quiet.flowId
  serverMode := quiet.serverMode
  stocked := quiet.stocked
  up := quiet.up

/-- The queues are not touched. -/
theorem Quiet.of_fields (status : t'.status = t.status) (seq : t'.seq = t.seq)
    (flowId : t'.flowId = t.flowId) (serverMode : t'.serverMode = t.serverMode)
    (hpsbuf : t'.hpsbuf = t.hpsbuf) (sbuf : t'.sbuf = t.sbuf) : Quiet t t' where
  seq := seq
  flowId := flowId
  serverMode := serverMode
  stocked := by
    rw [Stocked, Stocked, hpsbuf, sbuf, serverMode]
    exact id
  up := by rw [status]

theorem Alike.quiet (alike : Alike t t') (status : t'.status = t.status) : Quiet t t' :=
  { alike with up := by rw [status] }

theorem Quiet.refl (t : Tunnel) : Quiet t t := .of_fields rfl rfl rfl rfl rfl rfl

/-- One queue is written to. -/
theorem Quiet.of_hpsbuf {buf : Pktbuffer}
    (stocked : t.hpsbuf.Stocked t.serverMode → buf.Stocked t.serverMode) :
    Quiet t { t with hpsbuf := buf } where
  seq := rfl
  flowId := rfl
  serverMode := rfl
  stocked := fun ⟨hpsbuf, sbuf⟩ => ⟨stocked hpsbuf, sbuf⟩
  up := Iff.rfl

theorem Quiet.queueBare (type : PktType) (known : type.Known) (control : type ≠ .data)
    (notOk : type ≠ .authOk) : Quiet t (t.queueBare type) := by
  rw [Tunnel.queueBare]
  split
  next => exact .refl t
  next =>
    exact .of_hpsbuf fun stocked =>
      stocked.control known control (.inl rfl) fun authOk => absurd authOk notOk

theorem Quiet.sendKeepalive (now : ℚ) : Quiet t (t.sendKeepalive now) :=
  (Quiet.queueBare .keepalive trivial (by decide) (by decide)).trans
    (.of_fields rfl rfl rfl rfl rfl rfl)

theorem Quiet.keepaliveReceived (now : ℚ) : Quiet t (t.keepaliveReceived now) := by
  rw [Tunnel.keepaliveReceived]
  refine (.of_fields rfl rfl rfl rfl rfl rfl :
    Quiet t { t.tick now with lastKeepaliveAck := now }).trans ?_
  generalize { t.tick now with lastKeepaliveAck := now } = ticked
  split
  next =>
    have noted : Quiet ticked { ticked with lastKeepaliveAckSent := ticked.lastKeepaliveAck } :=
      .of_fields rfl rfl rfl rfl rfl rfl
    exact noted.trans (.sendKeepalive now)
  next => exact .refl ticked

theorem Quiet.of_started (started : t.Started t') : Quiet t t' := by
  rw [started]
  exact .of_fields rfl rfl rfl rfl rfl rfl

/-- A challenge is sent by a tunnel that is not connected. -/
theorem Quiet.challengeSend (idle : ¬ t.status.Up) : Quiet t t.challengeSend where
  seq := rfl
  flowId := rfl
  serverMode := rfl
  stocked := fun ⟨hpsbuf, sbuf⟩ =>
    ⟨hpsbuf.control trivial (by decide) (.inr rfl) (fun authOk => by cases authOk), sbuf⟩
  up :=
    have authsent : ¬ Status.authsent.Up := by decide
    ⟨fun up => absurd up authsent, fun up => absurd up idle⟩

theorem Quiet.tickConnect (now : ℚ) (result : StartResult) (idle : ¬ t.status.Up) :
    Quiet t (t.tickConnect now result) := by
  rcases t.tickConnect_started now result with started | ⟨opened, started, challenged⟩
  · exact .of_started started
  · have opened := Quiet.of_started started
    rw [challenged]
    exact opened.trans (Quiet.challengeSend fun up => idle (opened.up.mp up))

/-- The answer to a handshake, and the status behind it. -/
theorem Alike.raised (now : ℚ) : Alike t ((t.tick now).raised now) :=
  ⟨rfl, rfl, rfl, fun stocked => stocked⟩

theorem Alike.queueAuthOk (server : t.serverMode = true) : Alike t t.queueAuthOk where
  seq := rfl
  flowId := rfl
  serverMode := rfl
  stocked := fun ⟨hpsbuf, sbuf⟩ => by
    refine ⟨?_, sbuf⟩
    have emptied : Pktbuffer.Stocked t.serverMode
        (if cbIsFull t.hpsbuf then pktbufferReset t.hpsbuf else t.hpsbuf) := by
      split <;> exact hpsbuf
    exact emptied.control trivial (by decide) (.inr rfl) fun _ => server

/-- Only the measurements of the link differ. -/
structure Measured (t t' : Tunnel) : Prop extends Alike t t' where
  status : t'.status = t.status

theorem Measured.trans (first : Measured t t') (second : Measured t' t'') : Measured t t'' where
  toAlike := first.toAlike.trans second.toAlike
  status := second.status.trans first.status

theorem Measured.of_fields (status : t'.status = t.status) (seq : t'.seq = t.seq)
    (flowId : t'.flowId = t.flowId) (serverMode : t'.serverMode = t.serverMode)
    (hpsbuf : t'.hpsbuf = t.hpsbuf) (sbuf : t'.sbuf = t.sbuf) : Measured t t' :=
  { (Quiet.of_fields status seq flowId serverMode hpsbuf sbuf).toAlike with status := status }

theorem Measured.of_remeasured (remeasured : t.Remeasured t') : Measured t t' := by
  rw [remeasured]
  exact .of_fields rfl rfl rfl rfl rfl rfl

theorem Measured.adoptAddr {sender : Addr} {named : Bool}
    (adopted : t.adoptAddr sender named = some t') : Measured t t' := by
  obtain ⟨addr, rfl⟩ := adoptAddr_eq adopted
  exact .of_fields rfl rfl rfl rfl rfl rfl

theorem Measured.countReceived (len : Nat) : Measured t (t.countReceived len) :=
  .of_fields rfl rfl rfl rfl rfl rfl

theorem Measured.quiet (measured : Measured t t') : Quiet t t' :=
  measured.toAlike.quiet measured.status

theorem Quiet.setQueue {highPriority : Bool} {buf : Pktbuffer}
    (stocked : (t.queue highPriority).Stocked t.serverMode → buf.Stocked t.serverMode) :
    Quiet t (t.setQueue highPriority buf) := by
  cases highPriority with
  | true => exact .of_hpsbuf stocked
  | false =>
      exact
        { seq := rfl
          flowId := rfl
          serverMode := rfl
          stocked := fun ⟨hpsbuf, sbuf⟩ => ⟨hpsbuf, stocked sbuf⟩
          up := Iff.rfl }

theorem Quiet.queueData {highPriority : Bool} {data : List UInt8} (positive : 1 ≤ data.length)
    (small : data.length ≤ maxmtu) : Quiet t (t.queueData highPriority data) := by
  rw [Tunnel.queueData]
  generalize written : pktbufferWrite (t.queue highPriority) _ = buf
  have stored : Quiet t (t.setQueue highPriority buf) := by
    refine .setQueue fun stocked => ?_
    rw [← written]
    refine stocked.write fun slot isData => ⟨⟨?_, fun _ => ⟨positive, small⟩, ?_⟩, ?_⟩
    · rw [isData]
      trivial
    · exact fun control => absurd isData control
    · intro authOk
      rw [isData] at authOk
      cases authOk
  refine stored.trans ?_
  split <;> exact .of_fields rfl rfl rfl rfl rfl rfl

theorem Quiet.weigh (total : UInt32) : Quiet t (t.weigh total) := by
  rw [Tunnel.weigh]
  split <;> exact .of_fields rfl rfl rfl rfl rfl rfl

theorem Quiet.stopIfEmpty (highPriority : Bool) : Quiet t (t.stopIfEmpty highPriority) := by
  rw [Tunnel.stopIfEmpty]
  split <;> exact .of_fields rfl rfl rfl rfl rfl rfl

/-- The header takes the number of the tunnel, and the tunnel the next one. -/
theorem Quiet.sendHeader (dataSeq now64 : UInt64) (pkt : Pkt) :
    Quiet { t with seq := t.seq + 1 } (sendHeader t dataSeq now64 pkt).2.1 := by
  simp only [Mlvpn.sendHeader]
  split <;> exact .of_fields rfl rfl rfl rfl rfl rfl

theorem sendHeader_queue (dataSeq now64 : UInt64) (pkt : Pkt) (highPriority : Bool) :
    (sendHeader t dataSeq now64 pkt).2.1.queue highPriority = t.queue highPriority := by
  simp only [Mlvpn.sendHeader]
  split <;> rfl

theorem queue_setQueue (highPriority : Bool) (buf : Pktbuffer) :
    (t.setQueue highPriority buf).queue highPriority = buf := by
  cases highPriority <;> rfl

theorem Stocked.queue (stocked : t.Stocked) (highPriority : Bool) :
    (t.queue highPriority).Stocked t.serverMode := by
  cases highPriority
  · exact stocked.2
  · exact stocked.1

end Tunnel

end Mlvpn
