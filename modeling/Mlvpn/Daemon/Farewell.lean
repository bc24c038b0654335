import Mlvpn.Daemon.Handshake
import Mlvpn.Daemon.Sockets

/-! # The disconnect of a tunnel

A tunnel that a reload drops, and every connected tunnel when the program ends, is to tell its
peer.  The disconnect is queued behind the control packets that have not been sent yet, or not
at all if there is no room, and one packet is sent: the oldest.
-/

namespace Mlvpn

open Library.Machine

namespace Pktbuffer

/-- A ring in order, with packets of known types. -/
structure Orderly (buf : Pktbuffer) : Prop where
  wf : buf.Wf
  known : ∀ n, (buf.pkts n).type.Known

variable {buf : Pktbuffer}

/-- The packet that is read next. -/
def oldest (buf : Pktbuffer) : Pkt := buf.pkts buf.start

theorem orderly_init {size : Nat} (positive : 0 < size) : (pktbufferInit size).Orderly :=
  ⟨wf_init positive, fun _ => trivial⟩

theorem Orderly.write {fill : Pkt → Pkt} (orderly : buf.Orderly)
    (known : ∀ slot : Pkt, slot.type = .data → (fill slot).type.Known) :
    (pktbufferWrite buf fill).Orderly := by
  refine ⟨(orderly.wf.write fill).1, fun n => ?_⟩
  simp only [pktbufferWrite]
  by_cases written : n = buf.stop
  · rw [written, Function.update_self]
    exact known _ rfl
  · rw [Function.update_of_ne written]
    exact orderly.known n

theorem Orderly.control (orderly : buf.Orderly) (type : PktType) (text : List UInt8)
    (known : type.Known) : (queueControl buf type text).Orderly :=
  orderly.write fun _ _ => known

theorem Orderly.read (orderly : buf.Orderly) : (pktbufferRead buf).2.Orderly :=
  ⟨orderly.wf.read, orderly.known⟩

theorem Orderly.reset (orderly : buf.Orderly) : (pktbufferReset buf).Orderly :=
  ⟨orderly.wf.reset, orderly.known⟩

theorem Wf.not_full (wf : buf.Wf) (empty : cbIsEmpty buf) : ¬ cbIsFull buf := by
  unfold cbIsEmpty at empty
  unfold cbIsFull
  rw [empty]
  exact succ_mod_ne wf.roomy wf.startLt

/-- A packet that fits is the oldest only in an empty ring. -/
theorem oldest_control {type : PktType} {text : List UInt8} (room : ¬ cbIsFull buf) :
    (queueControl buf type text).oldest.type =
      if cbIsEmpty buf then type else buf.oldest.type := by
  have start : (queueControl buf type text).start = buf.start := if_neg room
  rw [oldest, start]
  simp only [queueControl, pktbufferWrite]
  split
  next empty =>
    have first : buf.start = buf.stop := empty.symm
    rw [first, Function.update_self]
  next filled =>
    have behind : buf.start ≠ buf.stop := fun same => filled same.symm
    rw [Function.update_of_ne behind]
    rfl

end Pktbuffer

namespace Tunnel

open Pktbuffer

variable {t t' : Tunnel}

theorem orderly_queueBare (orderly : t.hpsbuf.Orderly) (type : PktType) (known : type.Known) :
    (t.queueBare type).hpsbuf.Orderly := by
  unfold queueBare
  split
  next => exact orderly
  next => exact orderly.control type [] known

theorem orderly_sendKeepalive (orderly : t.hpsbuf.Orderly) (now : ℚ) :
    (t.sendKeepalive now).hpsbuf.Orderly :=
  orderly_queueBare orderly .keepalive trivial

theorem orderly_keepaliveReceived (orderly : t.hpsbuf.Orderly) (now : ℚ) :
    (t.keepaliveReceived now).hpsbuf.Orderly := by
  unfold keepaliveReceived
  dsimp only
  split
  next =>
    refine orderly_sendKeepalive ?_ now
    exact orderly
  next => exact orderly

theorem orderly_queueData (orderly : t.hpsbuf.Orderly) (highPriority : Bool) (data : List UInt8) :
    (t.queueData highPriority data).hpsbuf.Orderly := by
  unfold queueData
  dsimp only
  cases highPriority with
  | true =>
      have queued : (pktbufferWrite t.hpsbuf fun slot =>
          { slot with len := data.length, data := data ++ slot.data.drop data.length }).Orderly :=
        orderly.write fun slot type => by simp [type, PktType.Known]
      split <;> exact queued
  | false => split <;> exact orderly

theorem orderly_taken (orderly : t.hpsbuf.Orderly) (highPriority : Bool) (dataSeq now64 : UInt64) :
    (t.taken highPriority dataSeq now64).hpsbuf.Orderly := by
  have left : (t.taken highPriority dataSeq now64).hpsbuf =
      (t.taken highPriority dataSeq now64).queue true := rfl
  rw [left, taken_queue]
  split
  next high =>
    cases high
    exact orderly.read
  next => exact orderly

theorem orderly_tickConnect (now : ℚ) (result : StartResult) (orderly : t.hpsbuf.Orderly) :
    (t.tickConnect now result).hpsbuf.Orderly := by
  rcases t.tickConnect_started now result with started | ⟨opened, started, challenged⟩
  · rw [started]
    exact orderly
  · rw [challenged, started]
    exact orderly.control .auth [65, 85] trivial

theorem orderly_queueAuthOk (orderly : t.hpsbuf.Orderly) : t.queueAuthOk.hpsbuf.Orderly := by
  unfold queueAuthOk
  dsimp only
  split
  next => exact orderly.reset.control .authOk [79, 75] trivial
  next => exact orderly.control .authOk [79, 75] trivial

theorem hpsbuf_answer (t : Tunnel) (now : ℚ) :
    { (t.tick now).raised now with ioWrite := true }.hpsbuf = t.hpsbuf := rfl

/-- Whatever is done to a tunnel, the queue of its control packets is in order. -/
theorem Act.orderly {sends loads : Prop} (act : Act sends loads t t') (orderly : t.hpsbuf.Orderly) :
    t'.hpsbuf.Orderly := by
  cases act with
  | create => exact orderly_init (by decide)
  | measure remeasured =>
      rw [remeasured]
      exact orderly
  | countReceived | tick | confirm | regrade | watch | countSent | refit | stopWatching => exact orderly
  | adoptAddr adopted =>
      obtain ⟨addr, rfl⟩ := adoptAddr_eq adopted
      exact orderly
  | keepaliveReceived now => exact orderly_keepaliveReceived orderly now
  | answer now =>
      rw [hpsbuf_answer]
      exact orderly_queueAuthOk orderly
  | lower => exact orderly.reset
  | sendKeepalive now => exact orderly_sendKeepalive orderly now
  | tickConnect now result => exact orderly_tickConnect now result orderly
  | queueData highPriority data => exact orderly_queueData orderly highPriority data
  | queueBare known => exact orderly_queueBare orderly _ known
  | take highPriority dataSeq now64 => exact orderly_taken orderly highPriority dataSeq now64
  | stopIfEmpty =>
      unfold Tunnel.stopIfEmpty
      split <;> exact orderly
  | weigh total =>
      unfold Tunnel.weigh
      split <;> exact orderly

/-- What is sent after a packet without text has been queued. -/
theorem oldest_queueBare (orderly : t.hpsbuf.Orderly) (type : PktType) :
    (t.queueBare type).hpsbuf.oldest.type =
      if cbIsEmpty t.hpsbuf then type else t.hpsbuf.oldest.type := by
  unfold queueBare
  split
  next full =>
    have filled : ¬ cbIsEmpty t.hpsbuf := fun empty => orderly.wf.not_full empty full
    rw [if_neg filled]
  next room => exact oldest_control room

end Tunnel

namespace Daemon

open Tunnel

variable {κ : Type} {d d' : Daemon κ} {i : Nat}

/-- The queues of the control packets are in order. -/
def Orderly (d : Daemon κ) : Prop := ∀ j, (d.tun j).hpsbuf.Orderly

theorem Deeds.orderly (deeds : Deeds (fun _ => True) True True d d') (orderly : d.Orderly) :
    d'.Orderly :=
  fun j => deeds.preserve (fun _ _ deed => deed.act.orderly) (orderly j)

theorem run_orderly {host : Host κ} {events : List (ℚ × Event κ)}
    (reached : run step (init host) events = some d) : d.Orderly := by
  refine run_preserves (I := Orderly) events ?_ ?_ reached
  · exact fun s e _ s' orderly done j =>
      step_tunnel (fun _ _ _ _ _ deed => deed.act.orderly) (orderly j) done
  · intro j
    rw [tun_eq_blank (Nat.not_lt_zero j)]
    exact Pktbuffer.orderly_init (by decide)

/-- The tunnels that `mlvpn_rtun_send_disconnect` is called for, each with the state it is
    called in. -/
def farewells (d : Daemon κ) : ℚ × Event κ → List (Daemon κ × Nat)
  | (now, .quit send) =>
      if d.stopped then []
      else ((visits (quitTunnel now send) d d.rtuns).map fun visit =>
          (visit.1.modify visit.2 Tunnel.stopWatching, visit.2)).filter fun visit =>
        (visit.1.tun visit.2).status.Up
  | e => d.dropped e

/-- How a tunnel comes to be among them. -/
inductive Farewell (d : Daemon κ) : ℚ × Event κ → Daemon κ × Nat → Prop where
  | quit {now : ℚ} {send : Nat → SendResult} {visit : Daemon κ × Nat} : d.stopped = false →
      visit ∈ visits (quitTunnel now send) d d.rtuns →
      ((visit.1.modify visit.2 Tunnel.stopWatching).tun visit.2).status.Up →
      Farewell d (now, .quit send) (visit.1.modify visit.2 Tunnel.stopWatching, visit.2)
  | drop {now : ℚ} {conf : Config κ} {send : Nat → SendResult} {visit : Daemon κ × Nat} :
      d.stopped = false → visit ∈ d.examined conf now send →
      (!conf.sections.any (Section.names (visit.1.tun visit.2).name)) = true →
      Farewell d (now, .reload (some conf) send) visit

theorem farewell_cases {e : ℚ × Event κ} {visit : Daemon κ × Nat} (member : visit ∈ d.farewells e) :
    Farewell d e visit := by
  obtain ⟨now, e⟩ := e
  cases e with
  | quit send =>
      simp only [farewells] at member
      split at member
      next => cases member
      next running =>
        obtain ⟨listed, up⟩ := List.mem_filter.mp member
        obtain ⟨before, visited, rfl⟩ := List.mem_map.mp listed
        exact .quit (Bool.eq_false_iff.mpr running) visited (of_decide_eq_true up)
  | reload conf send =>
      cases conf with
      | none => cases member
      | some conf =>
          simp only [farewells, dropped] at member
          split at member
          next => cases member
          next running =>
            obtain ⟨visited, missing⟩ := List.mem_filter.mp member
            exact .drop (Bool.eq_false_iff.mpr running) visited missing
  | _ => cases member

/-- They are calls of `mlvpn_rtun_send`. -/
theorem Farewell.called {e : ℚ × Event κ} {visit : Daemon κ × Nat} (farewell : Farewell d e visit) :
    visit.1.disconnectCall visit.2 ∈ d.calls e := by
  cases farewell with
  | quit running visited up =>
      simp only [calls, running, Bool.false_eq_true, if_false, List.mem_flatMap]
      refine ⟨_, visited, ?_⟩
      rw [quitCalls, if_pos up]
      exact List.mem_singleton.mpr rfl
  | drop running visited missing =>
      simp only [calls, running, Bool.false_eq_true, if_false, List.mem_flatMap]
      exact ⟨visit, visited, mem_dropCalls.mpr ⟨missing, rfl⟩⟩

theorem examined_orderly {conf : Config κ} {now : ℚ} {send : Nat → SendResult} (orderly : d.Orderly) :
    ∀ visit ∈ d.examined conf now send, visit.1.Orderly := by
  intro visit member
  unfold examined at member
  cases parsed : run (configSection now) (false, { d with fallbackAvailable := 0, filters := [] })
      conf.sections with
  | none =>
      rw [parsed] at member
      cases member
  | some result =>
      rw [parsed, Option.elim_some] at member
      have configured : result.2.Orderly :=
        run_preserves (I := fun s => s.2.Orderly) conf.sections
          (fun _ _ _ _ given taken => (configSection_deeds trivial taken).orderly given) orderly parsed
      refine (visits_invariant result.2.rtuns ?_ configured visit member).1
      intro s j _ s' given taken
      unfold dropIfMissing at taken
      split at taken
      next =>
        cases taken
        exact given
      next => exact (rtunDrop_deeds trivial taken).orderly given

theorem Farewell.orderly {e : ℚ × Event κ} {visit : Daemon κ × Nat} (farewell : Farewell d e visit)
    (orderly : d.Orderly) : visit.1.Orderly := by
  cases farewell with
  | quit _ visited _ =>
      have kept := (visits_invariant d.rtuns (fun _ _ _ _ given told =>
        (quitTunnel_deeds trivial told).orderly given) orderly _ visited).1
      exact (Deeds.act .stopWatching rfl).orderly kept
  | drop _ visited _ => exact examined_orderly orderly visit visited

/-- The oldest packet is taken, and its header has its type. -/
theorem takePacket_oldest (d : Daemon κ) (i : Nat) (highPriority : Bool) (now : ℚ) :
    (d.takePacket i highPriority now).2.1.flags =
      ((d.tun i).queue highPriority).oldest.type.code := by
  unfold takePacket
  dsimp only
  split <;> rfl

/-- A datagram shows the type of the packet that is read. -/
theorem SendCall.sendto_shows {call : SendCall κ} {now : ℚ} {datagram : List UInt8} {t : Tunnel}
    (sent : call.sendto now = some (datagram, t)) :
    let type := ((call.daemon.tun call.tunnel).queue call.highPriority).oldest.type
    type.Known → call.daemon.shownType datagram = type := by
  intro type known
  have built := SendCall.sendto_eq_some sent
  have flags := sendDatagram_flags built
  rw [takePacket_host, takePacket_oldest] at flags
  rw [shownType, flags]
  exact PktType.ofCode_code_mod known

/-- The datagram that is to tell the peer of a disconnect does so if, and only if, no other
    packet was waiting to be sent before it. -/
theorem farewell_disconnects_iff {host : Host κ} {events : List (ℚ × Event κ)}
    (reached : run step (init host) events = some d) {e : ℚ × Event κ} {visit : Daemon κ × Nat}
    (member : visit ∈ d.farewells e) (resolved : (visit.1.tun visit.2).addrinfo.isSome)
    {datagram : List UInt8} {t : Tunnel}
    (handed : (visit.1.disconnectCall visit.2).sendto e.1 = some (datagram, t)) :
    visit.1.disconnectCall visit.2 ∈ d.calls e ∧
      (visit.1.shownType datagram = .disconnect ↔ cbIsEmpty (visit.1.tun visit.2).hpsbuf ∨
        (visit.1.tun visit.2).hpsbuf.oldest.type = .disconnect) := by
  have farewell := farewell_cases member
  refine ⟨farewell.called, ?_⟩
  have orderly := farewell.orderly (run_orderly reached) visit.2
  have inside : visit.2 < visit.1.tuns.length := by
    by_contra outside
    rw [tun_eq_blank outside] at resolved
    cases resolved
  have queued : (visit.1.disconnectCall visit.2).daemon.tun visit.2 =
      (visit.1.tun visit.2).queueBare .disconnect := tun_modify_self inside _
  have oldest := oldest_queueBare orderly .disconnect
  have known : ((visit.1.tun visit.2).queueBare .disconnect).hpsbuf.oldest.type.Known :=
    (orderly_queueBare orderly .disconnect trivial).known _
  have shown : visit.1.shownType datagram =
      ((visit.1.tun visit.2).queueBare .disconnect).hpsbuf.oldest.type := by
    have type := SendCall.sendto_shows handed
    rw [← queued] at known ⊢
    exact type known
  rw [shown, oldest]
  by_cases empty : cbIsEmpty (visit.1.tun visit.2).hpsbuf
  · simp [empty]
  · simp [empty]

/-- A server that has sent its answer to a challenge tells the peer when it ends. -/
theorem farewell_disconnects_on_quit :
    ∃ d ∈ run step (init ⟨.little, plainBox, ()⟩) (serverRun [serverConf "a" 0] ++
        [(3, .write 0 (.sent 30) .blocked)]),
      ∃ visit ∈ d.farewells (4, .quit fun _ => .blocked),
        ∃ sent ∈ (visit.1.disconnectCall visit.2).sendto 4,
          visit.1.shownType sent.1 = .disconnect := by
  obtain ⟨d, reached, visit, member, ⟨datagram, t⟩, handed, resolved, empty⟩ :
      ∃ d ∈ run step (init ⟨.little, plainBox, ()⟩) (serverRun [serverConf "a" 0] ++
          [(3, .write 0 (.sent 30) .blocked)]),
        ∃ visit ∈ d.farewells (4, .quit fun _ => .blocked),
          ∃ sent ∈ (visit.1.disconnectCall visit.2).sendto 4,
            (visit.1.tun visit.2).addrinfo.isSome ∧ cbIsEmpty (visit.1.tun visit.2).hpsbuf := by
    decide +kernel
  exact ⟨d, reached, visit, member, ⟨datagram, t⟩, handed,
    (farewell_disconnects_iff reached member resolved handed).2.mpr (.inl empty)⟩

/-- A server whose answer is still queued sends that, whether it ends or drops the tunnel. -/
theorem answer_sent_as_farewell :
    ∃ d ∈ run step (init ⟨.little, plainBox, ()⟩) (serverRun [serverConf "a" 0]),
      (∃ visit ∈ d.farewells (3, .quit fun _ => .blocked),
        (visit.1.tun visit.2).addrinfo.isSome ∧
          ∃ sent ∈ (visit.1.disconnectCall visit.2).sendto 3, visit.1.shownType sent.1 = .authOk) ∧
      ∃ visit ∈ d.farewells (3, .reload (some (serverConfig [] [])) fun _ => .blocked),
        (visit.1.tun visit.2).addrinfo.isSome ∧
          ∃ sent ∈ (visit.1.disconnectCall visit.2).sendto 3, visit.1.shownType sent.1 = .authOk := by
  decide +kernel

end Daemon

end Mlvpn
