import Mlvpn.Daemon.Frames

/-! # The calls of `mlvpn_rtun_send`

It is called from three places: for each queue of a tunnel that can be written
to, and for the disconnect that a tunnel sends when a reload drops it and when
the program ends.  The calls of an event are listed from the state before it,
each with the state it is made in.
-/

namespace Mlvpn.Daemon

open Library.Machine Tunnel

variable {κ : Type} {d d' : Daemon κ} {i : Nat}

theorem takePacket_host (d : Daemon κ) (i : Nat) (highPriority : Bool) (now : ℚ) :
    (d.takePacket i highPriority now).2.2.host = d.host := by
  unfold takePacket
  dsimp only
  split <;> rfl

structure SendCall (κ : Type) where
  daemon : Daemon κ
  tunnel : Nat
  highPriority : Bool

/-- The datagram for `sendto`, with the tunnel as it is then, unless the packet is
    not sealed. -/
def SendCall.sendto (call : SendCall κ) (now : ℚ) : Option (List UInt8 × Tunnel) :=
  let (pkt, proto, d) := call.daemon.takePacket call.tunnel call.highPriority now
  (sendDatagram d.host d.cleartextData proto pkt).map fun datagram => (datagram, d.tun call.tunnel)

theorem SendCall.sendto_eq_some {call : SendCall κ} {now : ℚ} {datagram : List UInt8} {t : Tunnel}
    (sent : call.sendto now = some (datagram, t)) :
    let packet := call.daemon.takePacket call.tunnel call.highPriority now
    sendDatagram packet.2.2.host packet.2.2.cleartextData packet.2.1 packet.1 = some datagram := by
  obtain ⟨bytes, built, same⟩ := Option.map_eq_some_iff.mp sent
  rw [← (Prod.mk.inj same).1]
  exact built

/-- The call in `writeQueue`. -/
def queueCalls (d : Daemon κ) (i : Nat) (highPriority : Bool) : List (SendCall κ) :=
  if cbIsEmpty ((d.tun i).queue highPriority) then [] else [⟨d, i, highPriority⟩]

/-- The calls in `rtunWrite`. -/
def writeCalls (d : Daemon κ) (i : Nat) (now : ℚ) (first : SendResult) : List (SendCall κ) :=
  d.queueCalls i true ++ (d.writeQueue i true now first).elim [] (·.queueCalls i false)

/-- The call in `sendDisconnect`. -/
def disconnectCall (d : Daemon κ) (i : Nat) : SendCall κ :=
  ⟨d.modify i (·.queueBare .disconnect), i, true⟩

/-- The call in `dropIfMissing`. -/
def dropCalls (conf : Config κ) (visit : Daemon κ × Nat) : List (SendCall κ) :=
  if conf.sections.any (Section.names (visit.1.tun visit.2).name) then []
  else [visit.1.disconnectCall visit.2]

/-- The call in `quitTunnel`. -/
def quitCalls (visit : Daemon κ × Nat) : List (SendCall κ) :=
  let d := visit.1.modify visit.2 Tunnel.stopWatching
  if (d.tun visit.2).status.Up then [d.disconnectCall visit.2] else []

/-- The tunnels that a reload looks at to drop them, each with the state it is looked at in. -/
def examined (d : Daemon κ) (conf : Config κ) (now : ℚ) (send : Nat → SendResult) :
    List (Daemon κ × Nat) :=
  (run (configSection now) (false, { d with fallbackAvailable := 0, filters := [] })
    conf.sections).elim [] fun result =>
      visits (dropIfMissing conf now send) result.2 result.2.rtuns

/-- The calls of `mlvpn_rtun_send` during an event. -/
def calls (d : Daemon κ) : ℚ × Event κ → List (SendCall κ)
  | (now, e) =>
      if d.stopped then []
      else
        match e with
        | .write i first _ => if (d.tun i).ioWrite then d.writeCalls i now first else []
        | .reload (some conf) send => (d.examined conf now send).flatMap (dropCalls conf)
        | .quit send => (visits (quitTunnel now send) d d.rtuns).flatMap quitCalls
        | _ => []

end Mlvpn.Daemon
