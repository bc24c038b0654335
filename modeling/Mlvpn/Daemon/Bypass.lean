import Mlvpn.Daemon.References
import Mlvpn.Daemon.Sends

/-! # Packets that a filter chooses

A packet of the device goes to the queue of higher priority if a filter chooses
its tunnel.  The manual says that such a packet is not reordered, and the
receiver asks the header.  The packet is followed from the device to `sendto`
by its slot in the queue: `mlvpn_rtun_send` numbers what it takes from either
queue, and marks it for reordering.
-/

namespace Mlvpn

/-- A slot of the ring that was written and not read yet. -/
def Pktbuffer.Live (buf : Pktbuffer) (slot : Nat) : Prop :=
  (slot + buf.size - buf.start) % buf.size < (buf.stop + buf.size - buf.start) % buf.size

instance (buf : Pktbuffer) (slot : Nat) : Decidable (buf.Live slot) :=
  inferInstanceAs (Decidable (_ < _))

/-- The packet goes to the device, and not through the reorder buffer. -/
def Receive.InjectsAtOnce (s : Receive) (tun : Nat) (pkt : Pkt) : Prop :=
  let r := s.arrival tun pkt
  s.recvData tun pkt = some (1, { s with received := s.received ++ [r] }.injectTuntap r)

namespace Daemon

open Library.Machine

variable {κ : Type} {d : Daemon κ} {data : List UInt8}

/-- The way of a packet that is read from the device in the state `d`: it waits in its slot
    until a call of `mlvpn_rtun_send` takes it. -/
structure Journey (d : Daemon κ) (data : List UInt8) where
  readAt : ℚ
  queued : Daemon κ
  waiting : List (ℚ × Event κ)
  before : Daemon κ
  event : ℚ × Event κ
  call : SendCall κ
  running : d.stopped = false
  read : d.step (readAt, .tuntapRead data) = some queued
  routed : d.route (data.take maxmtu) = some (call.tunnel, call.highPriority)
  waits : Always step (fun s => ((s.tun call.tunnel).queue call.highPriority).Live
    ((d.tun call.tunnel).queue call.highPriority).stop) queued waiting
  reached : run step queued waiting = some before
  called : call ∈ before.calls event
  first : ((call.daemon.tun call.tunnel).queue call.highPriority).start =
    ((d.tun call.tunnel).queue call.highPriority).stop
  carried :
    let pkt := (call.daemon.takePacket call.tunnel call.highPriority event.1).1
    pkt.type = .data ∧ pkt.bytes pkt.len = data.take maxmtu

/-- The datagram of a packet is marked for reordering unless a filter has chosen the packet,
    and then a peer that accepts the datagram injects the packet at once. -/
def Bypasses (d : Daemon κ) (data : List UInt8) (host : Host κ) (datagram : List UInt8) : Prop :=
  let filtered := d.filtersChoose (data.take maxmtu) ≠ none
  (Proto.decode host.endian datagram).reorder = (if filtered then 0 else 1) ∧
    (filtered → ∀ cleartextData now64 t decrypted pkt t',
      protocolRead host cleartextData now64 t datagram = (some (decrypted, pkt), t') →
        ∀ (s : Receive) tun, s.InjectsAtOnce tun pkt)

theorem takePacket_reorder (d : Daemon κ) (i : Nat) (highPriority : Bool) (now : ℚ) :
    (d.takePacket i highPriority now).2.1.reorder = 1 := by
  unfold takePacket
  dsimp only
  split <;> rfl

/-- Every datagram is marked for reordering, whatever queue its packet was in. -/
theorem SendCall.sendto_reorder {call : SendCall κ} {now : ℚ} {datagram : List UInt8} {t : Tunnel}
    (sent : call.sendto now = some (datagram, t)) :
    (Proto.decode call.daemon.host.endian datagram).reorder = 1 := by
  have built := SendCall.sendto_eq_some sent
  rw [← takePacket_host call.daemon call.tunnel call.highPriority now, sendDatagram_reorder built,
    takePacket_reorder]

/-- The datagram is made of a packet of data. -/
def Ships (d : Daemon κ) (data datagram : List UInt8) : Prop :=
  ∃ proto pkt, sendDatagram d.host d.cleartextData proto pkt = some datagram ∧
    pkt.type = .data ∧ pkt.bytes pkt.len = data

theorem takePacket_cleartextData (d : Daemon κ) (i : Nat) (highPriority : Bool) (now : ℚ) :
    (d.takePacket i highPriority now).2.2.cleartextData = d.cleartextData := by
  unfold takePacket
  dsimp only
  split <;> rfl

/-- What is sent at the end of its way is the packet of the device. -/
theorem Journey.ships (journey : Journey d data) {datagram : List UInt8} {t : Tunnel}
    (sent : journey.call.sendto journey.event.1 = some (datagram, t)) :
    journey.call.daemon.Ships (data.take maxmtu) datagram := by
  have built := SendCall.sendto_eq_some sent
  dsimp only at built
  rw [takePacket_host, takePacket_cleartextData] at built
  exact ⟨_, _, built, journey.carried⟩

/-- The packet of the device is what is sent, and it is sent as the manual says if, and only if,
    no filter has chosen it. -/
theorem bypasses_iff (journey : Journey d data) {datagram : List UInt8} {t : Tunnel}
    (sent : journey.call.sendto journey.event.1 = some (datagram, t)) :
    journey.call.daemon.Ships (data.take maxmtu) datagram ∧
      (d.Bypasses data journey.call.daemon.host datagram ↔ d.filtersChoose (data.take maxmtu) = none) := by
  have marked := SendCall.sendto_reorder sent
  refine ⟨journey.ships sent, ?_⟩
  unfold Bypasses
  cases d.filtersChoose (data.take maxmtu) with
  | none => simp [marked]
  | some i => simp [marked]

/-- A server is connected, and sends two packets of the device. -/
def deviceRun (filters : List String) : List (ℚ × Event Unit) :=
  [(0, .reload (some (serverConfig [serverConf "a" 0] filters)) fun _ => .blocked),
    (1, .timeout 0 (.opened [127] 3)), challenged 0, (3, .write 0 (.sent 30) .blocked),
    (4, .tuntapRead [1]), (5, .write 0 (.sent 29) (.sent 29)),
    (6, .tuntapRead [2]), (7, .write 0 (.sent 29) (.sent 29))]

/-- The last slot of a queue has the packet that it was given. -/
theorem queueData_last (t : Tunnel) (highPriority : Bool) (data : List UInt8) :
    let pkt := ((t.queueData highPriority data).queue highPriority).pkts (t.queue highPriority).stop
    pkt.type = .data ∧ pkt.bytes pkt.len = data := by
  have written : (t.queueData highPriority data).queue highPriority =
      pktbufferWrite (t.queue highPriority) fun slot =>
        { slot with len := data.length, data := data ++ slot.data.drop data.length } := by
    unfold Tunnel.queueData
    dsimp only
    cases highPriority <;> split <;> rfl
  simp [written, pktbufferWrite, Pkt.bytes]

/-- A packet that is read from the device is in the slot that was free. -/
theorem tuntapRead_slot {queued : Daemon κ} {i : Nat} {highPriority : Bool} {readAt : ℚ}
    (running : d.stopped = false) (read : d.step (readAt, .tuntapRead data) = some queued)
    (routed : d.route (data.take maxmtu) = some (i, highPriority))
    (live : ((queued.tun i).queue highPriority).Live ((d.tun i).queue highPriority).stop) :
    let pkt := ((queued.tun i).queue highPriority).pkts ((d.tun i).queue highPriority).stop
    pkt.type = .data ∧ pkt.bytes pkt.len = data.take maxmtu := by
  have tuns : queued.tuns = (d.modify i (·.queueData highPriority (data.take maxmtu))).tuns := by
    simp only [step, running, tuntapRead, Bool.false_eq_true, if_false] at read
    split at read
    next => cases read
    next =>
      cases read
      rw [tuntapGenericRead_tuns, routed]
  have inside : i < d.tuns.length := by
    by_contra outside
    have same : queued.tun i = d.tun i := by
      rw [tun, tuns]
      exact (tun_modify d i i _).trans (if_neg fun here => outside here.2)
    rw [same] at live
    exact absurd live (Nat.lt_irrefl _)
  have here : queued.tun i = (d.tun i).queueData highPriority (data.take maxmtu) := by
    rw [tun, tuns]
    exact tun_modify_self inside _
  rw [here]
  exact queueData_last (d.tun i) highPriority (data.take maxmtu)

/-- The packet that was read is the first of its queue, and that queue is the first to be served. -/
def TakesNext (d queued : Daemon κ) (data : List UInt8) (i : Nat) (highPriority : Bool) : Prop :=
  let slot := ((d.tun i).queue highPriority).stop
  d.stopped = false ∧ d.route (data.take maxmtu) = some (i, highPriority) ∧
    ((queued.tun i).queue highPriority).Live slot ∧ ((queued.tun i).queue highPriority).start = slot ∧
    queued.stopped = false ∧ (queued.tun i).ioWrite = true ∧
    (highPriority = false → cbIsEmpty ((queued.tun i).queue true))

instance (d queued : Daemon κ) (data : List UInt8) (i : Nat) (highPriority : Bool) :
    Decidable (TakesNext d queued data i highPriority) :=
  inferInstanceAs (Decidable (_ ∧ _ ∧ _ ∧ _ ∧ _ ∧ _ ∧ _))

section Next

variable {queued : Daemon κ} {i : Nat} {highPriority : Bool} {readAt now : ℚ}

theorem TakesNext.called (takes : TakesNext d queued data i highPriority) (first second : SendResult) :
    ⟨queued, i, highPriority⟩ ∈ queued.calls (now, .write i first second) := by
  obtain ⟨_, _, live, _, running, watched, served⟩ := takes
  have filled : ¬ cbIsEmpty ((queued.tun i).queue highPriority) := by
    intro empty
    unfold Pktbuffer.Live at live
    unfold cbIsEmpty at empty
    simp [empty] at live
  simp only [calls, running, watched, writeCalls, queueCalls, writeQueue]
  cases highPriority with
  | true => simp [filled]
  | false => simp [filled, served rfl]

/-- The call takes the packet that was read. -/
theorem TakesNext.carried (takes : TakesNext d queued data i highPriority)
    (read : d.step (readAt, .tuntapRead data) = some queued) :
    let pkt := (queued.takePacket i highPriority now).1
    pkt.type = .data ∧ pkt.bytes pkt.len = data.take maxmtu := by
  obtain ⟨running, routed, live, start, _⟩ := takes
  have taken : (queued.takePacket i highPriority now).1 =
      ((queued.tun i).queue highPriority).pkts ((d.tun i).queue highPriority).stop := by
    rw [← start]
    unfold takePacket
    dsimp only
    split <;> rfl
  rw [taken]
  exact tuntapRead_slot running read routed live

def TakesNext.journey (takes : TakesNext d queued data i highPriority)
    (read : d.step (readAt, .tuntapRead data) = some queued) (now : ℚ) (first second : SendResult) :
    Journey d data where
  readAt := readAt
  queued := queued
  waiting := []
  before := queued
  event := (now, .write i first second)
  call := ⟨queued, i, highPriority⟩
  running := takes.1
  read := read
  routed := takes.2.1
  waits := takes.2.2.1
  reached := rfl
  called := takes.called first second
  first := takes.2.2.2.1
  carried := takes.carried read

end Next

/-- Without filters, a packet is marked for reordering. -/
theorem unfiltered_packet_bypasses :
    ∃ d ∈ run step (init ⟨.little, plainBox, ()⟩) (deviceRun []), ∃ journey : Journey d [69],
      ∃ sent ∈ journey.call.sendto journey.event.1,
        d.Bypasses [69] journey.call.daemon.host sent.1 := by
  obtain ⟨d, reached, unfiltered, queued, read, takes, sent, there, _⟩ :
      ∃ d ∈ run step (init ⟨.little, plainBox, ()⟩) (deviceRun []), d.filtersChoose [69] = none ∧
        ∃ queued ∈ d.step (8, .tuntapRead [69]), TakesNext d queued [69] 0 false ∧
        ∃ sent ∈ SendCall.sendto ⟨queued, 0, false⟩ 9, sent.1.length = 29 := by
    decide +kernel
  let journey : Journey d [69] := takes.journey read 9 (.sent 29) (.sent 29)
  exact ⟨d, reached, journey, sent, there, (bypasses_iff journey there).2.mpr unfiltered⟩

/-- A packet that a filter has chosen is marked for reordering as well.  The peer has received
    the first packet and not the second: it holds the third back. -/
theorem filtered_packet_reordered :
    ∃ d ∈ run step (init ⟨.little, plainBox, ()⟩) (deviceRun ["a"]),
      d.filtersChoose [69] = some 0 ∧ ∃ journey : Journey d [69],
      ∃ sent ∈ journey.call.sendto journey.event.1,
        ¬ d.Bypasses [69] journey.call.daemon.host sent.1 ∧
        ∃ accepted ∈ (protocolRead ⟨.little, plainBox, ()⟩ true 0 .blank sent.1).1,
        ∃ s ∈ run Receive.step .init [.reload 16,
          .recv 0 { len := 1, type := .data, reorder := true, seq := 0, data := [1] }],
        ∃ later ∈ s.recvData 0 accepted.2, later.2.injected = s.injected := by
  obtain ⟨d, reached, filtered, queued, read, takes, sent, there, marked, held⟩ :
      ∃ d ∈ run step (init ⟨.little, plainBox, ()⟩) (deviceRun ["a"]),
        d.filtersChoose [69] = some 0 ∧
        ∃ queued ∈ d.step (8, .tuntapRead [69]), TakesNext d queued [69] 0 true ∧
        ∃ sent ∈ SendCall.sendto ⟨queued, 0, true⟩ 9,
          (Proto.decode queued.host.endian sent.1).reorder = 1 ∧
          ∃ accepted ∈ (protocolRead ⟨.little, plainBox, ()⟩ true 0 .blank sent.1).1,
          ∃ s ∈ run Receive.step .init [.reload 16,
            .recv 0 { len := 1, type := .data, reorder := true, seq := 0, data := [1] }],
          ∃ later ∈ s.recvData 0 accepted.2, later.2.injected = s.injected := by
    decide +kernel
  refine ⟨d, reached, filtered, takes.journey read 9 (.sent 29) (.sent 29), sent, there, ?_, held⟩
  rintro ⟨unmarked, _⟩
  have chosen : d.filtersChoose (List.take maxmtu [69]) = some 0 := filtered
  rw [if_pos (by simp [chosen])] at unmarked
  exact absurd (marked.symm.trans unmarked) (by decide)

end Daemon

end Mlvpn
