import Mlvpn.Buffer.Fifo
import Mlvpn.Daemon.Frames
import Mlvpn.Daemon.Wakeup
import Mlvpn.Library.Dispatch

/-! # The order of the data sequence numbers

`data_seq` is taken when a packet leaves the queue of its tunnel, not when it is
read from the tuntap device.  To compare the two orders, a run of reads and
writes is followed packet by packet: each gets the number of its arrival, and
what waits in a queue is told by the numbers of its packets.  The daemon itself
does not see any of this.
-/

namespace Mlvpn

open Library Library.Machine

/-- A packet that was transmitted, with its number of arrival and its header. -/
structure Stamp where
  arrival : Nat
  pkt : Pkt
  proto : Proto

/-- A daemon, the packets it has read, and the numbers of those in its queues. -/
structure Follow (κ : Type) where
  daemon : Daemon κ
  reads : List (List UInt8)
  waiting : Nat → List Nat
  stamps : List Stamp

/-- A packet of the tuntap device, or a tunnel that can write. -/
inductive Traffic where
  | tuntapRead (data : List UInt8)
  | write (i : Nat) (first second : SendResult)

variable {κ : Type}

def Traffic.event : Traffic → Daemon.Event κ
  | .tuntapRead data => .tuntapRead data
  | .write i first second => .write i first second

namespace Daemon

open Tunnel

variable {d d' : Daemon κ} {i : Nat}

/-- Neither the counter of the data, nor the filters, nor the loop has changed. -/
structure Aside (d d' : Daemon κ) : Prop where
  dataSeq : d'.dataSeq = d.dataSeq
  filters : d'.filters = d.filters
  stopped : d'.stopped = d.stopped

theorem wrrReset_aside {mode : Nat} (done : d.wrrReset mode = some d') : Aside d d' := by
  unfold wrrReset at done
  dsimp only at done
  split at done
  next =>
    cases done
    exact ⟨rfl, rfl, rfl⟩
  next => cases done

theorem tuntapDown_aside (d : Daemon κ) : Aside d d.tuntapDown := by
  unfold tuntapDown
  split <;> exact ⟨rfl, rfl, rfl⟩

theorem statusDown_aside (done : d.statusDown i = some d') : Aside d d' := by
  obtain ⟨d₁, ended, rfl⟩ := Option.map_eq_some_iff.mp done
  split at ended
  next =>
    obtain ⟨d₂, reset, rest⟩ := Option.bind_eq_some_iff.mp ended
    obtain ⟨rx, _, rfl⟩ := Option.map_eq_some_iff.mp rest
    have rebuilt := wrrReset_aside reset
    have closed := tuntapDown_aside d₂
    exact ⟨closed.dataSeq.trans rebuilt.dataSeq, closed.filters.trans rebuilt.filters,
      closed.stopped.trans rebuilt.stopped⟩
  next =>
    cases ended
    exact ⟨rfl, rfl, rfl⟩

/-- The counter moves for data. -/
structure Counts (d d' : Daemon κ) (pkt : Pkt) : Prop where
  dataSeq : d'.dataSeq = if pkt.type = .data then d.dataSeq + 1 else d.dataSeq
  filters : d'.filters = d.filters
  stopped : d'.stopped = d.stopped

theorem takePacket_counts (highPriority : Bool) (now : ℚ) :
    Counts d (d.takePacket i highPriority now).2.2
      (pktbufferRead ((d.tun i).queue highPriority)).1 := by
  unfold takePacket
  dsimp only
  split <;> exact ⟨rfl, rfl, rfl⟩

theorem afterSendto_aside {type : PktType} {datagram : List UInt8} {result : SendResult}
    (done : d.afterSendto i type datagram result = some d') : Aside d d' := by
  cases result with
  | blocked =>
      cases done
      exact ⟨rfl, rfl, rfl⟩
  | failed => exact statusDown_aside done
  | sent len =>
      cases done
      exact ⟨rfl, rfl, rfl⟩

theorem rtunSend_counts {highPriority : Bool} {now : ℚ} {result : SendResult}
    (done : d.rtunSend i highPriority now result = some d') :
    Counts d d' (pktbufferRead ((d.tun i).queue highPriority)).1 := by
  have counts := takePacket_counts (d := d) (i := i) highPriority now
  cases rtunSend_cases done with
  | refuses _ => exact counts
  | hands _ sent =>
      have after := afterSendto_aside sent
      exact ⟨after.dataSeq.trans counts.dataSeq, after.filters.trans counts.filters,
        after.stopped.trans counts.stopped⟩

/-- What a send leaves of the data queue of its tunnel: of its own queue all but
    the first packet, and nothing if the tunnel was lost. -/
theorem rtunSend_sbuf {highPriority : Bool} {now : ℚ} {result : SendResult} {pkts : List Pkt}
    (filled : ¬ cbIsEmpty ((d.tun i).queue highPriority)) (queues : (d.tun i).sbuf.Queues pkts)
    (done : d.rtunSend i highPriority now result = some d') :
    (d'.tun i).sbuf.size = (d.tun i).sbuf.size ∧
      ((d'.tun i).sbuf.Queues (pkts.drop (if highPriority = true then 0 else 1)) ∨
        (d'.tun i).sbuf.Queues []) := by
  have taken : ((d.tun i).taken highPriority d.dataSeq (timestamp64 now)).sbuf.size =
      (d.tun i).sbuf.size ∧
      ((d.tun i).taken highPriority d.dataSeq (timestamp64 now)).sbuf.Queues
        (pkts.drop (if highPriority = true then 0 else 1)) := by
    cases highPriority with
    | true =>
        rw [(taken_sbuf (d.tun i) d.dataSeq (timestamp64 now)).1]
        exact ⟨rfl, queues⟩
    | false =>
        rw [(taken_sbuf (d.tun i) d.dataSeq (timestamp64 now)).2]
        refine ⟨rfl, ?_⟩
        cases pkts with
        | nil => exact absurd (queues.empty_iff.mpr rfl) filled
        | cons pkt rest => exact queues.read.2
  rcases rtunSend_tun (lt_of_filled filled) done with ⟨_, same⟩ | ⟨_, same⟩ | ⟨_, t, sent, same⟩
  · rw [same]
    exact ⟨taken.1, .inl taken.2⟩
  · rw [same, stopIfEmpty_sbuf]
    exact ⟨taken.1, .inr taken.2.reset⟩
  · rw [same, stopIfEmpty_sbuf, sent.sbuf]
    exact ⟨taken.1, .inl taken.2⟩

/-- One half of a write: either the queue is empty and nothing happens, or its first
    packet is taken. -/
theorem writeQueue_cases {highPriority : Bool} {now : ℚ} {result : SendResult}
    (done : d.writeQueue i highPriority now result = some d') :
    (cbIsEmpty ((d.tun i).queue highPriority) ∧ d' = d) ∨
      (¬ cbIsEmpty ((d.tun i).queue highPriority) ∧
        d.rtunSend i highPriority now result = some d') := by
  unfold writeQueue at done
  split at done
  next empty =>
    cases done
    exact .inl ⟨empty, rfl⟩
  next filled => exact .inr ⟨filled, done⟩

/-- The counter moves on by one at most. -/
theorem Counts.toNat_le {pkt : Pkt} (counts : Counts d d' pkt) (room : d.dataSeq.toNat + 1 < 2 ^ 64) :
    d.dataSeq.toNat ≤ d'.dataSeq.toNat ∧ d'.dataSeq.toNat ≤ d.dataSeq.toNat + 1 := by
  rw [counts.dataSeq]
  split
  next =>
    rw [UInt64.toNat_add, UInt64.toNat_one, Nat.mod_eq_of_lt room]
    omega
  next => omega

/-- What one half of a write does to the data queues and to the counter. -/
structure Writes (d d' : Daemon κ) (i : Nat) (highPriority : Bool) : Prop where
  filters : d'.filters = d.filters
  counter : d.dataSeq.toNat + 1 < 2 ^ 64 →
    d.dataSeq.toNat ≤ d'.dataSeq.toNat ∧ d'.dataSeq.toNat ≤ d.dataSeq.toNat + 1
  others : ∀ j, j ≠ i → d'.tun j = d.tun j
  size : (d'.tun i).sbuf.size = (d.tun i).sbuf.size
  left : ∀ pkts, (d.tun i).sbuf.Queues pkts →
    (d'.tun i).sbuf.Queues (pkts.drop (if highPriority = true then 0 else 1)) ∨
      (d'.tun i).sbuf.Queues []

theorem writeQueue_writes {highPriority : Bool} {now : ℚ} {result : SendResult} {pkts : List Pkt}
    (queues : (d.tun i).sbuf.Queues pkts)
    (done : d.writeQueue i highPriority now result = some d') : Writes d d' i highPriority := by
  rcases writeQueue_cases done with ⟨empty, rfl⟩ | ⟨filled, sent⟩
  · refine ⟨rfl, fun _ => by omega, fun _ _ => rfl, rfl, fun pkts queues => ?_⟩
    cases highPriority with
    | true => exact .inl queues
    | false =>
        rw [queues.empty_iff.mp empty] at queues
        exact .inr queues
  · have counts := rtunSend_counts sent
    exact ⟨counts.filters, counts.toNat_le, rtunSend_only sent,
      (rtunSend_sbuf filled queues sent).1, fun pkts queues => (rtunSend_sbuf filled queues sent).2⟩

end Daemon

namespace Follow

open Daemon Tunnel

def start (d : Daemon κ) : Follow κ := { daemon := d, reads := [], waiting := fun _ => [], stamps := [] }

/-- What is left of a queue is its end. -/
def settle (d : Daemon κ) (waiting : Nat → List Nat) (i : Nat) : List Nat :=
  (waiting i).drop ((waiting i).length - (d.tun i).sbuf.count)

/-- The data packet that the second half of a write hands to `sendto`, if that
    takes it. -/
def transmitted (d : Daemon κ) (i : Nat) (now : ℚ) (result : SendResult) (waiting : List Nat) :
    List Stamp :=
  if cbIsEmpty (d.tun i).sbuf then []
  else
    let (pkt, proto, d) := d.takePacket i false now
    match waiting, sendDatagram d.host d.cleartextData proto pkt, result with
    | n :: _, some _, .sent _ => [⟨n, pkt, proto⟩]
    | _, _, _ => []

/-- One event, followed.  There are no filters, so a packet goes to the tunnel of
    the round robin. -/
def step (f : Follow κ) : ℚ × Traffic → Option (Follow κ)
  | (_, .tuntapRead data) =>
      if f.daemon.stopped then some f
      else
        (f.daemon.tuntapRead data).map fun d =>
          { f with
            daemon := d
            reads := f.reads ++ [data.take maxmtu]
            waiting := settle d (match f.daemon.rtunChoose.1 with
              | none => f.waiting
              | some i => Function.update f.waiting i (f.waiting i ++ [f.reads.length])) }
  | (now, .write i first second) =>
      if f.daemon.stopped then some f
      else if (f.daemon.tun i).ioWrite then
        (f.daemon.writeQueue i true now first).bind fun d₁ =>
          (d₁.writeQueue i false now second).map fun d₂ =>
            { f with
              daemon := d₂
              waiting := settle d₂ f.waiting
              stamps := transmitted d₁ i now second (f.waiting i) ++ f.stamps }
      else some f

/-- The packets of a queue are the arrivals of these numbers. -/
def Tracks (reads : List (List UInt8)) (numbers : List Nat) (pkts : List Pkt) : Prop :=
  List.Forall₂ (fun n pkt => pkt.type = .data ∧ reads[n]? = some (pkt.bytes pkt.len)) numbers pkts

theorem Tracks.grow {reads : List (List UInt8)} {numbers : List Nat} {pkts : List Pkt}
    (tracks : Tracks reads numbers pkts) (data : List UInt8) : Tracks (reads ++ [data]) numbers pkts := by
  refine tracks.imp ?_
  rintro n pkt ⟨type, found⟩
  exact ⟨type, List.getElem?_append_left (List.getElem?_eq_some_iff.mp found).1 ▸ found⟩

/-- The numbers that are left are those of the packets that are left. -/
theorem Tracks.settle {reads : List (List UInt8)} {numbers : List Nat} {pkts : List Pkt}
    (tracks : Tracks reads numbers pkts) (k : Nat) :
    Tracks reads (numbers.drop (numbers.length - (pkts.drop k).length)) (pkts.drop k) := by
  have length : numbers.length = pkts.length := tracks.length_eq
  by_cases inside : k ≤ pkts.length
  · rw [List.length_drop, length, Nat.sub_sub_self inside]
    exact List.forall₂_drop k tracks
  · have empty : pkts.drop k = [] := List.drop_of_length_le (by omega)
    rw [empty, List.length_nil, Nat.sub_zero, List.drop_length]
    exact .nil

/-- The numbers match the queues, and the stamps are in the order of the numbers. -/
structure Sound (f : Follow κ) : Prop where
  unfiltered : f.daemon.filters = []
  roomy : ∀ i, 1 < (f.daemon.tun i).sbuf.size
  tracked : ∀ i, ∃ pkts, (f.daemon.tun i).sbuf.Queues pkts ∧ Tracks f.reads (f.waiting i) pkts
  ordered : Dispatch.Ordered f.reads.length f.waiting
    (f.stamps.map fun stamp => (stamp.arrival, stamp.proto.dataSeq.toNat)) f.daemon.dataSeq.toNat
  carried : ∀ stamp ∈ f.stamps, f.reads[stamp.arrival]? = some (stamp.pkt.bytes stamp.pkt.len)

/-- No filter is configured, and no data is queued yet. -/
def Fresh (d : Daemon κ) : Prop :=
  d.filters = [] ∧ ∀ i < d.tuns.length, (d.tun i).sbuf.Wf ∧ cbIsEmpty (d.tun i).sbuf

instance (d : Daemon κ) : Decidable (Fresh d) := inferInstanceAs (Decidable (_ ∧ _))

theorem Fresh.queues {d : Daemon κ} (fresh : Fresh d) (i : Nat) :
    (d.tun i).sbuf.Wf ∧ cbIsEmpty (d.tun i).sbuf := by
  by_cases inside : i < d.tuns.length
  · exact fresh.2 i inside
  · rw [tun_eq_blank inside]
    exact ⟨Pktbuffer.wf_init (by decide), rfl⟩

theorem sound_start {d : Daemon κ} (fresh : Fresh d) : Sound (start d) where
  unfiltered := fresh.1
  roomy i := (fresh.queues i).1.roomy
  tracked i := by
    obtain ⟨wf, empty⟩ := fresh.queues i
    exact ⟨[], wf.queues_nil empty, .nil⟩
  ordered := .empty _
  carried _ member := by cases member

theorem settle_sublist (d : Daemon κ) (waiting : Nat → List Nat) (i : Nat) :
    (settle d waiting i).Sublist (waiting i) :=
  List.drop_sublist _ _

/-- A queue that has lost packets is still tracked. -/
theorem Tracks.left {d : Daemon κ} {reads : List (List UInt8)} {waiting : Nat → List Nat} {i k : Nat}
    {pkts : List Pkt} (tracks : Tracks reads (waiting i) pkts)
    (queues : (d.tun i).sbuf.Queues (pkts.drop k)) :
    ∃ pkts, (d.tun i).sbuf.Queues pkts ∧ Tracks reads (Follow.settle d waiting i) pkts := by
  refine ⟨pkts.drop k, queues, ?_⟩
  unfold Follow.settle
  rw [queues.count_eq]
  exact tracks.settle k

theorem tracks_emptied {d : Daemon κ} {i : Nat} (queues : (d.tun i).sbuf.Queues [])
    (reads : List (List UInt8)) (waiting : Nat → List Nat) :
    ∃ pkts, (d.tun i).sbuf.Queues pkts ∧ Tracks reads (settle d waiting i) pkts := by
  refine ⟨[], queues, ?_⟩
  unfold settle
  rw [queues.count_eq, List.length_nil, Nat.sub_zero, List.drop_length]
  exact .nil

/-- A packet from the device, as it is stored in a queue. -/
theorem queueData_queues {t : Tunnel} {pkts : List Pkt} (roomy : 1 < t.sbuf.size)
    (queues : t.sbuf.Queues pkts) (data : List UInt8) :
    (t.queueData false data).sbuf.size = t.sbuf.size ∧
      ∃ k pkt, pkt.type = .data ∧ pkt.bytes pkt.len = data ∧
        (t.queueData false data).sbuf.Queues ((pkts ++ [pkt]).drop k) := by
  let fill : Pkt → Pkt := fun slot =>
    { slot with len := data.length, data := data ++ slot.data.drop data.length }
  have written := queues.write roomy fill
  have stored : (t.queueData false data).sbuf = pktbufferWrite t.sbuf fill := by
    unfold Tunnel.queueData
    dsimp only
    split <;> rfl
  let pkt := fill { t.sbuf.pkts t.sbuf.stop with len := 0, type := .data }
  have carried : pkt.bytes pkt.len = data := by simp [pkt, fill, Pkt.bytes]
  rw [stored]
  refine ⟨rfl, if pkts.length + 1 = t.sbuf.size then 1 else 0, pkt, rfl, carried, ?_⟩
  split at written
  next full =>
    rw [if_pos full]
    cases pkts with
    | nil =>
        simp only [List.length_nil] at full
        omega
    | cons first rest => exact written
  next room =>
    rw [if_neg room]
    exact written

theorem rtunChoose_aside (d : Daemon κ) : Aside d d.rtunChoose.2 := by
  unfold rtunChoose wrrChoose
  dsimp only
  split <;> exact ⟨rfl, rfl, rfl⟩

/-- A further arrival does not renumber those before it. -/
theorem Sound.carried_grow {f : Follow κ} (sound : Sound f) (data : List UInt8) :
    ∀ stamp ∈ f.stamps,
      (f.reads ++ [data])[stamp.arrival]? = some (stamp.pkt.bytes stamp.pkt.len) := by
  intro stamp member
  have found := sound.carried stamp member
  rw [List.getElem?_append_left (List.getElem?_eq_some_iff.mp found).1]
  exact found

/-- A packet that goes to no tunnel. -/
theorem Sound.discard {f : Follow κ} (sound : Sound f) {d : Daemon κ} (tuns : d.tuns = f.daemon.tuns)
    (aside : Aside f.daemon d) (data : List UInt8) :
    Sound { f with daemon := d, reads := f.reads ++ [data], waiting := settle d f.waiting } := by
  have same : ∀ j, d.tun j = f.daemon.tun j := fun j => by rw [tun, tun, tuns]
  refine ⟨aside.filters.trans sound.unfiltered, fun j => ?_, fun j => ?_, ?_,
    sound.carried_grow data⟩
  · rw [same]
    exact sound.roomy j
  · obtain ⟨pkts, queues, tracks⟩ := sound.tracked j
    rw [← same] at queues
    exact (tracks.grow data).left (k := 0) queues
  · rw [List.length_append, List.length_singleton, aside.dataSeq]
    exact sound.ordered.pass.sublist (settle_sublist d f.waiting)

/-- The queue that a packet is put in has its number last; if it overflows, it has lost
    its first packet and its first number. -/
theorem Sound.tracked_queue {f : Follow κ} (sound : Sound f) {d : Daemon κ}
    (tuns : d.tuns = f.daemon.tuns) (i : Nat) (data : List UInt8) :
    let d' := d.modify i (·.queueData false data)
    ∃ pkts, (d'.tun i).sbuf.Queues pkts ∧
      Tracks (f.reads ++ [data])
        (Follow.settle d' (Function.update f.waiting i (f.waiting i ++ [f.reads.length])) i) pkts := by
  intro d'
  have same : d.tun i = f.daemon.tun i := by rw [tun, tun, tuns]
  obtain ⟨pkts, queues, tracks⟩ := sound.tracked i
  by_cases inside : i < d.tuns.length
  · obtain ⟨_, k, pkt, type, carried, left⟩ := queueData_queues (sound.roomy i) queues data
    have joined : Tracks (f.reads ++ [data])
        (Function.update f.waiting i (f.waiting i ++ [f.reads.length]) i) (pkts ++ [pkt]) := by
      rw [Function.update_self]
      refine List.rel_append (tracks.grow data) (.cons ⟨type, ?_⟩ .nil)
      rw [List.getElem?_concat_length, carried]
    apply joined.left (k := k)
    rw [tun_modify_self inside, same]
    exact left
  · -- a tunnel that does not exist keeps nothing
    have unchanged : d'.tun i = f.daemon.tun i := by
      rw [tun_modify, if_neg fun both => inside both.2, same]
    have blank : f.daemon.tun i = .blank := by rw [← same, tun_eq_blank inside]
    have none : pkts = [] := queues.empty_iff.mp (by rw [blank]; rfl)
    rw [none, ← unchanged] at queues
    exact tracks_emptied queues _ _

/-- A packet that is queued. -/
theorem Sound.queue {f : Follow κ} (sound : Sound f) {d : Daemon κ} (tuns : d.tuns = f.daemon.tuns)
    (aside : Aside f.daemon d) (i : Nat) (data : List UInt8) :
    let d' := d.modify i (·.queueData false data)
    Sound
      { f with
        daemon := d'
        reads := f.reads ++ [data]
        waiting := settle d' (Function.update f.waiting i (f.waiting i ++ [f.reads.length])) } := by
  intro d'
  have same : ∀ j, d.tun j = f.daemon.tun j := fun j => by rw [tun, tun, tuns]
  refine ⟨aside.filters.trans sound.unfiltered, fun j => ?_, fun j => ?_, ?_,
    sound.carried_grow data⟩
  · rw [tun_modify]
    split
    next here =>
      rw [same]
      obtain ⟨pkts, queues, _⟩ := sound.tracked i
      rw [(queueData_queues (sound.roomy i) queues data).1]
      exact sound.roomy i
    next =>
      rw [same]
      exact sound.roomy j
  · by_cases here : j = i
    · subst here
      exact sound.tracked_queue tuns j data
    · obtain ⟨pkts, queues, tracks⟩ := sound.tracked j
      have kept : Tracks (f.reads ++ [data])
          (Function.update f.waiting i (f.waiting i ++ [f.reads.length]) j) pkts := by
        rw [Function.update_of_ne here]
        exact tracks.grow data
      apply kept.left (k := 0)
      rw [tun_modify, if_neg fun both => here both.1, same]
      exact queues
  · rw [List.length_append, List.length_singleton]
    have arrived := (sound.ordered.arrive i).sublist (settle_sublist d' _)
    rw [← aside.dataSeq] at arrived
    exact arrived

theorem tuntapRead_sound {f : Follow κ} (sound : Sound f) {data : List UInt8} {d : Daemon κ}
    (done : f.daemon.tuntapRead data = some d) :
    Sound
      { f with
        daemon := d
        reads := f.reads ++ [data.take maxmtu]
        waiting := settle d (match f.daemon.rtunChoose.1 with
          | none => f.waiting
          | some i => Function.update f.waiting i (f.waiting i ++ [f.reads.length])) } := by
  have unfiltered : f.daemon.filtersChoose (data.take maxmtu) = none := by
    rw [filtersChoose, sound.unfiltered]
    rfl
  have tuns := rtunChoose_tuns f.daemon
  have aside := rtunChoose_aside f.daemon
  unfold tuntapRead at done
  split at done
  next => cases done
  next =>
    cases done
    unfold tuntapGenericRead
    rw [unfiltered]
    dsimp only
    generalize f.daemon.rtunChoose = answer at tuns aside ⊢
    obtain ⟨chosen, d⟩ := answer
    cases chosen with
    | none => exact sound.discard tuns aside _
    | some i => exact sound.queue tuns aside i _

/-- A write takes the oldest of the packets that wait, and the counter does not
    wrap. -/
def InOrder (f : Follow κ) : ℚ × Traffic → Prop
  | (_, .tuntapRead _) => True
  | (_, .write i _ _) =>
      f.daemon.dataSeq.toNat + 2 < 2 ^ 64 ∧
        ∀ n ∈ (f.waiting i).head?, ∀ j < f.daemon.tuns.length, ∀ m ∈ f.waiting j, n ≤ m

instance (f : Follow κ) : ∀ e, Decidable (f.InOrder e)
  | (_, .tuntapRead _) => isTrue trivial
  | (_, .write _ _ _) => inferInstanceAs (Decidable (_ ∧ _))

/-- Nothing waits in a tunnel that does not exist. -/
theorem Sound.lt_of_waiting {f : Follow κ} (sound : Sound f) {j n : Nat} (member : n ∈ f.waiting j) :
    j < f.daemon.tuns.length := by
  by_contra outside
  obtain ⟨pkts, queues, tracks⟩ := sound.tracked j
  have none : pkts = [] := queues.empty_iff.mp (by rw [tun_eq_blank outside]; rfl)
  subst none
  cases numbers : f.waiting j with
  | nil =>
      rw [numbers] at member
      cases member
  | cons _ _ =>
      rw [numbers] at tracks
      cases tracks

/-- What the second half of a write transmits is the first packet of the queue, with
    the counter as it was. -/
theorem transmitted_cases {d : Daemon κ} {i : Nat} {pkt : Pkt} {pkts : List Pkt}
    (queues : (d.tun i).sbuf.Queues (pkt :: pkts)) (data : pkt.type = .data) (now : ℚ)
    (result : SendResult) (n : Nat) (numbers : List Nat) :
    transmitted d i now result (n :: numbers) = [] ∨
      ∃ proto : Proto, proto.dataSeq = d.dataSeq ∧
        transmitted d i now result (n :: numbers) = [⟨n, pkt, proto⟩] := by
  have first : (pktbufferRead ((d.tun i).queue false)).1 = pkt := queues.read.1
  have taken : (d.takePacket i false now).1 = pkt := by
    rw [← first]
    unfold takePacket
    dsimp only
    split <;> rfl
  have counter : (d.takePacket i false now).2.1.dataSeq = d.dataSeq := by
    have stamped : (sendHeader ((d.tun i).setQueue false (pktbufferRead ((d.tun i).queue false)).2)
        d.dataSeq (timestamp64 now) (pktbufferRead ((d.tun i).queue false)).1).1.dataSeq = d.dataSeq := by
      unfold sendHeader
      dsimp only
      rw [first, if_pos data]
    rw [← stamped]
    unfold takePacket
    dsimp only
    split <;> rfl
  unfold transmitted
  split
  next => exact .inl rfl
  next =>
    dsimp only
    split
    next same _ =>
      obtain ⟨rfl, _⟩ := List.cons.inj same
      refine .inr ⟨_, counter, ?_⟩
      rw [taken]
    next => exact .inl rfl

theorem transmitted_empty {d : Daemon κ} {i : Nat} (empty : cbIsEmpty (d.tun i).sbuf) (now : ℚ)
    (result : SendResult) (numbers : List Nat) : transmitted d i now result numbers = [] := by
  unfold transmitted
  exact if_pos empty

/-- The data packet at the head of the queue uses up a number. -/
theorem writeQueue_counts {d d' : Daemon κ} {i : Nat} {now : ℚ} {result : SendResult} {pkt : Pkt}
    {pkts : List Pkt} (queues : (d.tun i).sbuf.Queues (pkt :: pkts)) (data : pkt.type = .data)
    (room : d.dataSeq.toNat + 1 < 2 ^ 64) (done : d.writeQueue i false now result = some d') :
    d.dataSeq.toNat < d'.dataSeq.toNat := by
  rcases writeQueue_cases done with ⟨empty, _⟩ | ⟨_, sent⟩
  · exact absurd (queues.empty_iff.mp empty) (List.cons_ne_nil _ _)
  · have first : (pktbufferRead ((d.tun i).queue false)).1 = pkt := queues.read.1
    rw [(rtunSend_counts sent).dataSeq, first, if_pos data, UInt64.toNat_add, UInt64.toNat_one,
      Nat.mod_eq_of_lt room]
    exact Nat.lt_succ_self _

/-- A queue that is shorter than its numbers has lost the first one. -/
theorem settle_tail {d : Daemon κ} {waiting : Nat → List Nat} {i n : Nat} {numbers : List Nat}
    (waits : waiting i = n :: numbers) (short : (d.tun i).sbuf.count ≤ numbers.length) :
    (settle d waiting i).Sublist numbers := by
  have one : (n :: numbers).length - (d.tun i).sbuf.count =
      numbers.length - (d.tun i).sbuf.count + 1 := by
    rw [List.length_cons]
    omega
  unfold settle
  rw [waits, one, List.drop_succ_cons]
  exact List.drop_sublist _ _

/-- The stamps of a write, and the numbers that are left. -/
theorem write_ordered {f : Follow κ} (sound : Sound f) {i : Nat} {now : ℚ} {first second : SendResult}
    {d₁ d₂ : Daemon κ} {pkts : List Pkt} (inOrder : f.InOrder (now, .write i first second))
    (queues : (d₁.tun i).sbuf.Queues pkts) (tracks : Tracks f.reads (f.waiting i) pkts)
    (low : d₁.writeQueue i false now second = some d₂)
    (counter : f.daemon.dataSeq.toNat ≤ d₁.dataSeq.toNat ∧
      d₁.dataSeq.toNat ≤ f.daemon.dataSeq.toNat + 1) :
    let stamps := transmitted d₁ i now second (f.waiting i)
    Dispatch.Ordered f.reads.length (settle d₂ f.waiting)
        ((stamps ++ f.stamps).map fun stamp => (stamp.arrival, stamp.proto.dataSeq.toNat))
        d₂.dataSeq.toNat ∧
      ∀ stamp ∈ stamps, f.reads[stamp.arrival]? = some (stamp.pkt.bytes stamp.pkt.len) := by
  intro stamps
  obtain ⟨room, oldest⟩ := inOrder
  have writes := writeQueue_writes queues low
  have later := writes.counter (by omega)
  have unstamped := (sound.ordered.sublist (settle_sublist d₂ f.waiting)).advance
    (counter.1.trans later.1)
  cases pkts with
  | nil =>
      have none : stamps = [] := transmitted_empty (queues.empty_iff.mpr rfl) now second _
      rw [none]
      exact ⟨unstamped, fun stamp member => by cases member⟩
  | cons pkt rest =>
      obtain ⟨n, numbers, ⟨data, found⟩, tail, waits⟩ := List.forall₂_cons_right_iff.mp tracks
      have answer := transmitted_cases queues data now second n numbers
      rw [← waits] at answer
      rcases answer with none | ⟨proto, stamped, one⟩
      · rw [show stamps = [] from none]
        exact ⟨unstamped, fun stamp member => by cases member⟩
      · rw [show stamps = [⟨n, pkt, proto⟩] from one]
        refine ⟨?_, fun stamp member => ?_⟩
        · have counted := writeQueue_counts queues data (by omega) low
          have short : (d₂.tun i).sbuf.count ≤ numbers.length := by
            have length : numbers.length = rest.length := tail.length_eq
            rcases writes.left _ queues with kept | lost
            · rw [kept.count_eq, length]
              exact Nat.le_refl _
            · rw [lost.count_eq]
              exact Nat.zero_le _
          have left := settle_tail waits short
          refine sound.ordered.stamp waits (fun j m member => ?_) (settle_sublist d₂ f.waiting) left ?_ ?_
          · exact oldest n (by rw [waits]; rfl) j (sound.lt_of_waiting member) m member
          · rw [stamped]
            exact counter.1
          · rw [stamped]
            exact counted
        · rw [List.mem_singleton.mp member]
          exact found

/-- Both halves of a write.  The control packet may have cost the tunnel, and then nothing
    is left to send. -/
theorem write_halves {f : Follow κ} (sound : Sound f) {i : Nat} {now : ℚ} {first second : SendResult}
    {d₁ d₂ : Daemon κ} {pkts : List Pkt} (inOrder : f.InOrder (now, .write i first second))
    (queues : (f.daemon.tun i).sbuf.Queues pkts) (tracks : Tracks f.reads (f.waiting i) pkts)
    (highWrites : Writes f.daemon d₁ i true) (low : d₁.writeQueue i false now second = some d₂) :
    let stamps := transmitted d₁ i now second (f.waiting i)
    Writes d₁ d₂ i false ∧
      Dispatch.Ordered f.reads.length (settle d₂ f.waiting)
        ((stamps ++ f.stamps).map fun stamp => (stamp.arrival, stamp.proto.dataSeq.toNat))
        d₂.dataSeq.toNat ∧
      (∀ stamp ∈ stamps, f.reads[stamp.arrival]? = some (stamp.pkt.bytes stamp.pkt.len)) ∧
      ∃ k, (d₂.tun i).sbuf.Queues (pkts.drop k) := by
  intro stamps
  have counter := highWrites.counter (by have := inOrder.1; omega)
  have none : pkts.drop pkts.length = [] := List.drop_length
  rcases highWrites.left pkts queues with kept | lost
  · have lowWrites := writeQueue_writes kept low
    obtain ⟨ordered, carried⟩ := write_ordered sound inOrder kept tracks low counter
    refine ⟨lowWrites, ordered, carried, ?_⟩
    rcases lowWrites.left _ kept with rest | emptied
    · exact ⟨1, rest⟩
    · exact ⟨pkts.length, none ▸ emptied⟩
  · have lowWrites := writeQueue_writes lost low
    have later := lowWrites.counter (by have := inOrder.1; omega)
    have silent : stamps = [] := transmitted_empty (lost.empty_iff.mpr rfl) now second _
    rw [silent]
    refine ⟨lowWrites, ?_, fun _ member => absurd member List.not_mem_nil, pkts.length, ?_⟩
    · exact (sound.ordered.sublist (settle_sublist d₂ f.waiting)).advance (counter.1.trans later.1)
    · rw [none]
      rcases lowWrites.left _ lost with rest | emptied
      · exact rest
      · exact emptied

theorem write_sound {f : Follow κ} (sound : Sound f) {i : Nat} {now : ℚ} {first second : SendResult}
    {d₁ d₂ : Daemon κ} (inOrder : f.InOrder (now, .write i first second))
    (high : f.daemon.writeQueue i true now first = some d₁)
    (low : d₁.writeQueue i false now second = some d₂) :
    Sound
      { f with
        daemon := d₂
        waiting := settle d₂ f.waiting
        stamps := transmitted d₁ i now second (f.waiting i) ++ f.stamps } := by
  obtain ⟨pkts, queues, tracks⟩ := sound.tracked i
  have highWrites := writeQueue_writes queues high
  obtain ⟨lowWrites, ordered, carried, k, left⟩ :=
    write_halves sound inOrder queues tracks highWrites low
  have others : ∀ j, j ≠ i → d₂.tun j = f.daemon.tun j := fun j other =>
    (lowWrites.others j other).trans (highWrites.others j other)
  refine ⟨lowWrites.filters.trans (highWrites.filters.trans sound.unfiltered), fun j => ?_, fun j => ?_,
    ordered, fun stamp member => ?_⟩
  · by_cases here : j = i
    · rw [here, lowWrites.size, highWrites.size]
      exact sound.roomy i
    · rw [others j here]
      exact sound.roomy j
  · by_cases here : j = i
    · subst here
      exact tracks.left left
    · obtain ⟨pkts', queues', tracks'⟩ := sound.tracked j
      rw [← others j here] at queues'
      exact tracks'.left (k := 0) queues'
  · rcases List.mem_append.mp member with new | old
    · exact carried stamp new
    · exact sound.carried stamp old

theorem step_sound {f f' : Follow κ} {e : ℚ × Traffic} (sound : Sound f) (inOrder : f.InOrder e)
    (done : f.step e = some f') : Sound f' := by
  obtain ⟨now, traffic⟩ := e
  unfold step at done
  cases traffic with
  | tuntapRead data =>
      dsimp only at done
      split at done
      next =>
        cases done
        exact sound
      next =>
        obtain ⟨d, read, rfl⟩ := Option.map_eq_some_iff.mp done
        exact tuntapRead_sound sound read
  | write i first second =>
      dsimp only at done
      split at done
      next =>
        cases done
        exact sound
      next =>
        split at done
        next =>
          obtain ⟨d₁, high, rest⟩ := Option.bind_eq_some_iff.mp done
          obtain ⟨d₂, low, rfl⟩ := Option.map_eq_some_iff.mp rest
          exact write_sound sound inOrder high low
        next =>
          cases done
          exact sound

/-- As long as every write takes the oldest packet that waits, and the counter does
    not wrap, the packets that are transmitted carry what was read, numbered in the
    order it was read in. -/
theorem data_seq_in_order {d : Daemon κ} (fresh : Fresh d) {events : List (ℚ × Traffic)}
    {f : Follow κ} (inOrder : Meets step InOrder (start d) events)
    (reached : run step (start d) events = some f) :
    (∀ stamp ∈ f.stamps, f.reads[stamp.arrival]? = some (stamp.pkt.bytes stamp.pkt.len)) ∧
      ∀ first ∈ f.stamps, ∀ second ∈ f.stamps, first.arrival < second.arrival →
        first.proto.dataSeq < second.proto.dataSeq := by
  have sound : Sound f :=
    run_invariant (fun _ _ _ sound allowed done => step_sound sound allowed done) events
      (sound_start fresh) inOrder reached
  refine ⟨sound.carried, fun first memberFirst second memberSecond before => ?_⟩
  exact sound.ordered.sorted _ (List.mem_map_of_mem memberFirst) _ (List.mem_map_of_mem memberSecond)
    before

/-- Two packets are read, and the tunnels are found writable in this order.  The
    round robin gives the first packet to tunnel 1. -/
def pairTraffic (firstTunnel secondTunnel : Nat) : List (ℚ × Traffic) :=
  [(3, .tuntapRead [69]), (3, .tuntapRead [70]),
    (4, .write firstTunnel (.sent 46) (.sent 29)), (4, .write secondTunnel (.sent 46) (.sent 29))]

/-- Written in the order they were read in, the packets are numbered in that order. -/
theorem pair_in_order :
    ∃ d ∈ run Daemon.step (init ⟨.little, plainBox, ()⟩)
        (serverRun [serverConf "a" 0, serverConf "b" 0]),
      ∃ f ∈ run step (start d) (pairTraffic 1 0),
        f.stamps.map (·.arrival) = [1, 0] ∧
          ∀ first ∈ f.stamps, ∀ second ∈ f.stamps, first.arrival < second.arrival →
            first.proto.dataSeq < second.proto.dataSeq := by
  obtain ⟨d, reached, fresh, inOrder, f, followed, both⟩ :
      ∃ d ∈ run Daemon.step (init ⟨.little, plainBox, ()⟩)
          (serverRun [serverConf "a" 0, serverConf "b" 0]),
        Fresh d ∧
        Meets step InOrder (start d) (pairTraffic 1 0) ∧
        ∃ f ∈ run step (start d) (pairTraffic 1 0),
          f.stamps.map (·.arrival) = [1, 0] := by
    decide +kernel
  exact ⟨d, reached, f, followed, both, (data_seq_in_order fresh inOrder followed).2⟩

/-- The other tunnel is written first, and the packet that was read last gets the
    lower number. -/
theorem pair_overtaken :
    ∃ d ∈ run Daemon.step (init ⟨.little, plainBox, ()⟩)
        (serverRun [serverConf "a" 0, serverConf "b" 0]),
      Fresh d ∧ (d.tun 0).status = .authok ∧ (d.tun 1).status = .authok ∧
      ∃ f ∈ run step (start d) (pairTraffic 0 1),
        f.stamps.map (fun stamp => (stamp.arrival, stamp.proto.dataSeq)) = [(0, 1), (1, 0)] := by
  decide +kernel

end Follow

end Mlvpn
