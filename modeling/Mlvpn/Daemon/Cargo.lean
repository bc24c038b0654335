import Mlvpn.Daemon.Device

/-! # The data that a tunnel carries

The queues of a tunnel hold control packets and data.  The data comes from the tuntap device,
waits in one queue, and leaves it in the order in which it came.  A datagram that was sent
carries the data of one packet, whoever reads it.
-/

namespace Mlvpn

/-- The datagram that was sent. -/
def Effect.datagram? : Effect → Option (List UInt8)
  | .sent _ _ datagram => some datagram
  | _ => none

/-- The payloads of the data in a ring, oldest first. -/
def Pktbuffer.cargo (buf : Pktbuffer) : List (List UInt8) :=
  (buf.contents.filter fun pkt => pkt.type = .data).map Pkt.payload

/-- What a packet adds to them. -/
def Pkt.cargo (pkt : Pkt) : List (List UInt8) := if pkt.type = .data then [pkt.payload] else []

namespace Pktbuffer

variable {buf : Pktbuffer}

theorem Wf.cargo_write (wf : buf.Wf) (fill : Pkt → Pkt) :
    (pktbufferWrite buf fill).cargo.Sublist
      (buf.cargo ++ (fill { buf.pkts buf.stop with len := 0, type := .data }).cargo) := by
  have last (pkt : Pkt) : ([pkt].filter fun pkt => pkt.type = .data).map Pkt.payload = pkt.cargo := by
    unfold Pkt.cargo
    by_cases isData : pkt.type = .data <;> simp [isData]
  obtain ⟨kept, sublist, written⟩ := wf.contents_write_kept fill
  rw [cargo, written, List.filter_append, List.map_append, last]
  exact ((sublist.filter _).map _).append_right _

theorem Wf.cargo_read (wf : buf.Wf) (filled : ¬ cbIsEmpty buf) :
    buf.cargo = (pktbufferRead buf).1.cargo ++ (pktbufferRead buf).2.cargo := by
  rw [cargo, wf.contents_read filled, List.filter_cons, Pkt.cargo]
  by_cases isData : (pktbufferRead buf).1.type = .data
  · rw [if_pos (decide_eq_true isData), if_pos isData]
    rfl
  · rw [if_neg (by simpa using isData), if_neg isData]
    rfl

theorem Wf.cargo_reset (wf : buf.Wf) : (pktbufferReset buf).cargo = [] := by
  rw [cargo, wf.contents_reset]
  rfl

theorem Wf.cargo_control (wf : buf.Wf) {type : PktType} (text : List UInt8) (control : type ≠ .data) :
    (queueControl buf type text).cargo.Sublist buf.cargo := by
  have written := wf.cargo_write fun slot =>
    { slot with len := text.length, type := type, data := text ++ slot.data.drop text.length }
  rwa [Pkt.cargo, if_neg control, List.append_nil] at written

theorem cargo_init (size : Nat) : (pktbufferInit size).cargo = [] := by
  rw [cargo, contents_init]
  rfl

end Pktbuffer

namespace Tunnel

variable {t t' t'' : Tunnel}

def cargo (t : Tunnel) (highPriority : Bool) : List (List UInt8) := (t.queue highPriority).cargo

/-- No data has been queued. -/
def Lightens (t t' : Tunnel) : Prop := ∀ highPriority, (t'.cargo highPriority).Sublist (t.cargo highPriority)

theorem Lightens.trans (first : Lightens t t') (second : Lightens t' t'') : Lightens t t'' :=
  fun highPriority => (second highPriority).trans (first highPriority)

theorem Lightens.of_queues (hpsbuf : t'.hpsbuf = t.hpsbuf) (sbuf : t'.sbuf = t.sbuf) : Lightens t t' := by
  intro highPriority
  have same : t'.queue highPriority = t.queue highPriority := by
    cases highPriority
    · exact sbuf
    · exact hpsbuf
  rw [cargo, same]
  exact List.Sublist.refl _

theorem Lightens.of_hpsbuf (hpsbuf : t'.hpsbuf.cargo.Sublist t.hpsbuf.cargo) (sbuf : t'.sbuf = t.sbuf) :
    Lightens t t' := by
  intro highPriority
  cases highPriority
  · have same : t'.queue false = t.queue false := sbuf
    rw [cargo, same]
    exact List.Sublist.refl _
  · exact hpsbuf

theorem Queued.queueBare_lightens (queued : t.Queued) {type : PktType} (control : type ≠ .data) :
    Lightens t (t.queueBare type) := by
  unfold Tunnel.queueBare
  split
  next => exact .of_queues rfl rfl
  next => exact .of_hpsbuf ((queued.rings true).cargo_control [] control) rfl

theorem Queued.sendKeepalive_lightens (queued : t.Queued) (now : ℚ) : Lightens t (t.sendKeepalive now) :=
  (queued.queueBare_lightens (by decide)).trans (.of_queues rfl rfl)

theorem Queued.keepaliveReceived_lightens (queued : t.Queued) (now : ℚ) :
    Lightens t (t.keepaliveReceived now) := by
  have answered {noted : Tunnel} (serverMode : noted.serverMode = t.serverMode)
      (hpsbuf : noted.hpsbuf = t.hpsbuf) (sbuf : noted.sbuf = t.sbuf) :
      Lightens t (noted.sendKeepalive now) :=
    (Lightens.of_queues hpsbuf sbuf).trans
      ((queued.of_queues serverMode hpsbuf sbuf).sendKeepalive_lightens now)
  unfold Tunnel.keepaliveReceived
  dsimp only
  split
  next => exact answered rfl rfl rfl
  next => exact .of_queues rfl rfl

theorem Queued.queueAuthOk_lightens (queued : t.Queued) : Lightens t t.queueAuthOk := by
  have emptied : (if cbIsFull t.hpsbuf then pktbufferReset t.hpsbuf else t.hpsbuf).Wf ∧
      (if cbIsFull t.hpsbuf then pktbufferReset t.hpsbuf else t.hpsbuf).cargo.Sublist t.hpsbuf.cargo := by
    have wf : t.hpsbuf.Wf := queued.rings true
    split
    next => exact ⟨wf.reset, wf.cargo_reset ▸ List.nil_sublist _⟩
    next => exact ⟨wf, List.Sublist.refl _⟩
  exact .of_hpsbuf ((emptied.1.cargo_control [79, 75] (by decide)).trans emptied.2) rfl

theorem Queued.tickConnect_lightens (queued : t.Queued) (now : ℚ) (result : StartResult) :
    Lightens t (t.tickConnect now result) := by
  rcases t.tickConnect_started now result with started | ⟨opened, started, challenged⟩
  · rw [started]
    exact .of_queues rfl rfl
  · have kept : Lightens t opened := by
      rw [started]
      exact .of_queues rfl rfl
    have wf : opened.hpsbuf.Wf := by
      rw [started]
      exact queued.rings true
    rw [challenged]
    exact kept.trans (.of_hpsbuf (wf.cargo_control [65, 85] (by decide)) rfl)

theorem Queued.lowered_lightens (queued : t.Queued) : Lightens t t.lowered := by
  intro highPriority
  have emptied : t.lowered.cargo highPriority = [] := by
    cases highPriority
    · exact (queued.rings false).cargo_reset
    · exact (queued.rings true).cargo_reset
  rw [emptied]
  exact List.nil_sublist _

/-- Data joins the end of one queue. -/
theorem Queued.cargo_queueData (queued : t.Queued) (highPriority other : Bool) (data : List UInt8) :
    ((t.queueData highPriority data).cargo other).Sublist
      (t.cargo other ++ if other = highPriority then [data] else []) := by
  have queue : (t.queueData highPriority data).queue other = if other = highPriority then
      pktbufferWrite (t.queue highPriority) fun slot =>
        { slot with len := data.length, data := data ++ slot.data.drop data.length }
      else t.queue other := by
    unfold Tunnel.queueData
    dsimp only
    cases highPriority <;> cases other <;> split <;> rfl
  rw [cargo, queue]
  split
  next same =>
    subst same
    have written := (queued.rings other).cargo_write fun slot =>
      { slot with len := data.length, data := data ++ slot.data.drop data.length }
    have payload (slot : Pkt) : Pkt.payload { slot with
        len := data.length, data := data ++ slot.data.drop data.length } = data :=
      Pkt.bytes_append rfl rfl
    rw [Pkt.cargo, if_pos rfl, payload] at written
    exact written
  next =>
    rw [List.append_nil]
    exact List.Sublist.refl _

/-- A packet is taken from the front of its queue. -/
theorem Queued.cargo_taken (queued : t.Queued) {highPriority : Bool}
    (filled : ¬ cbIsEmpty (t.queue highPriority)) (other : Bool) (dataSeq now64 : UInt64) :
    t.cargo other = (if other = highPriority then (pktbufferRead (t.queue highPriority)).1.cargo else []) ++
      (t.taken highPriority dataSeq now64).cargo other := by
  rw [cargo, cargo, taken_queue]
  split
  next same =>
    subst same
    exact (queued.rings other).cargo_read filled
  next => rfl

end Tunnel

section Datagrams

variable {κ : Type} {host : Host κ} {cleartextData : Bool} {pkt : Pkt} {datagram : List UInt8}

/-- A datagram is shorter than the buffer of the peer. -/
theorem sendDatagram_length {proto : Proto} (queueable : pkt.Queueable)
    (built : sendDatagram host cleartextData proto pkt = some datagram) :
    datagram.length ≤ pkthdrsiz + maxmtu + padsize := by
  obtain ⟨⟨data, pad⟩, filled, rfl⟩ := Option.map_eq_some_iff.mp built
  have small := queueable.len_le
  have padded : pad ≤ padsize := by
    unfold sendPayload at filled
    split at filled
    next =>
      cases filled
      exact Nat.zero_le _
    next =>
      split at filled
      next => cases filled
      next =>
        obtain ⟨sealed, _, same⟩ := Option.map_eq_some_iff.mp filled
        cases same
        exact le_refl _
  have taken := List.length_take_le (pkthdrsiz + pkt.len + pad)
    (Proto.encode host.endian { proto with len := proto.len + UInt16.ofNat pad, data := data })
  have fits : pkthdrsiz + pkt.len + pad ≤ pkthdrsiz + maxmtu + padsize := by
    have bound : pkt.len ≤ maxmtu := small
    omega
  exact taken.trans fits

/-- Whoever reads it, a datagram is the packet that was sent. -/
theorem sendDatagram_reads (correct : host.box.Correct) {sender : Tunnel} {dataSeq sentAt : UInt64}
    (queueable : pkt.Queueable)
    (built : sendDatagram host cleartextData (sendHeader sender dataSeq sentAt pkt).1 pkt = some datagram)
    (now64 : UInt64) (t : Tunnel) :
    ∃ decrypted message t', protocolRead host cleartextData now64 t (datagram.take defaultMtu) =
      (some (decrypted, message), t') ∧ message.type = pkt.type ∧ message.cargo = pkt.cargo := by
  have short : datagram.length ≤ defaultMtu :=
    (sendDatagram_length queueable built).trans (by decide)
  obtain ⟨datagram', decrypted, message, t', sent, read, type, len, bytes, _⟩ :=
    sent_datagram_read correct cleartextData sender t dataSeq sentAt now64 queueable
  cases built.symm.trans sent
  refine ⟨decrypted, message, t', by rw [List.take_of_length_le short]; exact read, type, ?_⟩
  rw [Pkt.cargo, Pkt.cargo, type, Pkt.payload, len, bytes, Pkt.payload]

end Datagrams

namespace Daemon

open Library.Machine Tunnel

variable {κ : Type} {d d' : Daemon κ} {i : Nat} {now : ℚ} {e : Event κ}

/-- What an event fetches from the device. -/
def Event.fetched : Event κ → List (List UInt8)
  | .tuntapRead data => if data = [] then [] else [data.take maxmtu]
  | _ => []

/-- A tunnel gets data from the device, or none. -/
theorem Tends.cargo {t t' : Tunnel} (tends : Tends now e i t t') (queued : t.Queued) (highPriority : Bool) :
    (t'.cargo highPriority).Sublist (t.cargo highPriority ++ e.fetched) := by
  have lightened (lightens : Lightens t t') :
      (t'.cargo highPriority).Sublist (t.cargo highPriority ++ e.fetched) :=
    (lightens highPriority).trans (List.sublist_append_left _ _)
  cases tends with
  | tick | watchAnswer | stopWatching | refit _ _ => exact lightened (.of_queues rfl rfl)
  | keepaliveReceived _ => exact lightened (queued.keepaliveReceived_lightens now)
  | answer _ => exact lightened (queued.queueAuthOk_lightens.trans (.of_queues rfl rfl))
  | sendKeepalive _ _ => exact lightened (queued.sendKeepalive_lightens now)
  | tickConnect _ => exact lightened (queued.tickConnect_lightens now _)
  | watchIfQueued =>
      refine lightened ?_
      unfold Tunnel.watchIfQueued
      split <;> exact .of_queues rfl rfl
  | queueData other nonempty =>
      rw [Event.fetched, if_neg nonempty]
      refine (queued.cargo_queueData other highPriority _).trans (List.Sublist.append_left ?_ _)
      split
      next => exact List.Sublist.refl _
      next => exact List.nil_sublist _
  | queueDisconnect => exact lightened (queued.queueBare_lightens (by decide))
  | stopIfEmpty other =>
      refine lightened ?_
      unfold Tunnel.stopIfEmpty
      split <;> exact .of_queues rfl rfl
  | weigh total _ =>
      refine lightened ?_
      unfold Tunnel.weigh
      split <;> exact .of_queues rfl rfl

/-- The datagram that a tunnel makes of the oldest packet of a queue. -/
def Makes (d : Daemon κ) (now : ℚ) (i : Nat) (type : PktType) (datagram : List UInt8) : Prop :=
  ∃ highPriority, ¬ cbIsEmpty ((d.tun i).queue highPriority) ∧
    type = (d.takePacket i highPriority now).1.type ∧
    sendDatagram d.host d.cleartextData (d.takePacket i highPriority now).2.1
      (d.takePacket i highPriority now).1 = some datagram

/-- What is new in the trace, as far as it was sent, meets `P`. -/
def Adds (P : Nat → PktType → List UInt8 → Prop) (d d' : Daemon κ) : Prop :=
  ∃ effects, d'.trace = effects ++ d.trace ∧
    ∀ i type datagram, .sent i type datagram ∈ effects → P i type datagram

namespace Adds

variable {P Q : Nat → PktType → List UInt8 → Prop} {d'' : Daemon κ}

theorem quiet (trace : d'.trace = d.trace) : Adds P d d' :=
  ⟨[], trace, fun _ _ _ member => by cases member⟩

theorem of_trace {s : Daemon κ} (adds : Adds P s d') (trace : s.trace = d.trace) : Adds P d d' := by
  rwa [Adds, ← trace]

theorem log (adds : Adds P d d') {effect : Effect}
    (known : ∀ i type datagram, effect = .sent i type datagram → P i type datagram) :
    Adds P d (d'.log effect) := by
  obtain ⟨effects, logged, met⟩ := adds
  refine ⟨effect :: effects, congrArg (effect :: ·) logged, fun i type datagram member => ?_⟩
  rcases List.mem_cons.mp member with same | earlier
  · exact known i type datagram same.symm
  · exact met i type datagram earlier

theorem mono (adds : Adds P d d') (weaker : ∀ i type datagram, P i type datagram → Q i type datagram) :
    Adds Q d d' := by
  obtain ⟨effects, logged, met⟩ := adds
  exact ⟨effects, logged, fun i type datagram member => weaker i type datagram (met i type datagram member)⟩

theorem trans (first : Adds P d d') (second : Adds P d' d'') : Adds P d d'' := by
  obtain ⟨earlier, logged, met⟩ := first
  obtain ⟨later, logged', met'⟩ := second
  refine ⟨later ++ earlier, by rw [logged', logged, List.append_assoc], fun i type datagram member => ?_⟩
  rcases List.mem_append.mp member with new | old
  · exact met' i type datagram new
  · exact met i type datagram old

theorem passes {new : List Reception} (passes : Passes d d' new) : Adds P d d' := by
  obtain ⟨effects, logged, passing⟩ := passes.trace
  exact ⟨effects, logged, fun _ _ _ member => by cases passing _ member⟩

theorem takes {highPriority : Bool} (takes : Takes d d' i highPriority now) : Adds P d d' := by
  have first : Adds P d (d.log (.sending i)) := (Adds.quiet rfl).log nofun
  rcases takes.trace with logged | ⟨nonce, logged⟩
  · exact first.trans (.quiet logged)
  · have second : Adds P d ((d.log (.sending i)).log (.encrypted nonce)) := first.log nofun
    exact second.trans (.quiet logged)

theorem down (done : d.statusDown i = some d') : Adds P d d' := by
  obtain ⟨d₁, rfl, passed⟩ := (statusDown_lowers done).passes
  exact Adds.log ((Adds.passes passed).of_trace rfl) nofun

end Adds

/-- Nothing is sent but what a queue held. -/
theorem Stroke.adds (stroke : Stroke now e d d') : Adds (d.Makes now) d d' := by
  cases stroke with
  | settle steady => exact .quiet steady.trace
  | configure _ _ | tend _ | drop _ _ => exact .quiet rfl
  | lose highPriority _ _ => exact .takes (takePacket_takes d _ highPriority now)
  | send highPriority len _ filled built =>
      refine Adds.log ((Adds.takes (takePacket_takes d _ highPriority now)).trans (.quiet rfl)) ?_
      rintro _ _ _ ⟨⟩
      exact ⟨highPriority, filled, rfl, built⟩
  | accept _ _ _ _ | create _ _ _ _ _ => exact (Adds.quiet rfl).log nofun
  | deliver _ _ _ _ | receive _ _ => exact .passes (withRx_passes d _)
  | down _ done => exact .down done
  | up _ done => exact (Adds.passes (statusUp_passes done).1).of_trace rfl
  | regrade _ done => exact (Adds.passes (regrade_passes done).1).of_trace rfl

theorem Stroke.sent_cases (stroke : Stroke now e d d') {type : PktType} {datagram : List UInt8}
    (member : .sent i type datagram ∈ d'.trace) :
    .sent i type datagram ∈ d.trace ∨ d.Makes now i type datagram := by
  obtain ⟨effects, logged, made⟩ := stroke.adds
  rw [logged] at member
  exact (List.mem_append.mp member).symm.imp_right (made i type datagram)

theorem Tidy.queueable (tidy : d.Tidy) (i : Nat) (highPriority : Bool) :
    (d.takePacket i highPriority now).1.Queueable := by
  have stocked := (tidy.queued i).stocked
  rw [takePacket_pkt]
  cases highPriority
  · exact (stocked.2 _).1
  · exact (stocked.1 _).1

/-- The key is changed by a reload only, and the byte order and the cipher never are. -/
theorem Stroke.key_cases (stroke : Stroke now e d d') :
    SameKey d d' ∨ e.Reloads ∧ d'.host.endian = d.host.endian ∧ d'.host.box = d.host.box := by
  cases stroke with
  | settle steady => exact .inl ⟨steady.host, steady.cleartextData⟩
  | configure _ reloads => exact .inr ⟨reloads, rfl, rfl⟩
  | tend _ | accept _ _ _ _ | deliver _ _ _ _ | receive _ _ | drop _ _ | create _ _ _ _ _ => exact .inl ⟨rfl, rfl⟩
  | @lose i highPriority _ _ | @send i highPriority _ _ _ _ _ =>
      have takes := takePacket_takes d i highPriority now
      exact .inl ⟨takes.host, takes.cleartextData⟩
  | down _ done => exact .inl (statusDown_sameKey done)
  | up _ done => exact .inl (statusUp_sameKey done)
  | regrade _ done => exact .inl (regrade_passes done).2.2

/-- Without a reload the key stays. -/
theorem Stroke.sameKey (stroke : Stroke now e d d') (fixed : ¬ e.Reloads) : SameKey d d' :=
  stroke.key_cases.resolve_right fun rekeyed => fixed rekeyed.1

theorem Strokes.sameKey (strokes : Strokes now e d d') (fixed : ¬ e.Reloads) : SameKey d d' := by
  induction strokes with
  | refl => exact ⟨rfl, rfl⟩
  | tail _ last ih => exact ih.trans (last.sameKey fixed)

/-- A datagram fits into the buffer of a peer, which reads it, with the key and the
    `cleartext_data` of the daemon, as what it is. -/
structure Readable (d : Daemon κ) (type : PktType) (datagram : List UInt8) : Prop where
  length : datagram.length ≤ pkthdrsiz + maxmtu + padsize
  read : ∀ now64 t, ∃ decrypted message t',
    protocolRead d.host d.cleartextData now64 t (datagram.take defaultMtu) =
      (some (decrypted, message), t') ∧ message.type = type

theorem SameKey.readable {type : PktType} {datagram : List UInt8} (same : SameKey d d')
    (readable : d.Readable type datagram) : d'.Readable type datagram := by
  refine ⟨readable.length, ?_⟩
  rw [same.host, same.cleartextData]
  exact readable.read

theorem Makes.readable {type : PktType} {datagram : List UInt8} (makes : d.Makes now i type datagram)
    (correct : d.host.box.Correct) (tidy : d.Tidy) : d.Readable type datagram := by
  obtain ⟨highPriority, _, rfl, built⟩ := makes
  have queueable : (d.takePacket i highPriority now).1.Queueable := tidy.queueable i highPriority
  refine ⟨sendDatagram_length queueable built, fun now64 t => ?_⟩
  rw [takePacket_proto, ← takePacket_pkt d i highPriority now] at built
  obtain ⟨decrypted, message, t', read, type, _⟩ := sendDatagram_reads correct queueable built now64 t
  exact ⟨decrypted, message, t', read, type⟩

/-- Everything new that was sent can be read with the key that the daemon has now. -/
abbrev Tells (d d' : Daemon κ) : Prop := Adds (fun _ => d'.Readable) d d'

theorem Tells.trans {d'' : Daemon κ} (first : Tells d d') (same : SameKey d' d'') (second : Tells d' d'') :
    Tells d d'' :=
  (first.mono fun _ _ _ readable => same.readable readable).trans second

theorem Strokes.tells (strokes : Strokes now e d d') (fixed : ¬ e.Reloads) (correct : d.host.box.Correct)
    (tidy : d.Tidy) : Tells d d' := by
  induction strokes with
  | refl => exact .quiet rfl
  | tail before last ih =>
      have same := last.sameKey fixed
      rw [← (Strokes.sameKey before fixed).host] at correct
      refine ih.trans same (last.adds.mono fun _ _ _ makes => ?_)
      exact same.readable (makes.readable correct (Strokes.tidy before tidy).1)

/-- The sections of a configuration send nothing, and keep the cipher. -/
theorem configSection_adds {s s' : Bool × Daemon κ} {part : Section κ} {P : Nat → PktType → List UInt8 → Prop}
    (done : configSection now s part = some s') :
    Adds P s.2 s'.2 ∧ s'.2.host.box = s.2.host.box := by
  rcases configSection_cases done with ⟨general, configured⟩ | ⟨conf, flowId, configured⟩
  · unfold configGeneral at configured
    obtain ⟨rx, _, same⟩ := Option.map_eq_some_iff.mp configured
    rw [← same]
    exact ⟨(Adds.passes (withRx_passes _ rx)).of_trace rfl, rfl⟩
  · obtain ⟨d₁, flagged, tunnel⟩ := configTunnel_cases configured
    have noted : Adds P s.2 d₁ ∧ d₁.host = s.2.host := by
      rcases flagged with rfl | rfl <;> exact ⟨.quiet rfl, rfl⟩
    rcases tunnel with ⟨_, same⟩ | ⟨j, d₂, _, down, same⟩
    · rw [same, ← noted.2]
      refine ⟨noted.1.trans ?_, ?_⟩
      all_goals
        unfold rtunNew
        split
      · exact .quiet rfl
      · exact (Adds.quiet rfl).log nofun
      · rfl
      · rfl
    · have lowered : Adds P d₁ d₂ ∧ d₂.host = d₁.host := by
        rcases down with ⟨_, down⟩ | ⟨_, rfl⟩
        · exact ⟨.down down, (statusDown_sameKey down).host⟩
        · exact ⟨.quiet rfl, rfl⟩
      rw [same]
      refine ⟨(noted.1.trans lowered.1).trans (.quiet rfl), ?_⟩
      rw [← noted.2, ← lowered.2]
      rfl

/-- A tunnel is dropped under the new key. -/
theorem rtunDrop_tells {result : SendResult} (inside : i < d.tuns.length) (correct : d.host.box.Correct)
    (tidy : d.Tidy) (done : d.rtunDrop i now result = some d') : SameKey d d' ∧ Tells d d' := by
  obtain ⟨d₁, sent, rest⟩ := Option.bind_eq_some_iff.mp done
  obtain ⟨d₂, down, rfl⟩ := Option.map_eq_some_iff.mp rest
  -- the disconnect is sent as at the end of the program
  have told : Strokes now (.quit fun _ => result) d d₁ := sendDisconnect_strokes tidy inside sent
  have lowered := statusDown_sameKey down
  refine ⟨((Strokes.sameKey told not_false).trans lowered).trans ⟨rfl, rfl⟩, ?_⟩
  exact ((Strokes.tells told not_false correct tidy).trans lowered (.down down)).trans ⟨rfl, rfl⟩ (.quiet rfl)

theorem configReload_tells {conf : Option (Config κ)} {send : Nat → SendResult} (tidy : d.Tidy)
    (correct : d.host.box.Correct) (done : d.configReload conf now send = some d') : Tells d d' := by
  cases conf with
  | none =>
      cases done
      exact .quiet rfl
  | some conf =>
      have reloads : (Event.reload (some conf) send).Reloads := trivial
      obtain ⟨⟨serverMode, d₁⟩, parsed, rest⟩ := Option.bind_eq_some_iff.mp done
      obtain ⟨d₂, dropped, rfl⟩ := Option.map_eq_some_iff.mp rest
      have sections : (d₁.Tidy ∧ d₁.host.box = d.host.box) ∧ ∀ P, Adds P d d₁ :=
        run_preserves (I := fun s : Bool × Daemon κ =>
            (s.2.Tidy ∧ s.2.host.box = d.host.box) ∧ ∀ P, Adds P d s.2) conf.sections
          (fun s _ _ _ held taken =>
            ⟨⟨(Strokes.tidy (configSection_strokes held.1.1.inside reloads taken) held.1.1).1,
              (configSection_adds (P := fun _ _ _ => True) taken).2.trans held.1.2⟩,
              fun P => (held.2 P).trans (configSection_adds taken).1⟩)
          ⟨⟨⟨tidy.inside, tidy.queued⟩, rfl⟩, fun _ => .quiet rfl⟩ parsed
      have left : (d₂.Tidy ∧ d₁.tuns.length ≤ d₂.tuns.length) ∧ SameKey d₁ d₂ ∧ Tells d₁ d₂ := by
        refine run_preserves (I := fun s => (s.Tidy ∧ d₁.tuns.length ≤ s.tuns.length) ∧ SameKey d₁ s ∧ Tells d₁ s)
          d₁.rtuns ?_ ⟨⟨sections.1.1, le_refl _⟩, ⟨rfl, rfl⟩, .quiet rfl⟩ dropped
        rintro s j member s' ⟨⟨kept, longer⟩, same, tells⟩ taken
        unfold dropIfMissing at taken
        split at taken
        next =>
          cases taken
          exact ⟨⟨kept, longer⟩, same, tells⟩
        next =>
          have inside : j < s.tuns.length := Nat.lt_of_lt_of_le (sections.1.1.inside j member) longer
          have opens : s.host.box.Correct := by
            rw [same.host, sections.1.2]
            exact correct
          obtain ⟨kept', more⟩ := Strokes.tidy (rtunDrop_strokes kept inside reloads taken) kept
          obtain ⟨same', tells'⟩ := rtunDrop_tells inside opens kept taken
          exact ⟨⟨kept', longer.trans more⟩, same.trans same', tells.trans same' tells'⟩
      obtain ⟨_, _, tells⟩ := left
      refine (sections.2 _).trans ?_
      refine recalcWeight_keeps (I := fun s => Tells d₁ s) (tells.trans ⟨rfl, rfl⟩ (.quiet rfl)) ?_
      exact fun s j total told => told.trans ⟨rfl, rfl⟩ (.quiet rfl)

/-- Whatever a daemon sends in an event, a reload included, is shorter than the buffer that it is
    read into, and a peer with the key and the `cleartext_data` that the daemon then has reads it
    as a packet of its type. -/
theorem sent_is_readable {host : Host κ} (correct : host.box.Correct) {events : List (ℚ × Event κ)}
    (reached : run step (init host) events = some d) {event : ℚ × Event κ}
    (done : d.step event = some d') {effects : List Effect} (logged : d'.trace = effects ++ d.trace)
    {type : PktType} {datagram : List UInt8} (sent : .sent i type datagram ∈ effects) :
    d'.Readable type datagram := by
  have held := run_stroked (I := fun s => s.host.box = host.box)
    (fun _ _ _ _ stroke _ same => by
      rcases stroke.key_cases with kept | ⟨_, _, kept⟩
      · rw [kept.host, same]
      · exact kept.trans same)
    (tidy_init host) rfl reached
  have opens : d.host.box.Correct := by
    rw [held.2]
    exact correct
  have tells : Tells d d' := by
    obtain ⟨now, e⟩ := event
    by_cases reloads : e.Reloads
    · cases step_cases done with
      | pass => exact .quiet rfl
      | reload done => exact configReload_tells held.1 opens done
      | _ => exact reloads.elim
    · exact Strokes.tells (step_strokes held.1 done) reloads opens held.1
  obtain ⟨new, same, readable⟩ := tells
  rw [logged] at same
  exact readable i type datagram (List.append_cancel_right same ▸ sent)

/-- The answer of a server to a challenge. -/
theorem answer_is_readable :
    ∃ d ∈ run step (init ⟨.little, plainBox, ()⟩) (serverRun [serverConf "a" 0]),
      ∃ d' ∈ d.step (3, .write 0 (.sent 30) .blocked), ∃ effects, d'.trace = effects ++ d.trace ∧
        ∃ datagram, .sent 0 .authOk datagram ∈ effects ∧ d'.Readable .authOk datagram := by
  obtain ⟨d, reached, d', done, effects, _, logged, datagram, _, sent⟩ :
      ∃ d ∈ run step (init ⟨.little, plainBox, ()⟩) (serverRun [serverConf "a" 0]),
        ∃ d' ∈ d.step (3, .write 0 (.sent 30) .blocked),
          ∃ effects ∈ d'.trace.inits, d'.trace = effects ++ d.trace ∧
            ∃ datagram ∈ effects.filterMap Effect.datagram?, .sent 0 .authOk datagram ∈ effects := by
    decide +kernel
  exact ⟨d, reached, d', done, effects, logged, datagram, sent,
    sent_is_readable plainBox_correct reached done logged sent⟩

end Daemon

end Mlvpn
