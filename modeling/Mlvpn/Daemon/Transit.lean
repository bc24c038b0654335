import Mlvpn.Config.SectionOrder
import Mlvpn.Daemon.Cargo
import Mlvpn.Daemon.Handshake

/-! # From one device to the other

Two daemons with one key, and a network that keeps what either of them has sent: it hands any of
it to either, at any time, in any order and as often as it likes, but forges nothing.  Whatever
one of them hands to `write` for its tuntap device was read by one of them from its own.  A
network that hands nobody his own datagrams leaves only the other one.  The two encrypt their
data or not, but both do the same, and neither reloads its configuration.
-/

namespace Mlvpn

open Library.Machine Tunnel

variable {κ : Type}

namespace Receive

variable {s s' : Receive} {T : Set (List UInt8)}

/-- What is held, and what was injected, is in `T`. -/
structure Within (T : Set (List UInt8)) (s : Receive) : Prop where
  idle : Idle s
  held : ∀ r ∈ (ledger s).held, r.pkt.payload ∈ T
  handed : ∀ payload ∈ s.handed, payload ∈ T

theorem Within.draws {fresh : List Reception} (within : s.Within T) (draws : Draws s s' fresh)
    (idle : Idle s') (known : ∀ r ∈ fresh, r.pkt.payload ∈ T) : s'.Within T := by
  have origin (r : Reception) (found : r ∈ (ledger s).held ∨ r ∈ fresh) : r.pkt.payload ∈ T :=
    found.elim (within.held r) (known r)
  refine ⟨idle, fun r member => origin r (draws.held r member), fun payload member => ?_⟩
  obtain ⟨out, injected, drawn⟩ := draws.injected
  rw [Receive.handed, injected, List.map_append] at member
  rcases List.mem_append.mp member with old | new
  · exact within.handed payload old
  · obtain ⟨r, there, rfl⟩ := List.mem_map.mp new
    exact origin r (drawn r there)

theorem Within.statusDrain (within : s.Within T) (done : s.statusDrain = some s') : s'.Within T := by
  obtain ⟨draws, empty⟩ := statusDrain_draws within.idle done
  exact within.draws draws (fun _ => empty) fun r member => by cases member

end Receive

/-- Whoever reads a datagram finds data of `S`, or none. -/
def Conveys (host : Host κ) (cleartextData : Bool) (S : Set (List UInt8)) (datagram : List UInt8) : Prop :=
  ∀ now64 t decrypted message t',
    protocolRead host cleartextData now64 t (datagram.take defaultMtu) = (some (decrypted, message), t') →
      ∀ payload ∈ message.cargo, payload ∈ S

namespace Daemon

variable {d d' : Daemon κ} {i : Nat} {now : ℚ} {e : Event κ} {host : Host κ} {cleartextData : Bool}
  {S T : Set (List UInt8)}

/-- The data that a daemon has from its device is in `S`, and what it has from the network
    is in `T`. -/
structure Bears (host : Host κ) (cleartextData : Bool) (S T : Set (List UInt8)) (d : Daemon κ) :
    Prop where
  sameHost : d.host = host
  sameClear : d.cleartextData = cleartextData
  loaded : ∀ j highPriority, ∀ payload ∈ (d.tun j).cargo highPriority, payload ∈ S
  sent : ∀ i type datagram, .sent i type datagram ∈ d.trace → Conveys host cleartextData S datagram
  rx : d.rx.Within T

/-- An event brings data of `S` from the device, and data of `T` from the network. -/
structure Brings (host : Host κ) (cleartextData : Bool) (S T : Set (List UInt8)) (e : Event κ) :
    Prop where
  fixed : ¬ e.Reloads
  fetched : ∀ payload ∈ e.fetched, payload ∈ S
  read : ∀ i bytes sender named, e = .read i (.datagram bytes sender named) →
    Conveys host cleartextData T bytes

theorem Kept.cargo (brings : Brings host cleartextData S T e) (j : Nat) : Kept now e j fun t =>
    t.Queued ∧ ∀ highPriority, ∀ payload ∈ t.cargo highPriority, payload ∈ S where
  tend := fun t t' tends kept => by
    refine ⟨tends.queued kept.1, fun highPriority payload member => ?_⟩
    rcases List.mem_append.mp ((tends.cargo kept.1 highPriority).subset member) with old | new
    · exact kept.2 highPriority payload old
    · exact brings.fetched payload new
  take := fun t highPriority dataSeq filled kept => by
    refine ⟨kept.1.taken highPriority dataSeq _, fun other payload member => kept.2 other payload ?_⟩
    rw [kept.1.cargo_taken filled other dataSeq (timestamp64 now)]
    exact List.mem_append_right _ member
  countSent := fun t len kept => ⟨kept.1.of_queues rfl rfl rfl, kept.2⟩
  accept := fun d t bytes sender named decrypted pkt t₁ t' reads read adopted kept => by
    refine ⟨(kept_queued now e j).accept d t bytes sender named decrypted pkt t₁ t' reads read adopted kept.1, ?_⟩
    obtain ⟨addr, rfl⟩ := adoptAddr_eq adopted
    have same : Lightens t t₁ := by
      rw [remeasured_of_read read]
      exact .of_queues rfl rfl
    exact fun highPriority payload member => kept.2 highPriority payload ((same highPriority).subset member)
  lower := fun t kept => by
    refine ⟨kept.1.lowered, fun highPriority payload member => ?_⟩
    exact kept.2 highPriority payload ((kept.1.lowered_lightens highPriority).subset member)
  raise := fun t _ _ kept => ⟨kept.1.of_queues rfl rfl rfl, kept.2⟩
  regrade := fun t status _ kept => ⟨kept.1.of_queues rfl rfl rfl, kept.2⟩
  stop := fun t _ kept => ⟨kept.1.of_queues rfl rfl rfl, kept.2⟩

/-- Only a packet that is read brings something to the receive path. -/
theorem Stroke.within (stroke : Stroke now e d d')
    (reads : ∀ i pkt, Reads d now e i pkt → pkt.type = .data → pkt.payload ∈ T)
    (within : d.rx.Within T) : d'.rx.Within T := by
  refine stroke.rx (R := fun _ rx => rx.Within T) within ?_ ?_ fun _ => within.statusDrain
  · intro i pkt rx read isData stepped
    obtain ⟨draws, idle⟩ := Receive.step_draws within.idle stepped
    refine within.draws draws idle fun r member => ?_
    rw [List.mem_singleton.mp member]
    exact reads i pkt read isData
  · intro event rx asks stepped
    obtain ⟨draws, idle⟩ := Receive.step_draws within.idle stepped
    have nothing : event.brings d.rx = [] := by cases asks <;> rfl
    rw [nothing] at draws
    exact within.draws draws idle fun r member => by cases member

theorem Bears.reads {pkt : Pkt} (bears : Bears host cleartextData S T d)
    (brings : Brings host cleartextData S T e) (reads : Reads d now e i pkt) (isData : pkt.type = .data) :
    pkt.payload ∈ T := by
  obtain ⟨bytes, sender, named, t, decrypted, t', rfl, read⟩ := reads
  rw [bears.sameHost, bears.sameClear] at read
  refine brings.read i bytes sender named rfl _ t decrypted pkt t' read _ ?_
  rw [Pkt.cargo, if_pos isData]
  exact List.mem_singleton_self _

/-- What is sent conveys what was loaded. -/
theorem Makes.conveys {type : PktType} {datagram : List UInt8} (makes : d.Makes now i type datagram)
    (correct : host.box.Correct) (tidy : d.Tidy) (bears : Bears host cleartextData S T d) :
    Conveys host cleartextData S datagram := by
  obtain ⟨highPriority, filled, _, built⟩ := makes
  have queueable : (d.takePacket i highPriority now).1.Queueable := tidy.queueable i highPriority
  have pkt := takePacket_pkt d i highPriority now
  rw [takePacket_proto, ← pkt, bears.sameHost, bears.sameClear] at built
  intro now64 t decrypted message t' read payload member
  obtain ⟨_, _, _, again, _, same⟩ := sendDatagram_reads correct queueable built now64 t
  cases read.symm.trans again
  rw [same, pkt] at member
  refine bears.loaded i highPriority payload ?_
  rw [Tunnel.cargo, ((tidy.queued i).rings highPriority).cargo_read filled]
  exact List.mem_append_left _ member

theorem Stroke.bears (stroke : Stroke now e d d') (correct : host.box.Correct)
    (brings : Brings host cleartextData S T e) (tidy : d.Tidy)
    (bears : Bears host cleartextData S T d) : Bears host cleartextData S T d' where
  sameHost := (stroke.sameKey brings.fixed).host.trans bears.sameHost
  sameClear := (stroke.sameKey brings.fixed).cleartextData.trans bears.sameClear
  loaded := fun j => by
    refine ((Kept.cargo brings j).stroke (.inr fun conf serverMode flowId => ?_) stroke
      ⟨tidy.queued j, bears.loaded j⟩).2
    refine ⟨queued_init conf serverMode flowId now, fun highPriority payload member => ?_⟩
    have empty : (Tunnel.init conf serverMode flowId now).cargo highPriority = [] := by
      cases highPriority <;> exact Pktbuffer.cargo_init _
    rw [empty] at member
    cases member
  sent := fun j type datagram member => by
    rcases stroke.sent_cases member with old | makes
    · exact bears.sent j type datagram old
    · exact makes.conveys correct tidy bears
  rx := stroke.within (fun _ _ read isData => bears.reads brings read isData) bears.rx

theorem Bears.mono {S' T' : Set (List UInt8)} (bears : Bears host cleartextData S T d) (more : S ⊆ S')
    (further : T ⊆ T') : Bears host cleartextData S' T' d where
  sameHost := bears.sameHost
  sameClear := bears.sameClear
  loaded := fun j highPriority payload member => more (bears.loaded j highPriority payload member)
  sent := fun j type datagram member now64 t decrypted message t' read payload found =>
    more (bears.sent j type datagram member now64 t decrypted message t' read payload found)
  rx := ⟨bears.rx.idle, fun r member => further (bears.rx.held r member),
    fun payload member => further (bears.rx.handed payload member)⟩

theorem step_bears {event : ℚ × Event κ} (correct : host.box.Correct)
    (brings : d.stopped = false → Brings host cleartextData S T event.2) (tidy : d.Tidy)
    (bears : Bears host cleartextData S T d) (done : d.step event = some d') :
    Bears host cleartextData S T d' := by
  obtain ⟨now, e⟩ := event
  cases stopped : d.stopped with
  | true =>
      simp only [step, stopped, if_true] at done
      cases done
      exact bears
  | false =>
      exact step_preserves (fun _ _ stroke tidy bears => stroke.bears correct (brings stopped) tidy bears)
        tidy bears done

/-- Nothing has been queued, sent or received. -/
structure Unused (d : Daemon κ) : Prop where
  tidy : d.Tidy
  empty : ∀ j highPriority, cbIsEmpty ((d.tun j).queue highPriority)
  silent : ∀ i type datagram, .sent i type datagram ∉ d.trace
  rx : d.rx.Within ∅
  ordered : d.rx.Ordered []

theorem unused_init (host : Host κ) : (init host).Unused where
  tidy := tidy_init host
  empty := fun _ highPriority => by cases highPriority <;> rfl
  silent := fun _ _ _ member => by cases member
  rx := ⟨fun _ => rfl, fun r member => (by cases member), fun payload member => (by cases member)⟩
  ordered := Receive.ordered_init

/-- A part of a load that queues nothing. -/
theorem Stroke.unused (stroke : Stroke now e d d') (reloads : e.Reloads) (unused : d.Unused)
    (empty : ∀ j highPriority, cbIsEmpty ((d'.tun j).queue highPriority)) : d'.Unused where
  tidy := stroke.tidy unused.tidy
  empty := empty
  silent := fun i type datagram member => by
    rcases stroke.sent_cases member with old | ⟨highPriority, filled, _⟩
    · exact unused.silent i type datagram old
    · exact filled (unused.empty i highPriority)
  rx := by
    refine stroke.within (fun i pkt reads _ => ?_) unused.rx
    obtain ⟨bytes, sender, named, t, decrypted, t', rfl, read⟩ := reads
    exact reloads.elim
  ordered := by
    refine unused.ordered.fed (stroke.fed fun same => ?_)
    subst same
    exact reloads.elim

theorem Unused.empty_modify {f : Tunnel → Tunnel} (unused : d.Unused)
    (changed : ∀ highPriority, cbIsEmpty ((f (d.tun i)).queue highPriority)) (j : Nat)
    (highPriority : Bool) : cbIsEmpty (((d.modify i f).tun j).queue highPriority) := by
  rw [tun_modify]
  split
  next => exact changed highPriority
  next => exact unused.empty j highPriority

theorem Unused.configTunnel {conf : TunnelConf} {serverMode : Bool} {flowId : UInt32} (unused : d.Unused)
    (reloads : e.Reloads) (done : d.configTunnel conf serverMode flowId now = some d') : d'.Unused := by
  obtain ⟨d₁, flagged, configured⟩ := configTunnel_cases done
  have noted : d₁.Unused := by
    have steady : Steady d d₁ := by
      rcases flagged with rfl | rfl <;> exact ⟨rfl, rfl, rfl, rfl, rfl, rfl⟩
    refine (Stroke.settle steady : Stroke now e d d₁).unused reloads unused fun j => ?_
    rw [tun_congr steady.tuns]
    exact unused.empty j
  rcases configured with ⟨unnamed, rfl⟩ | ⟨j, d₂, named, down, rfl⟩
  · unfold rtunNew
    split
    next => exact noted
    next =>
      refine (Stroke.create conf serverMode flowId reloads unnamed : Stroke now e d₁ _).unused reloads noted ?_
      intro k highPriority
      rw [tun_append (d := d₁) rfl]
      split
      next => cases highPriority <;> rfl
      next => exact noted.empty k highPriority
  · have lowered : d₂.Unused := by
      rcases down with ⟨_, down⟩ | ⟨_, rfl⟩
      · have listed := noted.tidy.inside j (List.mem_of_find?_eq_some named)
        refine (Stroke.down listed down : Stroke now e d₁ d₂).unused reloads noted fun k => ?_
        rw [tun_congr (statusDown_tuns down)]
        exact noted.empty_modify (fun highPriority => by cases highPriority <;> rfl) k
      · exact noted
    refine (Stroke.tend (.refit conf reloads) : Stroke now e d₂ _).unused reloads lowered ?_
    exact lowered.empty_modify (lowered.empty j)

theorem Unused.configGeneral (now : ℚ) {general : General κ} (unused : d.Unused) (reloads : e.Reloads)
    (done : d.configGeneral general = some d') : d'.Unused := by
  have keyed := (Stroke.configure general reloads : Stroke now e d _).unused reloads unused unused.empty
  unfold Daemon.configGeneral at done
  obtain ⟨rx, sized, rfl⟩ := Option.map_eq_some_iff.mp done
  have resized : Stroke now e { d with
      host := { d.host with key := general.key }
      cleartextData := general.cleartextData } _ :=
    .receive (.resize _ reloads) sized
  exact resized.unused reloads keyed unused.empty

/-- A daemon that has read its first configuration. -/
def Starting (d : Daemon κ) : Prop :=
  ∃ host conf now send, ∃ d₀ ∈ (init host).config true conf now send, d = d₀.recalcWeight

theorem Starting.unused (starting : d.Starting) : d.Unused := by
  obtain ⟨host, conf, now, send, d₀, done, rfl⟩ := starting
  -- a load has no event of its own before the loop runs; that of a reload stands for it
  have reloads : (Event.reload (some conf) send).Reloads := trivial
  obtain ⟨⟨serverMode, d₁⟩, parsed, same⟩ := Option.bind_eq_some_iff.mp done
  cases same
  have cleared : { init host with fallbackAvailable := 0, filters := [] }.Unused := unused_init host
  have sections : d₁.Unused :=
    run_preserves (I := fun s : Bool × Daemon κ => s.2.Unused) conf.sections
      (fun _ _ _ _ unused taken => by
        rcases configSection_cases taken with ⟨general, configured⟩ | ⟨conf, flowId, configured⟩
        · exact unused.configGeneral now reloads configured
        · exact unused.configTunnel reloads configured) cleared parsed
  have filtered (filters : List ((List UInt8 → Bool) × Nat)) : { d₁ with filters := filters }.Unused :=
    ⟨⟨sections.tidy.inside, sections.tidy.queued⟩, sections.empty, sections.silent, sections.rx,
      sections.ordered⟩
  refine recalcWeight_keeps (I := Unused) (filtered _) fun s j total unused => ?_
  have weighed : Stroke now _ s (s.modify j (·.weigh total)) := .tend (.weigh total reloads)
  refine weighed.unused reloads unused (unused.empty_modify fun highPriority => ?_)
  unfold Tunnel.weigh
  split <;> exact unused.empty j highPriority

theorem Unused.bears (unused : d.Unused) : Bears d.host d.cleartextData ∅ ∅ d where
  sameHost := rfl
  sameClear := rfl
  loaded := fun j highPriority payload member => by
    have queue := (unused.tidy.queued j).rings highPriority
    have empty := queue.queues.empty_iff.mp (unused.empty j highPriority)
    rw [Tunnel.cargo, Pktbuffer.cargo, empty] at member
    cases member
  sent := fun i type datagram member => absurd member (unused.silent i type datagram)
  rx := unused.rx

/-- The datagrams that were sent, the last one first. -/
def datagrams (d : Daemon κ) : List (List UInt8) := d.trace.filterMap Effect.datagram?

theorem mem_datagrams {bytes : List UInt8} :
    bytes ∈ d.datagrams ↔ ∃ i type, .sent i type bytes ∈ d.trace := by
  rw [datagrams, List.mem_filterMap]
  constructor
  · rintro ⟨effect, member, found⟩
    cases effect with
    | sent i type datagram =>
        cases found
        exact ⟨i, type, member⟩
    | _ => cases found
  · rintro ⟨i, type, member⟩
    exact ⟨_, member, rfl⟩

/-- What a daemon fetches from its device. -/
def fetched (d : Daemon κ) : ℚ × Event κ → List (List UInt8)
  | (_, e) => if d.stopped then [] else e.fetched

end Daemon

/-- What passes between the daemons and their devices. -/
inductive Transfer where
  | fetched (party : Party) (payload : List UInt8)
  | wrote (party : Party) (payload : List UInt8)
  deriving Repr, DecidableEq

namespace Net

open Daemon

variable {n n' : Net κ} {via : Party → Party → Prop} {log : List Transfer}

/-- What an event moves between a daemon and its device. -/
def transfers (n : Net κ) : Party × ℚ × Event κ → List Transfer
  | (party, event) =>
      ((n.daemon party).fetched event).map (.fetched party) ++
        ((n.daemon party).written event).map (.wrote party)

/-- A party is handed the datagrams of those that have a way to it. -/
def Routed (via : Party → Party → Prop) (n : Net κ) : Party × ℚ × Event κ → Prop
  | (party, _, .read _ (.datagram bytes _ _)) =>
      ∃ peer, via party peer ∧ bytes ∈ (n.daemon peer).datagrams
  | _ => True

/-- What a party has fetched. -/
def fetchedBy (log : List Transfer) (party : Party) : Set (List UInt8) :=
  { payload | .fetched party payload ∈ log }

/-- What those that have a way to a party have fetched. -/
def reaches (via : Party → Party → Prop) (log : List Transfer) (party : Party) : Set (List UInt8) :=
  { payload | ∃ peer, via party peer ∧ payload ∈ fetchedBy log peer }

/-- Whatever was written had been fetched by somebody with a way to the writer. -/
def Justified (via : Party → Party → Prop) (log : List Transfer) : Prop :=
  ∀ front party payload, front ++ [.wrote party payload] <+: log → payload ∈ reaches via front party

theorem fetchedBy_append (log new : List Transfer) (party : Party) :
    fetchedBy log party ⊆ fetchedBy (log ++ new) party :=
  fun _ member => List.mem_append_left _ member

theorem reaches_append (log new : List Transfer) (party : Party) :
    reaches via log party ⊆ reaches via (log ++ new) party :=
  fun _ ⟨peer, route, member⟩ => ⟨peer, route, fetchedBy_append log new peer member⟩

theorem Justified.fetch (justified : Justified via log) (party : Party) (fetched : List (List UInt8)) :
    Justified via (log ++ fetched.map (.fetched party)) := by
  induction fetched using List.reverseRecOn with
  | nil => simpa using justified
  | append_singleton rest payload ih =>
      intro front writer written found
      rw [List.map_append, List.map_singleton, ← List.append_assoc] at found
      rcases List.prefix_concat_iff.mp found with same | earlier
      · cases (List.append_inj_right' same rfl)
      · exact ih front writer written earlier

theorem Justified.write (justified : Justified via log) (party : Party) (written : List (List UInt8))
    (known : ∀ payload ∈ written, payload ∈ reaches via log party) :
    Justified via (log ++ written.map (.wrote party)) := by
  induction written using List.reverseRecOn with
  | nil => simpa using justified
  | append_singleton rest payload ih =>
      intro front writer last found
      rw [List.map_append, List.map_singleton, ← List.append_assoc] at found
      rcases List.prefix_concat_iff.mp found with same | earlier
      · obtain ⟨rfl, item⟩ := List.append_inj' same rfl
        cases item
        exact reaches_append log _ party (known payload (by simp))
      · exact ih (fun p member => known p (List.mem_append_left _ member)) front writer last earlier

/-- Both daemons bear what they were given, and so do their devices. -/
structure Carried (via : Party → Party → Prop) (host : Host κ) (cleartextData : Bool) (n : Net κ)
    (log : List Transfer) : Prop where
  tidy : ∀ party, (n.daemon party).Tidy
  bears : ∀ party,
    Bears host cleartextData (fetchedBy log party) (reaches via log party) (n.daemon party)
  ordered : ∀ party, ∃ out, (n.daemon party).rx.Ordered out
  justified : Justified via log

/-- The front of the queue of the device was injected. -/
theorem written_handed {d : Daemon κ} {event : ℚ × Event κ} {out : List (List UInt8)}
    (ordered : d.rx.Ordered out) : ∀ payload ∈ d.written event, payload ∈ d.rx.handed := by
  intro payload member
  have waits : payload ∈ d.rx.waiting := by
    unfold Daemon.written at member
    split at member
    next =>
      split at member
      next => cases member
      next =>
        unfold Receive.written at member
        split at member
        next writing =>
          have read := ordered.queued.wf.contents_read (ordered.queued.writing writing)
          rw [Receive.waiting, read, List.mem_singleton.mp member]
          exact List.mem_map_of_mem List.mem_cons_self
        next => cases member
    next => cases member
  exact ordered.newest.subset waits

theorem Carried.brings {host : Host κ} {cleartextData : Bool} {party : Party} {now : ℚ} {e : Event κ}
    (carried : Carried via host cleartextData n log) (permitted : n.Permits e)
    (routed : n.Routed via (party, now, e)) (running : (n.daemon party).stopped = false) :
    Brings host cleartextData (fetchedBy (log ++ n.transfers (party, now, e)) party)
      (reaches via (log ++ n.transfers (party, now, e)) party) e where
  fixed := by
    cases e with
    | reload => exact permitted.elim
    | _ => exact id
  fetched := fun payload member => by
    refine List.mem_append_right _ (List.mem_append_left _ (List.mem_map_of_mem ?_))
    rwa [Daemon.fetched, running, if_neg Bool.false_ne_true]
  read := fun i bytes sender named same => by
    subst same
    obtain ⟨peer, route, datagram⟩ := routed
    obtain ⟨j, type, sent⟩ := mem_datagrams.mp datagram
    intro now64 t decrypted message t' read payload member
    have found := (carried.bears peer).sent j type bytes sent now64 t decrypted message t' read payload member
    exact ⟨peer, route, fetchedBy_append log _ peer found⟩

theorem daemon_withDaemon (n : Net κ) (d : Daemon κ) (party other : Party) :
    (n.withDaemon d party).daemon other = if other = party then d else n.daemon other := by
  cases party <;> cases other <;> rfl

theorem Carried.step {host : Host κ} {cleartextData : Bool} {event : Party × ℚ × Event κ}
    (correct : host.box.Correct) (carried : Carried via host cleartextData n log)
    (routed : n.Routed via event) (done : n.step event = some n') :
    Carried via host cleartextData n' (log ++ n.transfers event) := by
  obtain ⟨party, now, e⟩ := event
  rw [Net.step] at done
  split at done
  next permitted =>
    obtain ⟨d, stepped, rfl⟩ := Option.map_eq_some_iff.mp done
    have tidy := carried.tidy party
    obtain ⟨out, ordered⟩ := carried.ordered party
    -- both logs grow, for the party that moves and for the other
    have grown (other : Party) : Bears host cleartextData
        (fetchedBy (log ++ n.transfers (party, now, e)) other)
        (reaches via (log ++ n.transfers (party, now, e)) other) (n.daemon other) :=
      (carried.bears other).mono (fetchedBy_append log _ other) (reaches_append log _ other)
    have moved := step_bears correct (carried.brings permitted routed) tidy (grown party) stepped
    refine ⟨fun other => ?_, fun other => ?_, fun other => ?_, ?_⟩
    · rw [daemon_withDaemon]
      split
      next => exact step_tidy tidy stepped
      next => exact carried.tidy other
    · rw [daemon_withDaemon]
      split
      next same => exact same ▸ moved
      next => exact grown other
    · rw [daemon_withDaemon]
      split
      next => exact ⟨_, (step_ordered tidy ordered stepped).1⟩
      next => exact carried.ordered other
    · rw [transfers, ← List.append_assoc]
      refine (carried.justified.fetch party _).write party _ fun payload member => ?_
      have handed := (carried.bears party).rx.handed payload (written_handed ordered payload member)
      exact reaches_append log _ party handed
  next => cases done

/-- Two daemons that have read their configurations, which agree on the key. -/
structure Begins (n : Net κ) : Prop where
  starting : ∀ party, (n.daemon party).Starting
  host : n.client.host = n.server.host
  cleartextData : n.client.cleartextData = n.server.cleartextData

theorem Begins.carried (begins : n.Begins) :
    Carried via n.server.host n.server.cleartextData n [] where
  tidy := fun party => (begins.starting party).unused.tidy
  bears := fun party => by
    have bears := (begins.starting party).unused.bears
    have same : (n.daemon party).host = n.server.host ∧
        (n.daemon party).cleartextData = n.server.cleartextData := by
      cases party
      · exact ⟨begins.host, begins.cleartextData⟩
      · exact ⟨rfl, rfl⟩
    rw [same.1, same.2] at bears
    exact bears.mono (Set.empty_subset _) (Set.empty_subset _)
  ordered := fun party => ⟨[], (begins.starting party).unused.ordered⟩
  justified := fun front party payload found => by
    have empty := List.prefix_nil.mp found
    simp at empty

/-- Two parties with one key and one `cleartext_data`, a box that opens what it has sealed and
    no reload: whatever the network does with the datagrams that were sent, whatever a party
    hands to `write` for its device was fetched before, from the device of one that has a way to
    it. -/
theorem written_was_fetched {start : Net κ} (begins : start.Begins)
    (correct : start.server.host.box.Correct) {events : List (Party × ℚ × Event κ)}
    (routed : Meets step (Routed via) start events) (reached : run step start events = some n)
    {front : List Transfer} {party : Party} {payload : List UInt8}
    (written : front ++ [.wrote party payload] <+:
      (visits step start events).flatMap fun visit => visit.1.transfers visit.2) :
    ∃ peer, via party peer ∧ .fetched peer payload ∈ front := by
  have carried : Carried via _ _ n
      ([] ++ (visits step start events).flatMap fun visit => visit.1.transfers visit.2) :=
    run_outputs (I := Carried via start.server.host start.server.cleartextData)
      (fun _ _ _ _ carried routed done => carried.step correct routed done)
      events begins.carried routed reached
  exact carried.justified front party payload written

instance [DecidableRel via] (n : Net κ) : ∀ e, Decidable (n.Routed via e)
  | (party, _, .read _ (.datagram bytes _ _)) =>
      decidable_of_iff ((via party .client ∧ bytes ∈ n.client.datagrams) ∨
          via party .server ∧ bytes ∈ n.server.datagrams) <| by
        constructor
        · rintro (found | found)
          · exact ⟨.client, found⟩
          · exact ⟨.server, found⟩
        · rintro ⟨peer, found⟩
          cases peer
          · exact .inl found
          · exact .inr found
  | (_, _, .read _ .blocked) | (_, _, .read _ .failed) | (_, _, .read _ .closed) => isTrue trivial
  | (_, _, .write _ _ _) | (_, _, .timeout _ _) | (_, _, .tuntapRead _) => isTrue trivial
  | (_, _, .tuntapWrite) | (_, _, .drainTimeout) | (_, _, .adjustTimeout) => isTrue trivial
  | (_, _, .reload _ _) | (_, _, .quit _) => isTrue trivial

/-- A daemon that has read a configuration of one tunnel. -/
def configured (serverMode : Bool) : Daemon Unit :=
  let host : Host Unit := ⟨.little, plainBox, ()⟩
  let conf : TunnelConf := { serverConf "a" 0 with destaddr := some "h", destport := some "5080" }
  let general : General Unit :=
    { serverMode := serverMode, key := (), cleartextData := false, reorderBufferSize := 0 }
  let loaded := (Daemon.init host).config true ⟨[.general general, .tunnel conf 1], []⟩ 0 fun _ => .blocked
  (loaded.getD (Daemon.init host)).recalcWeight

def ends : Net Unit := ⟨configured false, configured true⟩

/-- The last datagram of one party is handed to the other. -/
def relayed (sender receiver : Party) (events : List (Party × ℚ × Event Unit)) :
    List (Party × ℚ × Event Unit) :=
  let sent := ((run step ends events).map fun n => (n.daemon sender).datagrams).getD []
  events ++ [(receiver, 2, .read 0 (.datagram (sent.headD []) [10] true))]

/-- A handshake, and a packet from the device of the client to that of the server. -/
def passage : List (Party × ℚ × Event Unit) :=
  let opened : List (Party × ℚ × Event Unit) :=
    [(.client, 1, .timeout 0 (.opened [127] 3)), (.server, 1, .timeout 0 (.opened [127] 3)),
      (.client, 1, .write 0 (.sent 46) .blocked)]
  let answered := relayed .client .server opened ++ [(.server, 2, .write 0 (.sent 46) .blocked)]
  let queued := relayed .server .client answered ++
    [(.client, 3, .tuntapRead [69, 0, 7]), (.client, 3, .write 0 .blocked (.sent 47))]
  relayed .client .server queued ++ [(.server, 4, .tuntapWrite)]

theorem configured_starting (serverMode : Bool) : (configured serverMode).Starting := by
  obtain ⟨d₀, done⟩ := (unconnected_init _).config _ 0 fun _ => .blocked
  refine ⟨_, _, _, _, d₀, done, ?_⟩
  rw [configured, done]
  rfl

theorem ends_begins : ends.Begins where
  starting := fun party => by
    cases party
    · exact configured_starting false
    · exact configured_starting true
  host := rfl
  cleartextData := rfl

theorem passage_written :
    ∃ n ∈ run step ends passage, ∃ front, front ++ [.wrote .server [69, 0, 7]] <+:
        ((visits step ends passage).flatMap fun visit => visit.1.transfers visit.2) ∧
      .fetched .client [69, 0, 7] ∈ front := by
  obtain ⟨n, reached⟩ : ∃ n, run step ends passage = some n := by
    rw [← Option.isSome_iff_exists]
    decide +kernel
  have routed : Meets step (Routed (· ≠ ·)) ends passage := by decide +kernel
  have written : [.fetched .client [69, 0, 7]] ++ [.wrote .server [69, 0, 7]] <+:
      ((visits step ends passage).flatMap fun visit => visit.1.transfers visit.2) := by
    decide +kernel
  obtain ⟨peer, other, fetched⟩ :=
    written_was_fetched ends_begins plainBox_correct routed reached written
  cases peer with
  | client => exact ⟨n, reached, _, written, fetched⟩
  | server => exact absurd rfl other

end Net

end Mlvpn
