import Mlvpn.Daemon.Loop
import Mlvpn.Daemon.Status
import Mlvpn.Tunnel.Quiet
import Mathlib.Logic.Relation

/-! # What an event can do

Every callback of the loop is a sequence of moves, and a handshake at most.  What
holds of a move and of a handshake holds of the daemon, whatever the events.
-/

namespace Mlvpn.Daemon

open Library.Machine Tunnel

variable {κ : Type}

/-- The tunnels, the receive path and the trace are as they were. -/
structure Settles (d d' : Daemon κ) : Prop where
  tuns : d'.tuns = d.tuns
  rx : d'.rx = d.rx
  trace : d'.trace = d.trace
  endian : d'.host.endian = d.host.endian
  rtuns : d'.rtuns ⊆ d.rtuns

/-- A packet is numbered, and perhaps sealed with that number. -/
structure Numbers (d : Daemon κ) (i : Nat) (t : Tunnel) (effects : List Effect) : Prop where
  inside : i < d.tuns.length
  quiet : Quiet { d.tun i with seq := (d.tun i).seq + 1 } t
  effects : effects = [.sending i] ∨
    effects = [.encrypted (nonce d.host.endian (d.tun i).seq (d.tun i).flowId), .sending i]

/-- A datagram carries a packet of a queue, and shows its type. -/
structure Shows (d : Daemon κ) (i : Nat) (type : PktType) (datagram : List UInt8) : Prop where
  queued : (d.tun i).Stocked → type.Known ∧ (type = .authOk → (d.tun i).serverMode = true)
  typed : type.Known → PktType.ofCode (Proto.decode d.host.endian datagram).flags = type

/-- A move of the daemon; a tunnel is created only where it may be. -/
inductive Move (may : Prop) : Daemon κ → Daemon κ → Prop where
  | tune {d : Daemon κ} {i : Nat} {f : Tunnel → Tunnel} :
      Quiet (d.tun i) (f (d.tun i)) → Move may d (d.modify i f)
  | settle {d d' : Daemon κ} : Settles d d' → Move may d d'
  | script {d : Daemon κ} (command : Script) : Move may d (d.log (.script command))
  | reset {d d' : Daemon κ} {useFallbacks : Nat} : d.wrrReset useFallbacks = some d' → Move may d d'
  /-- The receive path is given packets by connected tunnels only, and its buffer only
      where a tunnel may be created. -/
  | receive {d : Daemon κ} {e : Receive.Event} {rx : Receive} : d.rx.step e = some rx →
      (∀ i pkt, e = .recv i pkt → (d.tun i).status.Up) → (∀ size, e = .reload size → may) →
      Move may d (d.withRx rx)
  | down {d d' : Daemon κ} {i : Nat} : d.statusDown i = some d' → Move may d d'
  | accept {d : Daemon κ} (i : Nat) (type : PktType) (decrypted : Bool) :
      Move may d (d.log (.accepted i type decrypted))
  | number {d : Daemon κ} {i : Nat} {t : Tunnel} {effects : List Effect} : Numbers d i t effects →
      Move may d { d.modify i (fun _ => t) with trace := effects ++ d.trace }
  | sent {d : Daemon κ} {i : Nat} {type : PktType} {datagram : List UInt8} :
      Shows d i type datagram → Move may d (d.log (.sent i type datagram))
  | create {d : Daemon κ} (conf : TunnelConf) (serverMode : Bool) (flowId : UInt32) (now : ℚ) :
      may → Move may d ({ d with
        tuns := d.tuns ++ [Tunnel.init conf serverMode flowId now]
        rtuns := d.tuns.length :: d.rtuns }.log (.created d.tuns.length))

/-- A sequence of moves. -/
abbrev Moves (may : Prop) : Daemon κ → Daemon κ → Prop := Relation.ReflTransGen (Move may)

/-- An accepted datagram of a handshake connects a tunnel, or confirms it. -/
structure Authenticates (d d' : Daemon κ) (i : Nat) (type : PktType) : Prop where
  handshake : type = .auth ∨ type = .authOk
  ready : (d.tun i).serverMode = true ∨ (d.tun i).status = .authsent
  raised : ∃ t, Alike (d.tun i) t ∧ t.status.Up ∧
    d' = (d.modify i fun _ => t).log (.accepted i type true)

variable {may : Prop} {d d' : Daemon κ} {i : Nat}

theorem Move.moves (move : Move may d d') : Moves may d d' := .single move

/-- What every move preserves, a sequence of moves does. -/
theorem Moves.preserve {I : Daemon κ → Prop} (preserved : ∀ d d', Move may d d' → I d → I d')
    (moves : Moves may d d') (initially : I d) : I d' := by
  induction moves with
  | refl => exact initially
  | tail _ last ih => exact preserved _ _ last ih

theorem Moves.tune {f : Tunnel → Tunnel} (quiet : Quiet (d.tun i) (f (d.tun i))) :
    Moves may d (d.modify i f) :=
  (Move.tune quiet).moves

theorem Moves.settle (settles : Settles d d') : Moves may d d' := (Move.settle settles).moves

theorem Moves.receive {e : Receive.Event}
    (connected : ∀ i pkt, e = .recv i pkt → (d.tun i).status.Up) (sized : ∀ size, e = .reload size → may)
    (done : (d.rx.step e).map d.withRx = some d') : Moves may d d' := by
  obtain ⟨rx, stepped, rfl⟩ := Option.map_eq_some_iff.mp done
  exact (Move.receive stepped connected sized).moves

theorem updateStatus_settles : Settles d d.updateStatus :=
  ⟨rfl, rfl, rfl, rfl, List.Subset.refl _⟩

/-- What `mlvpn_rtun_status_up` does once the status is stored. -/
theorem statusUp_moves {now : ℚ} (done : d.statusUp i now = some d') :
    Moves may (d.modify i (·.raised now)) d' := by
  obtain ⟨d₂, reset, rest⟩ := Option.bind_eq_some_iff.mp done
  refine (Moves.settle updateStatus_settles).trans ((Move.reset reset).moves.trans ?_)
  refine (Move.script (.rtunUp (d₂.tun i).name)).moves.trans ?_
  dsimp only at rest
  split at rest
  next =>
    refine ((Move.script .tuntapUp).moves.trans (Moves.settle ?_)).trans
      (Moves.receive (e := .statusChange) (fun _ _ other => by cases other) (fun _ other => by cases other) rest)
    exact ⟨rfl, rfl, rfl, rfl, List.Subset.refl _⟩
  next =>
    cases rest
    exact .refl

/-- `mlvpn_rtun_send_auth` does nothing, or connects the tunnel. -/
theorem sendAuth_moves {now : ℚ} (done : d.sendAuth i now = some d') :
    d' = d ∨ ((d.tun i).serverMode = true ∨ (d.tun i).status = .authsent) ∧
      ∃ f, Alike (d.tun i) (f (d.tun i)) ∧ (f (d.tun i)).status.Up ∧ Moves may (d.modify i f) d' := by
  have up : Status.authok.Up := by decide
  cases sendAuth_cases done with
  | answers server _ raised =>
      refine .inr ⟨.inl server, (Tunnel.raised · now) ∘ fun t => t.queueAuthOk.tick now,
        (Alike.queueAuthOk server).trans (.raised now), up, ?_⟩
      rw [← modify_modify]
      exact (statusUp_moves raised)
        |>.trans (Moves.tune (.of_fields rfl rfl rfl rfl rfl rfl))
  | confirms _ ready raised =>
      refine .inr ⟨.inr ready, (Tunnel.raised · now) ∘ (Tunnel.tick · now), .raised now, up, ?_⟩
      rw [← modify_modify]
      exact statusUp_moves raised
  | ignores _ => exact .inl rfl

theorem afterSendto_moves {type : PktType} {datagram : List UInt8} {result : SendResult}
    (shows : Shows d i type datagram) (done : d.afterSendto i type datagram result = some d') :
    Moves may d d' := by
  cases result with
  | blocked =>
      cases done
      exact .refl
  | failed => exact (Move.down done).moves
  | sent len =>
      cases done
      refine (Move.sent shows).moves.trans (Moves.tune (i := i) ?_)
      exact .of_fields rfl rfl rfl rfl rfl rfl

theorem tun_modify_self (inside : i < d.tuns.length) (f : Tunnel → Tunnel) :
    (d.modify i f).tun i = f (d.tun i) := by
  rw [tun_modify, if_pos ⟨rfl, inside⟩]

theorem modify_alike {f : Tunnel → Tunnel} (alike : Alike (d.tun i) (f (d.tun i))) (j : Nat) :
    Alike (d.tun j) ((d.modify i f).tun j) := by
  rw [tun_modify]
  split
  next same => exact same.1 ▸ alike
  next => exact (Quiet.refl _).toAlike

theorem modify_up {f : Tunnel → Tunnel} (up : (f (d.tun i)).status.Up ↔ (d.tun i).status.Up)
    (j : Nat) : ((d.modify i f).tun j).status.Up ↔ (d.tun j).status.Up := by
  rw [tun_modify]
  split
  next same => exact same.1 ▸ up
  next => exact Iff.rfl

/-- A packet is taken from a queue, and its header shows its type. -/
theorem takePacket_moves {highPriority : Bool} {now : ℚ} {pkt : Pkt} {proto : Proto}
    (inside : i < d.tuns.length) (taken : d.takePacket i highPriority now = (pkt, proto, d')) :
    Moves may d d' ∧ proto.flags = pkt.type.code ∧
      ((d'.tun i).Stocked → pkt.type.Known ∧ (pkt.type = .authOk → (d'.tun i).serverMode = true)) := by
  let queue := (d.tun i).queue highPriority
  let read := (d.tun i).setQueue highPriority (pktbufferRead queue).2
  let header := sendHeader read d.dataSeq (timestamp64 now) (queue.pkts queue.start)
  have kept : Quiet (d.tun i) read := .setQueue fun stocked n => stocked n
  have quiet : Quiet { d.tun i with seq := (d.tun i).seq + 1 } header.2.1 :=
    kept.next.trans (.sendHeader ..)
  have answer : (if Seals d.cleartextData (queue.pkts queue.start) then
      (queue.pkts queue.start, header.1,
        ({ d.modify i (fun _ => header.2.1) with dataSeq := header.2.2 }.log (.sending i)).log
          (.encrypted (nonce d.host.endian read.seq read.flowId)))
    else (queue.pkts queue.start, header.1,
      { d.modify i (fun _ => header.2.1) with dataSeq := header.2.2 }.log (.sending i))) =
    (pkt, proto, d') := taken
  rw [kept.seq, kept.flowId] at answer
  have stocked : header.2.1.Stocked → (queue.pkts queue.start).type.Known ∧
      ((queue.pkts queue.start).type = .authOk → header.2.1.serverMode = true) := by
    intro stocked
    have slot := Stocked.queue stocked highPriority queue.start
    rw [sendHeader_queue, queue_setQueue] at slot
    exact ⟨slot.1.known, slot.2⟩
  have there : (d.modify i fun _ => header.2.1).tun i = header.2.1 := tun_modify_self inside _
  rw [← there] at stocked
  split at answer
  next =>
    obtain ⟨rfl, rfl, rfl⟩ := answer
    refine ⟨(Move.number ⟨inside, quiet, .inr rfl⟩).moves.trans (Moves.settle ?_), rfl, stocked⟩
    exact ⟨rfl, rfl, rfl, rfl, List.Subset.refl _⟩
  next =>
    obtain ⟨rfl, rfl, rfl⟩ := answer
    refine ⟨(Move.number ⟨inside, quiet, .inl rfl⟩).moves.trans (Moves.settle ?_), rfl, stocked⟩
    exact ⟨rfl, rfl, rfl, rfl, List.Subset.refl _⟩

theorem rtunSend_moves {highPriority : Bool} {now : ℚ} {result : SendResult}
    (inside : i < d.tuns.length) (done : d.rtunSend i highPriority now result = some d') :
    Moves may d d' := by
  rw [rtunSend] at done
  generalize taken : d.takePacket i highPriority now = answer at done
  obtain ⟨pkt, proto, d₁⟩ := answer
  obtain ⟨numbered, flags, queued⟩ := takePacket_moves inside taken
  refine numbered.trans ?_
  dsimp only at done
  split at done
  next =>
    cases done
    exact .refl
  next datagram built =>
    split at done
    next => cases done
    next =>
      obtain ⟨d₂, sent, rfl⟩ := Option.map_eq_some_iff.mp done
      have shows : Shows d₁ i pkt.type datagram := by
        refine ⟨queued, fun known => ?_⟩
        rw [sendDatagram_flags built, flags, PktType.ofCode_code_mod known]
      exact (afterSendto_moves shows sent).trans (Moves.tune (.stopIfEmpty _))

theorem tun_eq_blank (outside : ¬ i < d.tuns.length) : d.tun i = .blank := by
  simp only [tun, List.getD_eq_getElem?_getD, List.getElem?_eq_none (Nat.le_of_not_lt outside),
    Option.getD_none]

theorem tun_append {t : Tunnel} (grown : d'.tuns = d.tuns ++ [t]) (j : Nat) :
    d'.tun j = if j = d.tuns.length then t else d.tun j := by
  rw [tun, grown, List.getD_eq_getElem?_getD]
  split
  next new => rw [new, List.getElem?_concat_length, Option.getD_some]
  next old =>
    by_cases inside : j < d.tuns.length
    · rw [List.getElem?_append_left inside, tun, List.getD_eq_getElem?_getD]
    · rw [List.getElem?_eq_none (by rw [List.length_append, List.length_singleton]; omega),
        tun_eq_blank inside, Option.getD_none]

/-- A connected tunnel exists. -/
theorem lt_of_up (connected : (d.tun i).status.Up) : i < d.tuns.length := by
  by_contra outside
  rw [tun_eq_blank outside] at connected
  exact absurd connected (by decide)

theorem up_lowered (j : Nat) :
    ((d.modify i Tunnel.lowered).tun j).status.Up ↔ (d.tun j).status.Up ∧ j ≠ i := by
  rw [tun_modify]
  split
  next same =>
    have down : ¬ Status.disconnected.Up := by decide
    exact ⟨fun up => absurd up down, fun both => absurd same.1 both.2⟩
  next other => exact ⟨fun up => ⟨up, fun same => other ⟨same, same ▸ lt_of_up up⟩⟩, And.left⟩

theorem writeQueue_moves {highPriority : Bool} {now : ℚ} {result : SendResult}
    (done : d.writeQueue i highPriority now result = some d') : Moves may d d' := by
  rw [writeQueue] at done
  split at done
  next =>
    cases done
    exact .refl
  next filled =>
    -- the queues of a tunnel that was never created are empty
    have inside : i < d.tuns.length := by
      by_contra outside
      rw [tun_eq_blank outside] at filled
      cases highPriority <;> exact filled rfl
    exact rtunSend_moves inside done

theorem rtunWrite_moves {now : ℚ} {first second : SendResult}
    (done : d.rtunWrite i now first second = some d') : Moves may d d' := by
  obtain ⟨d₁, high, low⟩ := Option.bind_eq_some_iff.mp done
  exact (writeQueue_moves high).trans (writeQueue_moves low)

/-- What is not a handshake. -/
theorem dispatch_moves {now : ℚ} {pkt : Pkt} (plain : pkt.type ≠ .auth ∧ pkt.type ≠ .authOk)
    (done : d.dispatch i now pkt = some d') : Moves may d d' := by
  cases dispatch_cases done with
  | ignores => exact .refl
  | delivers _ connected stepped =>
      refine (Moves.tune (i := i) (f := (·.tick now)) (.of_fields rfl rfl rfl rfl rfl rfl)).tail
        (.receive stepped ?_ fun _ other => by cases other)
      rintro j pkt' same
      cases same
      rw [tun_modify_self (lt_of_up connected)]
      exact connected
  | keepsAlive _ => exact Moves.tune (.keepaliveReceived now)
  | disconnects _ down => exact (Move.down down).moves
  | handshakes handshake _ => exact (handshake.elim plain.1 plain.2).elim

theorem modify_log_modify (t : Tunnel) (e : Effect) (f : Tunnel → Tunnel) :
    ((d.modify i fun _ => t).log e).modify i f = (d.modify i fun _ => f t).log e :=
  congrArg (log · e) (modify_modify d i (fun _ => t) f)

/-- The tunnel exists if a handshake can connect it. -/
theorem lt_of_ready (ready : (d.tun i).serverMode = true ∨ (d.tun i).status = .authsent) :
    i < d.tuns.length := by
  by_contra outside
  rw [tun_eq_blank outside] at ready
  rcases ready with server | sent
  · cases server
  · cases sent

/-- Both packets of a handshake are answered alike. -/
theorem dispatch_handshake {now : ℚ} {pkt : Pkt} (handshake : pkt.type = .auth ∨ pkt.type = .authOk) :
    d.dispatch i now pkt = d.sendAuth i now := by
  rcases handshake with auth | authOk
  · simp only [dispatch, auth]
  · simp only [dispatch, authOk]

/-- A packet of a handshake that was accepted is passed over, or connects the tunnel. -/
theorem accepted_handshake_moves {now : ℚ} {type : PktType} {t : Tunnel}
    (handshake : type = .auth ∨ type = .authOk) (followed : Measured (d.tun i) t)
    (sent : ((d.modify i fun _ => t).log (.accepted i type true)).sendAuth i now = some d') :
    d' = (d.modify i fun _ => t).log (.accepted i type true) ∨
      ∃ d₁, Authenticates d d₁ i type ∧ Moves may d₁ d' := by
  rcases sendAuth_moves sent with same | ⟨ready, f, alike, connected, moves⟩
  · exact .inl same
  · have inside : i < d.tuns.length := by simpa [log] using lt_of_ready ready
    have there : ((d.modify i fun _ => t).log (.accepted i type true)).tun i = t := tun_modify_self inside _
    rw [there] at ready alike connected
    rw [modify_log_modify] at moves
    refine .inr ⟨_, ⟨handshake, ?_, f t, ?_⟩, moves⟩
    · exact ready.imp followed.serverMode.symm.trans followed.status.symm.trans
    · exact ⟨followed.toAlike.trans alike, connected, rfl⟩

theorem rtunRead_moves {now : ℚ} {result : ReadResult} (done : d.rtunRead i now result = some d') :
    Moves may d d' ∨ ∃ bytes sender named d₁,
      let type := PktType.ofCode (Proto.decode d.host.endian (bytes.take defaultMtu)).flags
      result = .datagram bytes sender named ∧ Authenticates d d₁ i type ∧ Moves may d₁ d' := by
  cases rtunRead_cases done with
  | waits _ => exact .inl .refl
  | fails down => exact .inl (Move.down down).moves
  | refuses read => exact .inl (Moves.tune (Measured.of_remeasured (remeasured_of_read read)).quiet)
  | @accepts bytes sender named decrypted pkt t t₁ _ read adopted dispatched =>
      obtain ⟨typed, sealed⟩ := protocolRead_accepts read
      have measured : Measured (d.tun i) t := .of_remeasured (remeasured_of_read read)
      have followed : Measured (d.tun i) t₁ :=
        (measured.trans (.countReceived _)).trans (.adoptAddr adopted)
      have accepted : Moves may d ((d.modify i fun _ => t₁).log (.accepted i pkt.type decrypted)) :=
        (Moves.tune followed.quiet).trans (Move.accept ..).moves
      by_cases handshake : pkt.type = .auth ∨ pkt.type = .authOk
      · have control : pkt.type ≠ .data := by
          intro data
          simp [data] at handshake
        rw [sealed control] at accepted dispatched
        rw [dispatch_handshake handshake] at dispatched
        rcases accepted_handshake_moves handshake followed dispatched with rfl | ⟨d₁, connects, moves⟩
        · exact .inl accepted
        · exact .inr ⟨bytes, sender, named, d₁, rfl, typed ▸ connects, moves⟩
      · push Not at handshake
        exact .inl (accepted.trans (dispatch_moves handshake dispatched))

theorem switchToFallback_moves (done : d.switchToFallbackIfNecessary = some d') : Moves may d d' := by
  have switched : ∀ mode, Settles d { d with fallbackMode := mode } :=
    fun _ => ⟨rfl, rfl, rfl, rfl, List.Subset.refl _⟩
  rw [switchToFallbackIfNecessary] at done
  split at done
  next => exact (Moves.settle (switched 0)).tail (.reset done)
  next =>
    split at done
    next => exact (Moves.settle (switched 1)).tail (.reset done)
    next =>
      cases done
      exact .refl

theorem regrade_moves {grade : Option Status}
    (connected : ∀ status, grade = some status → (d.tun i).status.Up ∧ status.Up)
    (done : d.regrade i grade = some d') : Moves may d d' := by
  cases grade with
  | none =>
      cases done
      exact .refl
  | some status =>
      obtain ⟨old, new⟩ := connected status rfl
      have graded : Moves may d (d.modify i fun t => { t with status := status }) :=
        Moves.tune { Quiet.refl (d.tun i) with up := ⟨fun _ => old, fun _ => new⟩ }
      exact graded.trans (switchToFallback_moves done)

theorem checkAlive_moves {now : ℚ} {result : StartResult}
    (done : d.checkAlive i now result = some d') : Moves may d d' := by
  rw [checkAlive] at done
  split at done
  next =>
    repeat' split at done
    next => exact (Move.down done).moves
    all_goals cases done
    next => exact Moves.tune (.sendKeepalive now)
    all_goals exact .refl
  next idle =>
    cases done
    exact Moves.tune (.tickConnect now result idle)

theorem checkTimeout_moves {now : ℚ} {result : StartResult}
    (done : d.checkTimeout i now result = some d') : Moves may d d' := by
  obtain ⟨d₁, alive, rest⟩ := Option.bind_eq_some_iff.mp done
  obtain ⟨d₂, lossy, slow⟩ := Option.bind_eq_some_iff.mp rest
  refine (checkAlive_moves alive).trans (.trans ?_
    ((regrade_moves (fun _ => lossyStatus_up) lossy).trans (regrade_moves (fun _ => slowStatus_up) slow)))
  refine Moves.tune ?_
  split <;> exact .of_fields rfl rfl rfl rfl rfl rfl

theorem tuntapRead_moves {data : List UInt8} (done : d.tuntapRead data = some d') :
    Moves may d d' := by
  rw [tuntapRead] at done
  split at done
  next => cases done
  next nonempty =>
    cases done
    have positive : 1 ≤ (data.take maxmtu).length := by
      have := List.length_pos_iff.mpr nonempty
      rw [List.length_take]
      exact Nat.le_min.mpr ⟨by decide, this⟩
    have small : (data.take maxmtu).length ≤ maxmtu := List.length_take_le ..
    rw [tuntapGenericRead]
    split
    next => exact Moves.tune (.queueData positive small)
    next =>
      have chosen : Settles d d.rtunChoose.2 := by
        rw [rtunChoose, wrrChoose]
        dsimp only
        split <;> exact ⟨rfl, rfl, rfl, rfl, List.Subset.refl _⟩
      split
      next d₁ answer =>
        rw [answer] at chosen
        exact Moves.settle chosen
      next j d₁ answer =>
        rw [answer] at chosen
        exact (Moves.settle chosen).trans (Moves.tune (.queueData positive small))

theorem sendDisconnect_moves {now : ℚ} {result : SendResult} (inside : i < d.tuns.length)
    (done : d.sendDisconnect i now result = some d') : Moves may d d' := by
  have queued : Moves may d (d.modify i (·.queueBare .disconnect)) :=
    Moves.tune (.queueBare .disconnect trivial (by decide) (by decide))
  exact queued.trans (rtunSend_moves (by rwa [length_modify]) done)

theorem rtunNew_moves (allowed : may) (conf : TunnelConf) (serverMode : Bool) (flowId : UInt32)
    (now : ℚ) : Moves may d (d.rtunNew conf serverMode flowId now) := by
  rw [rtunNew]
  split
  next => exact .refl
  next => exact (Move.create conf serverMode flowId now allowed).moves

theorem rtunDrop_moves {now : ℚ} {result : SendResult} (inside : i < d.tuns.length)
    (done : d.rtunDrop i now result = some d') : Moves may d d' := by
  obtain ⟨d₁, sent, rest⟩ := Option.bind_eq_some_iff.mp done
  obtain ⟨d₂, down, rfl⟩ := Option.map_eq_some_iff.mp rest
  have stopped : Moves may d₂ (d₂.modify i Tunnel.stopWatching) :=
    Moves.tune (.of_fields rfl rfl rfl rfl rfl rfl)
  refine ((sendDisconnect_moves inside sent).tail (.down down)).trans (stopped.trans (Moves.settle ?_))
  exact ⟨rfl, rfl, rfl, rfl, List.eraseP_subset⟩

/-- What every change of a weight keeps, the weights keep when they are computed anew. -/
theorem recalcWeight_keeps {I : Daemon κ → Prop} (initially : I d)
    (weighed : ∀ (s : Daemon κ) (j : Nat) (total : UInt32), I s → I (s.modify j (·.weigh total))) :
    I d.recalcWeight := by
  unfold recalcWeight
  dsimp only
  split
  next => exact initially
  next all =>
    clear all
    generalize (d.rtuns.map fun i => (d.tun i).bandwidth).sum = total
    generalize d.rtuns = tunnels
    induction tunnels generalizing d with
    | nil => exact initially
    | cons j rest ih => exact ih (weighed d j total initially)

theorem recalcWeight_moves : Moves may d d.recalcWeight := by
  apply recalcWeight_keeps (I := Moves may d) .refl
  intro s j total moves
  exact moves.trans (Moves.tune (.weigh total))

/-- What a section of a tunnel does, after it has taken note of a fallback: the tunnel is
    created, or it is refitted, for which it is taken down if its addresses have changed. -/
theorem configTunnel_cases {conf : TunnelConf} {serverMode : Bool} {flowId : UInt32} {now : ℚ}
    (done : d.configTunnel conf serverMode flowId now = some d') :
    ∃ d₁, (d₁ = d ∨ d₁ = { d with fallbackAvailable := 1 }) ∧
      ((d₁.named conf.name = none ∧ d' = d₁.rtunNew conf serverMode flowId now) ∨
        ∃ j d₂, d₁.named conf.name = some j ∧
          ((d₁.tun j).Moved conf ∧ d₁.statusDown j = some d₂ ∨ ¬ (d₁.tun j).Moved conf ∧ d₂ = d₁) ∧
          d' = d₂.modify j (·.refit conf)) := by
  unfold configTunnel at done
  dsimp only at done
  have flagged : (if conf.fallbackOnly ≠ 0 then { d with fallbackAvailable := 1 } else d) = d ∨
      (if conf.fallbackOnly ≠ 0 then { d with fallbackAvailable := 1 } else d) =
        { d with fallbackAvailable := 1 } := by
    split
    next => exact .inr rfl
    next => exact .inl rfl
  generalize (if conf.fallbackOnly ≠ 0 then { d with fallbackAvailable := 1 } else d) = d₁
    at done flagged
  refine ⟨d₁, flagged, ?_⟩
  split at done
  next new =>
    cases done
    exact .inl ⟨new, rfl⟩
  next j named =>
    obtain ⟨d₂, down, rfl⟩ := Option.map_eq_some_iff.mp done
    refine .inr ⟨j, d₂, named, ?_, rfl⟩
    split at down
    next moved => exact .inl ⟨moved, down⟩
    next settled =>
      cases down
      exact .inr ⟨settled, rfl⟩

/-- A section sets the options, or it is one of a tunnel. -/
theorem configSection_cases {now : ℚ} {s s' : Bool × Daemon κ} {part : Section κ}
    (done : configSection now s part = some s') :
    (∃ general, s.2.configGeneral general = some s'.2) ∨
      ∃ conf flowId, s.2.configTunnel conf s.1 flowId now = some s'.2 := by
  obtain ⟨serverMode, d⟩ := s
  cases part with
  | general general =>
      simp only [configSection] at done
      obtain ⟨d₁, configured, rfl⟩ := Option.map_eq_some_iff.mp done
      exact .inl ⟨general, configured⟩
  | tunnel conf flowId =>
      simp only [configSection] at done
      obtain ⟨d₁, configured, rfl⟩ := Option.map_eq_some_iff.mp done
      exact .inr ⟨conf, flowId, configured⟩

theorem configTunnel_moves {conf : TunnelConf} {serverMode : Bool} {flowId : UInt32} {now : ℚ}
    (allowed : may) (done : d.configTunnel conf serverMode flowId now = some d') :
    Moves may d d' := by
  obtain ⟨d₁, flagged, configured⟩ := configTunnel_cases done
  have settled : Settles d d₁ := by
    rcases flagged with rfl | rfl <;> exact ⟨rfl, rfl, rfl, rfl, List.Subset.refl _⟩
  apply (Moves.settle settled).trans
  rcases configured with ⟨_, rfl⟩ | ⟨j, d₂, _, down, rfl⟩
  · exact rtunNew_moves allowed conf serverMode flowId now
  · have refitted : Moves may d₂ (d₂.modify j (·.refit conf)) :=
      Moves.tune (.of_fields rfl rfl rfl rfl rfl rfl)
    rcases down with ⟨_, down⟩ | ⟨_, rfl⟩
    · exact (Move.down down).moves.trans refitted
    · exact refitted

theorem configGeneral_moves {general : General κ} (allowed : may) (done : d.configGeneral general = some d') :
    Moves may d d' := by
  have changed : Settles d { d with
      host := { d.host with key := general.key }
      cleartextData := general.cleartextData } := ⟨rfl, rfl, rfl, rfl, List.Subset.refl _⟩
  exact (Moves.settle changed).trans
    (Moves.receive (e := .reload general.reorderBufferSize) (fun _ _ other => by cases other)
      (fun _ _ => allowed) done)

theorem configSection_moves {now : ℚ} {s s' : Bool × Daemon κ} {part : Section κ}
    (allowed : may) (done : configSection now s part = some s') : Moves may s.2 s'.2 := by
  rcases configSection_cases done with ⟨general, configured⟩ | ⟨conf, flowId, configured⟩
  · exact configGeneral_moves allowed configured
  · exact configTunnel_moves allowed configured

/-- The sections of a configuration. -/
theorem configSections_moves {now : ℚ} {sections : List (Section κ)} {s s' : Bool × Daemon κ}
    (allowed : may) (done : run (configSection now) s sections = some s') : Moves may s.2 s'.2 :=
  run_preserves (I := fun s₁ => Moves may s.2 s₁.2) sections
    (fun _ _ _ _ moves taken => moves.trans (configSection_moves allowed taken)) .refl done

/-- Every listed tunnel exists. -/
def Inside (d : Daemon κ) : Prop := ∀ i ∈ d.rtuns, i < d.tuns.length

theorem Inside.grow (inside : d.Inside) (listed : d'.rtuns ⊆ d.rtuns)
    (longer : d.tuns.length ≤ d'.tuns.length) : d'.Inside :=
  fun j member => Nat.lt_of_lt_of_le (inside j (listed member)) longer

theorem Inside.modify (inside : d.Inside) (i : Nat) (f : Tunnel → Tunnel) : (d.modify i f).Inside :=
  inside.grow (List.Subset.refl _) (length_modify ..).ge

theorem Move.inside (move : Move may d d') (inside : d.Inside) :
    d'.Inside ∧ d.tuns.length ≤ d'.tuns.length := by
  cases move with
  | tune _ => exact ⟨inside.modify _ _, (length_modify ..).ge⟩
  | settle settles =>
      have same : d.tuns.length ≤ d'.tuns.length := by rw [settles.tuns]
      exact ⟨inside.grow settles.rtuns same, same⟩
  | script _ => exact ⟨inside, le_refl _⟩
  | reset done =>
      obtain ⟨passes, _⟩ := wrrReset_passes [] done
      have same : d.tuns.length ≤ d'.tuns.length := by rw [passes.tuns]
      exact ⟨inside.grow (by rw [passes.rtuns]; exact List.Subset.refl _) same, same⟩
  | receive _ _ _ => exact ⟨inside, le_refl _⟩
  | down done =>
      obtain ⟨d₁, rfl, passes⟩ := (statusDown_lowers done).passes
      have same : d.tuns.length ≤ d₁.tuns.length := by rw [passes.tuns, length_modify]
      refine ⟨inside.grow ?_ same, same⟩
      rw [log, passes.rtuns]
      exact List.Subset.refl _
  | accept _ _ _ => exact ⟨inside, le_refl _⟩
  | number _ => exact ⟨inside.modify _ _, (length_modify ..).ge⟩
  | sent _ => exact ⟨inside, le_refl _⟩
  | create conf serverMode flowId now _ =>
      simp only [Inside, log, List.length_append, List.length_singleton, List.mem_cons,
        Nat.le_add_right, and_true, forall_eq_or_imp, Nat.lt_succ_self, true_and]
      exact fun j member => Nat.lt_succ_of_lt (inside j member)

theorem Moves.inside (moves : Moves may d d') (inside : d.Inside) :
    d'.Inside ∧ d.tuns.length ≤ d'.tuns.length := by
  induction moves with
  | refl => exact ⟨inside, le_refl _⟩
  | tail _ last ih =>
      obtain ⟨within, longer⟩ := last.inside ih.1
      exact ⟨within, ih.2.trans longer⟩

/-- The trace only grows. -/
theorem Move.trace_suffix (move : Move may d d') : d.trace <:+ d'.trace := by
  cases move with
  | tune _ => exact List.suffix_refl _
  | settle settles => rw [settles.trace]
  | script _ | accept _ _ _ | sent _ | create _ _ _ _ _ => exact List.suffix_cons _ _
  | reset done =>
      obtain ⟨effects, logged, _⟩ := (wrrReset_passes [] done).1.trace
      exact ⟨effects, logged.symm⟩
  | receive _ _ _ => exact List.suffix_append _ _
  | down done =>
      obtain ⟨d₁, rfl, passes⟩ := (statusDown_lowers done).passes
      obtain ⟨effects, logged, _⟩ := passes.trace
      exact List.IsSuffix.trans ⟨effects, logged.symm⟩ (List.suffix_cons _ _)
  | number _ => exact List.suffix_append _ _

theorem Moves.trace_suffix (moves : Moves may d d') : d.trace <:+ d'.trace := by
  induction moves with
  | refl => exact List.suffix_refl _
  | tail _ last ih => exact ih.trans last.trace_suffix

/-- The tunnels without a section are dropped. -/
theorem dropMissing_moves {conf : Config κ} {now : ℚ} {send : Nat → SendResult} {tunnels : List Nat}
    (inside : d.Inside) (listed : ∀ j ∈ tunnels, j ∈ d.rtuns)
    (done : run (dropIfMissing conf now send) d tunnels = some d') : Moves may d d' := by
  refine run_preserves (I := fun s => Moves may d s) tunnels ?_ .refl done
  intro s j member s' moves taken
  unfold dropIfMissing at taken
  split at taken
  next =>
    cases taken
    exact moves
  next =>
    have exists_ := Nat.lt_of_lt_of_le (inside j (listed j member)) (moves.inside inside).2
    exact moves.trans (rtunDrop_moves exists_ taken)

/-- A configuration whose sections are read may drop tunnels, and sets filters and
    weights. -/
theorem configEnd_moves {conf : Config κ} {now : ℚ} {send : Nat → SendResult}
    {filters : Daemon κ → List ((List UInt8 → Bool) × Nat)} (inside : d.Inside)
    (done : ((run (dropIfMissing conf now send) d d.rtuns).map fun d =>
      { d with filters := filters d }.recalcWeight) = some d') : Moves may d d' := by
  obtain ⟨d₁, dropped, rfl⟩ := Option.map_eq_some_iff.mp done
  have filtered : Moves may d₁ { d₁ with filters := filters d₁ } :=
    Moves.settle ⟨rfl, rfl, rfl, rfl, List.Subset.refl _⟩
  exact ((dropMissing_moves inside (fun _ member => member) dropped).trans filtered).trans
    recalcWeight_moves

/-- What the parts of a reload keep, a reload keeps. -/
theorem configReload_keeps {I : Daemon κ → Prop} {conf : Option (Config κ)} {now : ℚ}
    {send : Nat → SendResult} (begun : I { d with fallbackAvailable := 0, filters := [] })
    (sections : ∀ part s s', I s.2 → configSection now s part = some s' → I s'.2)
    (drops : ∀ s j s', I s → s.rtunDrop j now (send j) = some s' → I s')
    (filters : ∀ s filters, I s → I { s with filters := filters })
    (weighs : ∀ (s : Daemon κ) j (total : UInt32), I s → I (s.modify j (·.weigh total)))
    (done : d.configReload conf now send = some d') : I d' := by
  cases conf with
  | none =>
      cases done
      exact begun
  | some conf =>
      unfold configReload at done
      obtain ⟨⟨serverMode, d₁⟩, parsed, rest⟩ := Option.bind_eq_some_iff.mp done
      obtain ⟨d₂, dropped, rfl⟩ := Option.map_eq_some_iff.mp rest
      have read : I d₁ := run_preserves (I := fun s => I s.2) conf.sections
        (fun s part _ s' before taken => sections part s s' before taken) begun parsed
      have left : I d₂ := by
        refine run_preserves d₁.rtuns (fun s j _ s' before taken => ?_) read dropped
        unfold dropIfMissing at taken
        split at taken
        next =>
          cases taken
          exact before
        next => exact drops s j s' before taken
      exact recalcWeight_keeps (filters d₂ _ left) weighs

theorem configReload_moves {conf : Option (Config κ)} {now : ℚ} {send : Nat → SendResult}
    (allowed : may) (inside : d.Inside) (done : d.configReload conf now send = some d') :
    Moves may d d' := by
  have cleared : Settles d { d with fallbackAvailable := 0, filters := [] } :=
    ⟨rfl, rfl, rfl, rfl, List.Subset.refl _⟩
  cases conf with
  | none =>
      cases done
      exact Moves.settle cleared
  | some conf =>
      obtain ⟨⟨serverMode, d₁⟩, parsed, rest⟩ := Option.bind_eq_some_iff.mp done
      have sections : Moves may d d₁ := (Moves.settle cleared).trans (configSections_moves allowed parsed)
      exact sections.trans (configEnd_moves (sections.inside inside).1 rest)

/-- At the end a tunnel that is connected gets a disconnect. -/
theorem quitTunnel_cases {now : ℚ} {send : Nat → SendResult}
    (done : quitTunnel now send d i = some d') :
    ((d.modify i Tunnel.stopWatching).tun i).status.Up ∧
        (d.modify i Tunnel.stopWatching).sendDisconnect i now (send i) = some d' ∨
      d' = d.modify i Tunnel.stopWatching := by
  unfold quitTunnel at done
  dsimp only at done
  split at done
  next up => exact .inl ⟨up, done⟩
  next =>
    cases done
    exact .inr rfl

theorem quit_moves {now : ℚ} {send : Nat → SendResult} (done : d.quit now send = some d') :
    Moves may d d' := by
  obtain ⟨d₁, stopped, rfl⟩ := Option.map_eq_some_iff.mp done
  have disconnected : Moves may d d₁ := by
    refine run_preserves (I := fun s => Moves may d s) d.rtuns ?_ .refl stopped
    intro s j _ s' moves taken
    have unwatched : Moves may s (s.modify j Tunnel.stopWatching) :=
      Moves.tune (.of_fields rfl rfl rfl rfl rfl rfl)
    rcases quitTunnel_cases taken with ⟨up, sent⟩ | rfl
    · exact (moves.trans unwatched).trans (sendDisconnect_moves (lt_of_up up) sent)
    · exact moves.trans unwatched
  exact disconnected.trans (Moves.settle ⟨rfl, rfl, rfl, rfl, List.Subset.refl _⟩)

/-- Only a reload of the configuration creates tunnels. -/
def Event.Reloads : Event κ → Prop
  | .reload _ _ => True
  | _ => False

/-- What an event comes to: nothing, where the process has stopped or the watcher is not
    active, and else what its callback does. -/
inductive Stepped (d : Daemon κ) (now : ℚ) : Event κ → Daemon κ → Prop where
  | pass (e : Event κ) : Stepped d now e d
  | read {i : Nat} {result : ReadResult} {d' : Daemon κ} (running : d.stopped = false)
      (reads : (d.tun i).ioRead = true) (done : d.rtunRead i now result = some d') :
      Stepped d now (.read i result) d'
  | write {i : Nat} {first second : SendResult} {d' : Daemon κ}
      (done : d.rtunWrite i now first second = some d') : Stepped d now (.write i first second) d'
  | timeout {i : Nat} {result : StartResult} {d' : Daemon κ} (running : d.stopped = false)
      (active : (d.tun i).ioTimeout.active = true) (done : d.checkTimeout i now result = some d') :
      Stepped d now (.timeout i result) d'
  | tuntapRead {data : List UInt8} {d' : Daemon κ} (done : d.tuntapRead data = some d') :
      Stepped d now (.tuntapRead data) d'
  | tuntapWrite {d' : Daemon κ} (done : (d.rx.step .tuntapWrite).map d.withRx = some d') :
      Stepped d now .tuntapWrite d'
  | drainTimeout {d' : Daemon κ} (done : (d.rx.step .timeout).map d.withRx = some d') :
      Stepped d now .drainTimeout d'
  | adjustTimeout {period : ℚ} {d' : Daemon κ}
      (done : (d.rx.step (.adjust period)).map d.withRx = some d') : Stepped d now .adjustTimeout d'
  | reload {conf : Option (Config κ)} {send : Nat → SendResult} {d' : Daemon κ}
      (done : d.configReload conf now send = some d') : Stepped d now (.reload conf send) d'
  | quit {send : Nat → SendResult} {d' : Daemon κ} (done : d.quit now send = some d') :
      Stepped d now (.quit send) d'

theorem step_cases {now : ℚ} {e : Event κ} (done : d.step (now, e) = some d') :
    Stepped d now e d' := by
  simp only [step] at done
  split at done
  next =>
    cases done
    exact .pass e
  next stopped =>
    have running : d.stopped = false := Bool.eq_false_iff.mpr stopped
    cases e with
    | read i result =>
        simp only at done
        split at done
        next reads => exact .read running reads done
        next =>
          cases done
          exact .pass _
    | write i first second =>
        simp only at done
        split at done
        next => exact .write done
        next =>
          cases done
          exact .pass _
    | timeout i result =>
        simp only at done
        split at done
        next active => exact .timeout running active done
        next =>
          cases done
          exact .pass _
    | tuntapRead data => exact .tuntapRead done
    | tuntapWrite => exact .tuntapWrite done
    | drainTimeout => exact .drainTimeout done
    | adjustTimeout =>
        simp only [adjustReorderTimeout] at done
        exact .adjustTimeout done
    | reload conf send => exact .reload done
    | quit send => exact .quit done

/-- An event is a sequence of moves, after a handshake at most, which only a
    datagram can bring. -/
theorem step_moves {now : ℚ} {e : Event κ} (inside : d.Inside) (done : d.step (now, e) = some d') :
    Moves e.Reloads d d' ∨ ∃ i bytes sender named d₁,
      let type := PktType.ofCode (Proto.decode d.host.endian (bytes.take defaultMtu)).flags
      e = .read i (.datagram bytes sender named) ∧ Authenticates d d₁ i type ∧ Moves e.Reloads d₁ d' := by
  cases step_cases done with
  | pass => exact .inl .refl
  | @read i _ _ _ _ done =>
      rcases rtunRead_moves done with moves | ⟨bytes, sender, named, d₁, rfl, rest⟩
      · exact .inl moves
      · exact .inr ⟨i, bytes, sender, named, d₁, rfl, rest⟩
  | write done => exact .inl (rtunWrite_moves done)
  | timeout _ _ done => exact .inl (checkTimeout_moves done)
  | tuntapRead done => exact .inl (tuntapRead_moves done)
  | tuntapWrite done | drainTimeout done | adjustTimeout done =>
      exact .inl (Moves.receive (fun _ _ other => by cases other) (fun _ other => by cases other) done)
  | reload done => exact .inl (configReload_moves trivial inside done)
  | quit done => exact .inl (quit_moves done)

/-- Neither a packet, nor a new tunnel. -/
def Plain : Effect → Prop
  | .created _ | .sending _ | .encrypted _ | .sent _ _ _ => False
  | _ => True

theorem Passing.plain {new : List Reception} {e : Effect} (passing : Passing d new e) : Plain e := by
  cases passing <;> exact trivial

/-- No packet is sent and no tunnel created: the tunnels keep their numbers,
    their roles and what is queued. -/
structure Shifts (d d' : Daemon κ) (effects : List Effect) : Prop where
  endian : d'.host.endian = d.host.endian
  length : d'.tuns.length = d.tuns.length
  alike : ∀ j, Alike (d.tun j) (d'.tun j)
  trace : d'.trace = effects ++ d.trace
  plain : ∀ e ∈ effects, Plain e

theorem Shifts.of_tuns {effects : List Effect} (endian : d'.host.endian = d.host.endian)
    (tuns : d'.tuns = d.tuns) (trace : d'.trace = effects ++ d.trace)
    (plain : ∀ e ∈ effects, Plain e) : Shifts d d' effects where
  endian := endian
  length := by rw [tuns]
  alike := fun j => by
    rw [tun, tun, tuns]
    exact (Quiet.refl _).toAlike
  trace := trace
  plain := plain

theorem Shifts.log {e : Effect} (plain : Plain e) : Shifts d (d.log e) [e] :=
  .of_tuns rfl rfl rfl fun _ member => List.mem_singleton.mp member ▸ plain

theorem Shifts.modify {f : Tunnel → Tunnel} (alike : Alike (d.tun i) (f (d.tun i))) :
    Shifts d (d.modify i f) [] where
  endian := rfl
  length := length_modify ..
  alike := modify_alike alike
  trace := rfl
  plain := fun _ member => by cases member

theorem Shifts.trans {d'' : Daemon κ} {effects effects' : List Effect} (first : Shifts d d' effects)
    (second : Shifts d' d'' effects') : Shifts d d'' (effects' ++ effects) where
  endian := second.endian.trans first.endian
  length := second.length.trans first.length
  alike := fun j => (first.alike j).trans (second.alike j)
  trace := by rw [second.trace, first.trace, List.append_assoc]
  plain := fun e member => (List.mem_append.mp member).elim (second.plain e) (first.plain e)

theorem Passes.shifts {new : List Reception} (passes : Passes d d' new) :
    ∃ effects, Shifts d d' effects := by
  obtain ⟨effects, logged, passing⟩ := passes.trace
  exact ⟨effects, .of_tuns (by rw [passes.host]) passes.tuns logged fun e member =>
    (passing e member).plain⟩

/-- The moves that do more than shift the tunnels. -/
inductive Notable (may : Prop) : Daemon κ → Daemon κ → Prop where
  | number {d : Daemon κ} {i : Nat} {t : Tunnel} {effects : List Effect} : Numbers d i t effects →
      Notable may d { d.modify i (fun _ => t) with trace := effects ++ d.trace }
  | sent {d : Daemon κ} {i : Nat} {type : PktType} {datagram : List UInt8} :
      Shows d i type datagram → Notable may d (d.log (.sent i type datagram))
  | create {d d' : Daemon κ} {t : Tunnel} : may → t.seq = 0 → t.Stocked →
      d'.host = d.host → d'.tuns = d.tuns ++ [t] → d'.trace = .created d.tuns.length :: d.trace →
      Notable may d d'

theorem Move.shifts (move : Move may d d') :
    (∃ effects, Shifts d d' effects) ∨ Notable may d d' := by
  cases move with
  | tune quiet => exact .inl ⟨_, .modify quiet.toAlike⟩
  | settle settles =>
      exact .inl ⟨[], .of_tuns settles.endian settles.tuns settles.trace fun _ member => by cases member⟩
  | script command => exact .inl ⟨_, .log trivial⟩
  | reset done => exact .inl (wrrReset_passes [] done).1.shifts
  | receive _ _ _ => exact .inl (withRx_passes d _).shifts
  | down done =>
      obtain ⟨d₁, rfl, passes⟩ := (statusDown_lowers done).passes
      obtain ⟨effects, passed⟩ := passes.shifts
      exact .inl ⟨_, (Shifts.modify ⟨rfl, rfl, rfl, id⟩).trans (passed.trans (.log trivial))⟩
  | accept i type decrypted => exact .inl ⟨_, .log trivial⟩
  | number numbers => exact .inr (.number numbers)
  | sent shows => exact .inr (.sent shows)
  | create conf serverMode flowId now allowed =>
      exact .inr (.create allowed rfl ⟨.init _ _, .init _ _⟩ rfl rfl rfl)

/-- A move connects no tunnel. -/
theorem Move.up (move : Move may d d') (j : Nat) (connected : (d'.tun j).status.Up) :
    (d.tun j).status.Up := by
  have kept (tuns : d'.tuns = d.tuns) : (d.tun j).status.Up := by
    rwa [tun, ← tuns]
  cases move with
  | tune quiet => exact (modify_up quiet.up j).mp connected
  | settle settles => exact kept settles.tuns
  | script _ => exact connected
  | reset done => exact kept (wrrReset_passes [] done).1.tuns
  | receive _ _ _ => exact connected
  | @down _ i done =>
      obtain ⟨d₁, rfl, passes⟩ := (statusDown_lowers done).passes
      have lowered : d₁.tun j = (d.modify i Tunnel.lowered).tun j := by rw [tun, passes.tuns, tun]
      exact ((up_lowered j).mp (lowered ▸ connected)).1
  | accept _ _ _ => exact connected
  | number numbers => exact (modify_up numbers.quiet.up j).mp connected
  | sent _ => exact connected
  | create conf serverMode flowId now _ =>
      rw [tun_append (d := d) rfl] at connected
      split at connected
      next => exact absurd connected (by decide : ¬ Status.disconnected.Up)
      next => exact connected

theorem Moves.up (moves : Moves may d d') (j : Nat) (connected : (d'.tun j).status.Up) :
    (d.tun j).status.Up := by
  induction moves with
  | refl => exact connected
  | tail _ last ih => exact ih (last.up j connected)

theorem Authenticates.shifts {type : PktType} (auth : Authenticates d d' i type) :
    ∃ effects, Shifts d d' effects := by
  obtain ⟨_, _, t, alike, _, rfl⟩ := auth
  have raised : Shifts d (d.modify i fun _ => t) [] := .modify alike
  exact ⟨_, raised.trans (.log trivial)⟩

/-- What holds at the start, and is preserved by moves and handshakes, holds
    whatever the events. -/
theorem run_keeps {I : Daemon κ → Prop}
    (moves : ∀ (may : Prop) (d d' : Daemon κ), Move may d d' → I d → I d')
    (handshakes : ∀ (d d' : Daemon κ) i type, Authenticates d d' i type → I d → I d')
    {host : Host κ} (initially : I (.init host)) {events : List (ℚ × Event κ)}
    (reached : run step (.init host) events = some d) : I d := by
  refine (run_preserves (I := fun s => s.Inside ∧ I s) events ?_ ?_ reached).2
  · rintro s ⟨now, e⟩ _ s' ⟨inside, holds⟩ done
    rcases step_moves inside done with path | ⟨i, bytes, sender, named, d₁, _, auth, path⟩
    · exact ⟨(path.inside inside).1, path.preserve (moves _) holds⟩
    · have connected := handshakes s d₁ i _ auth holds
      obtain ⟨_, _, t, _, _, rfl⟩ := auth
      exact ⟨(path.inside (inside.modify i fun _ => t)).1, path.preserve (moves _) connected⟩
  · exact ⟨fun j member => (by cases member), initially⟩

/-- The receive path moves by its own events only, and its buffer is sized only where a
    tunnel may be created. -/
theorem Move.receives (move : Move may d d') :
    d'.rx = d.rx ∨ ∃ e, (∀ size, e = .reload size → may) ∧ d.rx.step e = some d'.rx := by
  cases move with
  | tune _ | script _ | accept _ _ _ | number _ | sent _ | create _ _ _ _ _ => exact .inl rfl
  | settle settles => exact .inl settles.rx
  | reset done => exact .inl (wrrReset_passes [] done).2
  | receive stepped _ sized => exact .inr ⟨_, sized, stepped⟩
  | @down _ i done =>
      have lowers := statusDown_lowers done
      by_cases connected : (d.tun i).status.Up
      · exact .inr ⟨.statusChange, fun _ other => (by cases other), lowers.drained connected⟩
      · exact .inl (lowers.idle connected)

end Mlvpn.Daemon
