import Mlvpn.Daemon.Table

/-! # What is done to a tunnel

The callbacks of the loop, seen from a single tunnel: a sequence of acts, each a
function of `mlvpn.c` or a part of one, with the test it is done under.  What
every act keeps, every tunnel keeps through every event.

The watcher for writes is stopped when a packet has left a queue empty.  Whether
that may have been the queue of higher priority is told by `sends`, and whether
the configuration is being read by `loads`.
-/

namespace Mlvpn

namespace Tunnel

/-- A tunnel whose first packet of a queue has been read and numbered. -/
def taken (t : Tunnel) (highPriority : Bool) (dataSeq now64 : UInt64) : Tunnel :=
  let read := pktbufferRead (t.queue highPriority)
  (sendHeader (t.setQueue highPriority read.2) dataSeq now64 read.1).2.1

theorem taken_ioWrite (t : Tunnel) (highPriority : Bool) (dataSeq now64 : UInt64) :
    (t.taken highPriority dataSeq now64).ioWrite = t.ioWrite := by
  unfold taken sendHeader
  dsimp only
  cases highPriority <;> split <;> rfl

theorem taken_status (t : Tunnel) (highPriority : Bool) (dataSeq now64 : UInt64) :
    (t.taken highPriority dataSeq now64).status = t.status := by
  unfold taken sendHeader
  dsimp only
  cases highPriority <;> split <;> rfl

/-- The other queue stays as it is. -/
theorem taken_queue (t : Tunnel) (highPriority other : Bool) (dataSeq now64 : UInt64) :
    (t.taken highPriority dataSeq now64).queue other =
      if other = highPriority then (pktbufferRead (t.queue highPriority)).2 else t.queue other := by
  unfold taken sendHeader
  dsimp only
  cases highPriority <;> cases other <;> split <;> rfl

inductive Act (sends loads : Prop) : Tunnel → Tunnel → Prop where
  | create (conf : TunnelConf) (serverMode : Bool) (flowId : UInt32) (now : ℚ) :
      loads → Act sends loads .blank (.init conf serverMode flowId now)
  | measure {t t' : Tunnel} : t.Remeasured t' → Act sends loads t t'
  | countReceived {t : Tunnel} (len : Nat) : Act sends loads t (t.countReceived len)
  | adoptAddr {t t' : Tunnel} {sender : Addr} {named : Bool} :
      t.adoptAddr sender named = some t' → Act sends loads t t'
  | tick {t : Tunnel} (now : ℚ) : Act sends loads t (t.tick now)
  | keepaliveReceived {t : Tunnel} (now : ℚ) : Act sends loads t (t.keepaliveReceived now)
  /-- A server answers a challenge, and is connected. -/
  | answer {t : Tunnel} (now : ℚ) : t.serverMode = true →
      t.status = .disconnected ∨ t.status.Up →
      Act sends loads t { (t.queueAuthOk.tick now).raised now with ioWrite := true }
  /-- A client is answered. -/
  | confirm {t : Tunnel} (now : ℚ) : t.serverMode = false → t.status = .authsent →
      Act sends loads t ((t.tick now).raised now)
  | lower {t : Tunnel} : Act sends loads t t.lowered
  | regrade {t : Tunnel} {status : Status} :
      t.lossyStatus = some status ∨ t.slowStatus = some status →
      Act sends loads t { t with status := status }
  | sendKeepalive {t : Tunnel} (now : ℚ) : Act sends loads t (t.sendKeepalive now)
  | tickConnect {t : Tunnel} (now : ℚ) (result : StartResult) : ¬ t.status.Up →
      Act sends loads t (t.tickConnect now result)
  /-- The watcher for writes is started on account of a control packet. -/
  | watch {t : Tunnel} : ¬ cbIsEmpty t.hpsbuf → Act sends loads t { t with ioWrite := true }
  | queueData {t : Tunnel} (highPriority : Bool) (data : List UInt8) :
      Act sends loads t (t.queueData highPriority data)
  | queueBare {t : Tunnel} {type : PktType} : type.Known → Act sends loads t (t.queueBare type)
  /-- A packet leaves its queue; data is only taken where there is some. -/
  | take {t : Tunnel} (highPriority : Bool) (dataSeq now64 : UInt64) :
      (highPriority = false → ¬ cbIsEmpty t.sbuf) →
      Act sends loads t (t.taken highPriority dataSeq now64)
  | countSent {t : Tunnel} (len : Nat) : Act sends loads t (t.countSent len)
  | stopIfEmpty {t : Tunnel} {highPriority : Bool} : (highPriority = true → sends) →
      Act sends loads t (t.stopIfEmpty highPriority)
  | refit {t : Tunnel} (conf : TunnelConf) : loads → Act sends loads t (t.refit conf)
  | weigh {t : Tunnel} (total : UInt32) : loads → Act sends loads t (t.weigh total)
  | stopWatching {t : Tunnel} : Act sends loads t t.stopWatching

/-- The loss window. -/
def window (t : Tunnel) : UInt64 × UInt64 := (t.seqLast, t.seqVect)

/-- The round trip time, and whether it has been measured. -/
def timing (t : Tunnel) : ℚ × Bool := (t.srtt, t.rttHit)

/-- What is measured of a tunnel. -/
def measures (t : Tunnel) : (UInt64 × UInt64) × (ℚ × Bool) := (t.window, t.timing)

/-- The measurements and the status. -/
def health (t : Tunnel) : ((UInt64 × UInt64) × (ℚ × Bool)) × Status := (t.measures, t.status)

/-- The loss window changes with a sequence number. -/
def Listens (t t' : Tunnel) : Prop := t'.window = t.window ∨ ∃ seq, t'.window = (lossUpdate t seq).window

/-- An act with what it does to the measurements.  A tunnel becomes lossy or slow in a check
    only, which `grades` tells. -/
structure Deed (sends loads grades : Prop) (t t' : Tunnel) : Prop where
  act : Act sends loads t t'
  listens : Listens t t'
  timed : t'.timing = t.timing ∨ t'.rttHit = true
  graded : t'.status = .lossy ∨ t'.status = .highLatency → t'.status = t.status ∨
    grades ∧ (t.lossyStatus = some t'.status ∨ t.slowStatus = some t'.status)

variable {t t' : Tunnel} {sends loads grades : Prop}

/-- Most acts leave the measurements and the status. -/
theorem Deed.of_health (act : Act sends loads t t') (same : t'.health = t.health) :
    Deed sends loads grades t t' := by
  obtain ⟨measures, status⟩ := Prod.mk.inj same
  obtain ⟨window, timing⟩ := Prod.mk.inj measures
  exact ⟨act, .inl window, .inl timing, fun _ => .inl status⟩

/-- Others connect the tunnel or take it down. -/
theorem Deed.of_plain (act : Act sends loads t t') (measures : t'.measures = t.measures)
    (plain : t'.status = .authok ∨ ¬ t'.status.Up) : Deed sends loads grades t t' := by
  obtain ⟨window, timing⟩ := Prod.mk.inj measures
  refine ⟨act, .inl window, .inl timing, ?_⟩
  rintro (lossy | slow)
  · rw [lossy] at plain
    exact absurd plain (by decide)
  · rw [slow] at plain
    exact absurd plain (by decide)

theorem health_queueBare (type : PktType) : (t.queueBare type).health = t.health := by
  unfold queueBare
  split <;> rfl

theorem health_sendKeepalive (now : ℚ) : (t.sendKeepalive now).health = t.health := by
  have timed : ∀ t : Tunnel, { t with nextKeepalive := now + 1 }.health = t.health := fun _ => rfl
  exact (timed _).trans (health_queueBare .keepalive)

theorem health_keepaliveReceived (now : ℚ) : (t.keepaliveReceived now).health = t.health := by
  unfold keepaliveReceived
  dsimp only
  split
  next => exact (health_sendKeepalive now).trans rfl
  next => rfl

theorem health_taken (highPriority : Bool) (dataSeq now64 : UInt64) :
    (t.taken highPriority dataSeq now64).health = t.health := by
  unfold taken sendHeader
  dsimp only
  cases highPriority <;> split <;> rfl

theorem health_queueData (highPriority : Bool) (data : List UInt8) :
    (t.queueData highPriority data).health = t.health := by
  unfold queueData
  dsimp only
  cases highPriority <;> split <;> rfl

theorem health_stopIfEmpty (highPriority : Bool) : (t.stopIfEmpty highPriority).health = t.health := by
  unfold stopIfEmpty
  split <;> rfl

theorem health_weigh (total : UInt32) : (t.weigh total).health = t.health := by
  unfold weigh
  split <;> rfl

theorem health_adoptAddr {sender : Addr} {named : Bool} (adopted : t.adoptAddr sender named = some t') :
    t'.health = t.health := by
  obtain ⟨addr, rfl⟩ := adoptAddr_eq adopted
  rfl

theorem measures_tickConnect (now : ℚ) (result : StartResult) :
    (t.tickConnect now result).measures = t.measures := by
  rcases t.tickConnect_started now result with started | ⟨opened, started, challenged⟩
  · rw [started]
    rfl
  · rw [challenged, started]
    rfl

/-- The answer of a server. -/
theorem measures_raised (t : Tunnel) (now : ℚ) : (t.raised now).measures = t.measures := rfl

theorem measures_confirm (now : ℚ) : ((t.tick now).raised now).measures = t.measures :=
  (measures_raised _ now).trans rfl

theorem measures_answer (now : ℚ) :
    { (t.queueAuthOk.tick now).raised now with ioWrite := true }.measures = t.measures := by
  have watched : ∀ t : Tunnel, { t with ioWrite := true }.measures = t.measures := fun _ => rfl
  have queued : (t.queueAuthOk.tick now).measures = t.measures := rfl
  exact (watched _).trans ((measures_raised _ now).trans queued)

theorem status_raised (t : Tunnel) (now : ℚ) : (t.raised now).status = .authok := rfl

theorem lowered_not_up : ¬ t.lowered.status.Up := by
  have down : ¬ Status.disconnected.Up := by decide
  exact down

theorem window_rttUpdate (t : Tunnel) (sample : ℚ) : (rttUpdate t sample).window = t.window := by
  unfold rttUpdate
  split <;> rfl

theorem window_protocolMeasure (t : Tunnel) (now64 : UInt64) (proto : Proto) :
    (protocolMeasure t now64 proto).window =
      (if proto.version ≥ 1 then lossUpdate t proto.seq else t).window := by
  unfold protocolMeasure
  dsimp only
  generalize (if proto.version ≥ 1 then lossUpdate t proto.seq else t) = t₁
  have stamped : (if proto.timestamp ≠ 0xFFFF then
      { t₁ with
        savedTimestamp := UInt64.ofNat proto.timestamp.toNat
        savedTimestampReceivedAt := now64 } else t₁).window = t₁.window := by
    split <;> rfl
  split_ifs at stamped ⊢
  all_goals first | exact (window_rttUpdate _ _).trans stamped | exact stamped

theorem timing_lossUpdate (t : Tunnel) (seq : UInt64) : (lossUpdate t seq).timing = t.timing := by
  unfold lossUpdate
  split_ifs <;> rfl

/-- A sample is a measurement. -/
theorem rttHit_rttUpdate (t : Tunnel) (sample : ℚ) : (rttUpdate t sample).rttHit = true := by
  unfold rttUpdate
  split
  next measured => exact measured
  next => rfl

theorem timed_protocolMeasure (t : Tunnel) (now64 : UInt64) (proto : Proto) :
    (protocolMeasure t now64 proto).timing = t.timing ∨
      (protocolMeasure t now64 proto).rttHit = true := by
  have heard : (if proto.version ≥ 1 then lossUpdate t proto.seq else t).timing = t.timing := by
    split
    next => exact timing_lossUpdate t proto.seq
    next => rfl
  unfold protocolMeasure
  dsimp only
  generalize (if proto.version ≥ 1 then lossUpdate t proto.seq else t) = t₁ at heard ⊢
  split_ifs
  all_goals first | exact .inr (rttHit_rttUpdate _ _) | exact .inl heard

/-- A datagram is measured. -/
theorem Deed.measure {κ : Type} {host : Host κ} {cleartextData : Bool} {now64 : UInt64}
    {datagram : List UInt8} {outcome : Option (Bool × Pkt)}
    (read : protocolRead host cleartextData now64 t datagram = (outcome, t')) :
    Deed sends loads grades t t' := by
  have remeasured := remeasured_of_read read
  have measures := protocolRead_measures host cleartextData now64 t datagram
  simp only [read] at measures
  refine ⟨.measure remeasured, ?_, ?_, fun _ => .inl ?_⟩
  · rcases measures with same | ⟨proto, measured⟩
    · exact .inl (congrArg window same)
    · rw [measured, Listens, window_protocolMeasure]
      split
      next => exact .inr ⟨proto.seq, rfl⟩
      next => exact .inl rfl
  · rcases measures with same | ⟨proto, measured⟩
    · exact .inl (congrArg timing same)
    · rw [measured]
      exact timed_protocolMeasure t now64 proto
  · rw [remeasured]
    rfl

end Tunnel

namespace Daemon

open Library.Machine Tunnel

variable {κ : Type} {d d' d'' : Daemon κ} {i : Nat} {sends : Nat → Prop} {loads grades : Prop}

/-- Every tunnel is left by a sequence of acts. -/
def Acts (sends : Nat → Prop) (loads : Prop) (d d' : Daemon κ) : Prop :=
  ∀ j, Relation.ReflTransGen (Act (sends j) loads) (d.tun j) (d'.tun j)

theorem Acts.trans (first : Acts sends loads d d') (second : Acts sends loads d' d'') :
    Acts sends loads d d'' :=
  fun j => (first j).trans (second j)

/-- What is not a tunnel may have changed. -/
theorem Acts.of_tuns (tuns : d'.tuns = d.tuns) : Acts sends loads d d' := by
  intro j
  rw [tun, tun, tuns]

theorem Acts.act {f : Tunnel → Tunnel} (act : Act (sends i) loads (d.tun i) (f (d.tun i))) :
    Acts sends loads d (d.modify i f) := by
  intro j
  rw [tun_modify]
  split
  next here =>
    rw [here.1]
    exact .single act
  next => exact .refl

/-- What every act keeps is kept. -/
theorem Acts.preserve {P : Tunnel → Prop} {j : Nat} (acts : Acts sends loads d d')
    (kept : ∀ t t', Act (sends j) loads t t' → P t → P t') (initially : P (d.tun j)) : P (d'.tun j) := by
  have run := acts j
  generalize d'.tun j = last at run ⊢
  induction run with
  | refl => exact initially
  | tail _ act ih => exact kept _ _ act ih

/-- The same, with what is done to the measurements. -/
def Deeds (sends : Nat → Prop) (loads grades : Prop) (d d' : Daemon κ) : Prop :=
  ∀ j, Relation.ReflTransGen (Deed (sends j) loads grades) (d.tun j) (d'.tun j)

theorem Deeds.toActs (deeds : Deeds sends loads grades d d') : Acts sends loads d d' :=
  fun j => Relation.ReflTransGen.mono (fun _ _ => Deed.act) _ _ (deeds j)

/-- Where it does not matter what is checked. -/
theorem Deeds.acts (deeds : Deeds sends loads True d d') : Acts sends loads d d' := deeds.toActs

theorem Deeds.trans (first : Deeds sends loads grades d d') (second : Deeds sends loads grades d' d'') :
    Deeds sends loads grades d d'' :=
  fun j => (first j).trans (second j)

theorem Deeds.of_tuns (tuns : d'.tuns = d.tuns) : Deeds sends loads grades d d' := by
  intro j
  rw [tun, tun, tuns]

theorem Deeds.refl (d : Daemon κ) : Deeds sends loads grades d d := .of_tuns rfl

theorem Deeds.modify {f : Tunnel → Tunnel}
    (deeds : Relation.ReflTransGen (Deed (sends i) loads grades) (d.tun i) (f (d.tun i))) :
    Deeds sends loads grades d (d.modify i f) := by
  intro j
  rw [tun_modify]
  split
  next here =>
    rw [here.1]
    exact deeds
  next => exact .refl

theorem Deeds.deed {f : Tunnel → Tunnel}
    (deed : Deed (sends i) loads grades (d.tun i) (f (d.tun i))) :
    Deeds sends loads grades d (d.modify i f) :=
  .modify (.single deed)

theorem Deeds.act {f : Tunnel → Tunnel} (act : Act (sends i) loads (d.tun i) (f (d.tun i)))
    (same : (f (d.tun i)).health = (d.tun i).health) :
    Deeds sends loads grades d (d.modify i f) :=
  .deed (.of_health act same)

theorem Deeds.preserve {P : Tunnel → Prop} {j : Nat} (deeds : Deeds sends loads grades d d')
    (kept : ∀ t t', Deed (sends j) loads grades t t' → P t → P t') (initially : P (d.tun j)) :
    P (d'.tun j) := by
  have run := deeds j
  generalize d'.tun j = last at run ⊢
  induction run with
  | refl => exact initially
  | tail _ deed ih => exact kept _ _ deed ih

theorem receive_deeds {e : Receive.Event} (done : (d.rx.step e).map d.withRx = some d') :
    Deeds sends loads grades d d' := by
  obtain ⟨rx, _, rfl⟩ := Option.map_eq_some_iff.mp done
  exact .of_tuns rfl

theorem statusDown_tuns (done : d.statusDown i = some d') :
    d'.tuns = (d.modify i Tunnel.lowered).tuns := by
  obtain ⟨d₁, rfl, passes⟩ := (statusDown_lowers done).passes
  exact passes.tuns

theorem statusDown_deeds (done : d.statusDown i = some d') : Deeds sends loads grades d d' :=
  (Deeds.deed (.of_plain .lower rfl (.inr lowered_not_up))).trans (.of_tuns (statusDown_tuns done))

theorem sendAuth_deeds {now : ℚ} (done : d.sendAuth i now = some d') : Deeds sends loads grades d d' := by
  cases sendAuth_cases done with
  | answers server ready raised =>
      have tuns := (statusUp_rebuilds raised).tuns
      have answered : Deeds sends loads grades d (d.modify i fun t =>
          { (t.queueAuthOk.tick now).raised now with ioWrite := true }) :=
        .deed (.of_plain (.answer now server ready) (measures_answer now) (.inl rfl))
      refine answered.trans (.of_tuns ?_)
      simp only [modify, tuns, List.modify_modify_eq]
      rfl
  | confirms client sent raised =>
      have confirmed : Deeds sends loads grades d (d.modify i fun t => (t.tick now).raised now) :=
        .deed (.of_plain (.confirm now client sent) (measures_confirm now)
          (.inl (status_raised _ now)))
      refine confirmed.trans (.of_tuns ?_)
      rw [(statusUp_rebuilds raised).tuns, modify_modify]
      rfl
  | ignores _ => exact .refl d

theorem regrade_deeds {grade : Option Status} (checked : grades)
    (found : ∀ status, grade = some status →
      (d.tun i).lossyStatus = some status ∨ (d.tun i).slowStatus = some status)
    (done : d.regrade i grade = some d') : Deeds sends loads grades d d' := by
  cases grade with
  | none =>
      cases done
      exact .refl d
  | some status =>
      have stored : Deeds sends loads grades d (d.modify i fun t => { t with status := status }) :=
        .deed ⟨.regrade (found status rfl), .inl rfl, .inl rfl, fun _ => .inr ⟨checked, found status rfl⟩⟩
      refine stored.trans ?_
      rcases switchToFallback_tables done with ⟨_, rebuilds, _⟩ | ⟨rfl, _⟩
      · exact .of_tuns rebuilds.tuns
      · exact .refl _

/-- A check changes the status of a tunnel only. -/
theorem regrade_tun {grade : Option Status}
    (connected : ∀ status, grade = some status → (d.tun i).status.Up)
    (done : d.regrade i grade = some d') :
    d'.tun i = { d.tun i with status := grade.getD (d.tun i).status } := by
  cases grade with
  | none =>
      cases done
      rfl
  | some status =>
      have tuns : d'.tuns = (d.modify i fun t => { t with status := status }).tuns := by
        rcases switchToFallback_tables done with ⟨_, rebuilds, _⟩ | ⟨rfl, _⟩
        · exact rebuilds.tuns
        · rfl
      rw [tun, tuns]
      exact tun_modify_self (lt_of_up (connected status rfl)) _

theorem checkLossy_tun (done : d.checkLossy i = some d') :
    d'.tun i = { d.tun i with status := (d.tun i).lossyStatus.getD (d.tun i).status } :=
  regrade_tun (fun _ changed => (lossyStatus_up changed).1) done

/-- The status that a check leaves. -/
theorem checkLossy_status (done : d.checkLossy i = some d') :
    (d'.tun i).status = (d.tun i).lossyStatus.getD (d.tun i).status := by
  rw [checkLossy_tun done]

theorem checkSlow_status (done : d.checkSlow i = some d') :
    (d'.tun i).status = (d.tun i).slowStatus.getD (d.tun i).status := by
  rw [regrade_tun (fun _ changed => (slowStatus_up changed).1) done]

theorem takePacket_tuns (highPriority : Bool) (now : ℚ) :
    (d.takePacket i highPriority now).2.2.tuns =
      (d.modify i (·.taken highPriority d.dataSeq (timestamp64 now))).tuns := by
  have same : (d.modify i fun _ => (d.tun i).taken highPriority d.dataSeq (timestamp64 now)).tuns =
      (d.modify i (·.taken highPriority d.dataSeq (timestamp64 now))).tuns :=
    congrArg Daemon.tuns (modify_congr rfl)
  rw [← same]
  unfold takePacket
  dsimp only
  split <;> rfl

theorem takePacket_deeds {highPriority : Bool} (now : ℚ)
    (filled : highPriority = false → ¬ cbIsEmpty (d.tun i).sbuf) :
    Deeds sends loads grades d (d.takePacket i highPriority now).2.2 := by
  have taken : Deeds sends loads grades d (d.modify i (·.taken highPriority d.dataSeq (timestamp64 now))) :=
    .act (.take highPriority d.dataSeq (timestamp64 now) filled) (health_taken ..)
  exact taken.trans (.of_tuns (takePacket_tuns highPriority now))

theorem afterSendto_deeds {type : PktType} {datagram : List UInt8} {result : SendResult}
    (done : d.afterSendto i type datagram result = some d') : Deeds sends loads grades d d' := by
  cases result with
  | blocked =>
      cases done
      exact .refl d
  | failed => exact statusDown_deeds done
  | sent len =>
      cases done
      have counted : Deeds sends loads grades d (d.modify i (·.countSent len)) :=
        .act (.countSent len) rfl
      exact counted.trans (.of_tuns rfl)

theorem rtunSend_deeds {highPriority : Bool} {now : ℚ} {result : SendResult}
    (allowed : highPriority = true → sends i)
    (filled : highPriority = false → ¬ cbIsEmpty (d.tun i).sbuf)
    (done : d.rtunSend i highPriority now result = some d') : Deeds sends loads grades d d' := by
  refine (takePacket_deeds now filled).trans ?_
  cases rtunSend_cases done with
  | refuses _ => exact .refl _
  | hands _ sent =>
      exact (afterSendto_deeds sent).trans (.act (.stopIfEmpty allowed) (health_stopIfEmpty _))

theorem writeQueue_deeds {highPriority : Bool} {now : ℚ} {result : SendResult}
    (allowed : highPriority = true → sends i)
    (done : d.writeQueue i highPriority now result = some d') : Deeds sends loads grades d d' := by
  unfold writeQueue at done
  split at done
  next =>
    cases done
    exact .refl d
  next filled =>
    refine rtunSend_deeds allowed (fun low => ?_) done
    rw [low] at filled
    exact filled

theorem dispatch_deeds {now : ℚ} {pkt : Pkt} (done : d.dispatch i now pkt = some d') :
    Deeds sends loads grades d d' := by
  cases dispatch_cases done with
  | ignores => exact .refl d
  | delivers _ _ _ =>
      have ticked : Deeds sends loads grades d (d.modify i (·.tick now)) := .act (.tick now) rfl
      exact ticked.trans (.of_tuns rfl)
  | keepsAlive _ => exact .act (.keepaliveReceived now) (health_keepaliveReceived now)
  | disconnects _ down => exact statusDown_deeds down
  | handshakes _ answered => exact sendAuth_deeds answered

theorem rtunRead_deeds {now : ℚ} {result : ReadResult} (done : d.rtunRead i now result = some d') :
    Deeds sends loads grades d d' := by
  cases rtunRead_cases done with
  | waits _ => exact .refl d
  | fails down => exact statusDown_deeds down
  | refuses read => exact .deed (.measure read)
  | @accepts _ _ _ decrypted pkt _ t₁ _ read adopted dispatched =>
      have accepted : Deeds sends loads grades d (d.modify i fun _ => t₁) :=
        .modify (((Relation.ReflTransGen.single (.measure read)).tail
          (.of_health (.countReceived _) rfl)).tail
            (.of_health (.adoptAddr adopted) (health_adoptAddr adopted)))
      have logged : Deeds sends loads grades d
          ((d.modify i fun _ => t₁).log (.accepted i pkt.type decrypted)) := accepted.trans (.of_tuns rfl)
      exact logged.trans (dispatch_deeds dispatched)

theorem checkAlive_deeds {now : ℚ} {result : StartResult}
    (done : d.checkAlive i now result = some d') : Deeds sends loads grades d d' := by
  unfold checkAlive at done
  dsimp only at done
  split at done
  next =>
    repeat' split at done
    next => exact statusDown_deeds done
    all_goals cases done
    next => exact .act (.sendKeepalive now) (health_sendKeepalive now)
    all_goals exact .refl d
  next idle =>
    cases done
    refine .deed (.of_plain (.tickConnect now result idle) (measures_tickConnect now result) (.inr ?_))
    exact fun up => idle ((Quiet.tickConnect now result idle).up.mp up)

theorem checkTimeout_deeds {now : ℚ} {result : StartResult} (checked : grades)
    (done : d.checkTimeout i now result = some d') : Deeds sends loads grades d d' := by
  obtain ⟨d₁, alive, rest⟩ := Option.bind_eq_some_iff.mp done
  obtain ⟨d₂, lossy, slow⟩ := Option.bind_eq_some_iff.mp rest
  have watched : Deeds sends loads grades d₁ (d₁.modify i fun t =>
      if t.ioWrite = false ∧ ¬ cbIsEmpty t.hpsbuf then { t with ioWrite := true } else t) := by
    apply Deeds.modify
    split
    next queued => exact .single (.of_health (.watch queued.2) rfl)
    next => exact .refl
  exact (((checkAlive_deeds alive).trans watched).trans
    (regrade_deeds checked (fun _ changed => .inl changed) lossy)).trans
    (regrade_deeds checked (fun _ changed => .inr changed) slow)

theorem rtunChoose_tuns (d : Daemon κ) : d.rtunChoose.2.tuns = d.tuns := by
  unfold rtunChoose wrrChoose
  dsimp only
  split <;> rfl

theorem tuntapRead_deeds {data : List UInt8} (done : d.tuntapRead data = some d') :
    Deeds sends loads grades d d' := by
  unfold tuntapRead at done
  split at done
  next => cases done
  next =>
    cases done
    unfold tuntapGenericRead
    split
    next => exact .act (.queueData ..) (health_queueData ..)
    next =>
      have chosen : Deeds sends loads grades d d.rtunChoose.2 := .of_tuns (rtunChoose_tuns d)
      split
      next answer =>
        rw [answer] at chosen
        exact chosen
      next answer =>
        rw [answer] at chosen
        exact chosen.trans (.act (.queueData ..) (health_queueData ..))

theorem sendDisconnect_deeds {now : ℚ} {result : SendResult} (allowed : sends i)
    (done : d.sendDisconnect i now result = some d') : Deeds sends loads grades d d' := by
  have queued : Deeds sends loads grades d (d.modify i (·.queueBare .disconnect)) :=
    .act (.queueBare trivial) (health_queueBare .disconnect)
  exact queued.trans (rtunSend_deeds (fun _ => allowed) (fun low => by cases low) done)

theorem rtunDrop_deeds {now : ℚ} {result : SendResult} (allowed : sends i)
    (done : d.rtunDrop i now result = some d') : Deeds sends loads grades d d' := by
  obtain ⟨d₁, sent, rest⟩ := Option.bind_eq_some_iff.mp done
  obtain ⟨d₂, down, rfl⟩ := Option.map_eq_some_iff.mp rest
  have stopped : Deeds sends loads grades d₂ (d₂.modify i Tunnel.stopWatching) := .act .stopWatching rfl
  exact (((sendDisconnect_deeds allowed sent).trans (statusDown_deeds down)).trans stopped).trans
    (.of_tuns rfl)

theorem Deeds.create {conf : TunnelConf} {serverMode : Bool} {flowId : UInt32} {now : ℚ} (load : loads)
    (tuns : d'.tuns = d.tuns ++ [.init conf serverMode flowId now]) : Deeds sends loads grades d d' := by
  intro j
  rw [tun_append tuns]
  split
  next here =>
    rw [here, tun_eq_blank (lt_irrefl _)]
    exact .single (.of_health (.create conf serverMode flowId now load) rfl)
  next => exact .refl

theorem rtunNew_deeds (load : loads) (conf : TunnelConf) (serverMode : Bool) (flowId : UInt32) (now : ℚ) :
    Deeds sends loads grades d (d.rtunNew conf serverMode flowId now) := by
  unfold rtunNew
  split
  next => exact .refl d
  next => exact .create load rfl

theorem configTunnel_deeds {conf : TunnelConf} {serverMode : Bool} {flowId : UInt32} {now : ℚ}
    (load : loads) (done : d.configTunnel conf serverMode flowId now = some d') : Deeds sends loads grades d d' := by
  obtain ⟨d₁, flagged, configured⟩ := configTunnel_cases done
  have noted : Deeds sends loads grades d d₁ := by
    rcases flagged with rfl | rfl <;> exact .of_tuns rfl
  apply noted.trans
  rcases configured with ⟨_, rfl⟩ | ⟨j, d₂, _, down, rfl⟩
  · exact rtunNew_deeds load conf serverMode flowId now
  · have refitted : Deeds sends loads grades d₂ (d₂.modify j (·.refit conf)) :=
      .act (.refit conf load) rfl
    rcases down with ⟨_, down⟩ | ⟨_, rfl⟩
    · exact (statusDown_deeds down).trans refitted
    · exact refitted

theorem configGeneral_deeds {general : General κ} (done : d.configGeneral general = some d') :
    Deeds sends loads grades d d' := by
  unfold configGeneral at done
  obtain ⟨rx, _, rfl⟩ := Option.map_eq_some_iff.mp done
  exact .of_tuns rfl

theorem configSection_deeds {now : ℚ} {s s' : Bool × Daemon κ} {part : Section κ} (load : loads)
    (done : configSection now s part = some s') : Deeds sends loads grades s.2 s'.2 := by
  rcases configSection_cases done with ⟨general, configured⟩ | ⟨conf, flowId, configured⟩
  · exact configGeneral_deeds configured
  · exact configTunnel_deeds load configured

theorem configReload_deeds {conf : Option (Config κ)} {now : ℚ} {send : Nat → SendResult}
    (allowed : ∀ j, sends j) (load : loads) (done : d.configReload conf now send = some d') :
    Deeds sends loads grades d d' := by
  refine configReload_keeps (I := Deeds sends loads grades d) (.of_tuns rfl) ?_ ?_ ?_ ?_ done
  · exact fun part s s' before taken => before.trans (configSection_deeds load taken)
  · exact fun s j s' before dropped => before.trans (rtunDrop_deeds (allowed j) dropped)
  · exact fun s filters before => before.trans (.of_tuns rfl)
  · exact fun s j total before => before.trans (.act (.weigh total load) (health_weigh total))

theorem quitTunnel_deeds {now : ℚ} {send : Nat → SendResult} (allowed : sends i)
    (done : quitTunnel now send d i = some d') : Deeds sends loads grades d d' := by
  have stopped : Deeds sends loads grades d (d.modify i Tunnel.stopWatching) := .act .stopWatching rfl
  rcases quitTunnel_cases done with ⟨_, sent⟩ | rfl
  · exact stopped.trans (sendDisconnect_deeds allowed sent)
  · exact stopped

theorem quit_deeds {now : ℚ} {send : Nat → SendResult} (allowed : ∀ j, sends j)
    (done : d.quit now send = some d') : Deeds sends loads grades d d' := by
  obtain ⟨d₁, told, rfl⟩ := Option.map_eq_some_iff.mp done
  have told : Deeds sends loads grades d d₁ := by
    refine run_preserves (I := fun s => Deeds sends loads grades d s) d.rtuns ?_ (.refl d) told
    intro s j _ s' acts taken
    exact acts.trans (quitTunnel_deeds (allowed j) taken)
  exact told.trans (.of_tuns rfl)

/-- The tunnels that may send from their queue of higher priority. -/
def Event.Sends : Event κ → Nat → Prop
  | .write i _ _ => (· = i)
  | .quit _ => fun _ => True
  | _ => fun _ => False

/-- The events that check a tunnel. -/
def Event.Grades : Event κ → Prop
  | .timeout _ _ => True
  | _ => False

/-- The events other than a reload. -/
theorem step_deeds {now : ℚ} {e : Event κ} (fixed : ¬ e.Reloads)
    (done : d.step (now, e) = some d') : Deeds e.Sends loads e.Grades d d' := by
  cases step_cases done with
  | pass => exact .refl d
  | read _ _ done => exact rtunRead_deeds done
  | @write i first second _ done =>
      obtain ⟨d₁, high, low⟩ := Option.bind_eq_some_iff.mp done
      have own : Event.Sends (κ := κ) (.write i first second) i := rfl
      exact (writeQueue_deeds (fun _ => own) high).trans (writeQueue_deeds (fun _ => own) low)
  | timeout _ _ done => exact checkTimeout_deeds trivial done
  | tuntapRead done => exact tuntapRead_deeds done
  | tuntapWrite done | drainTimeout done | adjustTimeout done => exact receive_deeds done
  | reload => exact absurd trivial fixed
  | quit done => exact quit_deeds (fun _ => trivial) done

/-- What every deed keeps, every event keeps. -/
theorem step_tunnel {P : Tunnel → Prop} {now : ℚ} {e : Event κ} {j : Nat}
    (kept : ∀ sends loads grades t t', Deed sends loads grades t t' → P t → P t')
    (before : P (d.tun j)) (done : d.step (now, e) = some d') : P (d'.tun j) := by
  by_cases reloads : e.Reloads
  · cases e with
    | reload conf send =>
        cases step_cases done with
        | pass => exact before
        | reload done =>
            have deeds : Deeds (fun _ => True) True True d d' :=
              configReload_deeds (fun _ => trivial) trivial done
            exact deeds.preserve (kept _ _ _) before
    | _ => cases reloads
  · have deeds : Deeds e.Sends True e.Grades d d' := step_deeds reloads done
    exact deeds.preserve (kept _ _ _) before

theorem step_acts {now : ℚ} {e : Event κ} (fixed : ¬ e.Reloads)
    (done : d.step (now, e) = some d') : Acts e.Sends loads d d' :=
  (step_deeds fixed done).toActs

end Daemon

end Mlvpn
