import Mlvpn.Daemon.Acts
import Mlvpn.Daemon.References

/-! # Queued data and the watcher for writes

One watcher serves both queues of a tunnel.  It is stopped by whichever queue a
packet has left empty, so the last control packet stops it while data is still
waiting; of that data the same callback sends one packet.
-/

namespace Mlvpn

namespace Tunnel

variable {t t' : Tunnel}

/-- The watcher is active while data is queued. -/
def Served (t : Tunnel) : Prop := ¬ cbIsEmpty t.sbuf → t.ioWrite = true

/-- The last control packet, and data that one packet does not exhaust. -/
def Strandable (t : Tunnel) : Prop :=
  ¬ cbIsEmpty t.hpsbuf ∧ cbIsEmpty (pktbufferRead t.hpsbuf).2 ∧
    ¬ cbIsEmpty t.sbuf ∧ ¬ cbIsEmpty (pktbufferRead t.sbuf).2

instance (t : Tunnel) : Decidable t.Strandable := inferInstanceAs (Decidable (_ ∧ _))

theorem Served.of_empty (empty : cbIsEmpty t.sbuf) : t.Served := fun filled => absurd empty filled

theorem Served.congr (served : t.Served) (sbuf : t'.sbuf = t.sbuf) (ioWrite : t'.ioWrite = t.ioWrite) :
    t'.Served := by
  unfold Served
  rw [sbuf, ioWrite]
  exact served

theorem Served.queueBare (served : t.Served) (type : PktType) : (t.queueBare type).Served := by
  unfold Tunnel.queueBare
  split <;> exact served

theorem Served.sendKeepalive (served : t.Served) (now : ℚ) : (t.sendKeepalive now).Served :=
  (served.queueBare .keepalive).congr rfl rfl

theorem Served.keepaliveReceived (served : t.Served) (now : ℚ) : (t.keepaliveReceived now).Served := by
  unfold Tunnel.keepaliveReceived
  dsimp only
  split
  next =>
    refine Served.sendKeepalive ?_ now
    exact served.congr rfl rfl
  next => exact served.congr rfl rfl

theorem Served.tickConnect (served : t.Served) (now : ℚ) (result : StartResult) :
    (t.tickConnect now result).Served := by
  rcases t.tickConnect_started now result with started | ⟨opened, started, challenged⟩
  · rw [started]
    exact served.congr rfl rfl
  · rw [challenged, started]
    exact served.congr rfl rfl

theorem Served.queueData (served : t.Served) (highPriority : Bool) (data : List UInt8) :
    (t.queueData highPriority data).Served := by
  unfold Tunnel.queueData
  dsimp only
  split
  next => exact fun _ => rfl
  next started =>
    cases highPriority with
    | true => exact served.congr rfl rfl
    | false =>
        intro filled
        by_contra inactive
        exact started ⟨Bool.eq_false_iff.mpr inactive, filled⟩

/-- Only the queue of higher priority stops the watcher while data is queued. -/
theorem Act.served {loads : Prop} (act : Act False loads t t') (served : t.Served) : t'.Served := by
  cases act with
  | create => exact .of_empty rfl
  | measure remeasured =>
      rw [remeasured]
      exact served.congr rfl rfl
  | countReceived | tick | countSent | refit | stopWatching => exact served.congr rfl rfl
  | adoptAddr adopted =>
      obtain ⟨addr, rfl⟩ := adoptAddr_eq adopted
      exact served.congr rfl rfl
  | keepaliveReceived now => exact served.keepaliveReceived now
  | answer | watch => exact fun _ => rfl
  | confirm => exact served.congr rfl rfl
  | lower => exact .of_empty rfl
  | regrade => exact served.congr rfl rfl
  | sendKeepalive now => exact served.sendKeepalive now
  | tickConnect now result => exact served.tickConnect now result
  | queueData highPriority data => exact served.queueData highPriority data
  | queueBare => exact served.queueBare _
  | take highPriority dataSeq now64 filled =>
      intro left
      rw [taken_ioWrite]
      cases highPriority with
      | true =>
          have same : (t.taken true dataSeq now64).sbuf = t.sbuf := taken_queue t true false dataSeq now64
          rw [same] at left
          exact served left
      | false => exact served (filled rfl)
  | @stopIfEmpty _ highPriority allowed =>
      cases highPriority with
      | true => exact (allowed rfl).elim
      | false =>
          unfold Tunnel.stopIfEmpty
          split
          next emptied => exact .of_empty emptied.2
          next => exact served
  | weigh total =>
      unfold Tunnel.weigh
      split <;> exact served.congr rfl rfl

end Tunnel

namespace Daemon

open Library.Machine Tunnel

variable {κ : Type} {d d' : Daemon κ} {i : Nat}

theorem Acts.served {sends : Nat → Prop} {loads : Prop} {j : Nat} (acts : Acts sends loads d d')
    (other : ¬ sends j) (served : (d.tun j).Served) : (d'.tun j).Served := by
  apply acts.preserve _ served
  intro t t' act
  rw [eq_false other] at act
  exact act.served

/-- The same packets are waiting, and the same watcher is active. -/
structure SameQueues (t t' : Tunnel) : Prop where
  sbuf : t'.sbuf = t.sbuf
  hpsbuf : t'.hpsbuf = t.hpsbuf
  ioWrite : t'.ioWrite = t.ioWrite
  status : t'.status = t.status

theorem SameQueues.refl (t : Tunnel) : SameQueues t t := ⟨rfl, rfl, rfl, rfl⟩

theorem SameQueues.countSent (t : Tunnel) (len : Nat) : SameQueues t (t.countSent len) := ⟨rfl, rfl, rfl, rfl⟩

/-- What `mlvpn_rtun_send` leaves of its tunnel. -/
theorem rtunSend_tun {highPriority : Bool} {now : ℚ} {result : SendResult}
    (inside : i < d.tuns.length) (done : d.rtunSend i highPriority now result = some d') :
    let taken := (d.tun i).taken highPriority d.dataSeq (timestamp64 now)
    let packet := d.takePacket i highPriority now
    (sendDatagram packet.2.2.host packet.2.2.cleartextData packet.2.1 packet.1 = none ∧
        d'.tun i = taken) ∨
      (result = .failed ∧ d'.tun i = taken.lowered.stopIfEmpty highPriority) ∨
      (result ≠ .failed ∧ ∃ t, SameQueues taken t ∧ d'.tun i = t.stopIfEmpty highPriority) := by
  intro taken packet
  have numbered : packet.2.2.tun i = taken := by
    rw [tun, takePacket_tuns, ← tun, tun_modify_self inside]
  have inside' : i < packet.2.2.tuns.length := by
    rw [takePacket_tuns, length_modify]
    exact inside
  cases rtunSend_cases done with
  | refuses refused => exact .inl ⟨refused, numbered⟩
  | hands _ sent =>
      cases result with
      | blocked =>
          cases sent
          refine .inr (.inr ⟨by simp, taken, .refl taken, ?_⟩)
          rw [tun_modify_self inside', numbered]
      | failed =>
          refine .inr (.inl ⟨rfl, ?_⟩)
          have tuns := statusDown_tuns sent
          rw [tun_modify_self (by rw [tuns, length_modify]; exact inside'), tun, tuns, ← tun,
            tun_modify_self inside', numbered]
      | sent len =>
          cases sent
          refine .inr (.inr ⟨by simp, taken.countSent len, .countSent taken len, ?_⟩)
          rw [tun_modify_self (by rw [log, length_modify]; exact inside')]
          change Tunnel.stopIfEmpty ((packet.2.2.modify i (·.countSent len)).tun i) _ = _
          rw [tun_modify_self inside', numbered]

theorem taken_sbuf (t : Tunnel) (dataSeq now64 : UInt64) :
    (t.taken true dataSeq now64).sbuf = t.sbuf ∧
      (t.taken false dataSeq now64).sbuf = (pktbufferRead t.sbuf).2 :=
  ⟨taken_queue t true false dataSeq now64, taken_queue t false false dataSeq now64⟩

theorem stopIfEmpty_sbuf (t : Tunnel) (highPriority : Bool) :
    (t.stopIfEmpty highPriority).sbuf = t.sbuf := by
  unfold Tunnel.stopIfEmpty
  split <;> rfl

/-- A tunnel that was never created has empty queues. -/
theorem lt_of_filled {highPriority : Bool} (filled : ¬ cbIsEmpty ((d.tun i).queue highPriority)) :
    i < d.tuns.length := by
  by_contra outside
  rw [tun_eq_blank outside] at filled
  cases highPriority <;> exact filled rfl

/-- The queues and the watcher after a packet was taken from the queue of higher
    priority. -/
theorem taken_high (t : Tunnel) (dataSeq now64 : UInt64) :
    SameQueues { t with hpsbuf := (pktbufferRead t.hpsbuf).2 } (t.taken true dataSeq now64) where
  sbuf := (taken_sbuf t dataSeq now64).1
  hpsbuf := (taken_queue t true true dataSeq now64).trans (if_pos rfl)
  ioWrite := taken_ioWrite t true dataSeq now64
  status := taken_status t true dataSeq now64

theorem SameQueues.trans {t t' t'' : Tunnel} (first : SameQueues t t') (later : SameQueues t' t'') :
    SameQueues t t'' :=
  ⟨later.sbuf.trans first.sbuf, later.hpsbuf.trans first.hpsbuf, later.ioWrite.trans first.ioWrite,
    later.status.trans first.status⟩

/-- After the control packet, the watcher is still active, or one packet of data
    is left to be sent. -/
theorem writeHigh_served {now : ℚ} {result : SendResult} (served : (d.tun i).Served)
    (spared : ¬ (d.tun i).Strandable)
    (done : d.writeQueue i true now result = some d') :
    (d'.tun i).Served ∨ cbIsEmpty (pktbufferRead (d'.tun i).sbuf).2 := by
  unfold writeQueue at done
  split at done
  next =>
    cases done
    exact .inl served
  next filled =>
    have high := taken_high (d.tun i) d.dataSeq (timestamp64 now)
    rcases rtunSend_tun (lt_of_filled filled) done with ⟨_, same⟩ | ⟨_, same⟩ | ⟨_, t, sent, same⟩
    · rw [same]
      exact .inl (served.congr high.sbuf high.ioWrite)
    · rw [same]
      refine .inl (.of_empty ?_)
      rw [stopIfEmpty_sbuf]
      rfl
    · have queues := high.trans sent
      rw [same, stopIfEmpty_sbuf, queues.sbuf]
      by_cases data : cbIsEmpty (d.tun i).sbuf
      · refine .inl (.of_empty ?_)
        rw [stopIfEmpty_sbuf, queues.sbuf]
        exact data
      · by_cases last : cbIsEmpty (pktbufferRead (d.tun i).sbuf).2
        · exact .inr last
        · have rest : t.hpsbuf = (pktbufferRead (d.tun i).hpsbuf).2 := queues.hpsbuf
          have more : ¬ cbIsEmpty (t.queue true) := fun empty =>
            spared ⟨filled, rest ▸ empty, data, last⟩
          left
          unfold Tunnel.stopIfEmpty
          rw [if_neg fun both => more both.2]
          exact served.congr queues.sbuf queues.ioWrite

/-- The last packet of data leaves nothing to be served. -/
theorem writeLow_served {now : ℚ} {result : SendResult}
    (last : cbIsEmpty (pktbufferRead (d.tun i).sbuf).2)
    (done : d.writeQueue i false now result = some d') : (d'.tun i).Served := by
  unfold writeQueue at done
  split at done
  next empty =>
    cases done
    exact .of_empty empty
  next filled =>
    have left := (taken_sbuf (d.tun i) d.dataSeq (timestamp64 now)).2
    apply Served.of_empty
    rcases rtunSend_tun (lt_of_filled filled) done with ⟨_, same⟩ | ⟨_, same⟩ | ⟨_, t, sent, same⟩
    · rw [same, left]
      exact last
    · rw [same, stopIfEmpty_sbuf]
      rfl
    · rw [same, stopIfEmpty_sbuf, sent.sbuf, left]
      exact last

theorem rtunWrite_served {now : ℚ} {first second : SendResult}
    (served : ∀ j, (d.tun j).Served) (spared : ¬ (d.tun i).Strandable)
    (done : d.rtunWrite i now first second = some d') (j : Nat) : (d'.tun j).Served := by
  obtain ⟨d₁, high, low⟩ := Option.bind_eq_some_iff.mp done
  have highActs : Acts (· = i) True d d₁ := Deeds.acts (writeQueue_deeds (fun _ => rfl) high)
  have lowActs : Acts (fun _ => False) True d₁ d' :=
    (writeQueue_deeds (fun high => by cases high) low).acts
  by_cases here : j = i
  · subst here
    rcases writeHigh_served (served j) spared high with kept | last
    · exact lowActs.served not_false kept
    · exact writeLow_served last low
  · exact lowActs.served not_false (highActs.served here (served j))

/-- Of a tunnel that is dropped no data is left. -/
theorem rtunDrop_served {now : ℚ} {result : SendResult} (served : ∀ j, (d.tun j).Served)
    (done : d.rtunDrop i now result = some d') (j : Nat) : (d'.tun j).Served := by
  by_cases here : j = i
  · obtain ⟨d₁, _, rest⟩ := Option.bind_eq_some_iff.mp done
    obtain ⟨d₂, down, rfl⟩ := Option.map_eq_some_iff.mp rest
    have stopped : Acts (fun _ => False) True d₂ (d₂.modify i Tunnel.stopWatching) := .act .stopWatching
    refine Acts.served (stopped.trans (.of_tuns rfl)) not_false ?_
    rw [here, tun, statusDown_tuns down, ← tun, tun_modify]
    split
    next => exact .of_empty rfl
    next outside =>
      rw [tun_eq_blank fun inside => outside ⟨rfl, inside⟩]
      exact .of_empty rfl
  · have acts : Acts (· = i) True d d' := Deeds.acts (rtunDrop_deeds rfl done)
    exact acts.served here (served j)

theorem configReload_served {conf : Option (Config κ)} {now : ℚ} {send : Nat → SendResult}
    (served : ∀ j, (d.tun j).Served) (done : d.configReload conf now send = some d') :
    ∀ j, (d'.tun j).Served := by
  refine configReload_keeps (I := fun s => ∀ j, (s.tun j).Served) served ?_ ?_ (fun _ _ => id) ?_ done
  · intro part s s' before taken j
    have acts : Acts (fun _ => False) True s.2 s'.2 :=
      (configSection_deeds trivial taken).acts
    exact acts.served not_false (before j)
  · exact fun s i s' before dropped => rtunDrop_served before dropped
  · intro s i total before j
    have weighed : Acts (fun _ => False) True s (s.modify i (·.weigh total)) :=
      .act (.weigh total trivial)
    exact weighed.served not_false (before j)

/-- No tunnel that is connected has data waiting for another event. -/
def Wakeful (d : Daemon κ) : Prop :=
  ∀ i, (d.tun i).status.Up → ¬ cbIsEmpty (d.tun i).sbuf → (d.tun i).ioWrite = true

/-- No write finds a single control packet together with two packets of data. -/
def StrandsNone (d : Daemon κ) : ℚ × Event κ → Prop
  | (_, .write i _ _) => ¬ (d.tun i).Strandable
  | _ => True

instance (d : Daemon κ) : ∀ e : ℚ × Event κ, Decidable (d.StrandsNone e)
  | (_, .write i _ _) => inferInstanceAs (Decidable (¬ (d.tun i).Strandable))
  | (_, .read _ _) | (_, .timeout _ _) | (_, .tuntapRead _) | (_, .tuntapWrite) | (_, .drainTimeout)
  | (_, .adjustTimeout) | (_, .reload _ _) | (_, .quit _) => isTrue trivial

theorem step_served {now : ℚ} {e : Event κ} (served : d.stopped = true ∨ ∀ j, (d.tun j).Served)
    (spared : d.StrandsNone (now, e)) (done : d.step (now, e) = some d') :
    d'.stopped = true ∨ ∀ j, (d'.tun j).Served := by
  by_cases running : d.stopped = true
  · simp only [step, if_pos running] at done
    cases done
    exact served
  have served : ∀ j, (d.tun j).Served := served.resolve_left running
  have kept : ¬ e.Reloads → (∀ j, ¬ e.Sends j) → d'.stopped = true ∨ ∀ j, (d'.tun j).Served := by
    intro fixed quiet
    have acts : Acts e.Sends True d d' := step_acts fixed done
    exact .inr fun j => acts.served (quiet j) (served j)
  cases e with
  | write i first second =>
      simp only [step, if_neg running] at done
      split at done
      next => exact .inr (rtunWrite_served served spared done)
      next =>
        cases done
        exact .inr served
  | reload conf send =>
      simp only [step, if_neg running] at done
      exact .inr (configReload_served served done)
  | quit send =>
      simp only [step, if_neg running] at done
      obtain ⟨d₁, _, rfl⟩ := Option.map_eq_some_iff.mp done
      exact .inl rfl
  | _ => exact kept id fun _ => id

/-- The packet at the head of a queue is sealed and fits a datagram. -/
def Sendable (d : Daemon κ) (i : Nat) (highPriority : Bool) (now : ℚ) : Prop :=
  let packet := d.takePacket i highPriority now
  sendDatagram packet.2.2.host packet.2.2.cleartextData packet.2.1 packet.1 ≠ none

/-- The control packet stops the watcher. -/
theorem writeHigh_stops {now : ℚ} {result : SendResult} (strands : (d.tun i).Strandable)
    (sendable : d.Sendable i true now) (goes : result ≠ .failed)
    (done : d.writeQueue i true now result = some d') :
    (d'.tun i).sbuf = (d.tun i).sbuf ∧ (d'.tun i).status = (d.tun i).status ∧
      (d'.tun i).ioWrite = false := by
  obtain ⟨filled, emptied, _, _⟩ := strands
  have queued : ¬ cbIsEmpty ((d.tun i).queue true) := filled
  unfold writeQueue at done
  rw [if_neg queued] at done
  rcases rtunSend_tun (lt_of_filled queued) done with ⟨none, _⟩ | ⟨failed, _⟩ | ⟨_, t, sent, same⟩
  · exact absurd none sendable
  · exact absurd failed goes
  · have queues := (taken_high (d.tun i) d.dataSeq (timestamp64 now)).trans sent
    have empty : cbIsEmpty (t.queue true) := by
      change cbIsEmpty t.hpsbuf
      rw [queues.hpsbuf]
      exact emptied
    rw [same]
    unfold Tunnel.stopIfEmpty
    split
    next => exact ⟨queues.sbuf, queues.status, rfl⟩
    next active =>
      exact ⟨queues.sbuf, queues.status, Bool.eq_false_iff.mpr fun on => active ⟨on, empty⟩⟩

/-- Nothing starts it again before the callback returns. -/
theorem writeLow_strands {now : ℚ} {result : SendResult} (filled : ¬ cbIsEmpty (d.tun i).sbuf)
    (stopped : (d.tun i).ioWrite = false) (goes : result ≠ .failed)
    (done : d.writeQueue i false now result = some d') :
    (d'.tun i).sbuf = (pktbufferRead (d.tun i).sbuf).2 ∧ (d'.tun i).status = (d.tun i).status ∧
      (d'.tun i).ioWrite = false := by
  have queued : ¬ cbIsEmpty ((d.tun i).queue false) := filled
  unfold writeQueue at done
  rw [if_neg queued] at done
  have left := (taken_sbuf (d.tun i) d.dataSeq (timestamp64 now)).2
  have status := taken_status (d.tun i) false d.dataSeq (timestamp64 now)
  have watched := (taken_ioWrite (d.tun i) false d.dataSeq (timestamp64 now)).trans stopped
  rcases rtunSend_tun (lt_of_filled queued) done with ⟨_, same⟩ | ⟨failed, _⟩ | ⟨_, t, sent, same⟩
  · rw [same]
    exact ⟨left, status, watched⟩
  · exact absurd failed goes
  · have off : t.ioWrite = false := sent.ioWrite.trans watched
    have idle : t.stopIfEmpty false = t := by
      unfold Tunnel.stopIfEmpty
      rw [if_neg]
      rintro ⟨on, _⟩
      rw [off] at on
      cases on
    rw [same, idle]
    exact ⟨sent.sbuf.trans left, sent.status.trans status, off⟩

/-- While no write finds the last control packet in front of two packets of data,
    queued data is watched for after every event; where one does and nothing
    fails, the rest of the data is left waiting. -/
theorem wakeful_of_strandsNone {host : Host κ} {events : List (ℚ × Event κ)}
    (spared : Meets step StrandsNone (init host) events)
    (reached : run step (init host) events = some d) (running : d.stopped = false) :
    d.Wakeful ∧ ∀ i now first second, (d.tun i).status.Up → (d.tun i).ioWrite = true →
      (d.tun i).Strandable → d.Sendable i true now → first ≠ .failed → second ≠ .failed →
      ∀ d' ∈ d.step (now, .write i first second), ¬ d'.Wakeful := by
  have initially : (init host).stopped = true ∨ ∀ j, ((init host).tun j).Served :=
    .inr fun j => .of_empty rfl
  have served : d.stopped = true ∨ ∀ j, (d.tun j).Served :=
    run_invariant (I := fun s : Daemon κ => s.stopped = true ∨ ∀ j, (s.tun j).Served)
      (fun _ _ _ served allowed done => step_served served allowed done) events initially spared reached
  have served : ∀ j, (d.tun j).Served := served.resolve_left (by rw [running]; simp)
  refine ⟨fun i _ filled => served i filled, ?_⟩
  intro i now first second up watched strands sendable firstGoes secondGoes d' done wakeful
  simp only [step, running, watched, Option.mem_def] at done
  obtain ⟨d₁, high, low⟩ := Option.bind_eq_some_iff.mp done
  obtain ⟨sbuf, status, stopped⟩ := writeHigh_stops strands sendable firstGoes high
  have filled : ¬ cbIsEmpty (d₁.tun i).sbuf := by
    rw [sbuf]
    exact strands.2.2.1
  obtain ⟨left, status', off⟩ := writeLow_strands filled stopped secondGoes low
  have waiting : ¬ cbIsEmpty (d'.tun i).sbuf := by
    rw [left, sbuf]
    exact strands.2.2.2
  have on := wakeful i (by rw [status', status]; exact up) waiting
  rw [off] at on
  cases on

/-- A server has queued its answer to a challenge, and is given data to send. -/
def answeredRun (data : List (List UInt8)) : List (ℚ × Event Unit) :=
  serverRun [serverConf "a" 0] ++ data.map fun packet => (3, .tuntapRead packet)

/-- One packet of data goes out with the answer. -/
theorem wakeful_after_one_packet :
    ∃ d ∈ run step (init ⟨.little, plainBox, ()⟩)
        (answeredRun [[69]] ++ [(3, .write 0 (.sent 46) (.sent 29)), (4, .tuntapRead [70])]),
      d.Wakeful ∧ (d.tun 0).status = .authok ∧ ¬ cbIsEmpty (d.tun 0).sbuf := by
  obtain ⟨d, reached, running, status, filled⟩ :
      ∃ d ∈ run step (init ⟨.little, plainBox, ()⟩)
          (answeredRun [[69]] ++ [(3, .write 0 (.sent 46) (.sent 29)), (4, .tuntapRead [70])]),
        d.stopped = false ∧ (d.tun 0).status = .authok ∧ ¬ cbIsEmpty (d.tun 0).sbuf := by
    decide +kernel
  have spared : Meets step StrandsNone (init ⟨.little, plainBox, ()⟩)
      (answeredRun [[69]] ++ [(3, .write 0 (.sent 46) (.sent 29)), (4, .tuntapRead [70])]) := by
    decide +kernel
  exact ⟨d, reached, (wakeful_of_strandsNone spared reached running).1, status, filled⟩

/-- Of two packets the second is left in the queue, and nobody watches for it. -/
theorem second_packet_stranded :
    ∃ d ∈ run step (init ⟨.little, plainBox, ()⟩)
        (answeredRun [[69], [70]] ++ [(3, .write 0 (.sent 46) (.sent 29))]),
      d.stopped = false ∧ (d.tun 0).status = .authok ∧ ¬ cbIsEmpty (d.tun 0).sbuf ∧
        (d.tun 0).ioWrite = false := by
  decide +kernel

end Daemon

end Mlvpn
