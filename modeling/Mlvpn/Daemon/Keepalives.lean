import Mathlib.Tactic.Linarith
import Mlvpn.Daemon.Shipping

/-! # Keepalives do not flood the network

A connected tunnel sends a keepalive when a second has passed since the last one, and answers the
keepalives of its peer, but not more than once a second.  Each of the two ends answers the other,
so that without this limit one keepalive would go to and fro for ever.  However the events come, a
tunnel sends at most two keepalives a second.
-/

namespace Mlvpn

/-- A keepalive was sent by the tunnel `i`. -/
def Effect.isKeepalive (i : Nat) : Effect → Bool
  | .sent j .keepalive _ => j = i
  | _ => false

/-- The packets of a type in a ring. -/
def Pktbuffer.typed (buf : Pktbuffer) (type : PktType) : Nat := buf.contents.countP (·.type = type)

namespace Pktbuffer

variable {buf : Pktbuffer} {type : PktType}

theorem Wf.typed_write (wf : buf.Wf) {fill : Pkt → Pkt}
    (other : (fill { buf.pkts buf.stop with len := 0, type := .data }).type ≠ type) :
    (pktbufferWrite buf fill).typed type ≤ buf.typed type := by
  obtain ⟨kept, sublist, written⟩ := wf.contents_write_kept fill
  have last : List.countP (·.type = type) [fill { buf.pkts buf.stop with len := 0, type := .data }] = 0 :=
    List.countP_eq_zero.mpr (by simpa using other)
  rw [typed, written, List.countP_append, last]
  exact sublist.countP_le

theorem Wf.typed_read (wf : buf.Wf) (filled : ¬ cbIsEmpty buf) :
    buf.typed type = (pktbufferRead buf).2.typed type +
      if (pktbufferRead buf).1.type = type then 1 else 0 := by
  rw [typed, wf.contents_read filled, List.countP_cons, typed]
  simp only [decide_eq_true_eq]

theorem Wf.typed_reset (wf : buf.Wf) : (pktbufferReset buf).typed type = 0 := by
  rw [typed, wf.contents_reset]
  rfl

theorem Wf.typed_control (wf : buf.Wf) (kind : PktType) (text : List UInt8) (other : kind ≠ type) :
    (queueControl buf kind text).typed type ≤ buf.typed type :=
  wf.typed_write other

/-- A packet of the type joins the ring. -/
theorem Wf.typed_queued (wf : buf.Wf) (text : List UInt8) :
    (queueControl buf type text).typed type ≤ buf.typed type + 1 := by
  obtain ⟨kept, sublist, written⟩ := wf.contents_write_kept fun slot =>
    { slot with len := text.length, type := type, data := text ++ slot.data.drop text.length }
  rw [typed, queueControl, written, List.countP_append]
  exact Nat.add_le_add sublist.countP_le List.countP_le_length

end Pktbuffer

namespace Tunnel

variable {t t' t'' : Tunnel} {now start budget : ℚ} {sent : Nat}

/-- The keepalives that wait to be sent. -/
def keepalives (t : Tunnel) : Nat :=
  (t.queue true).typed .keepalive + (t.queue false).typed .keepalive

/-- No keepalive has been queued. -/
structure Calms (t t' : Tunnel) : Prop where
  keepalives : t'.keepalives ≤ t.keepalives
  nextKeepalive : t'.nextKeepalive = t.nextKeepalive
  lastKeepaliveAckSent : t'.lastKeepaliveAckSent = t.lastKeepaliveAckSent

theorem Calms.trans (first : Calms t t') (second : Calms t' t'') : Calms t t'' :=
  ⟨second.keepalives.trans first.keepalives, second.nextKeepalive.trans first.nextKeepalive,
    second.lastKeepaliveAckSent.trans first.lastKeepaliveAckSent⟩

theorem Calms.of_queues (hpsbuf : t'.hpsbuf = t.hpsbuf) (sbuf : t'.sbuf = t.sbuf)
    (nextKeepalive : t'.nextKeepalive = t.nextKeepalive)
    (lastKeepaliveAckSent : t'.lastKeepaliveAckSent = t.lastKeepaliveAckSent) : Calms t t' :=
  ⟨(congrArg₂ (fun high low => high.typed .keepalive + low.typed .keepalive) hpsbuf sbuf).le,
    nextKeepalive, lastKeepaliveAckSent⟩

theorem Queued.queueBare_calms (queued : t.Queued) {type : PktType} (other : type ≠ .keepalive) :
    Calms t (t.queueBare type) := by
  unfold Tunnel.queueBare
  split
  next => exact .of_queues rfl rfl rfl rfl
  next =>
    have control := (queued.rings true).typed_control type [] other
    exact ⟨Nat.add_le_add_right control _, rfl, rfl⟩

theorem Queued.queueAuthOk_calms (queued : t.Queued) : Calms t t.queueAuthOk := by
  have emptied : (if cbIsFull t.hpsbuf then pktbufferReset t.hpsbuf else t.hpsbuf).Wf ∧
      (if cbIsFull t.hpsbuf then pktbufferReset t.hpsbuf else t.hpsbuf).typed .keepalive ≤
        t.hpsbuf.typed .keepalive := by
    have wf : t.hpsbuf.Wf := queued.rings true
    split
    next => exact ⟨wf.reset, wf.typed_reset ▸ Nat.zero_le _⟩
    next => exact ⟨wf, le_rfl⟩
  have control := (emptied.1.typed_control .authOk [79, 75] (by decide)).trans emptied.2
  exact ⟨Nat.add_le_add_right control _, rfl, rfl⟩

theorem Queued.tickConnect_calms (queued : t.Queued) (now : ℚ) (result : StartResult) :
    Calms t (t.tickConnect now result) := by
  rcases t.tickConnect_started now result with started | ⟨opened, started, challenged⟩
  · rw [started]
    exact .of_queues rfl rfl rfl rfl
  · have kept : Calms t opened := by
      rw [started]
      exact .of_queues rfl rfl rfl rfl
    have wf : opened.hpsbuf.Wf := by
      rw [started]
      exact queued.rings true
    rw [challenged]
    have control : (queueControl opened.hpsbuf .auth [65, 85]).typed .keepalive ≤ _ :=
      wf.typed_control .auth [65, 85] (by decide)
    exact kept.trans ⟨Nat.add_le_add_right control _, rfl, rfl⟩

theorem Queued.queueData_calms (queued : t.Queued) (highPriority : Bool) (data : List UInt8) :
    Calms t (t.queueData highPriority data) := by
  have written : (pktbufferWrite (t.queue highPriority) fun slot =>
      { slot with len := data.length, data := data ++ slot.data.drop data.length }).typed .keepalive ≤
        (t.queue highPriority).typed .keepalive := by
    apply (queued.rings highPriority).typed_write
    exact fun same => by cases same
  have stored : Calms t (t.setQueue highPriority (pktbufferWrite (t.queue highPriority) fun slot =>
      { slot with len := data.length, data := data ++ slot.data.drop data.length })) := by
    cases highPriority with
    | false => exact ⟨Nat.add_le_add_left written _, rfl, rfl⟩
    | true => exact ⟨Nat.add_le_add_right written _, rfl, rfl⟩
  unfold Tunnel.queueData
  dsimp only
  split
  next => exact stored.trans (.of_queues rfl rfl rfl rfl)
  next => exact stored

/-- A packet that is taken from a queue is one less. -/
theorem Queued.keepalives_taken (queued : t.Queued) {highPriority : Bool}
    (filled : ¬ cbIsEmpty (t.queue highPriority)) (dataSeq now64 : UInt64) :
    t.keepalives = (t.taken highPriority dataSeq now64).keepalives +
      if (pktbufferRead (t.queue highPriority)).1.type = .keepalive then 1 else 0 := by
  have read : (t.queue highPriority).typed .keepalive = _ := (queued.rings highPriority).typed_read filled
  rw [keepalives, keepalives, taken_queue, taken_queue]
  cases highPriority with
  | false =>
      simp only [read, Bool.true_eq_false, if_true, if_false]
      omega
  | true =>
      simp only [read, Bool.false_eq_true, if_true, if_false]
      omega

theorem Queued.keepalives_lowered (queued : t.Queued) : t.lowered.keepalives = 0 := by
  have high : (t.lowered.queue true).typed .keepalive = 0 := (queued.rings true).typed_reset
  have low : (t.lowered.queue false).typed .keepalive = 0 := (queued.rings false).typed_reset
  rw [keepalives, high, low]

theorem keepalives_fresh (hpsbuf : t.hpsbuf = pktbufferInit pktbufsize)
    (sbuf : t.sbuf = pktbufferInit pktbufsize) : t.keepalives = 0 := by
  have empty : (pktbufferInit pktbufsize).typed .keepalive = 0 := by
    rw [Pktbuffer.typed, Pktbuffer.contents_init]
    rfl
  exact congrArg₂ (· + ·) (hpsbuf ▸ empty) (sbuf ▸ empty)

/-- One keepalive more. -/
theorem Queued.keepalives_sendKeepalive (queued : t.Queued) (now : ℚ) :
    (t.sendKeepalive now).keepalives ≤ t.keepalives + 1 := by
  unfold Tunnel.sendKeepalive Tunnel.queueBare
  split
  next => exact Nat.le_succ _
  next =>
    have joined : (queueControl t.hpsbuf .keepalive []).typed .keepalive ≤ _ := (queued.rings true).typed_queued []
    calc (queueControl t.hpsbuf .keepalive []).typed .keepalive + (t.queue false).typed .keepalive
      _ ≤ (t.queue true).typed .keepalive + 1 + (t.queue false).typed .keepalive :=
        Nat.add_le_add_right joined _
      _ = t.keepalives + 1 := by rw [keepalives]; omega

/-- What the two clocks of a tunnel allow from the time `start` on. -/
def allowance (t : Tunnel) (start : ℚ) : ℚ :=
  max 0 (t.nextKeepalive - start) + max 0 (t.lastKeepaliveAckSent + 1 - start)

theorem allowance_nonneg : 0 ≤ t.allowance start :=
  add_nonneg (le_max_left _ _) (le_max_left _ _)

/-- At the time `now`, the keepalives that were sent and those that wait are within the budget and
    what the clocks allow. -/
structure Restrained (now start budget : ℚ) (t : Tunnel) (sent : Nat) : Prop where
  nextKeepalive : t.nextKeepalive ≤ now + 1
  lastKeepaliveAckSent : t.lastKeepaliveAckSent ≤ now
  few : (sent + t.keepalives : ℚ) ≤ budget + t.allowance start

theorem Restrained.calms (restrained : Restrained now start budget t sent) (calms : Calms t t') :
    Restrained now start budget t' sent := by
  obtain ⟨keepalives, next, ack⟩ := calms
  have fewer : (t'.keepalives : ℚ) ≤ t.keepalives := by exact_mod_cast keepalives
  refine ⟨next ▸ restrained.nextKeepalive, ack ▸ restrained.lastKeepaliveAckSent, ?_⟩
  rw [allowance, next, ack]
  have few := restrained.few
  rw [allowance] at few
  linarith

theorem Restrained.later {later : ℚ} (restrained : Restrained now start budget t sent)
    (after : now ≤ later) : Restrained later start budget t sent :=
  ⟨restrained.nextKeepalive.trans (by linarith), restrained.lastKeepaliveAckSent.trans after, restrained.few⟩

/-- A keepalive costs what a clock gains in a second. -/
theorem Restrained.queue (restrained : Restrained now start budget t sent)
    (keepalives : t'.keepalives ≤ t.keepalives + 1) (next : t'.nextKeepalive ≤ now + 1)
    (ack : t'.lastKeepaliveAckSent ≤ now) (gained : t.allowance start + 1 ≤ t'.allowance start) :
    Restrained now start budget t' sent := by
  have more : (t'.keepalives : ℚ) ≤ t.keepalives + 1 := by exact_mod_cast keepalives
  have few := restrained.few
  exact ⟨next, ack, by linarith⟩

/-- A clock that has run out is set a second ahead. -/
theorem max_gains {due : ℚ} (after : start ≤ now) (past : due < now) :
    max 0 (due - start) + 1 ≤ max 0 (now + 1 - start) := by
  rw [max_eq_right (show (0 : ℚ) ≤ now + 1 - start by linarith)]
  rcases max_cases 0 (due - start) with ⟨eq, _⟩ | ⟨eq, _⟩ <;> rw [eq] <;> linarith

theorem sendKeepalive_clocks (now : ℚ) : (t.sendKeepalive now).nextKeepalive = now + 1 ∧
    (t.sendKeepalive now).lastKeepaliveAckSent = t.lastKeepaliveAckSent := by
  unfold sendKeepalive queueBare
  split <;> exact ⟨rfl, rfl⟩

/-- The keepalive of the timer: a second has passed since the last one. -/
theorem Restrained.sendKeepalive (restrained : Restrained now start budget t sent) (queued : t.Queued)
    (after : start ≤ now) (due : t.nextKeepalive < now) :
    Restrained now start budget (t.sendKeepalive now) sent := by
  obtain ⟨next, ack⟩ := sendKeepalive_clocks (t := t) now
  refine restrained.queue (queued.keepalives_sendKeepalive now) next.le
    (ack ▸ restrained.lastKeepaliveAckSent) ?_
  have gained := max_gains after due
  rw [allowance, allowance, next, ack]
  linarith

/-- The answer to a keepalive of the peer: a second has passed since the last answer. -/
theorem Restrained.keepaliveReceived (restrained : Restrained now start budget t sent) (queued : t.Queued)
    (after : start ≤ now) : Restrained now start budget (t.keepaliveReceived now) sent := by
  unfold Tunnel.keepaliveReceived
  dsimp only
  split
  next rested =>
    have rested : t.lastKeepaliveAckSent + 1 < now := rested
    set noted : Tunnel := { t.tick now with lastKeepaliveAck := now, lastKeepaliveAckSent := now }
    have same : noted.keepalives = t.keepalives := rfl
    have queued : noted.Queued := queued.of_queues rfl rfl rfl
    obtain ⟨next, ack⟩ := sendKeepalive_clocks (t := noted) now
    refine restrained.queue (same ▸ queued.keepalives_sendKeepalive now) next.le ack.le ?_
    have gained := max_gains after rested
    have kept : max 0 (t.nextKeepalive - start) ≤ max 0 (now + 1 - start) := by
      have early := restrained.nextKeepalive
      gcongr
    rw [allowance, allowance, next, ack]
    change _ ≤ max 0 (now + 1 - start) + max 0 (now + 1 - start)
    linarith
  next => exact restrained.calms (.of_queues rfl rfl rfl rfl)

theorem Restrained.raised (restrained : Restrained now start budget t sent) :
    Restrained now start budget (t.raised now) sent := by
  have next := restrained.nextKeepalive
  have ack := restrained.lastKeepaliveAckSent
  have few := restrained.few
  have first : max 0 (t.nextKeepalive - start) ≤ max 0 (now + 1 - start) := by gcongr
  have second : max 0 (t.lastKeepaliveAckSent + 1 - start) ≤ max 0 (now + 1 - start) := by gcongr
  refine ⟨le_rfl, le_rfl, ?_⟩
  rw [allowance] at few
  change (sent + t.keepalives : ℚ) ≤ budget + (max 0 (now + 1 - start) + max 0 (now + 1 - start))
  linarith

theorem Restrained.lowered (restrained : Restrained now start budget t sent) (queued : t.Queued) :
    Restrained now start budget t.lowered sent :=
  restrained.calms ⟨queued.keepalives_lowered ▸ Nat.zero_le _, rfl, rfl⟩

/-- A packet that was taken is sent, or lost. -/
theorem Restrained.taken (restrained : Restrained now start budget t sent) (queued : t.Queued)
    {highPriority : Bool} (filled : ¬ cbIsEmpty (t.queue highPriority)) (dataSeq now64 : UInt64) :
    Restrained now start budget (t.taken highPriority dataSeq now64)
      (sent + if (pktbufferRead (t.queue highPriority)).1.type = .keepalive then 1 else 0) := by
  have left := queued.keepalives_taken filled dataSeq now64
  have clocks : (t.taken highPriority dataSeq now64).nextKeepalive = t.nextKeepalive ∧
      (t.taken highPriority dataSeq now64).lastKeepaliveAckSent = t.lastKeepaliveAckSent := by
    unfold Tunnel.taken sendHeader
    dsimp only
    cases highPriority <;> split <;> exact ⟨rfl, rfl⟩
  refine ⟨clocks.1 ▸ restrained.nextKeepalive, clocks.2 ▸ restrained.lastKeepaliveAckSent, ?_⟩
  have few := restrained.few
  rw [left] at few
  rw [allowance, clocks.1, clocks.2, ← allowance]
  push_cast at few ⊢
  linarith

theorem Restrained.fewer {less : Nat} (restrained : Restrained now start budget t sent) (fewer : less ≤ sent) :
    Restrained now start budget t less := by
  have cast : (less : ℚ) ≤ sent := by exact_mod_cast fewer
  have few := restrained.few
  exact ⟨restrained.nextKeepalive, restrained.lastKeepaliveAckSent, by linarith⟩

end Tunnel

namespace Daemon

open Library.Machine Tunnel

variable {κ : Type} {d d' : Daemon κ} {i j : Nat} {now start budget : ℚ} {e : Event κ}

theorem Tends.restrained {t t' : Tunnel} {sent : Nat} (tends : Tends now e i t t') (queued : t.Queued)
    (after : start ≤ now) (restrained : Restrained now start budget t sent) :
    Restrained now start budget t' sent := by
  cases tends with
  | tick | watchAnswer | stopWatching | refit _ _ => exact restrained.calms (.of_queues rfl rfl rfl rfl)
  | keepaliveReceived _ => exact restrained.keepaliveReceived queued after
  | answer _ => exact restrained.calms (queued.queueAuthOk_calms.trans (.of_queues rfl rfl rfl rfl))
  | sendKeepalive _ due => exact restrained.sendKeepalive queued after due
  | tickConnect _ => exact restrained.calms (queued.tickConnect_calms now _)
  | watchIfQueued =>
      refine restrained.calms ?_
      unfold Tunnel.watchIfQueued
      split <;> exact .of_queues rfl rfl rfl rfl
  | queueData highPriority _ => exact restrained.calms (queued.queueData_calms highPriority _)
  | queueDisconnect => exact restrained.calms (queued.queueBare_calms (by decide))
  | stopIfEmpty highPriority =>
      refine restrained.calms ?_
      unfold Tunnel.stopIfEmpty
      split <;> exact .of_queues rfl rfl rfl rfl
  | weigh total _ =>
      refine restrained.calms ?_
      unfold Tunnel.weigh
      split <;> exact .of_queues rfl rfl rfl rfl

/-- The keepalives that the tunnel `i` has sent. -/
def keepalivesSent (d : Daemon κ) (i : Nat) : Nat := d.trace.countP (·.isKeepalive i)

theorem keepalivesSent_append (effects : List Effect) (logged : d'.trace = effects ++ d.trace)
    (silent : ∀ effect ∈ effects, effect.isKeepalive i = false) : d'.keepalivesSent i = d.keepalivesSent i := by
  have none : effects.countP (·.isKeepalive i) = 0 :=
    List.countP_eq_zero.mpr fun effect member => by simp [silent effect member]
  rw [keepalivesSent, logged, List.countP_append, none, Nat.zero_add, keepalivesSent]

theorem Passes.keepalivesSent {new : List Reception} (passes : Passes d d' new) :
    d'.keepalivesSent i = d.keepalivesSent i := by
  obtain ⟨effects, logged, passing⟩ := passes.trace
  refine keepalivesSent_append effects logged fun effect member => ?_
  cases passing effect member <;> rfl

theorem Takes.keepalivesSent {highPriority : Bool} (takes : Takes d d' i highPriority now) :
    d'.keepalivesSent j = d.keepalivesSent j := by
  rcases takes.trace with logged | ⟨nonce, logged⟩
  · exact keepalivesSent_append [.sending i] logged (by simp [Effect.isKeepalive])
  · exact keepalivesSent_append [.encrypted nonce, .sending i] logged (by simp [Effect.isKeepalive])

/-- The tunnel `i` has sent no more than it may. -/
def Holds (d : Daemon κ) (i : Nat) (now start budget : ℚ) : Prop :=
  Restrained now start budget (d.tun i) (d.keepalivesSent i)

theorem Holds.modify {f : Tunnel → Tunnel} (holds : d.Holds j now start budget)
    (tuns : d'.tuns = (d.modify i f).tuns) (sent : d'.keepalivesSent j = d.keepalivesSent j)
    (kept : ∀ n, Restrained now start budget (d.tun i) n → Restrained now start budget (f (d.tun i)) n) :
    d'.Holds j now start budget := by
  rw [Holds, sent, tun_congr tuns, tun_modify]
  split
  next here =>
    obtain ⟨rfl, _⟩ := here
    exact kept _ holds
  next => exact holds

theorem Holds.same (holds : d.Holds j now start budget) (tuns : d'.tuns = d.tuns)
    (sent : d'.keepalivesSent j = d.keepalivesSent j) : d'.Holds j now start budget := by
  rw [Holds, sent, tun_congr tuns]
  exact holds

/-- A keepalive that leaves its queue is sent by its own tunnel. -/
theorem Holds.send {highPriority : Bool} (holds : d.Holds j now start budget) (tidy : d.Tidy)
    (inside : i < d.tuns.length) (filled : ¬ cbIsEmpty ((d.tun i).queue highPriority)) (len : Nat)
    (datagram : List UInt8) :
    (((d.takePacket i highPriority now).2.2.modify i (·.countSent len)).log
      (.sent i (d.takePacket i highPriority now).1.type datagram)).Holds j now start budget := by
  have takes := takePacket_takes d i highPriority now
  have sent : (((d.takePacket i highPriority now).2.2.modify i (·.countSent len)).log
      (.sent i (d.takePacket i highPriority now).1.type datagram)).keepalivesSent j =
        d.keepalivesSent j + if j = i ∧ (pktbufferRead ((d.tun i).queue highPriority)).1.type = .keepalive
          then 1 else 0 := by
    rw [← takePacket_pkt d i highPriority now, ← takes.keepalivesSent]
    refine List.countP_cons.trans (congrArg _ ?_)
    cases (d.takePacket i highPriority now).1.type <;> simp [Effect.isKeepalive, eq_comm]
  have counted (k : Nat) : (((d.takePacket i highPriority now).2.2.modify i (·.countSent len)).tun k) =
      if k = i then ((d.tun i).taken highPriority d.dataSeq (timestamp64 now)).countSent len else d.tun k := by
    have length : (d.takePacket i highPriority now).2.2.tuns.length = d.tuns.length := by
      rw [takes.tuns, length_modify]
    rw [tun_modify, length, tun_congr takes.tuns, tun_congr takes.tuns, tun_modify, tun_modify]
    by_cases here : k = i
    · simp [here, inside]
    · simp [here]
  rw [Holds, sent]
  change Restrained now start budget (((d.takePacket i highPriority now).2.2.modify i (·.countSent len)).tun j) _
  rw [counted]
  by_cases here : j = i
  · subst here
    simp only [true_and, if_true]
    exact (holds.taken (tidy.queued j) filled d.dataSeq (timestamp64 now)).calms (.of_queues rfl rfl rfl rfl)
  · simp only [here, false_and, if_false]
    exact holds

theorem Stroke.holds (stroke : Stroke now e d d') (tidy : d.Tidy) (after : start ≤ now)
    (holds : d.Holds j now start budget) : d'.Holds j now start budget := by
  cases stroke with
  | settle steady => exact holds.same steady.tuns (keepalivesSent_append [] steady.trace (by simp))
  | configure _ _ => exact holds
  | @tend i f tends =>
      exact holds.modify rfl rfl fun _ => tends.restrained (tidy.queued i) after
  | @lose i highPriority _ filled =>
      have takes := takePacket_takes d i highPriority now
      refine holds.modify takes.tuns takes.keepalivesSent fun n restrained => ?_
      exact (restrained.taken (tidy.queued i) filled _ _).fewer (Nat.le_add_right _ _)
  | send highPriority len inside filled built => exact holds.send tidy inside filled len _
  | @accept i bytes _ _ decrypted pkt t _ _ _ read adopted =>
      refine holds.modify (i := i) (f := fun _ => _) rfl
        (keepalivesSent_append [.accepted i pkt.type decrypted] rfl (by simp [Effect.isKeepalive]))
        fun n restrained => ?_
      obtain ⟨addr, rfl⟩ := adoptAddr_eq adopted
      refine restrained.calms ?_
      rw [remeasured_of_read read]
      exact .of_queues rfl rfl rfl rfl
  | deliver _ _ _ _ | receive _ _ => exact holds.same rfl (withRx_passes d _).keepalivesSent
  | @down _ i _ done =>
      obtain ⟨d₁, rfl, passes⟩ := (statusDown_lowers done).passes
      refine holds.modify passes.tuns ?_ fun n restrained => restrained.lowered (tidy.queued i)
      exact (keepalivesSent_append [.statusDown i] rfl (by simp [Effect.isKeepalive])).trans
        passes.keepalivesSent
  | up _ done =>
      obtain ⟨passes, _⟩ := statusUp_passes done
      exact holds.modify passes.tuns passes.keepalivesSent fun n restrained => restrained.raised
  | regrade _ done =>
      obtain ⟨passes, _⟩ := regrade_passes done
      exact holds.modify passes.tuns passes.keepalivesSent fun n restrained =>
        restrained.calms (.of_queues rfl rfl rfl rfl)
  | drop i _ =>
      have stopped : (d.modify i Tunnel.stopWatching).Holds j now start budget :=
        holds.modify rfl rfl fun n restrained => restrained.calms (.of_queues rfl rfl rfl rfl)
      exact stopped
  | create conf serverMode flowId _ _ =>
      have tuns : ({ d with
          tuns := d.tuns ++ [Tunnel.init conf serverMode flowId now]
          rtuns := d.tuns.length :: d.rtuns }.log (.created d.tuns.length)).tuns =
            d.tuns ++ [Tunnel.init conf serverMode flowId now] := rfl
      rw [Holds, keepalivesSent_append (d := d) [.created d.tuns.length] rfl (by simp [Effect.isKeepalive]),
        tun_append tuns]
      split
      next new =>
        rw [Holds, new, tun_eq_blank (lt_irrefl _)] at holds
        rw [new]
        exact holds.calms ⟨by rw [keepalives_fresh rfl rfl]; exact Nat.zero_le _, rfl, rfl⟩
      next => exact holds

theorem step_holds {clock : ℚ} {event : ℚ × Event κ} (tidy : d.Tidy)
    (holds : d.Holds j clock start budget) (after : start ≤ clock) (forward : clock ≤ event.1)
    (done : d.step event = some d') : d'.Holds j event.1 start budget :=
  step_preserves (fun _ _ stroke tidy => stroke.holds tidy (after.trans forward)) tidy
    (Restrained.later holds forward) done

theorem run_holds {clock bound : ℚ} {events : List (ℚ × Event κ)} (tidy : d.Tidy)
    (holds : d.Holds j clock start budget) (after : start ≤ clock)
    (ordered : (clock :: events.map Prod.fst ++ [bound]).Pairwise (· ≤ ·))
    (reached : run step d events = some d') : d'.Tidy ∧ d'.Holds j bound start budget := by
  obtain ⟨ordered, _, bounded⟩ := List.pairwise_append.mp ordered
  obtain ⟨last, member, _, tidy, holds⟩ := run_clocked
    (I := fun clock s => start ≤ clock ∧ s.Tidy ∧ s.Holds j clock start budget)
    (fun clock s event s' held forward done => ⟨held.1.trans forward, step_tidy held.2.1 done,
      step_holds held.2.1 held.2.2 held.1 forward done⟩)
    events ordered ⟨after, tidy, holds⟩ reached
  exact ⟨tidy, Restrained.later holds (bounded last member bound (List.mem_singleton_self bound))⟩

theorem holds_init (host : Host κ) (i : Nat) : (init host).Holds i 0 0 0 := by
  have empty : Tunnel.blank.keepalives = 0 := keepalives_fresh rfl rfl
  have none : (init host).keepalivesSent i = 0 := rfl
  have restrained : Restrained 0 0 0 Tunnel.blank 0 := by
    have early : (0 : ℚ) ≤ 0 + 1 := by norm_num
    refine ⟨early, le_refl 0, ?_⟩
    rw [empty, Nat.cast_zero, add_zero, zero_add]
    exact allowance_nonneg
  rw [Holds, none]
  exact restrained

/-- Whatever the peer sends and however the events come, a tunnel sends at most two keepalives a
    second between the times `a` and `b`, besides two, and those that were waiting before. -/
theorem keepalives_paced {host : Host κ} {earlier events : List (ℚ × Event κ)} {d₀ : Daemon κ} {a b : ℚ}
    (ordered : (0 :: earlier.map Prod.fst ++ (a :: events.map Prod.fst ++ [b])).Pairwise (· ≤ ·))
    (before : run step (init host) earlier = some d₀) (reached : run step d₀ events = some d) (i : Nat) :
    (d.keepalivesSent i : ℚ) ≤ d₀.keepalivesSent i + (d₀.tun i).keepalives + 2 * (b - a) + 2 := by
  obtain ⟨first, second, across⟩ := List.pairwise_append.mp ordered
  have until_a : (0 :: earlier.map Prod.fst ++ [a]).Pairwise (· ≤ ·) := by
    refine List.pairwise_append.mpr ⟨first, List.pairwise_singleton _ _, fun time member last here => ?_⟩
    rw [List.mem_singleton.mp here]
    exact across time member a List.mem_cons_self
  obtain ⟨tidy, early⟩ := run_holds (tidy_init host) (holds_init host i) le_rfl until_a before
  have begun : d₀.Holds i a a (d₀.keepalivesSent i + (d₀.tun i).keepalives) := by
    refine ⟨early.nextKeepalive, early.lastKeepaliveAckSent, ?_⟩
    exact le_add_of_nonneg_right allowance_nonneg
  obtain ⟨_, late⟩ := run_holds tidy begun le_rfl second reached
  have forward : a ≤ b := (List.pairwise_cons.mp second).1 b
    (List.mem_append_right _ (List.mem_singleton_self b))
  have allowed : (d.tun i).allowance a ≤ 2 * (b - a) + 2 := by
    have next := late.nextKeepalive
    have ack := late.lastKeepaliveAckSent
    have one : max 0 ((d.tun i).nextKeepalive - a) ≤ b - a + 1 := max_le (by linarith) (by linarith)
    have two : max 0 ((d.tun i).lastKeepaliveAckSent + 1 - a) ≤ b - a + 1 := max_le (by linarith) (by linarith)
    rw [allowance]
    linarith
  have few := late.few
  have waiting : (0 : ℚ) ≤ (d.tun i).keepalives := Nat.cast_nonneg _
  linarith

/-- The timer of a connected tunnel comes twice in a second; one keepalive is sent. -/
theorem keepalives_of_answer :
    ∃ d₀ ∈ run step (init ⟨.little, plainBox, ()⟩) (serverRun [serverConf "a" 0]),
      ∃ d ∈ run step d₀ [(4, .timeout 0 .unresolved), (5, .timeout 0 .unresolved),
          (5, .write 0 (.sent 30) .blocked), (5, .write 0 (.sent 28) .blocked)],
        d.keepalivesSent 0 = 1 ∧ (d.keepalivesSent 0 : ℚ) ≤ 8 := by
  obtain ⟨d₀, before, d, reached, sent, none, waiting⟩ :
      ∃ d₀ ∈ run step (init ⟨.little, plainBox, ()⟩) (serverRun [serverConf "a" 0]),
        ∃ d ∈ run step d₀ [(4, .timeout 0 .unresolved), (5, .timeout 0 .unresolved),
            (5, .write 0 (.sent 30) .blocked), (5, .write 0 (.sent 28) .blocked)],
          d.keepalivesSent 0 = 1 ∧ d₀.keepalivesSent 0 = 0 ∧ (d₀.tun 0).keepalives = 0 := by
    decide +kernel
  have ordered : (0 :: (serverRun [serverConf "a" 0]).map Prod.fst ++ (2 :: ([(4, .timeout 0 .unresolved),
      (5, .timeout 0 .unresolved), (5, .write 0 (.sent 30) .blocked), (5, .write 0 (.sent 28) .blocked)] :
        List (ℚ × Event Unit)).map Prod.fst ++ [5])).Pairwise (· ≤ ·) := by
    decide +kernel
  have paced := keepalives_paced ordered before reached 0
  rw [none, waiting] at paced
  exact ⟨d₀, before, d, reached, sent, paced.trans (by norm_num)⟩

end Daemon

end Mlvpn
