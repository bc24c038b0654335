import Mlvpn.Daemon.Timers
import Mlvpn.Daemon.Tolerance

/-! # A peer that falls silent

A tunnel notes when it was connected, and when it last had a keepalive.  Its timer gives it up
if that was longer ago than the timeout.  Followed over a whole run, the verdict of the timer is
exact: a connected tunnel is given up just when the last keepalive, or the last packet of the
handshake that connected it, is too old.  Data is no sign of life: a peer that sends packets all
the time and no keepalive is given up.
-/

namespace Mlvpn

namespace Tunnel

/-- What a tunnel knows of its peer. -/
def pulse (t : Tunnel) : ℚ × Status × Bool := (t.lastKeepaliveAck, t.status, t.serverMode)

variable {t t' : Tunnel}

theorem pulse_accept {κ : Type} {host : Host κ} {cleartextData : Bool} {now64 : UInt64} {len : Nat}
    {bytes : List UInt8} {outcome : Option (Bool × Pkt)} {sender : Addr} {named : Bool} {t₁ : Tunnel}
    (read : protocolRead host cleartextData now64 t bytes = (outcome, t₁))
    (adopted : (t₁.countReceived len).adoptAddr sender named = some t') : t'.pulse = t.pulse := by
  obtain ⟨addr, rfl⟩ := adoptAddr_eq adopted
  exact (congrArg pulse (remeasured_of_read read)).trans rfl

/-- The time is as it was, and the tunnel has not been connected. -/
def Unstirred (t t' : Tunnel) : Prop :=
  t'.lastKeepaliveAck = t.lastKeepaliveAck ∧ (t'.status.Up → t.status.Up)

theorem Unstirred.of_pulse (same : t'.pulse = t.pulse) : Unstirred t t' :=
  ⟨congrArg (·.1) same, fun up => by
    rwa [show t'.status = t.status from congrArg (·.2.1) same] at up⟩

theorem lossyStatus_up_iff : (t.lossyStatus.getD t.status).Up ↔ t.status.Up := by
  cases found : t.lossyStatus with
  | none => exact Iff.rfl
  | some status => exact iff_of_true (lossyStatus_up found).2 (lossyStatus_up found).1

theorem slowStatus_up_iff : (t.slowStatus.getD t.status).Up ↔ t.status.Up := by
  cases found : t.slowStatus with
  | none => exact Iff.rfl
  | some status => exact iff_of_true (slowStatus_up found).2 (slowStatus_up found).1

theorem unstirred_tickConnect (t : Tunnel) (now : ℚ) (result : StartResult) :
    Unstirred t (t.tickConnect now result) := by
  rcases t.tickConnect_started now result with started | ⟨opened, started, challenged⟩
  · rw [started]
    exact .of_pulse rfl
  · rw [challenged, started]
    have waits : ¬ Status.authsent.Up := by decide
    exact ⟨rfl, fun up => absurd up waits⟩

end Tunnel

namespace Daemon

open Library.Machine Tunnel

variable {κ : Type} {d d' : Daemon κ} {i j : Nat} {now : ℚ} {e : Event κ}

/-- The packets that set `last_keepalive_ack`: a keepalive of a connected tunnel, and the part of
    the handshake that a client waits for or that a server answers, connected or not. -/
def Heeds (d : Daemon κ) (i : Nat) (pkt : Pkt) : Prop :=
  match pkt.type with
  | .keepalive => (d.tun i).status.Up
  | .auth | .authOk =>
      if (d.tun i).serverMode then (d.tun i).status = .disconnected ∨ (d.tun i).status.Up
      else (d.tun i).status = .authsent
  | _ => False

instance (d : Daemon κ) (i : Nat) (pkt : Pkt) : Decidable (d.Heeds i pkt) := by
  unfold Heeds
  split <;> infer_instance

/-- An event in which the tunnel `i` accepts a keepalive, or a part of the handshake that it waits
    for. -/
def Hears (d : Daemon κ) (i : Nat) : ℚ × Event κ → Prop
  | (now, .read j (.datagram bytes _ _)) =>
      j = i ∧ d.stopped = false ∧ (d.tun i).ioRead = true ∧
        ∃ read ∈ (protocolRead d.host d.cleartextData (timestamp64 now) (d.tun i)
          (bytes.take defaultMtu)).1, d.Heeds i read.2
  | _ => False

instance (d : Daemon κ) (i : Nat) : ∀ event, Decidable (d.Hears i event)
  | (_, .read _ (.datagram _ _ _)) => inferInstanceAs (Decidable (_ ∧ _))
  | (_, .read _ .blocked) | (_, .read _ .failed) | (_, .read _ .closed) => isFalse id
  | (_, .write _ _ _) | (_, .timeout _ _) | (_, .tuntapRead _) | (_, .tuntapWrite) => isFalse id
  | (_, .drainTimeout) | (_, .adjustTimeout) | (_, .reload _ _) | (_, .quit _) => isFalse id

/-- The time of such an event. -/
def heard (d : Daemon κ) (i : Nat) (event : ℚ × Event κ) : List ℚ :=
  if d.Hears i event then [event.1] else []

/-- Nothing is heard outside of a read. -/
theorem Tends.unstirred {t t' : Tunnel} (tends : Tends now e j t t') (other : ∀ result, e ≠ .read j result) :
    Unstirred t t' := by
  cases tends with
  | tick | keepaliveReceived _ | answer _ | watchAnswer => exact absurd rfl (other _)
  | sendKeepalive _ _ => exact .of_pulse ((congrArg Tunnel.pulse (t.queueBare_eq .keepalive)).trans rfl)
  | tickConnect _ => exact unstirred_tickConnect t now _
  | watchIfQueued =>
      unfold Tunnel.watchIfQueued
      split <;> exact .of_pulse rfl
  | queueData highPriority _ =>
      exact .of_pulse ((congrArg Tunnel.pulse (t.queueData_eq highPriority _)).trans rfl)
  | queueDisconnect => exact .of_pulse ((congrArg Tunnel.pulse (t.queueBare_eq .disconnect)).trans rfl)
  | stopIfEmpty highPriority =>
      unfold Tunnel.stopIfEmpty
      split <;> exact .of_pulse rfl
  | stopWatching | refit _ _ => exact .of_pulse rfl
  | weigh total _ =>
      unfold Tunnel.weigh
      split <;> exact .of_pulse rfl

theorem kept_unstirred (other : ∀ result, e ≠ .read j result) (ack : ℚ) (up : Prop) :
    Kept now e j fun t => t.lastKeepaliveAck = ack ∧ (t.status.Up → up) := by
  have unheard {t t' : Tunnel} (unheard : Unstirred t t')
      (before : t.lastKeepaliveAck = ack ∧ (t.status.Up → up)) :
      t'.lastKeepaliveAck = ack ∧ (t'.status.Up → up) :=
    ⟨unheard.1.trans before.1, fun connected => before.2 (unheard.2 connected)⟩
  have down : ¬ Status.disconnected.Up := by decide
  exact {
    tend := fun t t' tends => unheard (tends.unstirred other)
    take := fun t highPriority dataSeq _ =>
      unheard (.of_pulse ((congrArg Tunnel.pulse (t.taken_eq highPriority dataSeq _)).trans rfl))
    countSent := fun _ _ => unheard (.of_pulse rfl)
    accept := fun _ t bytes _ _ _ _ t₁ t' _ read adopted => by
      exact unheard (.of_pulse (pulse_accept read adopted))
    lower := fun _ => unheard ⟨rfl, fun up => absurd up down⟩
    raise := fun _ result read => absurd read (other result)
    regrade := fun t status found => by
      refine unheard ⟨rfl, fun _ => ?_⟩
      exact found.elim (fun lossy => (lossyStatus_up lossy).1) fun slow => (slowStatus_up slow).1
    stop := fun _ _ => unheard (.of_pulse rfl) }

/-- The last sign of life of the peer, and whether the tunnel is connected, by what was heard. -/
structure Notes (t t' : Tunnel) (now : ℚ) (hears : Prop) [Decidable hears] : Prop where
  ack : t'.lastKeepaliveAck = if hears then now else t.lastKeepaliveAck
  up : t'.status.Up → t.status.Up ∨ hears

theorem Unstirred.notes {t t' : Tunnel} {hears : Prop} [Decidable hears] (unheard : Unstirred t t')
    (silent : ¬ hears) : Notes t t' now hears :=
  ⟨by rw [if_neg silent, unheard.1], fun up => .inl (unheard.2 up)⟩

/-- A tunnel that is connected, or kept alive. -/
theorem notes_heard {t t' : Tunnel} {hears : Prop} [Decidable hears] (ack : t'.lastKeepaliveAck = now)
    (here : hears) : Notes t t' now hears :=
  ⟨by rw [if_pos here, ack], fun _ => .inr here⟩

theorem statusDown_unstirred (done : d.statusDown i = some d') : Unstirred (d.tun i) (d'.tun i) := by
  rw [tun_congr (statusDown_tuns done), tun_modify]
  split
  next => exact ⟨rfl, fun up => absurd up (by decide : ¬ Status.disconnected.Up)⟩
  next => exact .of_pulse rfl

theorem Notes.congr {t t' : Tunnel} {hears hears' : Prop} [Decidable hears] [Decidable hears']
    (notes : Notes t t' now hears) (same : hears' ↔ hears) : Notes t t' now hears' := by
  obtain ⟨ack, up⟩ := notes
  refine ⟨?_, fun connected => (up connected).imp id same.mpr⟩
  rw [ack]
  exact if_congr same.symm rfl rfl

theorem Notes.of_pulse {t₀ t t' : Tunnel} {hears : Prop} [Decidable hears] (notes : Notes t t' now hears)
    (same : t.pulse = t₀.pulse) : Notes t₀ t' now hears := by
  obtain ⟨ack, up⟩ := notes
  have status : t.status = t₀.status := congrArg (·.2.1) same
  exact ⟨(congrArg (·.1) same : t.lastKeepaliveAck = t₀.lastKeepaliveAck) ▸ ack, status ▸ up⟩

theorem statusUp_ack (inside : i < d.tuns.length) (done : d.statusUp i now = some d') :
    (d'.tun i).lastKeepaliveAck = now := by
  rw [tun_congr (statusUp_passes done).1.tuns, tun_modify_self inside]
  rfl

theorem sendAuth_notes (inside : i < d.tuns.length) (done : d.sendAuth i now = some d') :
    Notes (d.tun i) (d'.tun i) now
      (if (d.tun i).serverMode then (d.tun i).status = .disconnected ∨ (d.tun i).status.Up
        else (d.tun i).status = .authsent) := by
  cases sendAuth_cases done with
  | answers server ready raised =>
      refine notes_heard ?_ (by rw [if_pos server]; exact ready)
      have noted := statusUp_ack (by rwa [length_modify]) raised
      rw [tun_modify]
      split
      next => exact noted
      next => exact noted
  | confirms client ready raised =>
      refine notes_heard ?_ (by rw [if_neg (Bool.eq_false_iff.mp client)]; exact ready)
      exact statusUp_ack (by rwa [length_modify]) raised
  | ignores unready => exact Unstirred.notes (.of_pulse rfl) unready

/-- What a tunnel hears in a packet. -/
theorem dispatch_notes {pkt : Pkt} (inside : i < d.tuns.length) (done : d.dispatch i now pkt = some d') :
    Notes (d.tun i) (d'.tun i) now (d.Heeds i pkt) := by
  have silent {t : Tunnel} (unheard : Unstirred (d.tun i) t) (deaf : ¬ d.Heeds i pkt) :
      Notes (d.tun i) t now (d.Heeds i pkt) := Unstirred.notes unheard deaf
  unfold dispatch at done
  dsimp only at done
  split at done
  next isData =>
    have deaf : ¬ d.Heeds i pkt := by
      rw [Heeds, isData]
      exact id
    split at done
    next =>
      obtain ⟨rx, _, rfl⟩ := Option.map_eq_some_iff.mp done
      refine silent ?_ deaf
      change Unstirred (d.tun i) ((d.modify i (·.tick now)).tun i)
      rw [tun_modify_self inside]
      exact .of_pulse rfl
    next =>
      cases done
      exact silent (.of_pulse rfl) deaf
  next isKeepalive =>
    have heeds : d.Heeds i pkt ↔ (d.tun i).status.Up := by rw [Heeds, isKeepalive]
    cases done
    split
    next connected =>
      refine notes_heard ?_ (heeds.mpr connected)
      rw [tun_modify_self inside]
      unfold Tunnel.keepaliveReceived
      dsimp only
      split
      next => exact (congrArg Tunnel.lastKeepaliveAck (queueBare_eq _ .keepalive)).trans rfl
      next => rfl
    next idle => exact silent (.of_pulse rfl) fun heeded => idle (heeds.mp heeded)
  next isDisconnect =>
    have deaf : ¬ d.Heeds i pkt := by
      rw [Heeds, isDisconnect]
      exact id
    split at done
    next => exact silent (statusDown_unstirred done) deaf
    next =>
      cases done
      exact silent (.of_pulse rfl) deaf
  next isAuth => exact (sendAuth_notes inside done).congr (by rw [Heeds, isAuth])
  next isAuthOk => exact (sendAuth_notes inside done).congr (by rw [Heeds, isAuthOk])
  next isOther =>
    cases done
    refine silent (.of_pulse rfl) ?_
    rw [Heeds, isOther]
    exact id

theorem lt_of_reads (reads : (d.tun i).ioRead = true) : i < d.tuns.length := by
  by_contra outside
  rw [tun_eq_blank outside] at reads
  cases reads

theorem heeds_congr {pkt : Pkt} (same : (d'.tun i).pulse = (d.tun i).pulse) :
    d'.Heeds i pkt ↔ d.Heeds i pkt := by
  have status : (d'.tun i).status = (d.tun i).status := congrArg (·.2.1) same
  have serverMode : (d'.tun i).serverMode = (d.tun i).serverMode := congrArg (·.2.2) same
  rw [Heeds, Heeds, status, serverMode]

/-- What a tunnel hears in a datagram. -/
theorem rtunRead_notes {result : ReadResult} (running : d.stopped = false)
    (reads : (d.tun i).ioRead = true) (done : d.rtunRead i now result = some d') :
    Notes (d.tun i) (d'.tun i) now (d.Hears i (now, .read i result)) := by
  have inside := lt_of_reads reads
  cases rtunRead_cases done with
  | waits silent => rcases silent with rfl | rfl <;> exact Unstirred.notes (.of_pulse rfl) id
  | fails down => exact Unstirred.notes (statusDown_unstirred down) id
  | refuses refused =>
      refine Unstirred.notes ?_ ?_
      · rw [tun_modify_self inside]
        exact .of_pulse ((congrArg Tunnel.pulse (remeasured_of_read refused)).trans rfl)
      · rintro ⟨_, _, _, read, found, _⟩
        rw [refused] at found
        cases found
  | @accepts bytes sender named decrypted pkt _ t _ read adopted dispatched =>
      have pulse : t.pulse = (d.tun i).pulse := pulse_accept read adopted
      have here : (((d.modify i fun _ => t).log (.accepted i pkt.type decrypted)).tun i) = t :=
        tun_modify_self inside _
      have still : i < (((d.modify i fun _ => t).log (.accepted i pkt.type decrypted)).tuns).length :=
        inside.trans_eq (length_modify d i _).symm
      have notes := dispatch_notes still dispatched
      rw [here] at notes
      have heeds : d.Hears i (now, .read i (.datagram bytes sender named)) ↔
          ((d.modify i fun _ => t).log (.accepted i pkt.type decrypted)).Heeds i pkt := by
        rw [heeds_congr (here ▸ pulse)]
        constructor
        · rintro ⟨_, _, _, found, member, heeds⟩
          rw [read] at member
          cases member
          exact heeds
        · exact fun heeds => ⟨rfl, running, reads, _, by rw [read]; rfl, heeds⟩
      exact (notes.congr heeds).of_pulse pulse

theorem step_notes {event : ℚ × Event κ} (tidy : d.Tidy) (done : d.step event = some d') :
    Notes (d.tun j) (d'.tun j) event.1 (d.Hears j event) := by
  obtain ⟨now, e⟩ := event
  by_cases reading : ∃ result, e = .read j result
  · obtain ⟨result, rfl⟩ := reading
    have deaf (quiet : ¬ (d.stopped = false ∧ (d.tun j).ioRead = true)) :
        ¬ d.Hears j (now, .read j result) := by
      cases result with
      | blocked | closed | failed => exact id
      | datagram bytes sender named => exact fun hears => quiet ⟨hears.2.1, hears.2.2.1⟩
    rw [step] at done
    split at done
    next stopped =>
      cases done
      exact Unstirred.notes (.of_pulse rfl) (deaf fun both => by rw [both.1] at stopped; cases stopped)
    next running =>
      split at done
      next reads => exact rtunRead_notes (Bool.eq_false_of_not_eq_true running) reads done
      next idle =>
        cases done
        exact Unstirred.notes (.of_pulse rfl) (deaf fun both => idle both.2)
  · have other (result : ReadResult) : e ≠ .read j result := fun same => reading ⟨result, same⟩
    have down : ¬ Status.disconnected.Up := by decide
    have fresh : j < d.tuns.length ∨ ∀ conf serverMode flowId,
        (Tunnel.init conf serverMode flowId now).lastKeepaliveAck = (d.tun j).lastKeepaliveAck ∧
          ((Tunnel.init conf serverMode flowId now).status.Up → (d.tun j).status.Up) := by
      by_cases inside : j < d.tuns.length
      · exact .inl inside
      · refine .inr fun _ _ _ => ⟨?_, fun up => absurd up down⟩
        rw [tun_eq_blank inside]
        rfl
    refine Unstirred.notes ((kept_unstirred other _ _).step fresh tidy ⟨rfl, id⟩ done) ?_
    intro hears
    cases e with
    | read k result =>
        cases result with
        | blocked | closed | failed => exact hears
        | datagram bytes sender named =>
            obtain ⟨rfl, _⟩ := hears
            exact other _ rfl
    | write _ _ _ | timeout _ _ | tuntapRead _ | tuntapWrite | drainTimeout | adjustTimeout
    | reload _ _ | quit _ => exact hears

/-- The times at which the tunnel `i` has accepted a keepalive, or a part of the handshake that it
    waited for. -/
def hearings (host : Host κ) (i : Nat) (events : List (ℚ × Event κ)) : List ℚ :=
  (visits step (init host) events).flatMap fun visit => visit.1.heard i visit.2

/-- The tunnel knows when it last accepted such a packet, and is connected only if it has. -/
structure Attentive (i : Nat) (d : Daemon κ) (heard : List ℚ) : Prop where
  tidy : d.Tidy
  last : (d.tun i).lastKeepaliveAck = heard.getLast?.getD 0
  up : (d.tun i).status.Up → heard ≠ []
  positive : ∀ time ∈ heard, 0 < time

theorem Attentive.step {event : ℚ × Event κ} {before : List ℚ} (attentive : Attentive i d before)
    (later : 0 < event.1) (done : d.step event = some d') :
    Attentive i d' (before ++ d.heard i event) := by
  have notes := step_notes (j := i) attentive.tidy done
  unfold heard
  by_cases hears : d.Hears i event
  · rw [if_pos hears]
    refine ⟨step_tidy attentive.tidy done, ?_, fun _ => List.concat_ne_nil _ _, ?_⟩
    · rw [notes.ack, if_pos hears, List.getLast?_concat, Option.getD_some]
    · intro time member
      rcases List.mem_append.mp member with old | new
      · exact attentive.positive time old
      · rw [List.mem_singleton.mp new]
        exact later
  · rw [if_neg hears, List.append_nil]
    refine ⟨step_tidy attentive.tidy done, ?_, fun connected => ?_, attentive.positive⟩
    · rw [notes.ack, if_neg hears, attentive.last]
    · exact attentive.up ((notes.up connected).resolve_right hears)

theorem run_attentive {host : Host κ} {events : List (ℚ × Event κ)}
    (later : ∀ event ∈ events, 0 < event.1) (reached : run step (init host) events = some d) :
    Attentive i d (hearings host i events) := by
  have down : ¬ Status.disconnected.Up := by decide
  have meets : Meets step (fun _ event => 0 < event.1) (init host) events :=
    meets_of_forall events (fun event member _ => later event member) _
  have held : Attentive i d ([] ++ hearings host i events) :=
    run_outputs (I := Attentive i)
      (fun s event s' before attentive late done => attentive.step late done) events
      ⟨tidy_init host, rfl, fun up => absurd up down, fun _ member => by cases member⟩ meets reached
  exact held

/-- A check leaves a connected tunnel connected unless it has expired. -/
theorem checkTimeout_up {result : StartResult} (up : (d.tun i).status.Up)
    (done : d.checkTimeout i now result = some d') :
    (d'.tun i).status.Up ↔ ¬ (d.tun i).Expired now := by
  obtain ⟨d₁, d₂, surveyed, _, lossy, slow⟩ := checkTimeout_stages done
  rw [checkSlow_status slow, slowStatus_up_iff, checkLossy_status lossy, lossyStatus_up_iff]
  rcases surveyed with ⟨_, alive, same⟩ | ⟨dead, down⟩
  · have status : (d₁.tun i).status = (d.tun i).status := congrArg Prod.snd same
    rw [status]
    exact iff_of_true up alive
  · exact iff_of_false down fun alive => dead ⟨up, alive⟩

/-- The verdict of the timer is exact.  A connected tunnel has accepted a keepalive or a part of the
    handshake, and stays connected when its timer comes just as long as the last of them came no
    longer ago than the timeout.  Other packets do not count. -/
theorem timeout_verdict {host : Host κ} {events : List (ℚ × Event κ)} {result : StartResult}
    (later : ∀ event ∈ events, 0 < event.1) (reached : run step (init host) events = some d)
    (running : d.stopped = false) (listed : i ∈ d.rtuns) (up : (d.tun i).status.Up)
    (bounded : 0 < (d.tun i).timeout) (done : d.step (now, .timeout i result) = some d') :
    ∃ heard ∈ (hearings host i events).getLast?,
      ((d'.tun i).status.Up ↔ now ≤ heard + (d.tun i).timeout) := by
  have attentive := run_attentive (i := i) later reached
  have active := (run_alert reached running).active i listed
  simp only [step, running, active, Bool.false_eq_true, if_false, if_true] at done
  obtain ⟨heard, last⟩ := Option.isSome_iff_exists.mp (List.getLast?_isSome.mpr (attentive.up up))
  have noted : (d.tun i).lastKeepaliveAck = heard := by rw [attentive.last, last, Option.getD_some]
  have positive : 0 < heard := attentive.positive heard (List.mem_of_getLast? last)
  refine ⟨heard, last, ?_⟩
  rw [checkTimeout_up up done, Expired, noted, ← not_lt]
  exact not_congr ⟨fun expired => expired.2.2, fun silent => ⟨bounded, positive.ne', silent⟩⟩

/-- A tunnel of a server is opened and challenged. -/
def connectedRun : List (ℚ × Event Unit) :=
  [(1, .reload (some (serverConfig [serverConf "a" 0] [])) fun _ => .blocked),
    (1, .timeout 0 (.opened [127] 3)), challenged 0]

/-- A server that has been challenged at the time 2 is content for 60 seconds. -/
theorem timeout_after_challenge :
    ∃ d ∈ run step (init ⟨.little, plainBox, ()⟩) connectedRun,
      ∀ now d', d.step (now, .timeout 0 .unresolved) = some d' → ((d'.tun 0).status.Up ↔ now ≤ 62) := by
  obtain ⟨d, reached, running, listed, up, timeout, heard⟩ :
      ∃ d ∈ run step (init ⟨.little, plainBox, ()⟩) connectedRun,
        d.stopped = false ∧ 0 ∈ d.rtuns ∧ (d.tun 0).status.Up ∧ (d.tun 0).timeout = 60 ∧
          (hearings ⟨.little, plainBox, ()⟩ 0 connectedRun).getLast? = some 2 := by
    decide +kernel
  refine ⟨d, reached, fun now d' done => ?_⟩
  have later : ∀ event ∈ connectedRun, 0 < event.1 := by
    intro event member
    simp only [connectedRun, List.mem_cons, List.not_mem_nil, or_false] at member
    rcases member with rfl | rfl | rfl <;> decide +kernel
  obtain ⟨time, last, verdict⟩ := timeout_verdict later reached running listed up (by rw [timeout]; decide) done
  rw [heard] at last
  cases last
  rw [verdict, timeout]
  norm_num

end Daemon

end Mlvpn
