import Mlvpn.Daemon.References
import Mlvpn.Daemon.Sends

/-! # What a tunnel is sent on

A tunnel gets its address and its socket from `mlvpn_rtun_start`, and keeps them.
Until then nothing is queued for it, it is not connected and nothing is read from
it.  So the writes of the loop and the end of the program find a socket; a reload
sends a disconnect on every tunnel that it drops.
-/

namespace Mlvpn

namespace Tunnel

variable {t t' : Tunnel} {sends loads : Prop}

/-- The tunnel has an address and a socket. -/
def Opened (t : Tunnel) : Prop := t.addrinfo ≠ none ∧ 0 ≤ t.fd

instance (t : Tunnel) : Decidable t.Opened := inferInstanceAs (Decidable (_ ∧ _))

/-- The address and the socket. -/
def socket (t : Tunnel) : Option Addr × Int := (t.addrinfo, t.fd)

theorem opened_congr (same : t'.socket = t.socket) : t'.Opened ↔ t.Opened := by
  obtain ⟨addrinfo, fd⟩ := Prod.mk.inj same
  rw [Opened, Opened, addrinfo, fd]

theorem queueBare_socket (type : PktType) : (t.queueBare type).socket = t.socket := by
  unfold Tunnel.queueBare
  split <;> rfl

theorem taken_socket (highPriority : Bool) (dataSeq now64 : UInt64) :
    (t.taken highPriority dataSeq now64).socket = t.socket := by
  unfold taken sendHeader
  dsimp only
  cases highPriority <;> split <;> rfl

theorem queueAuthOk_socket : t.queueAuthOk.socket = t.socket := by
  unfold Tunnel.queueAuthOk
  split <;> rfl

theorem stopIfEmpty_socket (highPriority : Bool) : (t.stopIfEmpty highPriority).socket = t.socket := by
  unfold Tunnel.stopIfEmpty
  split <;> rfl

theorem Opened.congr (opened : t.Opened) (addrinfo : t'.addrinfo = t.addrinfo)
    (fd : t'.fd = t.fd) : t'.Opened := by
  rw [Opened, addrinfo, fd]
  exact opened

/-- The tunnel has no socket, and nobody has used it yet. -/
structure Idle (t : Tunnel) : Prop where
  fd : t.fd < 0
  status : t.status = .disconnected
  sbuf : cbIsEmpty t.sbuf
  hpsbuf : cbIsEmpty t.hpsbuf
  ioRead : t.ioRead = false

def Settled (t : Tunnel) : Prop := t.Opened ∨ t.Idle

theorem Idle.not_up (idle : t.Idle) : ¬ t.status.Up := by
  rw [idle.status]
  decide

theorem Idle.empty (idle : t.Idle) (highPriority : Bool) : cbIsEmpty (t.queue highPriority) := by
  cases highPriority with
  | false => exact idle.sbuf
  | true => exact idle.hpsbuf

theorem Settled.opened_of_up (settled : t.Settled) (connected : t.status.Up) : t.Opened :=
  settled.resolve_right fun idle => idle.not_up connected

theorem Settled.opened_of_queued {highPriority : Bool} (settled : t.Settled)
    (queued : ¬ cbIsEmpty (t.queue highPriority)) : t.Opened :=
  settled.resolve_right fun idle => queued (idle.empty highPriority)

theorem idle_blank : blank.Idle := ⟨by decide, rfl, rfl, rfl, rfl⟩

theorem idle_init (conf : TunnelConf) (serverMode : Bool) (flowId : UInt32) (now : ℚ) :
    (init conf serverMode flowId now).Idle := ⟨by simp [init], rfl, rfl, rfl, rfl⟩

theorem Idle.lowered (idle : t.Idle) : t.lowered.Idle := ⟨idle.fd, rfl, rfl, rfl, idle.ioRead⟩

theorem Idle.stopWatching (idle : t.Idle) : t.stopWatching.Idle :=
  ⟨idle.fd, idle.status, idle.sbuf, idle.hpsbuf, rfl⟩

theorem Idle.refit (idle : t.Idle) (conf : TunnelConf) : (t.refit conf).Idle :=
  ⟨idle.fd, idle.status, idle.sbuf, idle.hpsbuf, idle.ioRead⟩

theorem Idle.weigh (idle : t.Idle) (total : UInt32) : (t.weigh total).Idle := by
  unfold Tunnel.weigh
  split
  next => exact ⟨idle.fd, idle.status, idle.sbuf, idle.hpsbuf, idle.ioRead⟩
  next => exact idle

/-- Another attempt at a socket.  One with descriptor 0 is kept, even if it was refused. -/
theorem Idle.start (idle : t.Idle) (now : ℚ) (result : StartResult) :
    (t.start now result).2.Settled ∧
      ((t.start now result).1 = true → (t.start now result).2.Opened) := by
  cases result with
  | unresolved => exact ⟨.inr idle, nofun⟩
  | noSocket addr =>
      refine ⟨.inr ⟨?_, idle.status, idle.sbuf, idle.hpsbuf, idle.ioRead⟩, nofun⟩
      have closed := idle.fd
      change (if t.fd > 0 then -1 else t.fd) < 0
      split <;> omega
  | refused addr fd =>
      refine ⟨?_, nofun⟩
      by_cases closes : (fd : Int) > 0
      · refine .inr ⟨?_, idle.status, idle.sbuf, idle.hpsbuf, idle.ioRead⟩
        change (if (fd : Int) > 0 then -1 else (fd : Int)) < 0
        rw [if_pos closes]
        decide
      · refine .inl ⟨nofun, ?_⟩
        change 0 ≤ if (fd : Int) > 0 then -1 else (fd : Int)
        rw [if_neg closes]
        exact Int.natCast_nonneg fd
  | opened addr fd =>
      have opened : (t.start now (.opened addr fd)).2.Opened := ⟨nofun, Int.natCast_nonneg fd⟩
      exact ⟨.inl opened, fun _ => opened⟩

theorem Idle.startIfClosed (idle : t.Idle) (now : ℚ) (result : StartResult) :
    (t.startIfClosed now result).2.Settled ∧
      ((t.startIfClosed now result).1 = true → (t.startIfClosed now result).2.Opened) := by
  unfold Tunnel.startIfClosed
  rw [if_pos idle.fd]
  obtain ⟨settled, opened⟩ := idle.start now result
  generalize t.start now result = attempt at settled opened ⊢
  obtain ⟨started, t'⟩ := attempt
  cases started with
  | false => exact ⟨settled, nofun⟩
  | true =>
      have ready : Opened { t' with connAttempts := 0 } := (opened rfl).congr rfl rfl
      exact ⟨.inl ready, fun _ => ready⟩

theorem Idle.tickConnect (idle : t.Idle) (now : ℚ) (result : StartResult) :
    (t.tickConnect now result).Settled := by
  unfold Tunnel.tickConnect
  rw [if_neg idle.not_up]
  split
  next => exact (idle.startIfClosed now result).1
  next =>
    have counted : Idle { t with connAttempts := t.connAttempts + 1, lastConnectionAttempt := now } :=
      ⟨idle.fd, idle.status, idle.sbuf, idle.hpsbuf, idle.ioRead⟩
    obtain ⟨settled, opened⟩ := counted.startIfClosed now result
    generalize Tunnel.startIfClosed _ now result = attempt at settled opened ⊢
    obtain ⟨ready, t'⟩ := attempt
    cases ready with
    | false => exact settled
    | true => exact .inl ((opened rfl).congr rfl rfl)

theorem tickConnect_down (down : ¬ t.status.Up) (now : ℚ) (result : StartResult) :
    ¬ (t.tickConnect now result).status.Up := by
  rcases tickConnect_still now result with still | ⟨opened, _, challenged⟩
  · rw [still.status]
    exact down
  · rw [challenged]
    exact (by decide : ¬ Status.authsent.Up)

/-- The end of `mlvpn_rtun_check_timeout`. -/
def watchIfQueued (t : Tunnel) : Tunnel :=
  if t.ioWrite = false ∧ ¬ cbIsEmpty t.hpsbuf then { t with ioWrite := true } else t

theorem Settled.watchIfQueued (settled : t.Settled) : t.watchIfQueued.Settled := by
  unfold Tunnel.watchIfQueued
  split
  next queued =>
    have filled : ¬ cbIsEmpty (t.queue true) := queued.2
    exact .inl ((settled.opened_of_queued filled).congr rfl rfl)
  next => exact settled

theorem watchIfQueued_status : t.watchIfQueued.status = t.status := by
  unfold Tunnel.watchIfQueued
  split <;> rfl

/-- A tunnel with a socket does not look for another. -/
theorem tickConnect_opened (opened : t.Opened) (now : ℚ) (result : StartResult) :
    (t.tickConnect now result).Opened := by
  have found : ¬ t.fd < 0 := by
    have := opened.2
    omega
  by_cases server : t.serverMode = true
  · rw [Tunnel.tickConnect, if_pos server, Tunnel.startIfClosed, if_neg found]
    exact opened
  · rw [Tunnel.tickConnect, if_neg server]
    by_cases up : t.status.Up
    · rw [if_pos up]
      exact opened.congr rfl rfl
    · rw [if_neg up, Tunnel.startIfClosed, if_neg found]
      exact opened.congr rfl rfl

/-- A socket and an address are kept. -/
theorem Act.opened (act : Act sends loads t t') (opened : t.Opened) : t'.Opened := by
  cases act with
  | create => exact absurd rfl opened.1
  | measure remeasured =>
      rw [remeasured]
      exact opened.congr rfl rfl
  | adoptAddr adopted =>
      obtain ⟨addr, rfl⟩ := adoptAddr_eq adopted
      exact ⟨nofun, opened.2⟩
  | keepaliveReceived now =>
      unfold Tunnel.keepaliveReceived Tunnel.sendKeepalive Tunnel.queueBare
      dsimp only
      split_ifs <;> exact opened.congr rfl rfl
  | sendKeepalive now =>
      unfold Tunnel.sendKeepalive Tunnel.queueBare
      split_ifs <;> exact opened.congr rfl rfl
  | queueBare => exact (opened_congr (queueBare_socket _)).mpr opened
  | tickConnect now result => exact tickConnect_opened opened now result
  | queueData highPriority data =>
      unfold Tunnel.queueData
      dsimp only
      cases highPriority <;> split <;> exact opened.congr rfl rfl
  | take highPriority dataSeq now64 => exact (opened_congr (taken_socket ..)).mpr opened
  | stopIfEmpty => exact (opened_congr (stopIfEmpty_socket _)).mpr opened
  | weigh total =>
      unfold Tunnel.weigh
      split <;> exact opened.congr rfl rfl
  | answer now =>
      have queued : t.queueAuthOk.Opened := (opened_congr queueAuthOk_socket).mpr opened
      have ticked : (t.queueAuthOk.tick now).Opened := queued.congr rfl rfl
      have raised : ((t.queueAuthOk.tick now).raised now).Opened := ticked.congr rfl rfl
      exact raised.congr rfl rfl
  | countReceived | tick | confirm | lower | regrade | watch | countSent | refit
  | stopWatching => exact opened.congr rfl rfl

end Tunnel

namespace Daemon

open Library.Machine Tunnel

variable {κ : Type} {d d' : Daemon κ} {i : Nat}

def Settled (d : Daemon κ) : Prop := ∀ j, (d.tun j).Settled

/-- A tunnel without a socket is left without one. -/
def KeepsIdle (d d' : Daemon κ) : Prop := ∀ j, (d.tun j).Idle → (d'.tun j).Idle

theorem KeepsIdle.of_tuns (tuns : d'.tuns = d.tuns) : KeepsIdle d d' := by
  intro j idle
  rw [tun, tuns]
  exact idle

theorem KeepsIdle.refl (d : Daemon κ) : KeepsIdle d d := fun _ idle => idle

theorem KeepsIdle.trans {d'' : Daemon κ} (first : KeepsIdle d d') (second : KeepsIdle d' d'') :
    KeepsIdle d d'' :=
  fun j idle => second j (first j idle)

theorem KeepsIdle.of_only (only : Only i d d') (here : (d.tun i).Idle → (d'.tun i).Idle) :
    KeepsIdle d d' := by
  intro j idle
  by_cases same : j = i
  · rw [same] at idle ⊢
    exact here idle
  · rw [only j same]
    exact idle

theorem KeepsIdle.modify {f : Tunnel → Tunnel} (kept : (d.tun i).Idle → (f (d.tun i)).Idle) :
    KeepsIdle d (d.modify i f) := by
  refine .of_only (.modify d i f) fun idle => ?_
  rw [tun_modify]
  split
  next => exact kept idle
  next => exact idle

/-- What is done to a tunnel with a socket leaves it the socket. -/
theorem Acts.opened {j : Nat} (acts : Acts (fun _ => True) True d d') (opened : (d.tun j).Opened) :
    (d'.tun j).Opened :=
  acts.preserve (fun _ _ act => act.opened) opened

theorem Settled.step (settled : d.Settled) (acts : Acts (fun _ => True) True d d')
    (keeps : KeepsIdle d d') : d'.Settled := by
  intro j
  rcases settled j with opened | idle
  · exact .inl (acts.opened opened)
  · exact .inr (keeps j idle)

theorem statusDown_idle (done : d.statusDown i = some d') : KeepsIdle d d' :=
  (KeepsIdle.modify Idle.lowered).trans (.of_tuns (statusDown_tuns done))

/-- It is not read from. -/
theorem rtunRead_idle {now : ℚ} {result : ReadResult} (reads : (d.tun i).ioRead = true)
    (done : d.rtunRead i now result = some d') : KeepsIdle d d' :=
  .of_only (rtunRead_only done) fun idle => absurd (reads.symm.trans idle.ioRead) (by decide)

/-- Nothing is queued for it. -/
theorem writeQueue_idle {highPriority : Bool} {now : ℚ} {result : SendResult}
    (done : d.writeQueue i highPriority now result = some d') : KeepsIdle d d' := by
  refine .of_only (writeQueue_only done) fun idle => ?_
  rw [writeQueue, if_pos (idle.empty highPriority)] at done
  cases done
  exact idle

theorem rtunWrite_idle {now : ℚ} {first second : SendResult}
    (done : d.rtunWrite i now first second = some d') : KeepsIdle d d' := by
  obtain ⟨d₁, high, low⟩ := Option.bind_eq_some_iff.mp done
  exact (writeQueue_idle high).trans (writeQueue_idle low)

/-- A packet of the device is queued for a tunnel that is connected. -/
theorem route_up {data : List UInt8} {highPriority : Bool} (current : d.Current)
    (routed : d.route data = some (i, highPriority)) : (d.tun i).status.Up := by
  unfold route at routed
  split at routed
  next j chosen =>
    cases routed
    exact (filtersChoose_mem chosen).2
  next =>
    obtain ⟨j, chosen, same⟩ := Option.map_eq_some_iff.mp routed
    cases same
    exact (current.table i (rtunChoose_mem chosen)).2

theorem tuntapRead_idle {data : List UInt8} (current : d.Current)
    (done : d.tuntapRead data = some d') : KeepsIdle d d' := by
  unfold tuntapRead at done
  split at done
  next => cases done
  next =>
    cases done
    have tuns := tuntapGenericRead_tuns d (data.take maxmtu)
    cases routed : d.route (data.take maxmtu) with
    | none =>
        rw [routed] at tuns
        exact .of_tuns tuns
    | some target =>
        obtain ⟨i, highPriority⟩ := target
        rw [routed] at tuns
        exact (KeepsIdle.modify fun idle => absurd (route_up current routed) idle.not_up).trans
          (.of_tuns tuns)

theorem takePacket_socket (d : Daemon κ) (i : Nat) (highPriority : Bool) (now : ℚ) (j : Nat) :
    ((d.takePacket i highPriority now).2.2.tun j).socket = (d.tun j).socket := by
  rw [tun, takePacket_tuns, ← tun]
  exact modify_keeps Tunnel.socket (taken_socket ..) j

theorem statusDown_socket (done : d.statusDown i = some d') (j : Nat) :
    (d'.tun j).socket = (d.tun j).socket := by
  rw [tun, statusDown_tuns done, ← tun]
  exact modify_keeps Tunnel.socket rfl j

theorem rtunSend_socket {highPriority : Bool} {now : ℚ} {result : SendResult}
    (done : d.rtunSend i highPriority now result = some d') (j : Nat) :
    (d'.tun j).socket = (d.tun j).socket := by
  refine Eq.trans ?_ (takePacket_socket d i highPriority now j)
  cases rtunSend_cases done with
  | refuses _ => rfl
  | hands _ sent =>
      refine (modify_keeps (f := (·.stopIfEmpty highPriority)) Tunnel.socket
        (stopIfEmpty_socket highPriority) j).trans ?_
      cases result with
      | blocked =>
          cases sent
          rfl
      | failed => exact statusDown_socket sent j
      | sent len =>
          cases sent
          exact modify_keeps Tunnel.socket rfl j

theorem sendDisconnect_socket {now : ℚ} {result : SendResult}
    (done : d.sendDisconnect i now result = some d') (j : Nat) :
    (d'.tun j).socket = (d.tun j).socket :=
  (rtunSend_socket done j).trans (modify_keeps Tunnel.socket (queueBare_socket _) j)

/-- A tunnel that is dropped is taken down, with what its disconnect has queued. -/
theorem rtunDrop_idle {now : ℚ} {result : SendResult} (done : d.rtunDrop i now result = some d') :
    KeepsIdle d d' := by
  refine .of_only (rtunDrop_only done) fun idle => ?_
  obtain ⟨d₁, sent, rest⟩ := Option.bind_eq_some_iff.mp done
  obtain ⟨d₂, down, rfl⟩ := Option.map_eq_some_iff.mp rest
  have fd : (d₁.tun i).fd < 0 := by
    rw [(Prod.mk.inj (sendDisconnect_socket sent i)).2]
    exact idle.fd
  have left : d₂.tun i = (d₁.modify i lowered).tun i := by rw [tun, statusDown_tuns down, tun]
  have length : d₂.tuns.length = d₁.tuns.length := by rw [statusDown_tuns down, length_modify]
  change ((d₂.modify i Tunnel.stopWatching).tun i).Idle
  by_cases inside : i < d₁.tuns.length
  · rw [tun_modify_self (length ▸ inside), left, tun_modify_self inside]
    exact ⟨fd, rfl, rfl, rfl, rfl⟩
  · rw [tun_eq_blank (by rwa [length_modify, length])]
    exact idle_blank

theorem configTunnel_idle {conf : TunnelConf} {serverMode : Bool} {flowId : UInt32} {now : ℚ}
    (done : d.configTunnel conf serverMode flowId now = some d') : KeepsIdle d d' := by
  obtain ⟨d₁, flagged, configured⟩ := configTunnel_cases done
  have noted : KeepsIdle d d₁ := by
    rcases flagged with rfl | rfl <;> exact .of_tuns rfl
  refine noted.trans ?_
  rcases configured with ⟨_, rfl⟩ | ⟨j, d₂, _, down, rfl⟩
  · unfold rtunNew
    split
    next => exact .refl d₁
    next =>
      intro j idle
      rw [tun_append (d := d₁) rfl]
      split
      next => exact idle_init conf serverMode flowId now
      next => exact idle
  · have lowered : KeepsIdle d₁ d₂ := by
      rcases down with ⟨_, down⟩ | ⟨_, rfl⟩
      · exact statusDown_idle down
      · exact .refl _
    exact lowered.trans (.modify fun idle => idle.refit conf)

theorem configSection_idle {now : ℚ} {s s' : Bool × Daemon κ} {part : Section κ}
    (done : configSection now s part = some s') : KeepsIdle s.2 s'.2 := by
  rcases configSection_cases done with ⟨general, configured⟩ | ⟨conf, flowId, configured⟩
  · unfold configGeneral at configured
    obtain ⟨rx, _, same⟩ := Option.map_eq_some_iff.mp configured
    rw [← same]
    exact .of_tuns rfl
  · exact configTunnel_idle configured

theorem configReload_idle {conf : Option (Config κ)} {now : ℚ} {send : Nat → SendResult}
    (done : d.configReload conf now send = some d') : KeepsIdle d d' := by
  refine configReload_keeps (I := KeepsIdle d) (.of_tuns rfl) ?_ ?_ ?_ ?_ done
  · exact fun part s s' before taken => before.trans (configSection_idle taken)
  · exact fun s j s' before dropped => before.trans (rtunDrop_idle dropped)
  · exact fun s filters before => before.trans (.of_tuns rfl)
  · exact fun s j total before => before.trans (.modify fun idle => idle.weigh total)

theorem quitTunnel_idle {now : ℚ} {send : Nat → SendResult}
    (done : quitTunnel now send d i = some d') : KeepsIdle d d' := by
  have stopped : KeepsIdle d (d.modify i Tunnel.stopWatching) := .modify Idle.stopWatching
  rcases quitTunnel_cases done with ⟨up, sent⟩ | rfl
  · exact stopped.trans (.of_only (sendDisconnect_only sent) fun idle => absurd up idle.not_up)
  · exact stopped

theorem unchecked_of_down (down : ¬ (d.tun i).status.Up) :
    d.checkLossy i = some d ∧ d.checkSlow i = some d := by
  have lossy : (d.tun i).lossyStatus = none :=
    Option.eq_none_iff_forall_ne_some.mpr fun _ changed => down (lossyStatus_up changed).1
  have slow : (d.tun i).slowStatus = none :=
    Option.eq_none_iff_forall_ne_some.mpr fun _ changed => down (slowStatus_up changed).1
  rw [checkLossy, checkSlow, lossy, slow]
  exact ⟨rfl, rfl⟩

/-- A tunnel that is not connected makes an attempt, and is not graded. -/
theorem checkTimeout_down {now : ℚ} {result : StartResult} (down : ¬ (d.tun i).status.Up)
    (done : d.checkTimeout i now result = some d') :
    d' = (d.modify i (·.tickConnect now result)).modify i watchIfQueued := by
  obtain ⟨d₁, alive, rest⟩ := Option.bind_eq_some_iff.mp done
  rw [checkAlive, if_neg down] at alive
  cases alive
  change ((((d.modify i (·.tickConnect now result)).modify i watchIfQueued).checkLossy i).bind
    fun d => d.checkSlow i) = some d' at rest
  have status := modify_keeps (d := d.modify i (·.tickConnect now result)) (i := i)
    (f := watchIfQueued) Tunnel.status watchIfQueued_status i
  have still : ¬ (((d.modify i (·.tickConnect now result)).modify i watchIfQueued).tun i).status.Up := by
    rw [status, tun_modify]
    split
    next => exact tickConnect_down down now result
    next => exact down
  obtain ⟨lossy, slow⟩ := unchecked_of_down still
  rw [lossy, Option.bind_some, slow] at rest
  exact (Option.some.inj rest).symm

theorem checkTimeout_settled {now : ℚ} {result : StartResult} (settled : d.Settled)
    (done : d.checkTimeout i now result = some d') : d'.Settled := by
  intro j
  rcases settled j with opened | idle
  · exact .inl ((checkTimeout_deeds trivial done).acts.opened opened)
  · by_cases same : j = i
    · cases same
      rw [checkTimeout_down idle.not_up done, tun_modify]
      have attempted : ((d.modify i (·.tickConnect now result)).tun i).Settled := by
        rw [tun_modify]
        split
        next => exact idle.tickConnect now result
        next => exact .inr idle
      split
      next => exact attempted.watchIfQueued
      next => exact attempted
    · rw [checkTimeout_only done j same]
      exact .inr idle

/-- A socket is opened by a timer, and at no other event. -/
theorem step_idle {now : ℚ} {e : Event κ} (current : d.Current)
    (other : ∀ i result, e ≠ .timeout i result) (done : d.step (now, e) = some d') :
    KeepsIdle d d' := by
  cases step_cases done with
  | pass => exact .refl d
  | read _ reads done => exact rtunRead_idle reads done
  | write done => exact rtunWrite_idle done
  | @timeout i result => exact absurd rfl (other i result)
  | tuntapRead done => exact tuntapRead_idle current done
  | tuntapWrite done | drainTimeout done | adjustTimeout done =>
      obtain ⟨rx, _, rfl⟩ := Option.map_eq_some_iff.mp done
      exact .of_tuns rfl
  | reload done => exact configReload_idle done
  | quit done =>
      obtain ⟨d₁, told, rfl⟩ := Option.map_eq_some_iff.mp done
      have left : KeepsIdle d d₁ := run_preserves (I := KeepsIdle d) d.rtuns
        (fun _ _ _ _ before told => before.trans (quitTunnel_idle told)) (.refl d) told
      exact left.trans (.of_tuns rfl)

/-- A socket is kept, whatever the event. -/
theorem step_opened {e : ℚ × Event κ} {j : Nat} (opened : (d.tun j).Opened)
    (done : d.step e = some d') : (d'.tun j).Opened :=
  step_tunnel (fun _ _ _ _ _ deed => deed.act.opened) opened done

theorem step_settled {e : ℚ × Event κ} (current : d.Current) (settled : d.Settled)
    (done : d.step e = some d') : d'.Settled := by
  obtain ⟨now, e⟩ := e
  intro j
  rcases settled j with opened | idle
  · exact .inl (step_opened opened done)
  · by_cases timer : ∃ i result, e = .timeout i result
    · obtain ⟨i, result, rfl⟩ := timer
      cases step_cases done with
      | pass => exact .inr idle
      | timeout _ _ done => exact checkTimeout_settled settled done j
    · exact .inr (step_idle current (fun i result same => timer ⟨i, result, same⟩) done j idle)

/-- The sends of an event are made on tunnels with an address and a socket. -/
def SendsOpened (d : Daemon κ) (e : ℚ × Event κ) : Prop :=
  ∀ call ∈ d.calls e, ∀ sent ∈ call.sendto e.1, sent.2.Opened

/-- The tunnels that `mlvpn_rtun_drop` is called for, each with the state it is called in. -/
def dropped (d : Daemon κ) : ℚ × Event κ → List (Daemon κ × Nat)
  | (now, .reload (some conf) send) =>
      if d.stopped then []
      else (d.examined conf now send).filter fun visit =>
        !conf.sections.any (Section.names (visit.1.tun visit.2).name)
  | _ => []

/-- A reload drops a tunnel only if that has an address and a socket, or if its disconnect
    is not sealed. -/
def DropsOpened (d : Daemon κ) (e : ℚ × Event κ) : Prop :=
  ∀ visit ∈ d.dropped e,
    (visit.1.tun visit.2).Opened ∨ (visit.1.disconnectCall visit.2).sendto e.1 = none

instance (d : Daemon κ) (e : ℚ × Event κ) : Decidable (d.SendsOpened e) :=
  inferInstanceAs (Decidable (∀ call ∈ d.calls e, ∀ sent ∈ call.sendto e.1, sent.2.Opened))

theorem SendCall.sendto_opened_iff (call : SendCall κ) (now : ℚ) :
    (∀ sent ∈ call.sendto now, sent.2.Opened) ↔
      (call.daemon.tun call.tunnel).Opened ∨ call.sendto now = none := by
  have same := opened_congr
    (takePacket_socket call.daemon call.tunnel call.highPriority now call.tunnel)
  unfold SendCall.sendto
  dsimp only
  cases sendDatagram _ _ _ _ with
  | none => simp
  | some datagram => simp [same]

theorem writeCalls_opened {now : ℚ} {first : SendResult} (settled : d.Settled) :
    ∀ call ∈ d.writeCalls i now first, (call.daemon.tun call.tunnel).Opened := by
  have queued : ∀ (s : Daemon κ) highPriority, s.Settled →
      ∀ call ∈ s.queueCalls i highPriority, (call.daemon.tun call.tunnel).Opened := by
    intro s highPriority settled call member
    unfold queueCalls at member
    split at member
    next => cases member
    next filled =>
      cases List.mem_singleton.mp member
      exact (settled i).opened_of_queued filled
  intro call member
  rcases List.mem_append.mp member with high | low
  · exact queued d true settled call high
  · cases done : d.writeQueue i true now first with
    | none =>
        rw [done] at low
        cases low
    | some d₁ =>
        rw [done] at low
        have left := settled.step (writeQueue_deeds (fun _ => trivial) done).acts (writeQueue_idle done)
        exact queued d₁ false left call low

theorem disconnectCall_opened_iff (d : Daemon κ) (i : Nat) :
    ((d.disconnectCall i).daemon.tun (d.disconnectCall i).tunnel).Opened ↔ (d.tun i).Opened :=
  opened_congr (modify_keeps Tunnel.socket (queueBare_socket _) i)

theorem quitCalls_opened {now : ℚ} {send : Nat → SendResult} (settled : d.Settled) :
    ∀ call ∈ (visits (quitTunnel now send) d d.rtuns).flatMap quitCalls,
      (call.daemon.tun call.tunnel).Opened := by
  intro call member
  obtain ⟨visit, visited, made⟩ := List.mem_flatMap.mp member
  have before : visit.1.Settled := (visits_invariant d.rtuns (fun _ _ _ _ settled done =>
    settled.step (quitTunnel_deeds trivial done).acts (quitTunnel_idle done)) settled visit visited).1
  have stopped : (visit.1.modify visit.2 Tunnel.stopWatching).Settled :=
    before.step (.act .stopWatching) (.modify Idle.stopWatching)
  unfold quitCalls at made
  dsimp only at made
  split at made
  next up =>
    cases List.mem_singleton.mp made
    exact (disconnectCall_opened_iff _ _).mpr ((stopped visit.2).opened_of_up up)
  next => cases made

theorem mem_dropCalls {conf : Config κ} {visit : Daemon κ × Nat} {call : SendCall κ} :
    call ∈ dropCalls conf visit ↔
      (!conf.sections.any (Section.names (visit.1.tun visit.2).name)) = true ∧
        call = visit.1.disconnectCall visit.2 := by
  unfold dropCalls
  split <;> simp_all

/-- Only a reload can send on a tunnel without a socket. -/
theorem sendsOpened_iff (settled : d.Settled) (e : ℚ × Event κ) :
    d.SendsOpened e ↔ d.DropsOpened e := by
  obtain ⟨now, e⟩ := e
  unfold SendsOpened DropsOpened
  simp only [SendCall.sendto_opened_iff]
  cases running : d.stopped with
  | true =>
      cases e with
      | reload conf send => cases conf <;> simp [calls, dropped, running]
      | _ => simp [calls, dropped, running]
  | false =>
      cases e with
      | write i first second =>
          refine iff_of_true (fun call member => ?_) (by simp [dropped])
          simp only [calls, running, Bool.false_eq_true, if_false] at member
          split at member
          next => exact .inl (writeCalls_opened settled call member)
          next => cases member
      | quit send =>
          refine iff_of_true (fun call member => ?_) (by simp [dropped])
          simp only [calls, running, Bool.false_eq_true, if_false] at member
          exact .inl (quitCalls_opened settled call member)
      | reload conf send =>
          cases conf with
          | none => simp [calls, dropped]
          | some conf =>
              simp only [calls, dropped, running, Bool.false_eq_true, if_false, List.mem_flatMap,
                List.mem_filter, mem_dropCalls]
              constructor
              · rintro opened visit ⟨visited, missing⟩
                rw [← disconnectCall_opened_iff]
                exact opened _ ⟨visit, visited, missing, rfl⟩
              · rintro opened call ⟨visit, visited, missing, rfl⟩
                rw [disconnectCall_opened_iff]
                exact opened visit ⟨visited, missing⟩
      | _ => simp [calls, dropped]

/-- In every run, packets are sent on tunnels with an address and a socket only if that is
    so of every tunnel that a reload drops. -/
theorem sends_opened_iff (host : Host κ) (events : List (ℚ × Event κ)) :
    Meets step SendsOpened (init host) events ↔ Meets step DropsOpened (init host) events := by
  refine meets_congr (I := fun d => d.Current ∧ d.Settled) ?_ ?_ events
    ⟨current_init host, fun j => .inr idle_blank⟩
  · rintro d e d' ⟨current, settled⟩ done
    exact ⟨step_current current done, step_settled current settled done⟩
  · intro d e invariant
    exact sendsOpened_iff invariant.2 e

/-- A reload creates a tunnel, its timer expires, and the next reload removes it. -/
def removedRun (result : StartResult) : List (ℚ × Event Unit) :=
  [(0, .reload (some (serverConfig [serverConf "a" 0] [])) fun _ => .blocked),
    (1, .timeout 0 result), (2, .reload (some (serverConfig [] [])) fun _ => .failed)]

/-- Where the name was never resolved, the disconnect is for a null address.  Where only the
    socket is missing, it is for descriptor -1. -/
theorem sends_on_dropped :
    ¬ Meets step SendsOpened (init ⟨.little, plainBox, ()⟩) (removedRun .unresolved) ∧
      ¬ Meets step SendsOpened (init ⟨.little, plainBox, ()⟩) (removedRun (.noSocket [127])) := by
  decide +kernel

end Daemon

end Mlvpn
