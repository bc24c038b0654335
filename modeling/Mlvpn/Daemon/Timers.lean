import Mlvpn.Daemon.References
import Mlvpn.Daemon.Strokes

/-! # The timers of the tunnels

Every second `mlvpn_rtun_check_timeout` looks after a tunnel: it connects it, keeps it alive, or
gives it up.  A tunnel that cannot open its socket is tried again after twice the time, but not
later than after 64 seconds.  As long as the program runs, no tunnel of the list is forgotten.
-/

namespace Mlvpn

namespace Tunnel

variable {t t' : Tunnel}

/-- The timer, while it is active, has a period of the backoff, and the shortest one once the
    socket is open. -/
def Paced (t : Tunnel) : Prop :=
  t.ioTimeout.active = true →
    (∃ k ≤ 6, t.ioTimeout.period = 2 ^ k) ∧ (t.fd > 0 → t.ioTimeout.period = 1)

theorem Paced.of_same (paced : t.Paced) (ioTimeout : t'.ioTimeout = t.ioTimeout) (fd : t'.fd = t.fd) :
    t'.Paced := by
  rw [Paced, ioTimeout, fd]
  exact paced

theorem paced_one (period : t.ioTimeout.period = 1) : t.Paced :=
  fun _ => ⟨⟨0, by decide, period.trans (pow_zero 2).symm⟩, fun _ => period⟩

/-- A failed attempt doubles the period, up to 64, and leaves no socket open. -/
theorem paced_startError (backoff : t.ioTimeout.active = true → ∃ k ≤ 6, t.ioTimeout.period = 2 ^ k) :
    t.startError.Paced := by
  intro active
  have before : t.ioTimeout.active = true := by
    unfold startError at active
    dsimp only at active
    split at active <;> exact active
  obtain ⟨k, small, period⟩ := backoff before
  unfold startError
  dsimp only
  refine ⟨?_, fun opened => ?_⟩
  · split
    next short =>
      refine ⟨k + 1, ?_, by rw [period, pow_succ]⟩
      by_contra large
      have last : k = 6 := by omega
      rw [period, last] at short
      norm_num at short
    next => exact ⟨k, small, period⟩
  · split at opened <;> omega

theorem Paced.start (paced : t.Paced) (now : ℚ) (result : StartResult) : (t.start now result).2.Paced := by
  cases result with
  | unresolved => exact paced
  | noSocket addr | refused addr fd => exact paced_startError fun active => (paced active).1
  | opened addr fd => exact paced_one rfl

theorem Paced.startIfClosed (paced : t.Paced) (now : ℚ) (result : StartResult) :
    (t.startIfClosed now result).2.Paced := by
  have started := paced.start now result
  unfold Tunnel.startIfClosed
  split
  next =>
    dsimp only
    split
    next => exact started.of_same rfl rfl
    next => exact started
  next => exact paced

theorem Paced.tickConnect (paced : t.Paced) (now : ℚ) (result : StartResult) :
    (t.tickConnect now result).Paced := by
  have attempted : ({ t with
      connAttempts := t.connAttempts + 1
      lastConnectionAttempt := now }.startIfClosed now result).2.Paced := by
    refine Paced.startIfClosed ?_ now result
    exact paced.of_same rfl rfl
  unfold Tunnel.tickConnect
  split
  next => exact paced.startIfClosed now result
  next =>
    dsimp only
    split
    next => exact paced.of_same rfl rfl
    next =>
      split
      next => exact attempted.of_same rfl rfl
      next => exact attempted

/-- An attempt leaves the timer active, and the name as it was. -/
theorem tickConnect_active (t : Tunnel) (now : ℚ) (result : StartResult) :
    (t.tickConnect now result).ioTimeout.active = t.ioTimeout.active ∧
      (t.tickConnect now result).name = t.name := by
  have started (t : Tunnel) : (t.startIfClosed now result).2.ioTimeout.active = t.ioTimeout.active ∧
      (t.startIfClosed now result).2.name = t.name := by
    unfold startIfClosed
    split
    next =>
      cases result with
      | unresolved | opened _ _ => exact ⟨rfl, rfl⟩
      | noSocket addr | refused addr fd =>
          unfold start startError
          dsimp only
          refine ⟨?_, rfl⟩
          simp only [Bool.false_eq_true, if_false]
          split <;> rfl
    next => exact ⟨rfl, rfl⟩
  unfold tickConnect
  split
  next => exact started t
  next =>
    dsimp only
    split
    next => exact ⟨rfl, rfl⟩
    next => split <;> exact started _

/-- The timer, the socket and the name. -/
def clockwork (t : Tunnel) : Timer × Int × String := (t.ioTimeout, t.fd, t.name)

end Tunnel

namespace Daemon

open Library.Machine Tunnel

variable {κ : Type} {d d' : Daemon κ} {i : Nat} {now : ℚ} {e : Event κ}

/-- Only an attempt to connect, and the end of the program, concern the timer. -/
theorem Tends.clockwork {t t' : Tunnel} (tends : Tends now e i t t') :
    t'.clockwork = t.clockwork ∨ (∃ result, t' = t.tickConnect now result) ∨
      (∃ send, e = .quit send) ∧ t' = t.stopWatching := by
  cases tends with
  | tick | watchAnswer | refit _ _ => exact .inl rfl
  | keepaliveReceived _ =>
      left
      unfold Tunnel.keepaliveReceived
      dsimp only
      split
      next => exact (congrArg Tunnel.clockwork (queueBare_eq _ .keepalive)).trans rfl
      next => rfl
  | answer _ => exact .inl rfl
  | sendKeepalive _ _ => exact .inl ((congrArg Tunnel.clockwork (t.queueBare_eq .keepalive)).trans rfl)
  | @tickConnect _ result _ _ => exact .inr (.inl ⟨result, rfl⟩)
  | watchIfQueued =>
      left
      unfold Tunnel.watchIfQueued
      split <;> rfl
  | queueData highPriority _ =>
      exact .inl ((congrArg Tunnel.clockwork (t.queueData_eq highPriority _)).trans rfl)
  | queueDisconnect => exact .inl ((congrArg Tunnel.clockwork (t.queueBare_eq .disconnect)).trans rfl)
  | stopIfEmpty highPriority =>
      left
      unfold Tunnel.stopIfEmpty
      split <;> rfl
  | @stopWatching send _ _ => exact .inr (.inr ⟨⟨send, rfl⟩, rfl⟩)
  | weigh total _ =>
      left
      unfold Tunnel.weigh
      split <;> rfl

theorem Paced.of_clockwork {t t' : Tunnel} (paced : t.Paced) (same : t'.clockwork = t.clockwork) :
    t'.Paced :=
  paced.of_same (congrArg (·.1) same) (congrArg (·.2.1) same)

theorem clockwork_accept {t t₁ t' : Tunnel} {bytes : List UInt8} {sender : Addr} {named decrypted : Bool}
    {pkt : Pkt} (read : protocolRead d.host d.cleartextData (timestamp64 now) t bytes =
      (some (decrypted, pkt), t₁))
    (adopted : (t₁.countReceived bytes.length).adoptAddr sender named = some t') :
    t'.clockwork = t.clockwork := by
  obtain ⟨addr, rfl⟩ := adoptAddr_eq adopted
  exact (congrArg Tunnel.clockwork (remeasured_of_read read)).trans rfl

theorem kept_paced (now : ℚ) (e : Event κ) (j : Nat) : Kept now e j Tunnel.Paced where
  tend := fun t t' tends paced => by
    rcases tends.clockwork with same | ⟨result, rfl⟩ | ⟨_, rfl⟩
    · exact Paced.of_clockwork paced same
    · exact paced.tickConnect now result
    · exact fun active => by cases active
  take := fun t highPriority dataSeq _ paced =>
    Paced.of_clockwork paced ((congrArg Tunnel.clockwork (t.taken_eq highPriority dataSeq _)).trans rfl)
  countSent := fun _ _ paced => paced.of_same rfl rfl
  accept := fun _ _ _ _ _ _ _ _ _ _ read adopted paced =>
    Paced.of_clockwork paced (clockwork_accept read adopted)
  lower := fun _ paced => paced.of_same rfl rfl
  raise := fun _ _ _ paced => paced.of_same rfl rfl
  regrade := fun _ _ _ paced => paced.of_same rfl rfl
  stop := fun _ _ _ active => by cases active

/-- The tunnels of the list have different names, and their timers are active. -/
structure Alert (d : Daemon κ) : Prop where
  names : (d.rtuns.map fun j => (d.tun j).name).Nodup
  active : ∀ j ∈ d.rtuns, (d.tun j).ioTimeout.active = true

/-- No name changes, and no timer is stopped. -/
def Ticks (t t' : Tunnel) : Prop :=
  t'.name = t.name ∧ (t.ioTimeout.active = true → t'.ioTimeout.active = true)

theorem Ticks.of_clockwork {t t' : Tunnel} (same : t'.clockwork = t.clockwork) : Ticks t t' :=
  ⟨congrArg (·.2.2) same, fun active => by
    rw [show t'.ioTimeout = t.ioTimeout from congrArg (·.1) same]
    exact active⟩

theorem Alert.keep (alert : d.Alert) (rtuns : d'.rtuns = d.rtuns)
    (ticks : ∀ j, Ticks (d.tun j) (d'.tun j)) : d'.Alert where
  names := by
    rw [rtuns, List.map_congr_left fun j _ => (ticks j).1]
    exact alert.names
  active := fun j listed => (ticks j).2 (alert.active j (rtuns ▸ listed))

theorem Alert.modify {f : Tunnel → Tunnel} (alert : d.Alert) (rtuns : d'.rtuns = d.rtuns)
    (tuns : d'.tuns = (d.modify i f).tuns) (ticks : Ticks (d.tun i) (f (d.tun i))) : d'.Alert := by
  refine alert.keep rtuns fun j => ?_
  rw [tun_congr tuns, tun_modify]
  split
  next here => exact here.1 ▸ ticks
  next => exact ⟨rfl, id⟩

/-- The name that was erased is gone. -/
theorem name_of_mem_eraseP (name : Nat → String) {tunnels : List Nat} {erased : String} {j : Nat}
    (names : (tunnels.map name).Nodup) (left : j ∈ tunnels.eraseP fun k => name k = erased) :
    name j ≠ erased := by
  induction tunnels with
  | nil => cases left
  | cons first rest ih =>
      obtain ⟨fresh, distinct⟩ := List.nodup_cons.mp names
      by_cases here : name first = erased
      · simp only [List.eraseP_cons, here, decide_true, cond_true] at left
        exact fun same => fresh (here.trans same.symm ▸ List.mem_map_of_mem left)
      · simp only [List.eraseP_cons, here, decide_false, cond_false] at left
        rcases List.mem_cons.mp left with rfl | later
        · exact here
        · exact ih distinct later

/-- A tunnel that was dropped is not in the list any more. -/
theorem Alert.drop (alert : d.Alert) (i : Nat) :
    { d.modify i Tunnel.stopWatching with
      rtuns := d.rtuns.eraseP fun j => ((d.modify i Tunnel.stopWatching).tun j).name =
        ((d.modify i Tunnel.stopWatching).tun i).name }.Alert := by
  have name (j : Nat) : ((d.modify i Tunnel.stopWatching).tun j).name = (d.tun j).name := by
    rw [tun_modify]
    split
    next here => rw [here.1]; rfl
    next => rfl
  simp only [name]
  have kept : (d.rtuns.eraseP fun j => (d.tun j).name = (d.tun i).name).Sublist d.rtuns :=
    List.eraseP_sublist
  refine ⟨?_, fun j listed => ?_⟩
  · have same : (fun j => (d.tun j).name) = fun j => ((d.modify i Tunnel.stopWatching).tun j).name :=
      funext fun j => (name j).symm
    have names := alert.names.sublist (kept.map _)
    rw [same] at names
    exact names
  · have other : j ≠ i := fun same =>
      name_of_mem_eraseP (fun k => (d.tun k).name) alert.names listed (same ▸ rfl)
    change ((d.modify i Tunnel.stopWatching).tun j).ioTimeout.active = true
    rw [tun_modify, if_neg fun here => other here.1]
    exact alert.active j (kept.subset listed)

theorem Alert.create {t : Tunnel} (alert : d.Alert) (inside : d.Inside) (tuns : d'.tuns = d.tuns ++ [t])
    (rtuns : d'.rtuns = d.tuns.length :: d.rtuns) (active : t.ioTimeout.active = true)
    (unnamed : ∀ j ∈ d.rtuns, (d.tun j).name ≠ t.name) : d'.Alert := by
  have new : d'.tun d.tuns.length = t := by rw [tun_append tuns, if_pos rfl]
  have old (j : Nat) (listed : j ∈ d.rtuns) : d'.tun j = d.tun j := by
    rw [tun_append tuns, if_neg (inside j listed).ne]
  refine ⟨?_, fun j listed => ?_⟩
  · rw [rtuns, List.map_cons, new, List.map_congr_left fun j listed => by rw [old j listed]]
    refine List.nodup_cons.mpr ⟨fun found => ?_, alert.names⟩
    obtain ⟨j, listed, same⟩ := List.mem_map.mp found
    exact unnamed j listed same
  · rw [rtuns] at listed
    rcases List.mem_cons.mp listed with rfl | older
    · rw [new]
      exact active
    · rw [old j older]
      exact alert.active j older

theorem Stroke.alert (stroke : Stroke now e d d') (goes : ∀ send, e ≠ .quit send) (inside : d.Inside)
    (alert : d.Alert) : d'.Alert := by
  have taken (i : Nat) (highPriority : Bool) : (d.takePacket i highPriority now).2.2.Alert := by
    have takes := takePacket_takes d i highPriority now
    refine alert.modify takes.rtuns takes.tuns (.of_clockwork ?_)
    exact (congrArg Tunnel.clockwork (taken_eq _ highPriority _ _)).trans rfl
  cases stroke with
  | settle steady =>
      refine alert.keep steady.rtuns fun j => ?_
      rw [tun_congr steady.tuns]
      exact ⟨rfl, id⟩
  | configure _ _ | deliver _ _ _ _ | receive _ _ => exact alert.keep rfl fun _ => ⟨rfl, id⟩
  | tend tends =>
      refine alert.modify rfl rfl ?_
      rcases tends.clockwork with same | ⟨result, same⟩ | ⟨⟨send, rfl⟩, _⟩
      · exact .of_clockwork same
      · obtain ⟨active, name⟩ := tickConnect_active (d.tun _) now result
        rw [same]
        exact ⟨name, fun before => active.trans before⟩
      · exact absurd rfl (goes send)
  | lose highPriority _ _ => exact taken _ highPriority
  | @send i highPriority len _ _ _ _ => exact (taken i highPriority).modify rfl rfl (.of_clockwork rfl)
  | accept _ _ read adopted => exact alert.modify rfl rfl (.of_clockwork (clockwork_accept read adopted))
  | down _ done =>
      obtain ⟨d₁, rfl, passes⟩ := (statusDown_lowers done).passes
      exact alert.modify passes.rtuns passes.tuns ⟨rfl, id⟩
  | up _ done =>
      obtain ⟨passes, _⟩ := statusUp_passes done
      exact alert.modify passes.rtuns passes.tuns ⟨rfl, id⟩
  | regrade _ done =>
      obtain ⟨passes, _⟩ := regrade_passes done
      exact alert.modify passes.rtuns passes.tuns ⟨rfl, id⟩
  | drop i _ => exact alert.drop i
  | create conf serverMode flowId _ unnamed =>
      exact alert.create inside (t := Tunnel.init conf serverMode flowId now) rfl rfl rfl
        (named_eq_none unnamed)

theorem step_alert {event : ℚ × Event κ} (tidy : d.Tidy) (alert : d.stopped = false → d.Alert)
    (done : d.step event = some d') (running : d'.stopped = false) : d'.Alert := by
  obtain ⟨now, e⟩ := event
  cases stopped : d.stopped with
  | true =>
      simp only [step, stopped, if_true] at done
      cases done
      cases stopped.symm.trans running
  | false =>
      by_cases quits : ∃ send, e = .quit send
      · obtain ⟨send, rfl⟩ := quits
        simp only [step, stopped, Bool.false_eq_true, if_false] at done
        obtain ⟨d₁, _, rfl⟩ := Option.map_eq_some_iff.mp done
        cases running
      · have goes (send : Nat → SendResult) : e ≠ .quit send := fun same => quits ⟨send, same⟩
        exact step_preserves (fun _ _ stroke tidy alert => stroke.alert goes tidy.inside alert) tidy
          (alert stopped) done

theorem run_alert {host : Host κ} {events : List (ℚ × Event κ)}
    (reached : run step (init host) events = some d) (running : d.stopped = false) : d.Alert := by
  have alert : d.Tidy ∧ (d.stopped = false → d.Alert) :=
    run_preserves (I := fun s => s.Tidy ∧ (s.stopped = false → s.Alert)) events
      (fun _ _ _ _ held done => ⟨step_tidy held.1 done, step_alert held.1 held.2 done⟩)
      ⟨tidy_init host, fun _ => ⟨List.nodup_nil, fun j member => (by cases member)⟩⟩ reached
  exact alert.2 running

/-- As long as the program runs, every tunnel of its list is looked after: its timer is active,
    and comes again after a power of two of seconds, 64 at most; after one, once it has a socket
    above 0.  A socket that is the descriptor 0 is not closed where `bind` refuses it, and has the
    period of an attempt that has failed. -/
theorem listed_tunnel_watched {host : Host κ} {events : List (ℚ × Event κ)}
    (reached : run step (init host) events = some d) (running : d.stopped = false)
    (listed : i ∈ d.rtuns) :
    (d.tun i).ioTimeout.active = true ∧ (∃ k ≤ 6, (d.tun i).ioTimeout.period = 2 ^ k) ∧
      ((d.tun i).fd > 0 → (d.tun i).ioTimeout.period = 1) := by
  have paced := (run_stroked (I := fun s => ∀ j, (s.tun j).Paced)
    (fun event _ _ _ stroke _ paced j => (kept_paced event.1 event.2 j).stroke
      (.inr fun _ _ _ => paced_one rfl) stroke (paced j))
    (tidy_init host) (fun _ active => by cases active) reached).2 i
  have active := (run_alert reached running).active i listed
  exact ⟨active, paced active⟩

/-- After two failed attempts the period is four seconds. -/
theorem failing_tunnel_watched :
    ∃ d ∈ run step (init ⟨.little, plainBox, ()⟩)
        [(0, .reload (some (serverConfig [serverConf "a" 0] [])) fun _ => .blocked),
          (1, .timeout 0 (.noSocket [127])), (2, .timeout 0 (.noSocket [127]))],
      (d.tun 0).ioTimeout.active = true ∧ (d.tun 0).ioTimeout.period = 4 := by
  obtain ⟨d, reached, running, listed, period⟩ : ∃ d ∈ run step (init ⟨.little, plainBox, ()⟩)
        [(0, .reload (some (serverConfig [serverConf "a" 0] [])) fun _ => .blocked),
          (1, .timeout 0 (.noSocket [127])), (2, .timeout 0 (.noSocket [127]))],
      d.stopped = false ∧ 0 ∈ d.rtuns ∧ (d.tun 0).ioTimeout.period = 4 := by
    decide +kernel
  exact ⟨d, reached, (listed_tunnel_watched reached running listed).1, period⟩

end Daemon

end Mlvpn
