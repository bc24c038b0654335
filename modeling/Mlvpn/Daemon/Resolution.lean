import Mlvpn.Daemon.Strokes

/-! # Which address a challenge is for

`mlvpn_rtun_start` resolves the names of a tunnel, and it is called only for a
tunnel without a socket.  A socket is never closed again.  So the address of a
client stays that of the attempt that opened its socket, whatever a reload
writes into the tunnel; and a datagram from elsewhere replaces it.
-/

namespace Mlvpn

/-- The address that `priv_getaddrinfo` has found. -/
def StartResult.addr? : StartResult → Option Addr
  | .unresolved => none
  | .noSocket addr => some addr
  | .refused addr _ => some addr
  | .opened addr _ => some addr

/-- A successful call of `priv_getaddrinfo`: the names it was made for, and its result. -/
structure Resolution where
  host : String
  port : String
  addr : Addr
  deriving DecidableEq

namespace Tunnel

variable {t : Tunnel} {now : ℚ} {result : StartResult}

/-- The names that `mlvpn_rtun_start` resolves. -/
def query (t : Tunnel) : String × String :=
  if t.serverMode then (t.bindaddr, t.bindport) else (t.destaddr, t.destport)

def resolve (t : Tunnel) (result : StartResult) : Option Resolution :=
  result.addr?.map fun addr => ⟨t.query.1, t.query.2, addr⟩

/-- The resolution that the address of the tunnel should be the result of. -/
def aim (t : Tunnel) : Option Resolution :=
  t.addrinfo.map fun addr => ⟨t.query.1, t.query.2, addr⟩

theorem aim_eq_some_iff (client : t.serverMode = false) {r : Resolution} :
    t.aim = some r ↔ r.host = t.destaddr ∧ r.port = t.destport ∧ t.addrinfo = some r.addr := by
  obtain ⟨host, port, addr⟩ := r
  cases found : t.addrinfo with
  | none => simp [aim, found]
  | some old =>
      simp only [aim, query, client, Bool.false_eq_true, if_false, found, Option.map_some,
        Option.some.injEq, Resolution.mk.injEq]
      grind

/-- An attempt of a client is counted. -/
def attempted (t : Tunnel) (now : ℚ) : Tunnel :=
  { t with connAttempts := t.connAttempts + 1, lastConnectionAttempt := now }

theorem tickConnect_client (client : t.serverMode = false) (down : ¬ t.status.Up) :
    t.tickConnect now result =
      if ((t.attempted now).startIfClosed now result).1 = true then
        ((t.attempted now).startIfClosed now result).2.challengeSend
      else ((t.attempted now).startIfClosed now result).2 := by
  unfold Tunnel.tickConnect
  rw [if_neg (Bool.eq_false_iff.mp client), if_neg down]
  rfl

/-- An attempt that is successful has resolved the names. -/
theorem startIfClosed_ready (closed : t.fd < 0) (ready : (t.startIfClosed now result).1 = true) :
    ∃ r, t.resolve result = some r ∧ (t.startIfClosed now result).2.aim = some r := by
  unfold Tunnel.startIfClosed at ready ⊢
  rw [if_pos closed] at ready ⊢
  cases result with
  | unresolved | noSocket addr | refused addr fd => cases ready
  | opened addr fd => exact ⟨_, rfl, rfl⟩

/-- So has one that leaves a socket, even if it is refused. -/
theorem startIfClosed_found (closed : t.fd < 0) (found : 0 ≤ (t.startIfClosed now result).2.fd) :
    ∃ r, t.resolve result = some r ∧ (t.startIfClosed now result).2.aim = some r := by
  unfold Tunnel.startIfClosed at found ⊢
  rw [if_pos closed] at found ⊢
  cases result with
  | unresolved => exact absurd closed (Int.not_lt.mpr found)
  | noSocket addr =>
      change 0 ≤ (if t.fd > 0 then -1 else t.fd) at found
      rw [if_neg (by omega)] at found
      omega
  | refused addr fd => exact ⟨_, rfl, rfl⟩
  | opened addr fd => exact ⟨_, rfl, rfl⟩

theorem tickConnect_found (closed : t.fd < 0) (down : ¬ t.status.Up)
    (found : 0 ≤ (t.tickConnect now result).fd) :
    ∃ r, t.resolve result = some r ∧ (t.tickConnect now result).aim = some r := by
  cases mode : t.serverMode with
  | true =>
      unfold Tunnel.tickConnect at found ⊢
      rw [if_pos mode] at found ⊢
      exact startIfClosed_found closed found
  | false =>
      have closed : (t.attempted now).fd < 0 := closed
      rw [tickConnect_client mode down] at found ⊢
      split at found
      next ready =>
        rw [if_pos ready]
        exact startIfClosed_found closed found
      next failed =>
        rw [if_neg failed]
        exact startIfClosed_found closed found

theorem startIfClosed_serverMode : (t.startIfClosed now result).2.serverMode = t.serverMode := by
  rw [startIfClosed_started t now result]
  rfl

def names (t : Tunnel) : String × String := (t.destaddr, t.destport)

/-- The mode, the socket, the address and the names. -/
def hold (t : Tunnel) : Bool × Int × Option Addr × (String × String) :=
  (t.serverMode, t.fd, t.addrinfo, t.names)

theorem watchIfQueued_aim : (t.watchIfQueued.fd, t.watchIfQueued.aim) = (t.fd, t.aim) := by
  unfold Tunnel.watchIfQueued
  split <;> rfl

end Tunnel

namespace Daemon

open Library.Machine Tunnel

variable {κ : Type} {d d' : Daemon κ} {i : Nat}

/-- The timer of a tunnel expires that is not connected. -/
def Expires (d : Daemon κ) (i : Nat) : Prop :=
  d.stopped = false ∧ (d.tun i).ioTimeout.active = true ∧ ¬ (d.tun i).status.Up

instance (d : Daemon κ) (i : Nat) : Decidable (d.Expires i) := inferInstanceAs (Decidable (_ ∧ _ ∧ _))

/-- The call of `mlvpn_rtun_start` during an event. -/
def attempt (d : Daemon κ) : ℚ × Event κ → Option (Nat × StartResult)
  | (_, .timeout i result) =>
      if d.Expires i ∧ (d.tun i).fd < 0 then some (i, result) else none
  | _ => none

/-- The call of `mlvpn_rtun_challenge_send` during an event, with the tunnel it is given. -/
def challenge (d : Daemon κ) : ℚ × Event κ → Option (Nat × Tunnel)
  | (now, .timeout i result) =>
      let started := ((d.tun i).attempted now).startIfClosed now result
      if d.Expires i ∧ (d.tun i).serverMode = false ∧ started.1 = true then some (i, started.2)
      else none
  | _ => none

/-- A daemon whose resolutions are recorded. -/
structure Resolving (κ : Type) where
  daemon : Daemon κ
  /-- The newest resolution for each tunnel -/
  resolved : Nat → Option Resolution
  /-- What each tunnel was aimed at when its socket was opened -/
  opened : Nat → Option Resolution

namespace Resolving

variable {s s' : Resolving κ}

def start (host : Host κ) : Resolving κ := ⟨Daemon.init host, fun _ => none, fun _ => none⟩

/-- The newest resolution for a tunnel once `mlvpn_rtun_start` has been called. -/
def newest (s : Resolving κ) (e : ℚ × Event κ) (j : Nat) : Option Resolution :=
  match s.daemon.attempt e with
  | some (i, result) => if j = i then ((s.daemon.tun i).resolve result).or (s.resolved i) else s.resolved j
  | none => s.resolved j

def step (s : Resolving κ) (e : ℚ × Event κ) : Option (Resolving κ) :=
  (s.daemon.step e).map fun d =>
    { daemon := d
      resolved := s.newest e
      opened := fun j =>
        if (s.daemon.tun j).fd < 0 ∧ 0 ≤ (d.tun j).fd then (d.tun j).aim else s.opened j }

/-- A challenge is for the address that the names of the tunnel were last resolved to. -/
def Fresh (s : Resolving κ) (e : ℚ × Event κ) : Prop :=
  ∀ call ∈ s.daemon.challenge e, ∃ r ∈ s.newest e call.1,
    r.host = call.2.destaddr ∧ r.port = call.2.destport ∧ call.2.addrinfo = some r.addr

/-- A challenge is made by a tunnel that has just resolved its names, or that is aimed at what
    it was aimed at when its socket was opened. -/
def Unmoved (s : Resolving κ) (e : ℚ × Event κ) : Prop :=
  ∀ call ∈ s.daemon.challenge e,
    (s.daemon.tun call.1).fd < 0 ∨ s.opened call.1 = call.2.aim

instance (s : Resolving κ) (e : ℚ × Event κ) : Decidable (s.Fresh e) :=
  inferInstanceAs (Decidable (∀ call ∈ s.daemon.challenge e, ∃ r ∈ s.newest e call.1,
    r.host = call.2.destaddr ∧ r.port = call.2.destport ∧ call.2.addrinfo = some r.addr))

/-- A tunnel with a socket has not been resolved since. -/
structure Recorded (s : Resolving κ) : Prop where
  current : s.daemon.Current
  settled : s.daemon.Settled
  same : ∀ j, 0 ≤ (s.daemon.tun j).fd → s.resolved j = s.opened j

theorem recorded_start (host : Host κ) : (start host).Recorded where
  current := current_init host
  settled := fun _ => .inr idle_blank
  same := fun _ _ => rfl

end Resolving

theorem checkTimeout_found {now : ℚ} {result : StartResult} (closed : (d.tun i).fd < 0)
    (down : ¬ (d.tun i).status.Up) (done : d.checkTimeout i now result = some d')
    (found : 0 ≤ (d'.tun i).fd) :
    ∃ r, (d.tun i).resolve result = some r ∧ (d'.tun i).aim = some r := by
  rw [checkTimeout_down down done] at found ⊢
  obtain ⟨fd, aim⟩ := Prod.mk.inj (modify_keeps (d := d.modify i (·.tickConnect now result))
    (i := i) (f := watchIfQueued) (fun t => (t.fd, t.aim)) watchIfQueued_aim i)
  rw [fd, tun_modify] at found
  rw [aim, tun_modify]
  split at found
  next here =>
    rw [if_pos here]
    exact tickConnect_found closed down found
  next => omega

/-- The event at which a tunnel gets a socket. -/
theorem attempt_of_found {e : ℚ × Event κ} {j : Nat} (current : d.Current) (settled : d.Settled)
    (done : d.step e = some d') (closed : (d.tun j).fd < 0) (found : 0 ≤ (d'.tun j).fd) :
    ∃ result r, d.attempt e = some (j, result) ∧ (d.tun j).resolve result = some r ∧
      (d'.tun j).aim = some r := by
  obtain ⟨now, e⟩ := e
  have idle : (d.tun j).Idle := (settled j).resolve_left fun opened => by
    have := opened.2
    omega
  by_cases timer : ∃ i result, e = .timeout i result
  · obtain ⟨i, result, rfl⟩ := timer
    cases step_cases done with
    | pass => omega
    | timeout running active done =>
        by_cases here : j = i
        · cases here
          obtain ⟨r, resolved, aimed⟩ := checkTimeout_found closed idle.not_up done found
          exact ⟨result, r, if_pos ⟨⟨running, active, idle.not_up⟩, closed⟩, resolved, aimed⟩
        · rw [checkTimeout_only done j here] at found
          omega
  · have kept := step_idle current (fun i result same => timer ⟨i, result, same⟩) done j idle
    have := kept.fd
    omega

theorem attempt_closed {e : ℚ × Event κ} {result : StartResult}
    (attempted : d.attempt e = some (i, result)) : (d.tun i).fd < 0 := by
  obtain ⟨now, e⟩ := e
  cases e with
  | timeout j answer =>
      simp only [attempt] at attempted
      split at attempted
      next here =>
        cases attempted
        exact here.2
      next => cases attempted
  | _ => cases attempted

namespace Resolving

variable {s s' : Resolving κ}

/-- A tunnel with a socket is not resolved. -/
theorem newest_of_found {e : ℚ × Event κ} {j : Nat} (found : 0 ≤ (s.daemon.tun j).fd) :
    s.newest e j = s.resolved j := by
  unfold newest
  split
  next i result attempted =>
    have closed := attempt_closed attempted
    rw [if_neg fun same : j = i => by rw [same] at found; omega]
  next => rfl

theorem Recorded.step {e : ℚ × Event κ} (recorded : s.Recorded) (done : s.step e = some s') :
    s'.Recorded := by
  obtain ⟨d, stepped, rfl⟩ := Option.map_eq_some_iff.mp done
  refine ⟨step_current recorded.current stepped,
    step_settled recorded.current recorded.settled stepped, fun j found => ?_⟩
  by_cases closed : (s.daemon.tun j).fd < 0
  · obtain ⟨result, r, attempted, resolved, aimed⟩ :=
      attempt_of_found recorded.current recorded.settled stepped closed found
    dsimp only
    rw [if_pos ⟨closed, found⟩, aimed, newest, attempted]
    simp only [if_true, resolved, Option.some_or]
  · dsimp only
    rw [if_neg fun both => closed both.1, newest_of_found (Int.not_lt.mp closed)]
    exact recorded.same j (Int.not_lt.mp closed)

end Resolving

/-- A challenge is sent by a client, which has resolved its names just now or has a socket. -/
theorem challenge_cases {e : ℚ × Event κ} {t : Tunnel} (challenged : d.challenge e = some (i, t)) :
    (d.tun i).serverMode = false ∧ t.serverMode = false ∧
      ((d.tun i).fd < 0 ∧ (∃ result r, d.attempt e = some (i, result) ∧
          (d.tun i).resolve result = some r ∧ t.aim = some r) ∨
        0 ≤ (d.tun i).fd ∧ t.aim = (d.tun i).aim) := by
  obtain ⟨now, e⟩ := e
  cases e with
  | timeout j result =>
      simp only [challenge] at challenged
      split at challenged
      next here =>
        obtain ⟨expires, client, ready⟩ := here
        cases challenged
        refine ⟨client, startIfClosed_serverMode.trans client, ?_⟩
        by_cases closed : (d.tun i).fd < 0
        · obtain ⟨r, resolved, aimed⟩ :=
            startIfClosed_ready (t := (d.tun i).attempted now) closed ready
          exact .inl ⟨closed, result, r, if_pos ⟨expires, closed⟩, resolved, aimed⟩
        · refine .inr ⟨Int.not_lt.mp closed, ?_⟩
          have kept : ¬ ((d.tun i).attempted now).fd < 0 := closed
          rw [Tunnel.startIfClosed, if_neg kept]
          rfl
      next => cases challenged
  | _ => cases challenged

/-- A reload leaves the names of a client that has a socket, and no datagram moves its address. -/
def Sedate (d : Daemon κ) : ℚ × Event κ → Prop
  | (now, .read i result) => ∀ d', d.step (now, .read i result) = some d' →
      (d.tun i).serverMode = false → 0 ≤ (d.tun i).fd → (d'.tun i).addrinfo = (d.tun i).addrinfo
  | (now, .reload conf send) => ∀ d', d.step (now, .reload conf send) = some d' →
      ∀ j, (d.tun j).serverMode = false → 0 ≤ (d.tun j).fd → (d'.tun j).names = (d.tun j).names
  | _ => True

/-- A client that has a socket, with its address unless a datagram is read, and with its names
    unless there is a reload. -/
structure Stays (e : Event κ) (j : Nat) (t t' : Tunnel) : Prop where
  client : t'.serverMode = t.serverMode
  fd : t'.fd = t.fd
  addrinfo : (∀ result, e ≠ .read j result) → t'.addrinfo = t.addrinfo
  names : ¬ e.Reloads → t'.names = t.names

section Stay

variable {now : ℚ} {e : Event κ} {j : Nat} {t t' t'' : Tunnel}

theorem Stays.of_hold (same : t'.hold = t.hold) : Stays e j t t' := by
  obtain ⟨client, fd, addrinfo, names⟩ := by simpa only [hold, Prod.mk.injEq] using same
  exact ⟨client, fd, fun _ => addrinfo, fun _ => names⟩

theorem Stays.trans (first : Stays e j t t') (second : Stays e j t' t'') : Stays e j t t'' :=
  ⟨second.client.trans first.client, second.fd.trans first.fd,
    fun other => (second.addrinfo other).trans (first.addrinfo other),
    fun fixed => (second.names fixed).trans (first.names fixed)⟩

theorem Tends.stays (tends : Tends now e j t t') (found : 0 ≤ t.fd) : Stays e j t t' := by
  cases tends with
  | tick | watchAnswer | answer _ | stopWatching => exact .of_hold rfl
  | refit conf reloads => exact ⟨rfl, rfl, fun _ => rfl, fun fixed => absurd reloads fixed⟩
  | keepaliveReceived _ =>
      refine .of_hold ?_
      unfold Tunnel.keepaliveReceived Tunnel.sendKeepalive
      dsimp only
      split
      next =>
        rw [queueBare_eq]
        rfl
      next => rfl
  | sendKeepalive _ _ => exact .of_hold (by unfold Tunnel.sendKeepalive; rw [queueBare_eq]; rfl)
  | queueDisconnect => exact .of_hold (by rw [queueBare_eq]; rfl)
  | tickConnect down =>
      have opened : ¬ t.fd < 0 := Int.not_lt.mpr found
      refine .of_hold ?_
      unfold Tunnel.tickConnect Tunnel.startIfClosed
      simp only [opened, down, if_false]
      split <;> rfl
  | watchIfQueued => exact .of_hold (by unfold Tunnel.watchIfQueued; split <;> rfl)
  | queueData highPriority _ => exact .of_hold (by rw [queueData_eq]; rfl)
  | stopIfEmpty highPriority => exact .of_hold (by unfold Tunnel.stopIfEmpty; split <;> rfl)
  | weigh total _ => exact .of_hold (by unfold Tunnel.weigh; split <;> rfl)

theorem kept_stays (found : 0 ≤ t.fd) : Kept now e j (Stays e j t) where
  tend := fun _ _ tends stays => stays.trans (tends.stays (stays.fd.symm ▸ found))
  take := fun t highPriority dataSeq _ stays =>
    stays.trans (.of_hold ((congrArg hold (t.taken_eq highPriority dataSeq _)).trans rfl))
  countSent := fun _ _ stays => stays.trans (.of_hold rfl)
  accept := fun _ t _ _ _ _ _ t₁ _ reads read adopted stays => by
    have same : t₁.hold = t.hold := (congrArg hold (remeasured_of_read read)).trans rfl
    obtain ⟨addr, rfl⟩ := adoptAddr_eq adopted
    have measured := stays.trans (.of_hold same)
    exact ⟨measured.client, measured.fd, fun other => absurd reads.choose_spec (other _), measured.names⟩
  lower := fun _ stays => stays.trans (.of_hold rfl)
  raise := fun _ _ _ stays => stays.trans (.of_hold rfl)
  regrade := fun _ _ _ stays => stays.trans (.of_hold rfl)
  stop := fun _ _ stays => stays.trans (.of_hold rfl)

end Stay

/-- What a client with a socket is aimed at stays. -/
theorem step_aim {e : ℚ × Event κ} {j : Nat} (tidy : d.Tidy) (sedate : d.Sedate e)
    (done : d.step e = some d') (found : 0 ≤ (d.tun j).fd) (client : (d'.tun j).serverMode = false) :
    (d.tun j).serverMode = false ∧ (d'.tun j).aim = (d.tun j).aim := by
  obtain ⟨now, e⟩ := e
  have inside : j < d.tuns.length := by
    by_contra outside
    rw [tun_eq_blank outside] at found
    exact absurd found (by decide)
  have stays : Stays e j (d.tun j) (d'.tun j) := (kept_stays found).step (.inl inside) tidy
    ⟨rfl, rfl, fun _ => rfl, fun _ => rfl⟩ done
  have before := stays.client.symm.trans client
  have addrinfo : (d'.tun j).addrinfo = (d.tun j).addrinfo := by
    by_cases reads : ∃ result, e = .read j result
    · obtain ⟨result, rfl⟩ := reads
      exact sedate d' done before found
    · exact stays.addrinfo fun result same => reads ⟨result, same⟩
  have names : (d'.tun j).names = (d.tun j).names := by
    cases e with
    | reload conf send => exact sedate d' done j before found
    | _ => exact stays.names id
  obtain ⟨host, port⟩ := Prod.mk.inj names
  refine ⟨before, ?_⟩
  simp only [aim, query, before, client, Bool.false_eq_true, if_false, addrinfo, host, port]

namespace Resolving

variable {s s' : Resolving κ}

/-- The records tell the same of a challenge. -/
theorem fresh_iff_unmoved (recorded : s.Recorded) (e : ℚ × Event κ) : s.Fresh e ↔ s.Unmoved e := by
  refine forall₂_congr ?_
  rintro ⟨i, t⟩ challenged
  obtain ⟨_, client, resolving⟩ := challenge_cases challenged
  simp only [← aim_eq_some_iff client]
  rcases resolving with ⟨closed, result, r, attempted, resolved, aimed⟩ | ⟨found, kept⟩
  · refine iff_of_true ⟨r, ?_, aimed⟩ (.inl closed)
    rw [newest, attempted]
    simp only [if_true, resolved, Option.some_or, Option.mem_def]
  · have opened : (s.daemon.tun i).Opened := (recorded.settled i).resolve_right fun idle => by
      have := idle.fd
      omega
    obtain ⟨addr, address⟩ := Option.ne_none_iff_exists'.mp opened.1
    have aimed : ∃ r, t.aim = some r := ⟨_, by rw [kept, aim, address]; rfl⟩
    obtain ⟨r, aimed⟩ := aimed
    rw [newest_of_found found, recorded.same i found, aimed]
    constructor
    · rintro ⟨r', newest, same⟩
      exact .inr (newest.trans same.symm)
    · rintro (closed | same)
      · omega
      · exact ⟨r, same, rfl⟩

/-- Every client that has a socket is aimed at what it was aimed at when that was opened. -/
structure Steadfast (s : Resolving κ) : Prop where
  tidy : s.daemon.Tidy
  aimed : ∀ j, (s.daemon.tun j).serverMode = false → 0 ≤ (s.daemon.tun j).fd →
    s.opened j = (s.daemon.tun j).aim

theorem Steadfast.unmoved (steadfast : s.Steadfast) (e : ℚ × Event κ) : s.Unmoved e := by
  rintro ⟨i, t⟩ challenged
  obtain ⟨client, _, ⟨closed, _⟩ | ⟨found, kept⟩⟩ := challenge_cases challenged
  · exact .inl closed
  · exact .inr ((steadfast.aimed i client found).trans kept.symm)

theorem Steadfast.step {e : ℚ × Event κ} (steadfast : s.Steadfast) (sedate : s.daemon.Sedate e)
    (done : s.step e = some s') : s'.Steadfast := by
  obtain ⟨d, stepped, rfl⟩ := Option.map_eq_some_iff.mp done
  refine ⟨step_tidy steadfast.tidy stepped, fun j client found => ?_⟩
  dsimp only
  split
  next => rfl
  next kept =>
    have opened : 0 ≤ (s.daemon.tun j).fd := Int.not_lt.mp fun closed => kept ⟨closed, found⟩
    obtain ⟨before, same⟩ := step_aim steadfast.tidy sedate stepped opened client
    rw [same]
    exact steadfast.aimed j before opened

theorem meets_unmoved {events : List (ℚ × Event κ)} (steadfast : s.Steadfast)
    (sedate : Meets step (fun s e => s.daemon.Sedate e) s events) : Meets step Unmoved s events := by
  induction events generalizing s with
  | nil => exact trivial
  | cons e rest ih =>
      exact ⟨steadfast.unmoved e, fun s' done => ih (steadfast.step sedate.1 done) (sedate.2 s' done)⟩

/-- In every run, the challenges of clients are for addresses that their current names were
    resolved to if, and only if, no client that had its socket before has been aimed at
    something else since that was opened.  So they are where no reload changes the names of a
    client that has a socket, and no datagram moves its address. -/
theorem challenges_fresh_iff (host : Host κ) (events : List (ℚ × Event κ)) :
    (Meets step Fresh (start host) events ↔ Meets step Unmoved (start host) events) ∧
      (Meets step (fun s e => s.daemon.Sedate e) (start host) events →
        Meets step Fresh (start host) events) := by
  have same : Meets step Fresh (start host) events ↔ Meets step Unmoved (start host) events :=
    meets_congr (fun _ _ _ recorded done => recorded.step done)
      (fun _ e recorded => fresh_iff_unmoved recorded e) events (recorded_start host)
  have begins : (start host).Steadfast :=
    ⟨tidy_init host, fun _ _ found => absurd found (Int.negSucc_not_nonneg 0).mp⟩
  exact ⟨same, fun sedate => same.mpr (meets_unmoved begins sedate)⟩

/-- The configuration of a client with one tunnel. -/
def clientConfig (remotehost : String) : Config Unit :=
  let conf : TunnelConf :=
    { name := "a", bindaddr := none, bindport := none, bindfib := 0, destaddr := some remotehost
      destport := some "5080", timeout := 60, fallbackOnly := 0, bandwidth := 0
      lossTolerence := 50, latencyTolerence := 1000 }
  let general : General Unit :=
    { serverMode := false, key := (), cleartextData := false, reorderBufferSize := 0 }
  ⟨[.general general, .tunnel conf 1], []⟩

/-- A reload gives a client another host.  The next challenge goes to the address of the old
    one: the system is not asked for the address of the new host. -/
theorem challenge_after_reload_stale :
    ¬ Meets step Fresh (start ⟨.little, plainBox, ()⟩)
      [(0, .reload (some (clientConfig "old")) fun _ => .blocked),
        (1, .timeout 0 (.opened [1] 3)),
        (2, .reload (some (clientConfig "new")) fun _ => .blocked),
        (3, .timeout 0 (.opened [2] 4))] := by
  decide +kernel

end Resolving

end Daemon

end Mlvpn
