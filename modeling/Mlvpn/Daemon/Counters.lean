import Mlvpn.Daemon.References
import Mlvpn.Daemon.Strokes

/-! # The counters of a tunnel

The control socket shows how many packets a tunnel has sent and received, and how often it was
lost; the sequence number counts the calls of `mlvpn_rtun_send`.  Whatever the events, reloads
included, each counter is the number of times that the record has what it counts.
-/

namespace Mlvpn

/-- The tunnel that an effect tells something new of. -/
def Effect.tunnel? : Effect → Option Nat
  | .sent i _ _ | .accepted i _ _ | .statusDown i | .sending i => some i
  | _ => none

def Effect.isSent (i : Nat) : Effect → Bool
  | .sent j _ _ => j = i
  | _ => false

def Effect.isAccepted (i : Nat) : Effect → Bool
  | .accepted j _ _ => j = i
  | _ => false

def Effect.isDown (i : Nat) : Effect → Bool
  | .statusDown j => j = i
  | _ => false

def Effect.isSending (i : Nat) : Effect → Bool
  | .sending j => j = i
  | _ => false

namespace Tunnel

/-- What is counted of a tunnel. -/
def stats (t : Tunnel) : UInt64 × UInt64 × Int32 × UInt64 :=
  (t.sentpackets, t.recvpackets, t.disconnects, t.seq)

variable {t t' : Tunnel}

/-- A packet that leaves its queue takes the next number. -/
theorem stats_taken (highPriority : Bool) (dataSeq now64 : UInt64) :
    (t.taken highPriority dataSeq now64).stats =
      (t.sentpackets, t.recvpackets, t.disconnects, t.seq + 1) :=
  congrArg stats (t.taken_eq highPriority dataSeq now64)

end Tunnel

namespace Daemon

open Library.Machine Tunnel

variable {κ : Type} {d d' : Daemon κ} {i j : Nat} {now : ℚ} {e : Event κ}

/-- What is not recorded is not counted. -/
theorem Tends.stats {t t' : Tunnel} (tends : Tends now e j t t') : t'.stats = t.stats :=
  (congrArg Tunnel.stats tends.unrecorded).trans rfl

/-- What a tunnel shows of a number of effects: each of them is counted, and nothing else is. -/
structure Counter (j : Nat) (shows : Tunnel → Nat → Prop) (mark : Effect → Bool) : Prop where
  own : ∀ effect, mark effect = true → effect.tunnel? = some j
  stats : ∀ t t' n, t'.stats = t.stats → shows t n → shows t' n
  take : ∀ t highPriority dataSeq now64 n, shows t n →
    shows (t.taken highPriority dataSeq now64) (n + if mark (.sending j) then 1 else 0)
  send : ∀ t len type datagram n, shows t n →
    shows (t.countSent len) (n + if mark (.sent j type datagram) then 1 else 0)
  accept : ∀ t len type decrypted n, shows t n →
    shows (t.countReceived len) (n + if mark (.accepted j type decrypted) then 1 else 0)
  lower : ∀ t n, shows t n → shows t.lowered (n + if mark (.statusDown j) then 1 else 0)
  init : ∀ conf serverMode flowId now, shows (.init conf serverMode flowId now) 0
  blank : shows .blank 0

/-- What is on record concerns tunnels that exist. -/
def Registered (d : Daemon κ) : Prop :=
  ∀ effect ∈ d.trace, ∀ j, effect.tunnel? = some j → j < d.tuns.length

/-- A tunnel shows how many of the effects are on record. -/
def Exact (shows : Tunnel → Nat → Prop) (mark : Effect → Bool) (j : Nat) (d : Daemon κ) : Prop :=
  shows (d.tun j) (d.trace.countP mark)

theorem Passing.tunnel? {new : List Reception} {effect : Effect} (passing : Passing d new effect) :
    effect.tunnel? = none := by
  cases passing <;> rfl

theorem Passes.registered {new : List Reception} (passes : Passes d d' new)
    (registered : d.Registered) : d'.Registered := by
  obtain ⟨effects, logged, passing⟩ := passes.trace
  intro effect member k about
  rw [passes.tuns]
  rw [logged] at member
  rcases List.mem_append.mp member with new | old
  · rw [(passing effect new).tunnel?] at about
    cases about
  · exact registered effect old k about

theorem Registered.modify (registered : d.Registered) (i : Nat) (f : Tunnel → Tunnel) :
    (d.modify i f).Registered := by
  intro effect member k about
  rw [length_modify]
  exact registered effect member k about

theorem Registered.log (registered : d.Registered) (effect : Effect)
    (inside : ∀ k, effect.tunnel? = some k → k < d.tuns.length) : (d.log effect).Registered := by
  intro other member k about
  rcases List.mem_cons.mp member with rfl | old
  · exact inside k about
  · exact registered other old k about

theorem Takes.registered {highPriority : Bool} (takes : Takes d d' i highPriority now)
    (inside : i < d.tuns.length) (registered : d.Registered) : d'.Registered := by
  intro effect member k about
  rw [takes.tuns, length_modify]
  rcases takes.trace with logged | ⟨nonce, logged⟩
  · rw [logged] at member
    rcases List.mem_cons.mp member with rfl | old
    · cases about
      exact inside
    · exact registered effect old k about
  · rw [logged] at member
    rcases List.mem_cons.mp member with rfl | rest
    · cases about
    · rcases List.mem_cons.mp rest with rfl | old
      · cases about
        exact inside
      · exact registered effect old k about

theorem Stroke.registered (stroke : Stroke now e d d') (registered : d.Registered) : d'.Registered := by
  cases stroke with
  | settle steady =>
      intro effect member k about
      rw [steady.tuns]
      exact registered effect (steady.trace ▸ member) k about
  | configure _ _ => exact registered
  | tend _ => exact registered.modify _ _
  | lose highPriority inside _ => exact (takePacket_takes d _ highPriority now).registered inside registered
  | @send i highPriority len _ inside _ _ =>
      have taken := (takePacket_takes d i highPriority now).registered inside registered
      refine (taken.modify i _).log _ fun k about => ?_
      cases about
      rw [length_modify, (takePacket_takes d i highPriority now).tuns, length_modify]
      exact inside
  | accept _ inside _ _ =>
      refine (registered.modify _ _).log _ fun k about => ?_
      cases about
      rwa [length_modify]
  | deliver _ _ _ _ | receive _ _ => exact (withRx_passes d _).registered registered
  | down inside done =>
      obtain ⟨d₁, rfl, passes⟩ := (statusDown_lowers done).passes
      refine (passes.registered (registered.modify _ _)).log _ fun k about => ?_
      cases about
      rwa [passes.tuns, length_modify]
  | up _ done => exact (statusUp_passes done).1.registered (registered.modify _ _)
  | regrade _ done => exact (regrade_passes done).1.registered (registered.modify _ _)
  | drop i _ => exact registered.modify i _
  | create conf serverMode flowId _ _ =>
      intro effect member k about
      simp only [Daemon.log, List.length_append, List.length_singleton]
      rcases List.mem_cons.mp member with rfl | old
      · cases about
      · exact Nat.lt_succ_of_lt (registered effect old k about)

section Count

variable {shows : Tunnel → Nat → Prop} {mark : Effect → Bool}

/-- An effect that concerns another tunnel, or none. -/
theorem Counter.skip (counter : Counter j shows mark) {effect : Effect} (other : effect.tunnel? ≠ some j) :
    mark effect = false := by
  cases marked : mark effect with
  | false => rfl
  | true => exact absurd (counter.own effect marked) other

/-- The tunnel `i` changes as one effect of its own tells. -/
theorem Counter.step (counter : Counter j shows mark) {f : Tunnel → Tunnel} (effect : Effect)
    (own : effect.tunnel? = some i) (inside : i < d.tuns.length)
    (changed : i = j → ∀ n, shows (d.tun i) n →
      shows (f (d.tun i)) (n + if mark effect then 1 else 0))
    (exact : d.Exact shows mark j) : ((d.modify i f).log effect).Exact shows mark j := by
  change shows ((d.modify i f).tun j) ((effect :: d.trace).countP mark)
  rw [tun_modify, List.countP_cons]
  by_cases here : i = j
  · subst here
    rw [if_pos ⟨rfl, inside⟩]
    exact changed rfl _ exact
  · have skipped := counter.skip fun same => here (Option.some.inj (own.symm.trans same))
    rw [if_neg fun same => here same.1.symm, skipped]
    exact exact

theorem Passes.countP {new : List Reception} (counter : Counter j shows mark)
    (passes : Passes d d' new) : d'.trace.countP mark = d.trace.countP mark := by
  obtain ⟨effects, logged, passing⟩ := passes.trace
  have skipped : effects.countP mark = 0 := List.countP_eq_zero.mpr fun effect member => by
    rw [counter.skip ((passing effect member).tunnel?.trans_ne (Option.some_ne_none j).symm)]
    exact Bool.false_ne_true
  rw [logged, List.countP_append, skipped, Nat.zero_add]

theorem Passes.exact {new : List Reception} (counter : Counter j shows mark) (passes : Passes d d' new)
    (exact : d.Exact shows mark j) : d'.Exact shows mark j := by
  rw [Exact, tun_congr passes.tuns, passes.countP counter]
  exact exact

theorem Takes.exact {highPriority : Bool} (counter : Counter j shows mark)
    (takes : Takes d d' i highPriority now) (inside : i < d.tuns.length)
    (exact : d.Exact shows mark j) : d'.Exact shows mark j := by
  have sending : shows (d'.tun j) ((.sending i :: d.trace : List Effect).countP mark) := by
    rw [tun_congr takes.tuns]
    refine counter.step (.sending i) rfl inside (fun here n before => ?_) exact
    rw [here]
    exact counter.take _ _ _ _ n (here ▸ before)
  rcases takes.trace with logged | ⟨nonce, logged⟩
  · rw [Exact, logged]
    exact sending
  · have skipped : mark (.encrypted nonce) = false := counter.skip (Option.some_ne_none j).symm
    rw [Exact, logged, List.countP_cons_of_neg (by rw [skipped]; exact Bool.false_ne_true)]
    exact sending

/-- Every stroke keeps the counters exact. -/
theorem Counter.stroke (counter : Counter j shows mark) (stroke : Stroke now e d d')
    (registered : d.Registered) (exact : d.Exact shows mark j) : d'.Exact shows mark j := by
  -- what is not recorded is not counted
  have silent {i : Nat} {f : Tunnel → Tunnel} (same : (f (d.tun i)).stats = (d.tun i).stats) :
      (d.modify i f).Exact shows mark j := by
    unfold Exact
    exact Kept.modify (P := fun t => shows t (d.trace.countP mark)) (fun _ => counter.stats _ _ _ same) exact
  cases stroke with
  | settle steady =>
      rw [Exact, tun_congr steady.tuns, steady.trace]
      exact exact
  | configure _ _ => exact exact
  | tend tends => exact silent tends.stats
  | lose highPriority inside _ => exact (takePacket_takes d _ highPriority now).exact counter inside exact
  | @send i highPriority len _ inside _ _ =>
      have takes := takePacket_takes d i highPriority now
      refine counter.step _ rfl ?_ (fun here n before => ?_) (takes.exact counter inside exact)
      · rwa [takes.tuns, length_modify]
      · rw [here]
        exact counter.send _ len _ _ n (here ▸ before)
  | @accept i bytes _ _ decrypted pkt t _ _ inside read adopted =>
      refine counter.step _ rfl inside (fun here n before => ?_) exact
      have same : t.stats = (d.tun i).stats := (congrArg Tunnel.stats (remeasured_of_read read)).trans rfl
      have measured := counter.stats _ _ _ same before
      have counted := counter.accept t (bytes.take defaultMtu).length pkt.type decrypted n measured
      obtain ⟨addr, rfl⟩ := adoptAddr_eq adopted
      rw [here]
      exact counter.stats (t.countReceived _) _ _ rfl counted
  | deliver _ _ _ _ | receive _ _ => exact (withRx_passes d _).exact counter exact
  | down inside done =>
      obtain ⟨d₁, rfl, passes⟩ := (statusDown_lowers done).passes
      have counted : ((d.modify _ Tunnel.lowered).log _).Exact shows mark j :=
        counter.step (.statusDown _) rfl inside
          (fun here n before => here ▸ counter.lower _ n (here ▸ before)) exact
      change shows (d₁.tun j) ((_ :: d₁.trace).countP mark)
      rw [tun_congr passes.tuns, List.countP_cons, passes.countP counter, ← List.countP_cons]
      exact counted
  | up _ done => exact (statusUp_passes done).1.exact counter (silent rfl)
  | regrade _ done => exact (regrade_passes done).1.exact counter (silent rfl)
  | drop i _ => exact silent rfl
  | create conf serverMode flowId _ _ =>
      have skipped : mark (.created d.tuns.length) = false := counter.skip (Option.some_ne_none j).symm
      unfold Exact
      rw [tun_append (d := d) rfl, log, List.countP_cons_of_neg (by rw [skipped]; exact Bool.false_ne_true)]
      split
      next fresh =>
        have unseen : d.trace.countP mark = 0 := List.countP_eq_zero.mpr fun effect member marked =>
          absurd (registered effect member j (counter.own effect marked)) (fresh ▸ lt_irrefl _)
        rw [unseen]
        exact counter.init conf serverMode flowId now
      next => exact exact

theorem run_exact {host : Host κ} {events : List (ℚ × Event κ)} (counter : Counter j shows mark)
    (reached : run step (init host) events = some d) : d.Exact shows mark j := by
  have empty : (init host).Registered := fun effect member => by cases member
  have held := run_stroked (I := fun s => s.Registered ∧ s.Exact shows mark j)
    (fun _ _ _ _ stroke _ before =>
      ⟨stroke.registered before.1, counter.stroke stroke before.1 before.2⟩)
    (tidy_init host) ⟨empty, counter.blank⟩ reached
  exact held.2.2

end Count

theorem sent_counter (j : Nat) :
    Counter j (fun t n => t.sentpackets = UInt64.ofNat n) (·.isSent j) where
  own := fun effect marked => by
    cases effect <;> simp_all [Effect.isSent, Effect.tunnel?]
  stats := fun t t' n same shown => (congrArg (·.1) same).trans shown
  take := fun t highPriority dataSeq now64 n shown =>
    (congrArg (·.1) (stats_taken highPriority dataSeq now64)).trans shown
  send := fun t len type datagram n shown => by
    simp [Tunnel.countSent, shown, Effect.isSent, UInt64.ofNat_add]
  accept := fun t len type decrypted n shown => shown
  lower := fun t n shown => shown
  init := fun conf serverMode flowId now => rfl
  blank := rfl

theorem accepted_counter (j : Nat) :
    Counter j (fun t n => t.recvpackets = UInt64.ofNat n) (·.isAccepted j) where
  own := fun effect marked => by
    cases effect <;> simp_all [Effect.isAccepted, Effect.tunnel?]
  stats := fun t t' n same shown => (congrArg (·.2.1) same).trans shown
  take := fun t highPriority dataSeq now64 n shown =>
    (congrArg (·.2.1) (stats_taken highPriority dataSeq now64)).trans shown
  send := fun t len type datagram n shown => shown
  accept := fun t len type decrypted n shown => by
    simp [Tunnel.countReceived, shown, Effect.isAccepted, UInt64.ofNat_add]
  lower := fun t n shown => shown
  init := fun conf serverMode flowId now => rfl
  blank := rfl

theorem down_counter (j : Nat) : Counter j (fun t n => t.disconnects = Int32.ofNat n) (·.isDown j) where
  own := fun effect marked => by
    cases effect <;> simp_all [Effect.isDown, Effect.tunnel?]
  stats := fun t t' n same shown => (congrArg (·.2.2.1) same).trans shown
  take := fun t highPriority dataSeq now64 n shown =>
    (congrArg (·.2.2.1) (stats_taken highPriority dataSeq now64)).trans shown
  send := fun t len type datagram n shown => shown
  accept := fun t len type decrypted n shown => shown
  lower := fun t n shown => by
    simp [Tunnel.lowered, shown, Effect.isDown]
  init := fun conf serverMode flowId now => rfl
  blank := rfl

theorem sending_counter (j : Nat) :
    Counter j (fun t n => t.seq = UInt64.ofNat n) (·.isSending j) where
  own := fun effect marked => by
    cases effect <;> simp_all [Effect.isSending, Effect.tunnel?]
  stats := fun t t' n same shown => (congrArg (·.2.2.2) same).trans shown
  take := fun t highPriority dataSeq now64 n shown => by
    have next : (t.taken highPriority dataSeq now64).seq = t.seq + 1 :=
      congrArg (·.2.2.2) (stats_taken highPriority dataSeq now64)
    simp [next, shown, Effect.isSending, UInt64.ofNat_add]
  send := fun t len type datagram n shown => shown
  accept := fun t len type decrypted n shown => shown
  lower := fun t n shown => shown
  init := fun conf serverMode flowId now => rfl
  blank := rfl

/-- What the control socket shows of a tunnel is what was done: the datagrams that were sent, the
    datagrams that were accepted, the times that it went down; the next sequence number is the
    number of attempts to send. -/
theorem statistics_exact {host : Host κ} {events : List (ℚ × Event κ)}
    (reached : run step (init host) events = some d) (i : Nat) :
    (d.tun i).sentpackets = UInt64.ofNat (d.trace.countP (·.isSent i)) ∧
      (d.tun i).recvpackets = UInt64.ofNat (d.trace.countP (·.isAccepted i)) ∧
      (d.tun i).disconnects = Int32.ofNat (d.trace.countP (·.isDown i)) ∧
      (d.tun i).seq = UInt64.ofNat (d.trace.countP (·.isSending i)) :=
  ⟨run_exact (sent_counter i) reached, run_exact (accepted_counter i) reached,
    run_exact (down_counter i) reached, run_exact (sending_counter i) reached⟩

/-- A server that has answered a challenge. -/
theorem statistics_of_answer :
    ∃ d ∈ run step (init ⟨.little, plainBox, ()⟩) (serverRun [serverConf "a" 0] ++
        [(3, .write 0 (.sent 30) .blocked)]),
      d.trace.countP (·.isSent 0) = 1 ∧ (d.tun 0).sentpackets = 1 ∧ (d.tun 0).recvpackets = 1 := by
  obtain ⟨d, reached, sent, accepted⟩ :
      ∃ d ∈ run step (init ⟨.little, plainBox, ()⟩) (serverRun [serverConf "a" 0] ++
          [(3, .write 0 (.sent 30) .blocked)]),
        d.trace.countP (·.isSent 0) = 1 ∧ d.trace.countP (·.isAccepted 0) = 1 := by
    decide +kernel
  obtain ⟨shownSent, shownAccepted, _⟩ := statistics_exact reached 0
  exact ⟨d, reached, sent, by rw [shownSent, sent]; rfl, by rw [shownAccepted, accepted]; rfl⟩

end Daemon

end Mlvpn
