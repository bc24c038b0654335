import Mlvpn.Config.Load
import Mlvpn.Daemon.Sockets
import Mlvpn.Tunnel.LossWindow

/-! # Losses and delays that are tolerated

A tunnel is checked once a second: it is lossy or slow if its measurements reach what is
tolerated.  A loss of 100 percent is never measured, since the last sequence number always
counts as received, so a tolerence of 100 turns the check off.  A delay of 1000 turns the
other check off by not making it, which also leaves a tunnel slow that already was.  The delay
is 1000 before the first sample, so a tunnel that tolerates less is slow by a check that comes
before one.
-/

namespace Mlvpn

open Library.Machine Hearing

namespace Tunnel

variable {t t' : Tunnel}

/-- One number of the window is always marked. -/
theorem lossRatio_le (marked : t.Marked 0) : lossRatio t ≤ 98 := by
  have head : List.range 64 = 0 :: (List.range 63).map Nat.succ := List.range_succ_eq_map
  have skips : ((List.range 64).filter fun i => ¬ t.Marked i) =
      ((List.range 63).map Nat.succ).filter fun i => ¬ t.Marked i := by
    rw [head, List.filter_cons_of_neg (by simpa using marked)]
  have few := List.length_filter_le (fun i => decide ¬ t.Marked i) ((List.range 63).map Nat.succ)
  rw [List.length_map, List.length_range] at few
  rw [lossRatio_eq, skips]
  omega

theorem Listens.anchored (listens : Listens t t') (anchored : Anchored t) : Anchored t' := by
  have vect : ∀ {u : Tunnel}, t'.window = u.window → Anchored u → Anchored t' := by
    intro u same before
    have seqVect : t'.seqVect = u.seqVect := congrArg Prod.snd same
    obtain ⟨last, other⟩ := before
    unfold Marked at last other
    rw [← seqVect] at last other
    exact ⟨last, other⟩
  rcases listens with same | ⟨seq, updated⟩
  · exact vect same anchored
  · exact vect updated (anchored.lossUpdate seq)

theorem anchored_blank : Anchored .blank := ⟨rfl, 1, by decide, by decide, rfl⟩

/-- A tunnel that tolerates every loss is not found lossy, and one that was is found good. -/
theorem lossyStatus_of_tolerated (anchored : Anchored t) (tolerated : t.lossTolerence = 100) :
    t.lossyStatus.getD t.status ≠ .lossy := by
  have ratio := lossRatio_le anchored.last
  have below : ¬ lossRatio t ≥ t.lossTolerence := by omega
  have less : lossRatio t < t.lossTolerence := by omega
  unfold lossyStatus
  simp only [below, false_and, if_false, less, true_and]
  split
  next => simp
  next good => simpa using good

theorem slowStatus_ne_lossy (status : Status) (found : t.slowStatus = some status) : status ≠ .lossy := by
  unfold slowStatus at found
  split_ifs at found
  all_goals
    cases found
    decide

theorem lossyStatus_ne_slow (status : Status) (found : t.lossyStatus = some status) :
    status ≠ .highLatency := by
  unfold lossyStatus at found
  split_ifs at found
  all_goals
    cases found
    decide

/-- The check of the losses leaves a slow tunnel to the other check. -/
theorem lossyStatus_of_slow (slow : t.status = .highLatency) : t.lossyStatus = none := by
  simp [lossyStatus, slow]

theorem lossyStatus_slow_iff : t.lossyStatus.getD t.status = .highLatency ↔ t.status = .highLatency := by
  cases found : t.lossyStatus with
  | none => rfl
  | some status =>
      have other : t.status ≠ .highLatency := by
        intro slow
        simp [lossyStatus_of_slow slow] at found
      simp [lossyStatus_ne_slow status found, other]

/-- The peer has not been heard for longer than the timeout. -/
def Expired (t : Tunnel) (now : ℚ) : Prop :=
  t.timeout > 0 ∧ t.lastKeepaliveAck ≠ 0 ∧ t.lastKeepaliveAck + t.timeout < now

instance (t : Tunnel) (now : ℚ) : Decidable (t.Expired now) := inferInstanceAs (Decidable (_ ∧ _))

/-- A connected tunnel is kept as it is until it is found dead, and no other one is connected. -/
def Surveyed (now : ℚ) (t t' : Tunnel) : Prop :=
  (t.status.Up ∧ ¬ t.Expired now ∧ t'.health = t.health) ∨
    ¬ (t.status.Up ∧ ¬ t.Expired now) ∧ ¬ t'.status.Up

/-- A slow tunnel stays slow until it is found dead. -/
theorem Surveyed.slow_iff {now : ℚ} (surveyed : Surveyed now t t') :
    t'.status = .highLatency ↔ t.status = .highLatency ∧ ¬ t.Expired now := by
  have connected : Status.highLatency.Up := by decide
  rcases surveyed with ⟨_, alive, same⟩ | ⟨dead, down⟩
  · have status : t'.status = t.status := congrArg Prod.snd same
    rw [status]
    exact (and_iff_left alive).symm
  · constructor
    · exact fun slow => absurd (slow ▸ connected) down
    · exact fun ⟨slow, alive⟩ => absurd ⟨slow ▸ connected, alive⟩ dead

theorem lossRatio_of_window (same : t'.window = t.window) : lossRatio t' = lossRatio t := by
  have seqVect : t'.seqVect = t.seqVect := congrArg Prod.snd same
  unfold lossRatio
  rw [seqVect]

/-- A connected tunnel is left with a good status where its losses are tolerated. -/
theorem lossyStatus_authok_iff : t.lossyStatus.getD t.status = .authok ↔
    (t.status = .authok ∨ t.status = .lossy) ∧ lossRatio t < t.lossTolerence := by
  unfold lossyStatus
  by_cases tolerated : lossRatio t < t.lossTolerence
  · have below : ¬ lossRatio t ≥ t.lossTolerence := not_le.mpr tolerated
    cases found : t.status <;> simp [tolerated, below]
  · have reached : lossRatio t ≥ t.lossTolerence := not_lt.mp tolerated
    cases found : t.status <;> simp [tolerated, reached]

theorem slowStatus_slows_iff (good : t.status ≠ .highLatency) :
    t.slowStatus.getD t.status = .highLatency ↔
      t.status = .authok ∧ t.latencyTolerence ≠ 1000 ∧ t.srtt ≥ t.latencyTolerence := by
  unfold slowStatus
  by_cases disregarded : t.latencyTolerence = 1000
  · simp [disregarded, good]
  · by_cases reached : t.srtt ≥ t.latencyTolerence
    · cases found : t.status <;> simp_all
    · simp [disregarded, reached, good]

/-- A connected tunnel that is alive and not lossy has a delay that is not tolerated. -/
def Slows (t : Tunnel) (now : ℚ) : Prop :=
  ¬ t.Expired now ∧ (t.status = .authok ∨ t.status = .lossy) ∧ lossRatio t < t.lossTolerence ∧
    t.latencyTolerence ≠ 1000 ∧ t.srtt ≥ t.latencyTolerence

/-- A delay that has not been measured is the initial one. -/
def Timed (t : Tunnel) : Prop := t.rttHit = false → t.srtt = 1000

theorem Deed.keeps_timed {sends loads grades : Prop} (deed : Deed sends loads grades t t')
    (timed : Timed t) : Timed t' := by
  intro unmeasured
  rcases deed.timed with same | measured
  · obtain ⟨srtt, hit⟩ := Prod.mk.inj same
    exact srtt.trans (timed (hit.symm.trans unmeasured))
  · rw [measured] at unmeasured
    cases unmeasured

end Tunnel

namespace Daemon

open Tunnel

variable {κ : Type} {d d' : Daemon κ} {i : Nat} {sends : Nat → Prop} {loads grades : Prop}

/-- An event of the loop, or a measurement of a tunnel, whatever datagram it comes from. -/
inductive MeasureEvent (κ : Type) where
  | event (now : ℚ) (e : Event κ)
  | loss (i : Nat) (seq : UInt64)
  | rtt (i : Nat) (sample : ℚ)

def measureStep (d : Daemon κ) : MeasureEvent κ → Option (Daemon κ)
  | .event now e => d.step (now, e)
  | .loss i seq => some (d.modify i (lossUpdate · seq))
  | .rtt i sample => some (d.modify i (rttUpdate · sample))

theorem lossUpdate_deeds (seq : UInt64) : Deeds sends loads grades d (d.modify i (lossUpdate · seq)) := by
  have remeasured := lossUpdate_remeasured (d.tun i) seq
  refine .deed ⟨.measure remeasured, .inr ⟨seq, rfl⟩, .inl (timing_lossUpdate (d.tun i) seq),
    fun _ => .inl ?_⟩
  rw [remeasured]
  rfl

theorem rttUpdate_deeds (sample : ℚ) : Deeds sends loads grades d (d.modify i (rttUpdate · sample)) := by
  have remeasured := rttUpdate_remeasured (d.tun i) sample
  refine .deed ⟨.measure remeasured, .inl (window_rttUpdate (d.tun i) sample),
    .inr (rttHit_rttUpdate (d.tun i) sample), fun _ => .inl ?_⟩
  rw [remeasured]
  rfl

/-- The reloads. -/
def MeasureEvent.Reloads : MeasureEvent κ → Prop
  | .event _ e => e.Reloads
  | _ => False

/-- What is not a reload keeps the settings. -/
theorem measureStep_deeds {e : MeasureEvent κ} (fixed : ¬ e.Reloads)
    (done : d.measureStep e = some d') : ∃ sends, Deeds sends False True d d' := by
  cases e with
  | event now e =>
      have deeds : Deeds e.Sends False e.Grades d d' := step_deeds fixed done
      exact ⟨e.Sends, fun j => Relation.ReflTransGen.mono (fun _ _ deed => ⟨deed.act, deed.listens, deed.timed,
        fun high => (deed.graded high).imp_right fun graded => ⟨trivial, graded.2⟩⟩) _ _ (deeds j)⟩
  | loss i seq =>
      cases done
      exact ⟨fun _ => False, lossUpdate_deeds seq⟩
  | rtt i sample =>
      cases done
      exact ⟨fun _ => False, rttUpdate_deeds sample⟩

/-- A reload checks no tunnel. -/
theorem measureStep_reload {e : MeasureEvent κ} (reloads : e.Reloads)
    (done : d.measureStep e = some d') : Deeds (fun _ => True) True False d d' := by
  cases e with
  | event now e =>
      cases e with
      | reload conf send =>
          have stepped : d.step (now, .reload conf send) = some d' := done
          cases step_cases stepped with
          | pass => exact .refl d
          | reload done => exact configReload_deeds (fun _ => trivial) trivial done
      | _ => exact reloads.elim
  | loss | rtt => exact reloads.elim

theorem Deeds.anchored (deeds : Deeds sends loads grades d d') (anchored : ∀ j, Anchored (d.tun j)) (j : Nat) :
    Anchored (d'.tun j) :=
  deeds.preserve (fun _ _ deed => deed.listens.anchored) (anchored j)

theorem measureStep_anchored {e : MeasureEvent κ} (anchored : ∀ j, Anchored (d.tun j))
    (done : d.measureStep e = some d') : ∀ j, Anchored (d'.tun j) := by
  by_cases reloads : e.Reloads
  · exact (measureStep_reload reloads done).anchored anchored
  · obtain ⟨sends, deeds⟩ := measureStep_deeds reloads done
    exact deeds.anchored anchored

theorem run_anchored {host : Host κ} {events : List (MeasureEvent κ)}
    (reached : run measureStep (init host) events = some d) : ∀ j, Anchored (d.tun j) := by
  refine run_preserves (I := fun s => ∀ j, Anchored (s.tun j)) events ?_ ?_ reached
  · exact fun s e _ s' anchored done => measureStep_anchored anchored done
  · intro j
    rw [tun_eq_blank (Nat.not_lt_zero j)]
    exact anchored_blank

/-- Without a check no tunnel becomes lossy or slow. -/
theorem Deeds.ungraded (deeds : Deeds sends loads False d d')
    (bad : (d'.tun i).status = .lossy ∨ (d'.tun i).status = .highLatency) :
    (d.tun i).status = (d'.tun i).status := by
  by_contra other
  refine deeds.preserve (j := i) (P := fun t => t.status ≠ (d'.tun i).status) ?_ other rfl
  intro t t' deed before same
  rcases deed.graded (same ▸ bad) with kept | ⟨checked, _⟩
  · exact before (kept.symm.trans same)
  · exact checked

/-- A tunnel that tolerates every loss does not become lossy. -/
theorem Deeds.tolerated (deeds : Deeds sends False grades d d') (anchored : ∀ j, Anchored (d.tun j))
    (tolerated : (d.tun i).lossTolerence = 100) (good : (d.tun i).status ≠ .lossy) :
    (d'.tun i).status ≠ .lossy := by
  have kept := deeds.preserve (j := i)
    (P := fun t => Anchored t ∧ t.lossTolerence = 100 ∧ t.status ≠ .lossy) ?_ ⟨anchored i, tolerated, good⟩
  · exact kept.2.2
  · rintro t t' deed ⟨marked, full, before⟩
    refine ⟨deed.listens.anchored marked, (congrArg Settings.lossTolerence deed.act.settings).trans full, ?_⟩
    intro lossy
    rcases deed.graded (.inl lossy) with same | ⟨_, found | found⟩
    · exact before (same.symm.trans lossy)
    · have not := lossyStatus_of_tolerated marked full
      rw [found] at not
      exact not lossy
    · exact slowStatus_ne_lossy _ found lossy

theorem watchIfQueued_health {t : Tunnel} : t.watchIfQueued.health = t.health := by
  unfold watchIfQueued
  split <;> rfl

theorem watchIfQueued_deeds : Deeds sends loads grades d (d.modify i watchIfQueued) := by
  refine .modify ?_
  unfold watchIfQueued
  split
  next queued => exact .single (.of_health (.watch queued.2) rfl)
  next => exact .refl

/-- A check finds no tunnel lossy that tolerates every loss. -/
theorem checkTimeout_tolerated {now : ℚ} {result : StartResult} (anchored : ∀ j, Anchored (d.tun j))
    (tolerated : (d.tun i).lossTolerence = 100) (done : d.checkTimeout i now result = some d') :
    (d'.tun i).status ≠ .lossy := by
  obtain ⟨d₁, alive, rest⟩ := Option.bind_eq_some_iff.mp done
  obtain ⟨d₂, lossy, slow⟩ := Option.bind_eq_some_iff.mp rest
  have before : Deeds (fun _ => False) False False d (d₁.modify i watchIfQueued) :=
    (checkAlive_deeds alive).trans watchIfQueued_deeds
  have still : ((d₁.modify i watchIfQueued).tun i).lossTolerence = 100 :=
    (congrArg Settings.lossTolerence (before.toActs.settings i)).trans tolerated
  have good : (d₂.tun i).status ≠ .lossy := by
    rw [checkLossy_status lossy]
    exact lossyStatus_of_tolerated (before.anchored anchored i) still
  rw [checkSlow_status slow]
  cases found : (d₂.tun i).slowStatus with
  | none => exact good
  | some status => exact slowStatus_ne_lossy status found

/-- A loss tolerence of 100 turns the check off: the loss ratio stays below it, no step makes
    the tunnel lossy, and the next check of a tunnel that was lossy before ends that. -/
theorem loss_tolerence_disables {host : Host κ} {events : List (MeasureEvent κ)}
    (reached : run measureStep (init host) events = some d) :
    (∀ i, lossRatio (d.tun i) ≤ 98) ∧
      (∀ e d', d.measureStep e = some d' → ∀ i, (d.tun i).status ≠ .lossy →
        (d'.tun i).status = .lossy → (d.tun i).lossTolerence ≠ 100 ∧ (d'.tun i).lossTolerence ≠ 100) ∧
      ∀ i now result d', d.checkTimeout i now result = some d' → (d.tun i).lossTolerence = 100 →
        (d'.tun i).status ≠ .lossy := by
  have anchored := run_anchored reached
  refine ⟨fun i => lossRatio_le (anchored i).last, ?_, ?_⟩
  · intro e d' done i good lossy
    by_cases reloads : e.Reloads
    · have same := (measureStep_reload reloads done).ungraded (.inl lossy)
      exact absurd (same.trans lossy) good
    · obtain ⟨sends, deeds⟩ := measureStep_deeds reloads done
      have same : (d'.tun i).lossTolerence = (d.tun i).lossTolerence :=
        congrArg Settings.lossTolerence (deeds.toActs.settings i)
      have less : (d.tun i).lossTolerence ≠ 100 :=
        fun tolerated => deeds.tolerated anchored tolerated good lossy
      exact ⟨less, same ▸ less⟩
  · intro i now result d' done tolerated
    exact checkTimeout_tolerated anchored tolerated done

/-- The events of a run of the loop. -/
def looped (events : List (ℚ × Event Unit)) : List (MeasureEvent Unit) :=
  events.map fun (now, e) => .event now e

/-- A tunnel with all its addresses, which a reload leaves connected. -/
def tolerantConf (lossTolerence latencyTolerence : Nat) : TunnelConf :=
  { serverConf "a" 0 with
    bindaddr := some "10.0.0.1", destaddr := some "10.0.0.2", destport := some "5080"
    lossTolerence := lossTolerence, latencyTolerence := latencyTolerence }

/-- The configuration of the tunnel is read again. -/
def retolerated (lossTolerence latencyTolerence : Nat) : MeasureEvent Unit :=
  .event 5 (.reload (some (serverConfig [tolerantConf lossTolerence latencyTolerence] []))
    fun _ => .blocked)

/-- A lossy tunnel that a reload makes tolerant. -/
theorem lossy_tunnel_recovers :
    ∃ d ∈ run measureStep (init ⟨.little, plainBox, ()⟩) (looped (serverRun [tolerantConf 50 1000]) ++
        [.loss 0 60, .event 4 (.timeout 0 .unresolved), retolerated 100 1000]),
      (d.tun 0).status = .lossy ∧ lossRatio (d.tun 0) = 92 ∧ (d.tun 0).lossTolerence = 100 ∧
        ∀ now result d', d.checkTimeout 0 now result = some d' → (d'.tun 0).status ≠ .lossy := by
  obtain ⟨d, reached, lossy, ratio, tolerated⟩ :
      ∃ d ∈ run measureStep (init ⟨.little, plainBox, ()⟩)
        (looped (serverRun [tolerantConf 50 1000]) ++
          [.loss 0 60, .event 4 (.timeout 0 .unresolved), retolerated 100 1000]),
      (d.tun 0).status = .lossy ∧ lossRatio (d.tun 0) = 92 ∧ (d.tun 0).lossTolerence = 100 := by
    decide +kernel
  exact ⟨d, reached, lossy, ratio, tolerated,
    fun now result d' done => (loss_tolerence_disables reached).2.2 0 now result d' done tolerated⟩

theorem checkAlive_surveyed {now : ℚ} {result : StartResult}
    (done : d.checkAlive i now result = some d') : Surveyed now (d.tun i) (d'.tun i) := by
  unfold checkAlive at done
  dsimp only at done
  split_ifs at done with up checked expired
  · exact .inr ⟨fun live => live.2 ⟨checked, expired⟩, statusDown_down done⟩
  · cases done
    exact .inl ⟨up, fun dead => expired dead.2, modify_keeps health (health_sendKeepalive now) i⟩
  · cases done
    exact .inl ⟨up, fun dead => expired dead.2, rfl⟩
  · cases done
    exact .inl ⟨up, fun dead => checked dead.1, rfl⟩
  · cases done
    refine .inr ⟨fun live => up live.1, ?_⟩
    rw [tun_modify]
    split
    next => exact fun raised => up ((Quiet.tickConnect now result up).up.mp raised)
    next => exact up

/-- A check looks at the losses and then at the delay of what it finds alive. -/
theorem checkTimeout_stages {now : ℚ} {result : StartResult}
    (done : d.checkTimeout i now result = some d') :
    ∃ d₁ d₂ : Daemon κ, Surveyed now (d.tun i) (d₁.tun i) ∧
      (d₁.tun i).settings = (d.tun i).settings ∧ d₁.checkLossy i = some d₂ ∧ d₂.checkSlow i = some d' := by
  obtain ⟨d₁, alive, rest⟩ := Option.bind_eq_some_iff.mp done
  obtain ⟨d₂, lossy, slow⟩ := Option.bind_eq_some_iff.mp rest
  have watched : ((d₁.modify i watchIfQueued).tun i).health = (d₁.tun i).health :=
    modify_keeps health watchIfQueued_health i
  have before : Deeds (fun _ => False) False False d (d₁.modify i watchIfQueued) :=
    (checkAlive_deeds alive).trans watchIfQueued_deeds
  refine ⟨d₁.modify i watchIfQueued, d₂, ?_, before.toActs.settings i, lossy, slow⟩
  rcases checkAlive_surveyed alive with ⟨up, live, same⟩ | ⟨dead, down⟩
  · exact .inl ⟨up, live, watched.trans same⟩
  · have status : ((d₁.modify i watchIfQueued).tun i).status = (d₁.tun i).status :=
      congrArg Prod.snd watched
    exact .inr ⟨dead, fun up => down (status ▸ up)⟩

/-- A check with a latency tolerence of 1000 leaves a slow tunnel slow. -/
theorem checkTimeout_slow_iff {now : ℚ} {result : StartResult}
    (tolerated : (d.tun i).latencyTolerence = 1000) (done : d.checkTimeout i now result = some d') :
    (d'.tun i).status = .highLatency ↔ (d.tun i).status = .highLatency ∧ ¬ (d.tun i).Expired now := by
  obtain ⟨d₁, d₂, surveyed, settings, lossy, slow⟩ := checkTimeout_stages done
  have ungraded : (d₂.tun i).slowStatus = none := by
    rw [checkLossy_tun lossy]
    exact if_pos ((congrArg Settings.latencyTolerence settings).trans tolerated)
  rw [checkSlow_status slow, ungraded, Option.getD_none, checkLossy_status lossy,
    lossyStatus_slow_iff, surveyed.slow_iff]

/-- Nothing ends the program while such a tunnel is checked. -/
theorem checkTimeout_of_slow {now : ℚ} (tolerated : (d.tun i).latencyTolerence = 1000)
    (slow : (d.tun i).status = .highLatency) (alive : ¬ (d.tun i).Expired now) (result : StartResult) :
    ∃ d', d.checkTimeout i now result = some d' := by
  have up : (d.tun i).status.Up := by
    rw [slow]
    decide
  obtain ⟨d₁, checked⟩ : ∃ d₁, d.checkAlive i now result = some d₁ := by
    rw [checkAlive, if_pos up]
    split_ifs with counted expired
    · exact absurd ⟨counted, expired⟩ alive
    all_goals exact ⟨_, rfl⟩
  have before : Deeds (fun _ => False) False False d (d₁.modify i watchIfQueued) :=
    (checkAlive_deeds checked).trans watchIfQueued_deeds
  have still : ((d₁.modify i watchIfQueued).tun i).status = .highLatency :=
    (modify_keeps Tunnel.status watchIfQueued_status i).trans
      ((checkAlive_surveyed checked).slow_iff.mpr ⟨slow, alive⟩)
  have lossy : (d₁.modify i watchIfQueued).checkLossy i = some (d₁.modify i watchIfQueued) := by
    rw [checkLossy, lossyStatus_of_slow still, regrade]
  have ungraded : ((d₁.modify i watchIfQueued).tun i).slowStatus = none :=
    if_pos ((congrArg Settings.latencyTolerence (before.toActs.settings i)).trans tolerated)
  refine ⟨d₁.modify i watchIfQueued, Option.bind_eq_some_iff.mpr ⟨d₁, checked, ?_⟩⟩
  refine Option.bind_eq_some_iff.mpr ⟨d₁.modify i watchIfQueued, lossy, ?_⟩
  rw [checkSlow, ungraded, regrade]

/-- The loop calls the check of a tunnel. -/
def Checks (d : Daemon κ) (i : Nat) : Prop := d.stopped = false ∧ (d.tun i).ioTimeout.active

instance (d : Daemon κ) (i : Nat) : Decidable (d.Checks i) := inferInstanceAs (Decidable (_ ∧ _))

/-- The check of a tunnel with a latency tolerence of 1000 does not leave it slow. -/
def Disregards (d : Daemon κ) : MeasureEvent κ → Prop
  | .event now (.timeout i result) => d.Checks i → (d.tun i).latencyTolerence = 1000 →
      ∀ d', d.checkTimeout i now result = some d' → (d'.tun i).status ≠ .highLatency
  | _ => True

/-- A tunnel that is checked with a latency tolerence of 1000 is not slow already, or is dead. -/
def Recovers (d : Daemon κ) : MeasureEvent κ → Prop
  | .event now (.timeout i _) => d.Checks i → (d.tun i).latencyTolerence = 1000 →
      (d.tun i).status = .highLatency → (d.tun i).Expired now
  | _ => True

theorem disregards_iff (d : Daemon κ) (e : MeasureEvent κ) : d.Disregards e ↔ d.Recovers e := by
  cases e with
  | event now e =>
      cases e with
      | timeout i result =>
          refine forall₂_congr fun _ tolerated => ⟨fun disregards slow => ?_, fun recovers d' done => ?_⟩
          · by_contra alive
            obtain ⟨d', done⟩ := checkTimeout_of_slow tolerated slow alive result
            exact disregards d' done ((checkTimeout_slow_iff tolerated done).mpr ⟨slow, alive⟩)
          · intro slow
            obtain ⟨before, alive⟩ := (checkTimeout_slow_iff tolerated done).mp slow
            exact alive (recovers before)
      | _ => exact Iff.rfl
  | loss | rtt => exact Iff.rfl

/-- A latency tolerence of 1000 keeps a tunnel from becoming slow, but it does not end that:
    in a run the checks disregard the delay if and only if no live tunnel is checked that became
    slow with another tolerence. -/
theorem latency_disregarded_iff (host : Host κ) (events : List (MeasureEvent κ)) :
    Meets measureStep Disregards (init host) events ↔ Meets measureStep Recovers (init host) events :=
  meets_congr (I := fun _ => True) (fun _ _ _ _ _ => trivial) (fun d e _ => disregards_iff d e) events
    trivial

/-- A tunnel is slow with a tolerence of 100, the configuration is read again with one of
    1000, and the next check leaves the tunnel slow. -/
theorem slow_tunnel_stays :
    ∃ d ∈ run measureStep (init ⟨.little, plainBox, ()⟩) (looped (serverRun [tolerantConf 100 100]) ++
        [.rtt 0 500, .event 4 (.timeout 0 .unresolved), retolerated 100 1000]),
      d.Checks 0 ∧ (d.tun 0).latencyTolerence = 1000 ∧
        ∃ d' ∈ d.checkTimeout 0 6 .unresolved, (d'.tun 0).status = .highLatency := by
  decide +kernel

/-- What a check finds of a tunnel that is not slow yet. -/
theorem checkTimeout_slows_iff {now : ℚ} {result : StartResult}
    (good : (d.tun i).status ≠ .highLatency) (done : d.checkTimeout i now result = some d') :
    (d'.tun i).status = .highLatency ↔ (d.tun i).Slows now := by
  obtain ⟨d₁, d₂, surveyed, settings, lossy, slow⟩ := checkTimeout_stages done
  have connected : Status.authok.Up ∧ Status.lossy.Up := by decide
  have before : (d₁.tun i).status ≠ .highLatency := fun slowed => good (surveyed.slow_iff.mp slowed).1
  have other : (d₂.tun i).status ≠ .highLatency := by
    rw [checkLossy_status lossy]
    exact fun slowed => before (lossyStatus_slow_iff.mp slowed)
  have found : (d'.tun i).status = .highLatency ↔
      (((d₁.tun i).status = .authok ∨ (d₁.tun i).status = .lossy) ∧
        lossRatio (d₁.tun i) < (d₁.tun i).lossTolerence) ∧
      (d₁.tun i).latencyTolerence ≠ 1000 ∧ (d₁.tun i).srtt ≥ (d₁.tun i).latencyTolerence := by
    rw [checkSlow_status slow, slowStatus_slows_iff other, checkLossy_tun lossy, lossyStatus_authok_iff]
  have lossTolerence := congrArg Settings.lossTolerence settings
  have latencyTolerence := congrArg Settings.latencyTolerence settings
  dsimp only [Tunnel.settings] at lossTolerence latencyTolerence
  rw [found, lossTolerence, latencyTolerence]
  rcases surveyed with ⟨_, live, same⟩ | ⟨dead, down⟩
  · have status : (d₁.tun i).status = (d.tun i).status := congrArg Prod.snd same
    have srtt : (d₁.tun i).srtt = (d.tun i).srtt := congrArg (·.1.2.1) same
    have ratio : lossRatio (d₁.tun i) = lossRatio (d.tun i) :=
      lossRatio_of_window (congrArg (·.1.1) same)
    rw [status, srtt, ratio, Slows, and_assoc]
    exact (and_iff_right live).symm
  · constructor
    · rintro ⟨⟨good | lossy, _⟩, _⟩
      · exact absurd (good ▸ connected.1) down
      · exact absurd (lossy ▸ connected.2) down
    · rintro ⟨live, good | lossy, _⟩
      · exact absurd ⟨good ▸ connected.1, live⟩ dead
      · exact absurd ⟨lossy ▸ connected.2, live⟩ dead

/-- A tunnel becomes slow only after its round trip time has been measured. -/
def SlowMeasured (d : Daemon κ) (e : ℚ × Event κ) : Prop :=
  ∀ d', d.step e = some d' → ∀ i, (d.tun i).status ≠ .highLatency →
    (d'.tun i).status = .highLatency → (d.tun i).rttHit = true

/-- A connected tunnel that is checked while it is alive and its losses are tolerated has been
    measured, unless it tolerates the delay of 1000 that it starts with. -/
def ChecksMeasured (d : Daemon κ) : ℚ × Event κ → Prop
  | (now, .timeout i _) => d.Checks i → ¬ (d.tun i).Expired now →
      (d.tun i).status = .authok ∨ (d.tun i).status = .lossy →
      lossRatio (d.tun i) < (d.tun i).lossTolerence → (d.tun i).latencyTolerence < 1000 →
      (d.tun i).rttHit = true
  | _ => True

theorem step_timed {e : ℚ × Event κ} (timed : ∀ j, Timed (d.tun j)) (done : d.step e = some d') :
    ∀ j, Timed (d'.tun j) :=
  fun j => step_tunnel (fun _ _ _ _ _ => Deed.keeps_timed) (timed j) done

/-- Only the check of a tunnel makes it slow. -/
theorem slowed_by_check {now : ℚ} {e : Event κ} (done : d.step (now, e) = some d')
    (good : (d.tun i).status ≠ .highLatency) (slow : (d'.tun i).status = .highLatency) :
    ∃ result, e = .timeout i result ∧ d.Checks i ∧ d.checkTimeout i now result = some d' := by
  have unchanged : (d.tun i).status ≠ (d'.tun i).status := slow ▸ good
  cases e with
  | timeout j result =>
      cases step_cases done with
      | pass => exact absurd rfl unchanged
      | timeout running active checked =>
          by_cases here : i = j
          · cases here
            exact ⟨result, rfl, ⟨running, active⟩, checked⟩
          · exact absurd (congrArg Tunnel.status (checkTimeout_only checked i here)).symm unchanged
  | reload conf send =>
      have deeds := measureStep_reload (e := .event now (.reload conf send)) trivial done
      exact absurd (deeds.ungraded (.inr slow)) unchanged
  | _ =>
      have deeds : Deeds _ False False d d' := step_deeds id done
      exact absurd (deeds.ungraded (.inr slow)) unchanged

theorem slowMeasured_iff {e : ℚ × Event κ} (timed : ∀ j, Timed (d.tun j))
    (done : d.step e = some d') : d.SlowMeasured e ↔ d.ChecksMeasured e := by
  obtain ⟨now, e⟩ := e
  constructor
  · intro measured
    cases e with
    | timeout i result =>
        rintro ⟨running, active⟩ live connected tolerated below
        by_contra missing
        have unmeasured : (d.tun i).rttHit = false := Bool.eq_false_iff.mpr missing
        have good : (d.tun i).status ≠ .highLatency := by
          rcases connected with good | lossy
          · simp [good]
          · simp [lossy]
        have checked : d.checkTimeout i now result = some d' := by
          simpa [step, running, active] using done
        have srtt : (d.tun i).srtt ≥ (d.tun i).latencyTolerence := by
          rw [timed i unmeasured]
          exact_mod_cast below.le
        have slow := (checkTimeout_slows_iff good checked).mpr
          ⟨live, connected, tolerated, below.ne, srtt⟩
        exact missing (measured d' done i good slow)
    | _ => trivial
  · intro checks d'' again i good slow
    obtain ⟨result, rfl, checked, found⟩ := slowed_by_check again good slow
    obtain ⟨live, connected, tolerated, regarded, reached⟩ := (checkTimeout_slows_iff good found).mp slow
    by_contra missing
    rw [timed i (Bool.eq_false_iff.mpr missing)] at reached
    have bounded : (d.tun i).latencyTolerence ≤ 1000 := by exact_mod_cast reached
    exact missing (checks checked live connected tolerated (lt_of_le_of_ne bounded regarded))

/-- The delay starts from 1000 and not from a measurement: in a run the tunnels become slow after
    a measurement only if and only if no connected tunnel that tolerates less is checked without
    one while it is alive and not lossy. -/
theorem slow_measured_iff {host : Host κ} {events : List (ℚ × Event κ)}
    (reached : run step (init host) events = some d) :
    Meets step SlowMeasured (init host) events ↔ Meets step ChecksMeasured (init host) events := by
  refine meets_congr_of_run (I := fun s => ∀ j, Timed (s.tun j))
    (fun s e s' => step_timed) (fun s e s' => slowMeasured_iff) events ?_ reached
  intro j
  rw [tun_eq_blank (Nat.not_lt_zero j)]
  exact fun _ => rfl

instance (d : Daemon κ) : ∀ e, Decidable (d.ChecksMeasured e)
  | (_, .timeout _ _) => inferInstanceAs (Decidable (_ → _ → _ → _ → _ → _))
  | (_, .read _ _) | (_, .write _ _ _) | (_, .tuntapRead _) | (_, .tuntapWrite) | (_, .drainTimeout)
  | (_, .adjustTimeout) | (_, .reload _ _) | (_, .quit _) => isTrue trivial

/-- A keepalive with a round trip time of half a second reaches a tunnel. -/
def sampled (i : Nat) : ℚ × Event Unit :=
  let pkt : Pkt := { len := 0, type := .keepalive, reorder := true, seq := 0, data := [] }
  let peer : Tunnel := { Tunnel.blank with savedTimestamp := 2500 }
  let datagram := sendDatagram ⟨.little, plainBox, ()⟩ true (sendHeader peer 0 0 pkt).1 pkt
  (3, .read i (.datagram (datagram.getD []) [10] true))

/-- A tunnel that is measured before it is checked. -/
theorem slow_after_sample :
    ∃ d ∈ run step (init ⟨.little, plainBox, ()⟩) (serverRun [tolerantConf 100 100] ++
        [sampled 0, (4, .timeout 0 .unresolved)]),
      (d.tun 0).status = .highLatency ∧
        Meets step SlowMeasured (init ⟨.little, plainBox, ()⟩) (serverRun [tolerantConf 100 100] ++
          [sampled 0, (4, .timeout 0 .unresolved)]) := by
  obtain ⟨d, reached, slow⟩ : ∃ d ∈ run step (init ⟨.little, plainBox, ()⟩)
      (serverRun [tolerantConf 100 100] ++ [sampled 0, (4, .timeout 0 .unresolved)]),
      (d.tun 0).status = .highLatency := by decide +kernel
  exact ⟨d, reached, slow, (slow_measured_iff reached).mpr (by decide +kernel)⟩

/-- A server's tunnel is connected and checked before a sample: it is slow. -/
theorem slow_without_sample :
    ∃ d ∈ run step (init ⟨.little, plainBox, ()⟩) (serverRun [tolerantConf 100 100]),
      (d.tun 0).status = .authok ∧ (d.tun 0).rttHit = false ∧
        ∃ d' ∈ d.step (4, .timeout 0 .unresolved),
          (d'.tun 0).status = .highLatency ∧ (d'.tun 0).rttHit = false := by
  decide +kernel

end Daemon

end Mlvpn
