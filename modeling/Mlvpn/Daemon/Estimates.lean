import Mlvpn.Daemon.References
import Mlvpn.Daemon.Strokes
import Mlvpn.Receive.Pending
import Mathlib.Tactic.Linarith

/-! # How long a packet can be held back

A packet that arrives too early waits for those before it until `reorder_drain_timeout` expires.
The period of that timer follows the round trip times that the tunnels have measured, which come
from the timestamps of the peer: whatever arrives, the estimates stay below the bound that
`mlvpn_protocol_read` puts on a sample, and the period stays positive and below 55 seconds.
-/

namespace Mlvpn

namespace Tunnel

variable {t t' : Tunnel}

/-- The estimates of the round trip time, and whether there has been a sample. -/
def estimate (t : Tunnel) : Bool × ℚ × ℚ := (t.rttHit, t.srtt, t.rttvar)

theorem estimate_lossUpdate (t : Tunnel) (seq : UInt64) : (lossUpdate t seq).estimate = t.estimate := by
  unfold lossUpdate
  split_ifs <;> rfl

/-- Estimates between 0 and the bound of a sample. -/
def Credible (t : Tunnel) : Prop :=
  0 ≤ t.srtt ∧ t.srtt < 5000 ∧ 0 ≤ t.rttvar ∧ t.rttvar < 5000

theorem Credible.of_estimate (credible : t.Credible) (same : t'.estimate = t.estimate) :
    t'.Credible := by
  have srtt : t'.srtt = t.srtt := congrArg (·.2.1) same
  have rttvar : t'.rttvar = t.rttvar := congrArg (·.2.2) same
  rw [Credible, srtt, rttvar]
  exact credible

/-- An average of estimates within the bound is within the bound. -/
theorem Credible.rttUpdate (credible : t.Credible) {sample : ℚ} (positive : 0 ≤ sample)
    (small : sample < 5000) : (rttUpdate t sample).Credible := by
  obtain ⟨srttPos, srttSmall, varPos, varSmall⟩ := credible
  unfold Mlvpn.rttUpdate
  split
  next =>
    have apart : |t.srtt - sample| < 5000 := abs_lt.mpr ⟨by linarith, by linarith⟩
    have nonneg := abs_nonneg (t.srtt - sample)
    refine ⟨?_, ?_, ?_, ?_⟩ <;> dsimp only <;> linarith
  next =>
    refine ⟨positive, small, ?_, ?_⟩ <;> dsimp only <;> linarith

theorem Credible.protocolMeasure (credible : t.Credible) (now64 : UInt64) (proto : Proto) :
    (protocolMeasure t now64 proto).Credible := by
  have heard : (if proto.version ≥ 1 then lossUpdate t proto.seq else t).Credible := by
    split
    next => exact credible.of_estimate (estimate_lossUpdate t proto.seq)
    next => exact credible
  unfold Mlvpn.protocolMeasure
  dsimp only
  generalize (if proto.version ≥ 1 then lossUpdate t proto.seq else t) = t₁ at heard ⊢
  have stamped : (if proto.timestamp ≠ 0xFFFF then
      { t₁ with
        savedTimestamp := UInt64.ofNat proto.timestamp.toNat
        savedTimestampReceivedAt := now64 } else t₁).Credible := by
    split
    next => exact heard
    next => exact heard
  generalize (if proto.timestamp ≠ 0xFFFF then
      { t₁ with
        savedTimestamp := UInt64.ofNat proto.timestamp.toNat
        savedTimestampReceivedAt := now64 } else t₁) = t₂ at stamped ⊢
  split_ifs with _ small
  · refine stamped.rttUpdate (Nat.cast_nonneg _) ?_
    exact_mod_cast UInt16.lt_iff_toNat_lt.mp small
  · exact stamped
  · exact stamped

/-- The estimates of a tunnel that has measured nothing. -/
theorem credible_unmeasured (same : t.estimate = (false, 1000, 500)) : t.Credible := by
  have srtt : t.srtt = 1000 := congrArg (·.2.1) same
  have rttvar : t.rttvar = 500 := congrArg (·.2.2) same
  rw [Credible, srtt, rttvar]
  decide

end Tunnel

namespace Receive

variable {s s' : Receive}

theorem restartIfUsed_period (result : Nat × Receive) :
    (restartIfUsed result).2.drainTimeout.period = result.2.drainTimeout.period := by
  unfold restartIfUsed
  split <;> rfl

theorem recvEntry_period {b : Reorder.ReorderBuffer Nat} {entry n : Nat} {r : Reception}
    (done : recvEntry s b entry r = some (n, s')) :
    s'.drainTimeout.period = s.drainTimeout.period := by
  unfold recvEntry at done
  dsimp only at done
  split_ifs at done
  · obtain ⟨⟨m, s₁⟩, drained, same⟩ := Option.map_eq_some_iff.mp done
    have restarted := restartIfUsed_period (m, s₁)
    rw [same] at restarted
    exact restarted.trans (reorderDrainAll_timer drained).2
  · cases done
    rfl
  · obtain ⟨⟨m, s₁⟩, drained, same⟩ := Option.map_eq_some_iff.mp done
    have restarted := restartIfUsed_period (m, s₁)
    rw [same] at restarted
    have period := reorderDrainOrdered_timer drained
    exact restarted.trans period

theorem statusDrain_period (done : statusDrain s = some s') :
    s'.drainTimeout.period = s.drainTimeout.period := by
  rcases statusDrain_cases done with ⟨_, rfl⟩ | ⟨n, s₁, drained, rfl⟩
  · rfl
  · exact (reorderDrainAll_timer drained).2

/-- Only an adjustment changes the period of the timer. -/
theorem step_period {e : Event} (other : ∀ period, e ≠ .adjust period) (done : step s e = some s') :
    s'.drainTimeout.period = s.drainTimeout.period := by
  cases e with
  | recv tun pkt =>
      obtain ⟨⟨n, s₁⟩, received, rfl⟩ := Option.map_eq_some_iff.mp done
      unfold recvData at received
      dsimp only at received
      split at received
      next =>
        cases received
        rfl
      next =>
        split at received
        next =>
          split at received
          next =>
            cases received
            rfl
          next =>
            have period := recvEntry_period received
            exact period
        next =>
          cases received
          rfl
  | timeout =>
      rcases reorderDrainTimeout_cases done with rfl | ⟨n, s₁, drained, rfl⟩
      · rfl
      · exact stopIfUnused_period.trans (reorderDrainAll_timer drained).2
  | statusChange => exact statusDrain_period done
  | reload size =>
      cases done
      unfold configReorderBufferSize
      split <;> rfl
  | adjust period => exact absurd rfl (other period)
  | tuntapWrite =>
      obtain ⟨sbuf, ioWrite, rfl⟩ := tuntapWrite_cases done
      rfl

/-- The timer expires again, and within 55 seconds. -/
def Prompt (s : Receive) : Prop := 0 < s.drainTimeout.period ∧ s.drainTimeout.period < 55

end Receive

namespace Daemon

open Library.Machine Tunnel

variable {κ : Type} {d d' : Daemon κ} {i : Nat} {now : ℚ} {e : Event κ}

/-- Nothing but a datagram changes an estimate. -/
theorem Tends.estimate {t t' : Tunnel} (tends : Tends now e i t t') : t'.estimate = t.estimate :=
  (congrArg Tunnel.estimate tends.unrecorded).trans rfl

theorem kept_credible (now : ℚ) (e : Event κ) (j : Nat) : Kept now e j Tunnel.Credible where
  tend := fun t t' tends credible => credible.of_estimate tends.estimate
  take := fun t highPriority dataSeq _ credible =>
    credible.of_estimate ((congrArg Tunnel.estimate (t.taken_eq highPriority dataSeq _)).trans rfl)
  countSent := fun _ _ credible => credible.of_estimate rfl
  accept := fun d t bytes sender named decrypted pkt t₁ t' _ read adopted credible => by
    obtain ⟨addr, rfl⟩ := adoptAddr_eq adopted
    have measured : t₁.Credible := by
      have measures := protocolRead_measures d.host d.cleartextData (timestamp64 now) t bytes
      rw [read] at measures
      dsimp only at measures
      rcases measures with same | ⟨proto, measured⟩
      · rw [same]
        exact credible
      · rw [measured]
        exact credible.protocolMeasure _ proto
    exact measured.of_estimate rfl
  lower := fun _ credible => credible.of_estimate rfl
  raise := fun _ _ _ credible => credible.of_estimate rfl
  regrade := fun _ _ _ credible => credible.of_estimate rfl
  stop := fun _ _ credible => credible.of_estimate rfl

theorem Stroke.drainPeriod (stroke : Stroke now e d d') (other : e ≠ .adjustTimeout) :
    d'.rx.drainTimeout.period = d.rx.drainTimeout.period := by
  refine stroke.rx (R := fun rx rx' => rx'.drainTimeout.period = rx.drainTimeout.period) rfl ?_ ?_
    fun _ => Receive.statusDrain_period
  · exact fun _ _ _ _ _ stepped => Receive.step_period (fun _ same => by cases same) stepped
  · intro event rx asks stepped
    refine Receive.step_period (fun period same => ?_) stepped
    subst same
    cases asks
    exact other rfl

/-- The largest of several times below a bound is below the bound. -/
theorem foldl_max_bounds {bound : ℚ} (times : List ℚ) (within : ∀ time ∈ times, 0 ≤ time ∧ time < bound)
    {start : ℚ} (first : 0 ≤ start ∧ start < bound) :
    0 ≤ times.foldl (fun max time => if max > time then max else time) start ∧
      times.foldl (fun max time => if max > time then max else time) start < bound := by
  induction times generalizing start with
  | nil => exact first
  | cons time rest ih =>
      refine ih (fun later member => within later (List.mem_cons_of_mem time member)) ?_
      dsimp only
      split
      next => exact first
      next => exact within time List.mem_cons_self

/-- The period is set from credible estimates. -/
theorem adjustReorderTimeout_prompt (credible : ∀ j, (d.tun j).Credible)
    (done : d.adjustReorderTimeout = some d') : d'.rx.Prompt := by
  unfold adjustReorderTimeout at done
  obtain ⟨rx, adjusted, rfl⟩ := Option.map_eq_some_iff.mp done
  cases adjusted
  have start : (0 : ℚ) ≤ 0 ∧ (0 : ℚ) < 25000 := ⟨le_rfl, by decide⟩
  have bounds := foldl_max_bounds
    ((d.up.filter fun i => (d.tun i).fallbackOnly = 0 ∧ (d.tun i).rttHit = true).map fun i =>
      (d.tun i).srtt + 4 * (d.tun i).rttvar)
    (fun time member => by
      obtain ⟨i, _, rfl⟩ := List.mem_map.mp member
      obtain ⟨srttPos, srttSmall, varPos, varSmall⟩ := credible i
      exact ⟨by linarith, by linarith⟩) start
  dsimp only [Receive.Prompt, withRx]
  generalize List.foldl _ _ _ = longest at bounds ⊢
  split
  next positive => exact ⟨by linarith, by linarith⟩
  next => exact ⟨by norm_num, by norm_num⟩

/-- The tunnels are in order, and their estimates credible. -/
structure Measured (d : Daemon κ) : Prop where
  tidy : d.Tidy
  credible : ∀ j, (d.tun j).Credible

theorem measured_init (host : Host κ) : (init host).Measured :=
  ⟨tidy_init host, fun _ => credible_unmeasured rfl⟩

theorem Measured.step {event : ℚ × Event κ} (measured : d.Measured) (done : d.step event = some d') :
    d'.Measured :=
  ⟨step_tidy measured.tidy done, fun j => (kept_credible event.1 event.2 j).step
    (.inr fun _ _ _ => credible_unmeasured rfl) measured.tidy (measured.credible j) done⟩

theorem step_stopped {event : ℚ × Event κ} (stopped : d.stopped = true) (done : d.step event = some d') :
    d' = d := by
  obtain ⟨now, e⟩ := event
  simp only [step, stopped, if_true] at done
  cases done
  rfl

/-- An adjustment makes the timer prompt, and it stays so. -/
theorem step_prompt {event : ℚ × Event κ} (measured : d.Measured)
    (prompt : d.rx.Prompt ∨ d.stopped = false ∧ event.2 = .adjustTimeout)
    (done : d.step event = some d') : d'.rx.Prompt := by
  obtain ⟨now, e⟩ := event
  by_cases adjusts : e = .adjustTimeout
  · subst adjusts
    cases stopped : d.stopped with
    | true =>
        rw [step_stopped stopped done]
        exact prompt.resolve_right fun running => by simp [running.1] at stopped
    | false =>
        simp only [step, stopped, Bool.false_eq_true, if_false] at done
        exact adjustReorderTimeout_prompt measured.credible done
  · have same := step_preserves (I := fun s => s.rx.drainTimeout.period = d.rx.drainTimeout.period)
      (fun _ _ stroke _ same => (stroke.drainPeriod adjusts).trans same) measured.tidy rfl done
    rw [Receive.Prompt, same]
    exact prompt.resolve_right fun running => adjusts running.2

theorem run_measured {host : Host κ} {events : List (ℚ × Event κ)}
    (reached : run step (init host) events = some d) : d.Measured :=
  run_preserves events (fun _ _ _ _ measured done => measured.step done) (measured_init host) reached

/-- A program that runs has not been stopped before. -/
theorem running_before {events : List (ℚ × Event κ)} (after : run step d events = some d')
    (running : d'.stopped = false) : d.stopped = false := by
  by_contra stopped
  have asleep : d' = d := run_preserves (I := fun s => s = d) events
    (fun s _ _ s' same done => by
      subst same
      exact step_stopped (Bool.eq_true_of_not_eq_false stopped) done) rfl after
  exact stopped (asleep ▸ running)

/-- A keepalive whose sender has been told of the time 2 s, and that arrives 300 ms later. -/
def keptAlive : ℚ × Event Unit :=
  let pkt : Pkt := { len := 0, type := .keepalive, reorder := true, seq := 0, data := [] }
  let sender := { Tunnel.blank with savedTimestamp := 2000 }
  let datagram := sendDatagram ⟨.little, plainBox, ()⟩ true (sendHeader sender 0 0 pkt).1 pkt
  (23 / 10, .read 0 (.datagram (datagram.getD []) [10] true))

end Daemon

end Mlvpn
