import Mlvpn.Daemon.Loop
import Mlvpn.Daemon.Status

/-! # The table of the round robin and the connected tunnels

Which tunnels the table holds after each change of a status.  The events here
are the calls that the callbacks of the loop make for a tunnel: a handshake, the
end of a connection whatever its reason, and the two checks of a measurement.
The configuration does not change.
-/

namespace Mlvpn.Daemon

open Library.Machine

variable {κ : Type} {d d' : Daemon κ} {i : Nat}

/-- Some tunnel has this `fallback_only` and this status. -/
def Has (d : Daemon κ) (p : Nat → Status → Prop) : Prop :=
  ∃ i ∈ d.rtuns, p (d.tun i).fallbackOnly (d.tun i).status

/-- Some tunnel is connected. -/
def Connected (d : Daemon κ) : Prop := d.Has fun _ status => status.Up

/-- A packet of the tuntap device finds a tunnel, if one is connected. -/
def Chooses (d : Daemon κ) : Prop := d.Connected → d.rtunChoose.1 ≠ none

theorem wrrMinIndex_lt (tunvals : List ℚ) {i minIndex len : Nat} (min : ℚ)
    (left : i + tunvals.length = len) (inside : minIndex < len) :
    wrrMinIndex tunvals i min minIndex < len := by
  induction tunvals generalizing i min minIndex with
  | nil => exact inside
  | cons tunval rest ih =>
      rw [List.length_cons] at left
      rw [wrrMinIndex]
      split
      · exact ih tunval (by omega) (by omega)
      · exact ih min (by omega) inside

/-- The choice is made from the table, and never fails on one that is not empty. -/
theorem rtunChoose_ne_none_iff : d.rtunChoose.1 ≠ none ↔ d.wrr ≠ [] := by
  constructor
  · intro chosen empty
    refine chosen ?_
    simp only [rtunChoose, wrrChoose, empty, List.map_nil, List.getElem?_nil]
  · intro nonempty
    have positive : 0 < d.wrr.length := List.length_pos_iff.mpr nonempty
    have inside := wrrMinIndex_lt (d.wrr.map Prod.snd) (i := 0) 100
      (by rw [List.length_map, Nat.zero_add]) positive
    simp only [rtunChoose, wrrChoose, List.getElem?_eq_getElem inside]
    exact Option.some_ne_none _

/-- Two daemons whose tunnels have the same status and the same role. -/
structure SameLinks (d d' : Daemon κ) : Prop where
  rtuns : d'.rtuns = d.rtuns
  available : d'.fallbackAvailable = d.fallbackAvailable
  status : ∀ i, (d'.tun i).status = (d.tun i).status
  fallbackOnly : ∀ i, (d'.tun i).fallbackOnly = (d.tun i).fallbackOnly

theorem SameLinks.has_iff (same : SameLinks d d') (p : Nat → Status → Prop) :
    d'.Has p ↔ d.Has p := by
  simp only [Has, same.rtuns, same.status, same.fallbackOnly]

theorem Passes.links {new : List Reception} (passes : Passes d d' new) : SameLinks d d' :=
  ⟨passes.rtuns, passes.available, fun i => by rw [tun, passes.tuns, tun],
    fun i => by rw [tun, passes.tuns, tun]⟩

theorem SameLinks.trans {d'' : Daemon κ} (first : SameLinks d d') (second : SameLinks d' d'') :
    SameLinks d d'' where
  rtuns := second.rtuns.trans first.rtuns
  available := second.available.trans first.available
  status i := (second.status i).trans (first.status i)
  fallbackOnly i := (second.fallbackOnly i).trans (first.fallbackOnly i)

/-- The daemon once a status is stored. -/
def withStatus (d : Daemon κ) (i : Nat) (status : Status) : Daemon κ :=
  d.modify i fun t => { t with status := status }

/-- A change of one tunnel, seen from its status. -/
theorem SameLinks.modify {f : Tunnel → Tunnel} {status : Status}
    (stored : (f (d.tun i)).status = status)
    (kept : (f (d.tun i)).fallbackOnly = (d.tun i).fallbackOnly) :
    SameLinks (d.withStatus i status) (d.modify i f) where
  rtuns := rfl
  available := rfl
  status j := by
    simp only [withStatus, tun_modify]
    split <;> first | exact stored | rfl
  fallbackOnly j := by
    simp only [withStatus, tun_modify]
    split <;> first | exact kept | rfl

/-- A change that leaves the status alone. -/
theorem SameLinks.quiet {f : Tunnel → Tunnel} (status : (f (d.tun i)).status = (d.tun i).status)
    (kept : (f (d.tun i)).fallbackOnly = (d.tun i).fallbackOnly) : SameLinks d (d.modify i f) where
  rtuns := rfl
  available := rfl
  status j := by
    rw [tun_modify]
    split
    next found => rw [status, found.1]
    next => rfl
  fallbackOnly j := by
    rw [tun_modify]
    split
    next found => rw [kept, found.1]
    next => rfl

/-- The table that a reset leaves holds a tunnel iff one is eligible. -/
theorem wrrReset_spec {useFallbacks : Nat} (done : d.wrrReset useFallbacks = some d') :
    SameLinks d d' ∧ (d'.wrr ≠ [] ↔ ∃ i ∈ d.rtuns, Eligible (d.tun i) useFallbacks) := by
  refine ⟨(wrrReset_passes [] done).1.links, ?_⟩
  rw [wrrReset] at done
  split at done
  next =>
    cases done
    rw [ne_eq, List.map_eq_nil_iff, List.eq_nil_iff_forall_not_mem]
    push Not
    exact exists_congr fun i => mem_eligible
  next => cases done

/-- A primary tunnel is connected. -/
def PrimaryUp (d : Daemon κ) : Prop := d.Has fun fallbackOnly status => fallbackOnly = 0 ∧ status.Up

/-- A primary tunnel is connected, and neither lossy nor slow. -/
def PrimaryOk (d : Daemon κ) : Prop :=
  d.Has fun fallbackOnly status => fallbackOnly = 0 ∧ status = .authok

/-- A primary tunnel is neither lossy nor slow, but perhaps not connected. -/
def PrimarySpared (d : Daemon κ) : Prop :=
  d.Has fun fallbackOnly status => fallbackOnly = 0 ∧ status ≠ .highLatency ∧ status ≠ .lossy

/-- A tunnel with this value of `fallback_only` is connected. -/
def FallbackUp (d : Daemon κ) (n : Nat) : Prop :=
  d.Has fun fallbackOnly status => fallbackOnly = n ∧ status.Up

theorem eligible_zero_iff : (∃ i ∈ d.rtuns, Eligible (d.tun i) 0) ↔ d.PrimaryOk := by
  refine exists_congr fun i => and_congr_right fun _ => ?_
  constructor
  · rintro ⟨primary, ⟨notPrimary, _⟩ | ok⟩
    · exact absurd primary notPrimary
    · exact ⟨primary, ok⟩
  · exact fun ⟨primary, ok⟩ => ⟨primary, .inr ok⟩

theorem eligible_fallback_iff {n : Nat} (fallback : n ≠ 0) :
    (∃ i ∈ d.rtuns, Eligible (d.tun i) n) ↔ d.FallbackUp n := by
  refine exists_congr fun i => and_congr_right fun _ => ?_
  constructor
  · rintro ⟨role, ⟨_, connected⟩ | ok⟩
    · exact ⟨role, connected⟩
    · rw [ok]
      exact ⟨role, by decide⟩
  · exact fun ⟨role, connected⟩ => ⟨role, .inl ⟨role ▸ fallback, connected⟩⟩

/-- With the statuses as they are, a table built from `mlvpn_update_status` is
    not empty. -/
def Serves (d : Daemon κ) : Prop :=
  (d.PrimaryUp → d.PrimaryOk) ∧
    (¬ d.PrimaryUp → d.fallbackAvailable ≠ 0 ∧ d.FallbackUp d.fallbackAvailable)

theorem SameLinks.serves_iff (same : SameLinks d d') : d'.Serves ↔ d.Serves := by
  simp only [Serves, PrimaryUp, PrimaryOk, FallbackUp, same.has_iff, same.available]

theorem updateStatus_mode :
    (d.PrimaryUp → d.updateStatus.fallbackMode = 0) ∧
      (¬ d.PrimaryUp → d.updateStatus.fallbackMode = d.fallbackAvailable) := by
  have primary : (∃ i ∈ d.up, (d.tun i).fallbackOnly = 0) ↔ d.PrimaryUp := by
    simp only [up, List.mem_filter, decide_eq_true_eq, PrimaryUp, Has]
    exact exists_congr fun i => by tauto
  refine ⟨fun connected => ?_, fun connected => ?_⟩
  · exact if_pos (primary.mpr connected)
  · exact if_neg fun found => connected (primary.mp found)

/-- The table after `mlvpn_update_status`; `d₁` may have logged something between. -/
theorem rebuilt_spec {d₁ : Daemon κ}
    (done : d₁.wrrReset d.updateStatus.fallbackMode = some d') (same : SameLinks d d₁) :
    SameLinks d d' ∧ (d'.wrr ≠ [] ↔ d.Serves) := by
  obtain ⟨links, table⟩ := wrrReset_spec done
  refine ⟨same.trans links, ?_⟩
  rw [table, Serves]
  by_cases primary : d.PrimaryUp
  · rw [updateStatus_mode.1 primary, eligible_zero_iff, PrimaryOk, same.has_iff]
    exact ⟨fun ok => ⟨fun _ => ok, absurd primary⟩, fun serves => serves.1 primary⟩
  · rw [updateStatus_mode.2 primary]
    by_cases available : d.fallbackAvailable = 0
    · rw [available, eligible_zero_iff, PrimaryOk, same.has_iff]
      constructor
      · rintro ⟨i, member, role, ok⟩
        exact absurd ⟨i, member, role, by rw [ok]; decide⟩ primary
      · exact fun serves => absurd rfl (serves.2 primary).1
    · rw [eligible_fallback_iff available, FallbackUp, same.has_iff]
      exact ⟨fun connected => ⟨fun found => absurd found primary, fun _ => ⟨available, connected⟩⟩,
        fun serves => (serves.2 primary).2⟩

theorem statusUp_spec {now : ℚ} (done : d.statusUp i now = some d') :
    SameLinks (d.withStatus i .authok) d' ∧ (d'.wrr ≠ [] ↔ (d.withStatus i .authok).Serves) := by
  obtain ⟨d₂, reset, rest⟩ := Option.bind_eq_some_iff.mp done
  have raised : SameLinks (d.withStatus i .authok) (d.modify i (·.raised now)) := .modify rfl rfl
  obtain ⟨links, table⟩ := rebuilt_spec (d := d.modify i (·.raised now)) reset
    ⟨rfl, rfl, fun _ => rfl, fun _ => rfl⟩
  rw [raised.serves_iff] at table
  suffices SameLinks d₂ d' ∧ d'.wrr = d₂.wrr by
    refine ⟨(raised.trans links).trans this.1, ?_⟩
    rw [this.2, table]
  dsimp only at rest
  split at rest
  next =>
    obtain ⟨rx, _, rfl⟩ := Option.map_eq_some_iff.mp rest
    exact ⟨⟨rfl, rfl, fun _ => rfl, fun _ => rfl⟩, rfl⟩
  next =>
    cases rest
    exact ⟨⟨rfl, rfl, fun _ => rfl, fun _ => rfl⟩, rfl⟩

/-- The table is rebuilt only if the tunnel was connected. -/
theorem statusDown_spec (done : d.statusDown i = some d') :
    SameLinks (d.withStatus i .disconnected) d' ∧
      ((d.tun i).status.Up → (d'.wrr ≠ [] ↔ (d.withStatus i .disconnected).Serves)) ∧
      (¬ (d.tun i).status.Up → d'.wrr = d.wrr) := by
  have lowered : SameLinks (d.withStatus i .disconnected) (d.modify i Tunnel.lowered) :=
    .modify rfl rfl
  obtain ⟨d₁, rfl, passes⟩ := (statusDown_lowers done).passes
  refine ⟨(lowered.trans passes.links).trans ⟨rfl, rfl, fun _ => rfl, fun _ => rfl⟩, ?_⟩
  obtain ⟨d₃, ended, same⟩ := Option.map_eq_some_iff.mp done
  have table : d₁.wrr = d₃.wrr := (congrArg Daemon.wrr same).symm
  split at ended
  next connected =>
    obtain ⟨d₂, reset, rest⟩ := Option.bind_eq_some_iff.mp ended
    obtain ⟨_, rebuilt⟩ := rebuilt_spec (d := d.modify i Tunnel.lowered) reset
      ⟨rfl, rfl, fun _ => rfl, fun _ => rfl⟩
    obtain ⟨rx, _, rfl⟩ := Option.map_eq_some_iff.mp rest
    have kept : d₁.wrr = d₂.wrr := table.trans (tuntapDown_wrr d₂)
    refine ⟨fun _ => ?_, absurd connected⟩
    rw [← lowered.serves_iff, ← rebuilt, ← kept]
    rfl
  next idle =>
    cases ended
    exact ⟨fun connected => absurd connected idle, fun _ => table⟩

/-- With the statuses as they are, `switch_to_fallback_if_necessary` does not
    empty the table. -/
def Spares (d : Daemon κ) : Prop :=
  (d.PrimarySpared → d.PrimaryOk) ∧ (¬ d.PrimarySpared → d.fallbackAvailable ≠ 0 → d.FallbackUp 1)

theorem switchToFallback_spec (done : d.switchToFallbackIfNecessary = some d') :
    SameLinks d d' ∧ (d.wrr ≠ [] → (d'.wrr ≠ [] ↔ d.Spares)) := by
  rw [switchToFallbackIfNecessary] at done
  split at done
  next spared =>
    obtain ⟨links, table⟩ := wrrReset_spec done
    refine ⟨⟨links.rtuns, links.available, links.status, links.fallbackOnly⟩, fun _ => ?_⟩
    rw [table, eligible_zero_iff]
    exact ⟨fun ok => ⟨fun _ => ok, fun none => absurd spared none⟩, fun spares => spares.1 spared⟩
  next none =>
    split at done
    next available =>
      obtain ⟨links, table⟩ := wrrReset_spec done
      refine ⟨⟨links.rtuns, links.available, links.status, links.fallbackOnly⟩, fun _ => ?_⟩
      rw [table, eligible_fallback_iff Nat.one_ne_zero]
      exact ⟨fun connected => ⟨fun spared => absurd spared none, fun _ _ => connected⟩,
        fun spares => spares.2 none available⟩
    next unavailable =>
      cases done
      refine ⟨⟨rfl, rfl, fun _ => rfl, fun _ => rfl⟩, fun filled => ⟨fun _ => ?_, fun _ => filled⟩⟩
      exact ⟨fun spared => absurd spared none, fun _ available => absurd available unavailable⟩

/-- What can happen to a tunnel. -/
inductive LinkEvent where
  /-- A datagram of type `AUTH` or `AUTH_OK` was accepted. -/
  | auth (i : Nat) (now : ℚ)
  /-- A disconnect was received, a call failed, or the peer fell silent. -/
  | down (i : Nat)
  /-- A tunnel that is not connected sends its challenge. -/
  | challenge (i : Nat)
  /-- A datagram with this sequence number was accepted. -/
  | loss (i : Nat) (seq : UInt64)
  /-- A round trip was measured. -/
  | rtt (i : Nat) (sample : ℚ)
  | checkLossy (i : Nat)
  | checkSlow (i : Nat)

def linkStep (d : Daemon κ) : LinkEvent → Option (Daemon κ)
  | .auth i now => d.sendAuth i now
  | .down i => d.statusDown i
  | .challenge i =>
      some (if (d.tun i).status.Up then d else d.modify i Tunnel.challengeSend)
  | .loss i seq => some (d.modify i (lossUpdate · seq))
  | .rtt i sample => some (d.modify i (rttUpdate · sample))
  | .checkLossy i => d.checkLossy i
  | .checkSlow i => d.checkSlow i

/-- The tunnel becomes connected, or is confirmed, by a handshake. -/
def Answers (t : Tunnel) : Prop :=
  if t.serverMode then t.status = .disconnected ∨ t.status.Up else t.status = .authsent

/-- Whenever the table is rebuilt while a tunnel is connected, it is not rebuilt
    from tunnels that it cannot use: with the statuses after the change,
    - a handshake or the end of a connection leaves a primary tunnel that is
      neither lossy nor slow if any is connected, and else a connected fallback;
    - a change by loss or latency leaves a connected primary tunnel that is
      neither if any tunnel is neither, connected or not, and else a connected
      fallback if there are fallbacks at all. -/
def Backed (d : Daemon κ) : LinkEvent → Prop
  | .auth i _ => Answers (d.tun i) → (d.withStatus i .authok).Connected →
      (d.withStatus i .authok).Serves
  | .down i => (d.tun i).status.Up → (d.withStatus i .disconnected).Connected →
      (d.withStatus i .disconnected).Serves
  | .challenge _ => True
  | .loss _ _ => True
  | .rtt _ _ => True
  | .checkLossy i => ∀ status, (d.tun i).lossyStatus = some status →
      (d.withStatus i status).Connected → (d.withStatus i status).Spares
  | .checkSlow i => ∀ status, (d.tun i).slowStatus = some status →
      (d.withStatus i status).Connected → (d.withStatus i status).Spares

theorem chooses_iff {d₁ : Daemon κ} {filled : Prop} (links : SameLinks d₁ d')
    (table : d'.wrr ≠ [] ↔ filled) : Chooses d' ↔ (d₁.Connected → filled) := by
  rw [Chooses, rtunChoose_ne_none_iff, table, Connected, links.has_iff]
  rfl

theorem sendAuth_spec {now : ℚ} (done : d.sendAuth i now = some d') :
    (Answers (d.tun i) → SameLinks (d.withStatus i .authok) d' ∧
      (d'.wrr ≠ [] ↔ (d.withStatus i .authok).Serves)) ∧
      (¬ Answers (d.tun i) → d' = d) := by
  rw [sendAuth] at done
  -- what is stored before the status is stored over, or is no matter of the table
  have prepared : ∀ f : Tunnel → Tunnel, (f (d.tun i)).fallbackOnly = (d.tun i).fallbackOnly →
      SameLinks (d.withStatus i .authok) ((d.modify i f).withStatus i .authok) := by
    intro f kept
    rw [withStatus, withStatus, modify_modify]
    exact .modify rfl kept
  have answered : ∀ {f : Tunnel → Tunnel} {d₁ : Daemon κ},
      (f (d.tun i)).fallbackOnly = (d.tun i).fallbackOnly →
      (d.modify i f).statusUp i now = some d₁ →
      SameLinks (d.withStatus i .authok) d₁ ∧
        (d₁.wrr ≠ [] ↔ (d.withStatus i .authok).Serves) := by
    intro f d₁ kept raised
    obtain ⟨links, table⟩ := statusUp_spec raised
    rw [(prepared f kept).serves_iff] at table
    exact ⟨(prepared f kept).trans links, table⟩
  simp only [Answers]
  split at done
  next server =>
    simp only [server, if_true]
    split at done
    next ready =>
      obtain ⟨d₁, raised, rfl⟩ := Option.map_eq_some_iff.mp done
      obtain ⟨links, table⟩ := answered (f := fun t => t.queueAuthOk.tick now) rfl raised
      exact ⟨fun _ => ⟨links.trans (.quiet rfl rfl), table⟩, absurd ready⟩
    next busy =>
      cases done
      exact ⟨fun ready => absurd ready busy, fun _ => rfl⟩
  next client =>
    simp only [client]
    split at done
    next ready => exact ⟨fun _ => answered (f := (·.tick now)) rfl done, absurd ready⟩
    next busy =>
      cases done
      exact ⟨fun ready => absurd ready busy, fun _ => rfl⟩

/-- A tunnel that stays connected, or not connected. -/
theorem withStatus_connected_iff {status : Status} (same : status.Up ↔ (d.tun i).status.Up) :
    (d.withStatus i status).Connected ↔ d.Connected := by
  refine exists_congr fun j => and_congr_right fun _ => ?_
  rw [withStatus, tun_modify]
  split
  next found =>
    rw [found.1]
    exact same
  next => exact Iff.rfl

/-- A check of a measurement, which changes one connected status for another. -/
theorem regrade_chooses {grade : Option Status} (holds : d.Chooses)
    (connected : ∀ status, grade = some status → (d.tun i).status.Up ∧ status.Up)
    (done : d.regrade i grade = some d') :
    d'.Chooses ↔ ∀ status, grade = some status →
      (d.withStatus i status).Connected → (d.withStatus i status).Spares := by
  cases grade with
  | none =>
      cases done
      exact ⟨fun _ _ found => (by cases found), fun _ => holds⟩
  | some status =>
      obtain ⟨old, new⟩ := connected status rfl
      obtain ⟨links, table⟩ := switchToFallback_spec (d := d.withStatus i status) done
      simp only [Option.some.injEq, forall_eq']
      by_cases some : (d.withStatus i status).Connected
      · have before := (withStatus_connected_iff ⟨fun _ => old, fun _ => new⟩).mp some
        have filled : d.wrr ≠ [] := rtunChoose_ne_none_iff.mp (holds before)
        exact chooses_iff links (table filled)
      · have idle : ¬ d'.Connected := by rwa [Connected, links.has_iff]
        exact ⟨fun _ found => absurd found some, fun _ found => absurd found idle⟩

/-- A step that leaves the table and does not connect a tunnel. -/
theorem chooses_of_kept {status : Status} (holds : d.Chooses)
    (same : status.Up ↔ (d.tun i).status.Up) (links : SameLinks (d.withStatus i status) d')
    (table : d'.wrr = d.wrr) : d'.Chooses := by
  have filled : d'.wrr ≠ [] ↔ d.wrr ≠ [] := by rw [table]
  refine (chooses_iff links filled).mpr fun connected => ?_
  exact rtunChoose_ne_none_iff.mp (holds ((withStatus_connected_iff same).mp connected))

/-- A measurement changes neither the table nor a status. -/
theorem chooses_of_remeasured {f : Tunnel → Tunnel} (holds : d.Chooses)
    (remeasured : (d.tun i).Remeasured (f (d.tun i))) : (d.modify i f).Chooses := by
  have links : SameLinks (d.withStatus i (d.tun i).status) (d.modify i f) :=
    .modify (by rw [remeasured]; rfl) (by rw [remeasured]; rfl)
  exact chooses_of_kept holds Iff.rfl links rfl

/-- One event keeps a choice possible exactly if it is backed. -/
theorem linkStep_chooses {e : LinkEvent} (holds : d.Chooses) (done : d.linkStep e = some d') :
    d'.Chooses ↔ d.Backed e := by
  cases e with
  | auth i now =>
      obtain ⟨answered, ignored⟩ := sendAuth_spec done
      by_cases answers : Answers (d.tun i)
      · obtain ⟨links, table⟩ := answered answers
        rw [chooses_iff links table]
        exact ⟨fun serves _ => serves, fun backed => backed answers⟩
      · rw [ignored answers]
        exact ⟨fun _ found => absurd found answers, fun _ => holds⟩
  | down i =>
      obtain ⟨links, rebuilt, kept⟩ := statusDown_spec done
      by_cases connected : (d.tun i).status.Up
      · rw [chooses_iff links (rebuilt connected)]
        exact ⟨fun serves _ => serves, fun backed => backed connected⟩
      · have same : Status.disconnected.Up ↔ (d.tun i).status.Up :=
          ⟨fun up => absurd up (by decide), fun up => absurd up connected⟩
        have chooses := chooses_of_kept holds same links (kept connected)
        exact ⟨fun _ found => absurd found connected, fun _ => chooses⟩
  | challenge i =>
      cases done
      refine ⟨fun _ => trivial, fun _ => ?_⟩
      split
      next => exact holds
      next idle =>
        have same : Status.authsent.Up ↔ (d.tun i).status.Up :=
          ⟨fun up => absurd up (by decide), fun up => absurd up idle⟩
        exact chooses_of_kept holds same (.modify rfl rfl) rfl
  | loss i seq =>
      cases done
      exact ⟨fun _ => trivial, fun _ => chooses_of_remeasured holds (lossUpdate_remeasured _ seq)⟩
  | rtt i sample =>
      cases done
      exact ⟨fun _ => trivial, fun _ => chooses_of_remeasured holds (rttUpdate_remeasured _ sample)⟩
  | checkLossy i => exact regrade_chooses holds (fun _ changed => Tunnel.lossyStatus_up changed) done
  | checkSlow i => exact regrade_chooses holds (fun _ changed => Tunnel.slowStatus_up changed) done

/-- From a daemon without a connection, a tunnel is always chosen while one is
    connected exactly if every event of the run is backed. -/
theorem always_chooses_iff_backed (idle : ¬ d.Connected) {events : List LinkEvent}
    (reached : run linkStep d events = some d') :
    Always linkStep Chooses d events ↔ Meets linkStep Backed d events :=
  always_iff_meets (fun _ _ _ holds done => linkStep_chooses holds done) events
    (fun connected => absurd connected idle) reached

instance decidableHas (d : Daemon κ) (p : Nat → Status → Prop)
    [∀ n status, Decidable (p n status)] : Decidable (d.Has p) :=
  inferInstanceAs (Decidable (∃ i ∈ d.rtuns, p (d.tun i).fallbackOnly (d.tun i).status))

instance (d : Daemon κ) : Decidable d.Connected := decidableHas ..

instance (d : Daemon κ) : Decidable d.PrimaryUp := decidableHas ..

instance (d : Daemon κ) : Decidable d.PrimaryOk := decidableHas ..

instance (d : Daemon κ) : Decidable d.PrimarySpared := decidableHas ..

instance (d : Daemon κ) (n : Nat) : Decidable (d.FallbackUp n) := decidableHas ..

instance (d : Daemon κ) : Decidable d.Serves := inferInstanceAs (Decidable (_ ∧ _))

instance (d : Daemon κ) : Decidable d.Spares := inferInstanceAs (Decidable (_ ∧ _))

instance (t : Tunnel) : Decidable (Answers t) := inferInstanceAs (Decidable (ite _ _ _))

instance decidableBacked (d : Daemon κ) : ∀ e, Decidable (d.Backed e)
  | .auth _ _ => inferInstanceAs (Decidable (_ → _ → _))
  | .down _ => inferInstanceAs (Decidable (_ → _ → _))
  | .challenge _ => isTrue trivial
  | .loss _ _ => isTrue trivial
  | .rtt _ _ => isTrue trivial
  | .checkLossy i => inferInstanceAs (Decidable (∀ status ∈ (d.tun i).lossyStatus,
      (d.withStatus i status).Connected → (d.withStatus i status).Spares))
  | .checkSlow i => inferInstanceAs (Decidable (∀ status ∈ (d.tun i).slowStatus,
      (d.withStatus i status).Connected → (d.withStatus i status).Spares))

/-- A server with two primary tunnels that may lose half of their packets. -/
def twoPrimaries : Daemon Unit :=
  let conf : TunnelConf :=
    { name := "a", bindaddr := none, bindport := some "5080", bindfib := 0, destaddr := none
      destport := none, timeout := 60, fallbackOnly := 0, bandwidth := 0, lossTolerence := 50
      latencyTolerence := 1000 }
  let start : Daemon Unit := .init ⟨.little, plainBox, ()⟩
  (start.rtunNew conf true 1 0).rtunNew { conf with name := "b", bindport := some "5081" } true 2 0

/-- One of them connects, and of its first 63 datagrams only the last one arrives:
    `switch_to_fallback_if_necessary` finds the other tunnel, which is not lossy but not
    connected either, and the table it builds is empty. -/
theorem connected_without_choice :
    ∃ d ∈ run linkStep twoPrimaries [.auth 0 0, .loss 0 63, .checkLossy 0],
      lossRatio (d.tun 0) = 96 ∧ d.Connected ∧ d.rtunChoose.1 = none := by
  decide +kernel

/-- With both connected, either may turn lossy. -/
theorem always_chooses_when_both_connect :
    ¬ twoPrimaries.Connected ∧ Always linkStep Chooses twoPrimaries
      [.auth 0 0, .auth 1 0, .loss 0 63, .checkLossy 0] := by
  have idle : ¬ twoPrimaries.Connected := by decide +kernel
  have reached : (run linkStep twoPrimaries
      [.auth 0 0, .auth 1 0, .loss 0 63, .checkLossy 0]).isSome = true := by decide +kernel
  refine ⟨idle, (always_chooses_iff_backed idle (Option.some_get reached).symm).mpr ?_⟩
  decide +kernel

end Mlvpn.Daemon
