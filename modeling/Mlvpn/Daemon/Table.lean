import Mlvpn.Daemon.Links

/-! # The tunnels of the table

The table of the round robin and the filters refer to tunnels beside the list
`rtuns`, and are brought up to date by some of the changes only.  Here is what
each link event leaves in the table: the tunnels that were there, while no
status that matters has changed, or those that are eligible now.
-/

namespace Mlvpn.Daemon

open Library.Machine Tunnel

variable {κ : Type} {d d₁ d' : Daemon κ} {i mode : Nat}

/-- The same tunnels, with the same names and roles, and the same filters. -/
structure SameTunnels (d d' : Daemon κ) : Prop where
  rtuns : d'.rtuns = d.rtuns
  filters : d'.filters = d.filters
  length : d'.tuns.length = d.tuns.length
  names : ∀ j, (d'.tun j).name = (d.tun j).name
  fallbackOnly : ∀ j, (d'.tun j).fallbackOnly = (d.tun j).fallbackOnly

theorem SameTunnels.refl (d : Daemon κ) : SameTunnels d d :=
  ⟨rfl, rfl, rfl, fun _ => rfl, fun _ => rfl⟩

theorem SameTunnels.trans (first : SameTunnels d d₁) (second : SameTunnels d₁ d') :
    SameTunnels d d' where
  rtuns := second.rtuns.trans first.rtuns
  filters := second.filters.trans first.filters
  length := second.length.trans first.length
  names j := (second.names j).trans (first.names j)
  fallbackOnly j := (second.fallbackOnly j).trans (first.fallbackOnly j)

theorem SameTunnels.modify {f : Tunnel → Tunnel} (name : (f (d.tun i)).name = (d.tun i).name)
    (fallbackOnly : (f (d.tun i)).fallbackOnly = (d.tun i).fallbackOnly) :
    SameTunnels d (d.modify i f) where
  rtuns := rfl
  filters := rfl
  length := length_modify ..
  names j := by
    rw [tun_modify]
    split
    next here => rw [name, here.1]
    next => rfl
  fallbackOnly j := by
    rw [tun_modify]
    split
    next here => rw [fallbackOnly, here.1]
    next => rfl

/-- The tunnels are as they were, and the table was rebuilt from them. -/
structure Rebuilds (d d' : Daemon κ) (mode : Nat) : Prop where
  tuns : d'.tuns = d.tuns
  rtuns : d'.rtuns = d.rtuns
  filters : d'.filters = d.filters
  table : d'.table = d.eligible mode

theorem Rebuilds.sameTunnels (rebuilds : Rebuilds d d' mode) : SameTunnels d d' :=
  ⟨rebuilds.rtuns, rebuilds.filters, by rw [rebuilds.tuns],
    fun j => by rw [tun, tun, rebuilds.tuns], fun j => by rw [tun, tun, rebuilds.tuns]⟩

theorem Rebuilds.aside (rebuilds : Rebuilds d d₁ mode) (tuns : d'.tuns = d₁.tuns)
    (rtuns : d'.rtuns = d₁.rtuns) (filters : d'.filters = d₁.filters) (wrr : d'.wrr = d₁.wrr) :
    Rebuilds d d' mode where
  tuns := tuns.trans rebuilds.tuns
  rtuns := rtuns.trans rebuilds.rtuns
  filters := filters.trans rebuilds.filters
  table := (congrArg (List.map Prod.fst) wrr).trans rebuilds.table

theorem wrrReset_rebuilds (done : d.wrrReset mode = some d') : Rebuilds d d' mode := by
  unfold wrrReset at done
  dsimp only at done
  split at done
  next =>
    cases done
    refine ⟨rfl, rfl, rfl, ?_⟩
    rw [table, List.map_map]
    exact List.map_id _
  next => cases done

/-- What a link event does to the table. -/
inductive Tables (d d' : Daemon κ) : Prop where
  /-- Only tunnels that are not connected have changed. -/
  | kept : d'.table = d.table → (∀ j, (d'.tun j).status = (d.tun j).status ∨
      ¬ (d.tun j).status.Up ∧ ¬ (d'.tun j).status.Up) → Tables d d'
  /-- The last good tunnel has turned bad, and there is no fallback. -/
  | stuck : d'.table = d.table → (∀ j, (d'.tun j).status.Up ↔ (d.tun j).status.Up) →
      ¬ d'.PrimaryOk → Tables d d'
  /-- The table was rebuilt, from fallbacks only without a good primary tunnel. -/
  | rebuilt (mode : Nat) : d'.table = d'.eligible mode → (d'.PrimaryOk → mode = 0) → Tables d d'

theorem Rebuilds.tables (rebuilds : Rebuilds d₁ d' mode) (primary : d₁.PrimaryOk → mode = 0) :
    Tables d d' := by
  have same : ∀ j, d'.tun j = d₁.tun j := fun j => by rw [tun, tun, rebuilds.tuns]
  refine .rebuilt mode ?_ fun ok => ?_
  · rw [rebuilds.table, eligible, eligible, rebuilds.rtuns]
    simp only [same]
  · apply primary
    simpa only [PrimaryOk, Has, rebuilds.rtuns, same] using ok

theorem Unseen.eligible_eq (unseen : Unseen d d') (mode : Nat) :
    d'.eligible mode = d.eligible mode := by
  rw [eligible, eligible, unseen.links.rtuns]
  apply List.filter_congr
  intro j _
  rw [decide_eq_decide, Eligible, Eligible, unseen.links.status, unseen.links.fallbackOnly]

theorem Unseen.sameTunnels (unseen : Unseen d d') : SameTunnels d d' :=
  ⟨unseen.links.rtuns, unseen.filters, unseen.length, unseen.names, unseen.links.fallbackOnly⟩

/-- What is not seen may follow. -/
theorem Tables.unseen (tables : Tables d d₁) (unseen : Unseen d₁ d') : Tables d d' := by
  cases tables with
  | kept same statuses =>
      refine .kept (unseen.table.trans same) fun j => ?_
      rw [unseen.links.status]
      exact statuses j
  | stuck same up bad =>
      refine .stuck (unseen.table.trans same) (fun j => ?_) fun ok => bad ?_
      · rw [unseen.links.status]
        exact up j
      · exact (unseen.links.has_iff _).mp ok
  | rebuilt mode table primary =>
      refine .rebuilt mode ?_ fun ok => primary ((unseen.links.has_iff _).mp ok)
      rw [unseen.table, table, unseen.eligible_eq]

/-- A tunnel in `MLVPN_AUTHOK` is connected. -/
theorem PrimaryOk.up (ok : d.PrimaryOk) : d.PrimaryUp := by
  obtain ⟨j, listed, primary, status⟩ := ok
  refine ⟨j, listed, primary, ?_⟩
  rw [status]
  decide

theorem statusUp_rebuilds {now : ℚ} (done : d.statusUp i now = some d') :
    Rebuilds (d.modify i (·.raised now)) d' (d.modify i (·.raised now)).updateStatus.fallbackMode := by
  obtain ⟨d₂, reset, rest⟩ := Option.bind_eq_some_iff.mp done
  have rebuilds := wrrReset_rebuilds reset
  have begun : Rebuilds (d.modify i (·.raised now)) d₂
      (d.modify i (·.raised now)).updateStatus.fallbackMode :=
    ⟨rebuilds.tuns, rebuilds.rtuns, rebuilds.filters, rebuilds.table⟩
  dsimp only at rest
  split at rest
  next =>
    obtain ⟨rx, _, rfl⟩ := Option.map_eq_some_iff.mp rest
    exact begun.aside rfl rfl rfl rfl
  next =>
    cases rest
    exact begun.aside rfl rfl rfl rfl

theorem statusUp_tables {now : ℚ} {f : Tunnel → Tunnel} (name : (f (d.tun i)).name = (d.tun i).name)
    (fallbackOnly : (f (d.tun i)).fallbackOnly = (d.tun i).fallbackOnly)
    (done : (d.modify i f).statusUp i now = some d') : SameTunnels d d' ∧ Tables d d' := by
  have rebuilds := statusUp_rebuilds done
  have raised : SameTunnels (d.modify i f) ((d.modify i f).modify i (·.raised now)) := .modify rfl rfl
  refine ⟨((SameTunnels.modify name fallbackOnly).trans raised).trans rebuilds.sameTunnels, ?_⟩
  exact rebuilds.tables fun ok => updateStatus_mode.1 ok.up

theorem sendAuth_tables {now : ℚ} (done : d.sendAuth i now = some d') :
    SameTunnels d d' ∧ Tables d d' := by
  cases sendAuth_cases done with
  | @answers d₁ _ _ raised =>
      obtain ⟨same, tables⟩ := statusUp_tables rfl rfl raised
      have watched : Unseen d₁ (d₁.modify i fun t => { t with ioWrite := true }) :=
        .tune ⟨rfl, rfl, rfl⟩
      exact ⟨same.trans watched.sameTunnels, tables.unseen watched⟩
  | confirms _ _ raised => exact statusUp_tables rfl rfl raised
  | ignores _ => exact ⟨.refl d, .kept rfl fun _ => .inl rfl⟩

/-- A status of one tunnel that is not connected is stored. -/
theorem statuses_modify {f : Tunnel → Tunnel} (idle : ¬ (d.tun i).status.Up)
    (down : ¬ (f (d.tun i)).status.Up) (j : Nat) :
    ((d.modify i f).tun j).status = (d.tun j).status ∨
      ¬ (d.tun j).status.Up ∧ ¬ ((d.modify i f).tun j).status.Up := by
  rw [tun_modify]
  split
  next here =>
    rw [here.1]
    exact .inr ⟨idle, down⟩
  next => exact .inl rfl

theorem statusDown_tables (done : d.statusDown i = some d') : SameTunnels d d' ∧ Tables d d' := by
  have lowered : SameTunnels d (d.modify i Tunnel.lowered) := .modify rfl rfl
  obtain ⟨d₁, ended, rfl⟩ := Option.map_eq_some_iff.mp done
  split at ended
  next =>
    obtain ⟨d₂, reset, rest⟩ := Option.bind_eq_some_iff.mp ended
    obtain ⟨rx, _, rfl⟩ := Option.map_eq_some_iff.mp rest
    have begun := wrrReset_rebuilds reset
    have first : Rebuilds (d.modify i Tunnel.lowered) d₂
        (d.modify i Tunnel.lowered).updateStatus.fallbackMode :=
      ⟨begun.tuns, begun.rtuns, begun.filters, begun.table⟩
    have rebuilds : Rebuilds (d.modify i Tunnel.lowered)
        ((d₂.tuntapDown.withRx rx).log (.statusDown i))
        (d.modify i Tunnel.lowered).updateStatus.fallbackMode := by
      apply first.aside
      all_goals
        unfold tuntapDown withRx
        split <;> rfl
    refine ⟨lowered.trans rebuilds.sameTunnels, ?_⟩
    exact rebuilds.tables fun ok => updateStatus_mode.1 ok.up
  next idle =>
    cases ended
    refine ⟨⟨lowered.rtuns, lowered.filters, lowered.length, lowered.names, lowered.fallbackOnly⟩,
      .kept rfl ?_⟩
    exact statuses_modify idle (by decide : ¬ Status.disconnected.Up)

theorem switchToFallback_tables (done : d.switchToFallbackIfNecessary = some d') :
    (∃ mode, Rebuilds d d' mode ∧ (d.PrimaryOk → mode = 0)) ∨ d' = d ∧ ¬ d.PrimaryOk := by
  -- a good primary tunnel is neither lossy nor slow
  have spared : d.PrimaryOk → ∃ i ∈ d.rtuns, (d.tun i).fallbackOnly = 0 ∧
      (d.tun i).status ≠ .highLatency ∧ (d.tun i).status ≠ .lossy := by
    rintro ⟨j, listed, primary, status⟩
    refine ⟨j, listed, primary, ?_, ?_⟩
    · rw [status]
      decide
    · rw [status]
      decide
  unfold switchToFallbackIfNecessary at done
  split at done
  next =>
    have rebuilds := wrrReset_rebuilds done
    exact .inl ⟨0, ⟨rebuilds.tuns, rebuilds.rtuns, rebuilds.filters, rebuilds.table⟩, fun _ => rfl⟩
  next none =>
    split at done
    next =>
      have rebuilds := wrrReset_rebuilds done
      exact .inl ⟨1, ⟨rebuilds.tuns, rebuilds.rtuns, rebuilds.filters, rebuilds.table⟩,
        fun ok => absurd (spared ok) none⟩
    next =>
      cases done
      exact .inr ⟨rfl, fun ok => none (spared ok)⟩

theorem regrade_tables {grade : Option Status}
    (connected : ∀ status, grade = some status → (d.tun i).status.Up ∧ status.Up)
    (done : d.regrade i grade = some d') : SameTunnels d d' ∧ Tables d d' := by
  cases grade with
  | none =>
      cases done
      exact ⟨.refl d, .kept rfl fun _ => .inl rfl⟩
  | some status =>
      obtain ⟨old, new⟩ := connected status rfl
      have graded : SameTunnels d (d.withStatus i status) := .modify rfl rfl
      rcases switchToFallback_tables done with ⟨mode, rebuilds, primary⟩ | ⟨rfl, bad⟩
      · exact ⟨graded.trans rebuilds.sameTunnels, rebuilds.tables primary⟩
      · refine ⟨graded, .stuck rfl (fun j => ?_) bad⟩
        exact modify_up ⟨fun _ => old, fun _ => new⟩ j

theorem remeasured_tables {f : Tunnel → Tunnel} (remeasured : (d.tun i).Remeasured (f (d.tun i))) :
    SameTunnels d (d.modify i f) ∧ Tables d (d.modify i f) := by
  have unseen : Unseen d (d.modify i f) := .tune (.of_remeasured remeasured)
  exact ⟨unseen.sameTunnels, .kept unseen.table fun j => .inl (unseen.links.status j)⟩

theorem linkStep_tables {e : LinkEvent} (done : d.linkStep e = some d') :
    SameTunnels d d' ∧ Tables d d' := by
  cases e with
  | auth i now => exact sendAuth_tables done
  | down i => exact statusDown_tables done
  | challenge i =>
      cases done
      split
      next => exact ⟨.refl d, .kept rfl fun _ => .inl rfl⟩
      next idle =>
        refine ⟨.modify rfl rfl, .kept rfl ?_⟩
        exact statuses_modify idle (by decide : ¬ Status.authsent.Up)
  | loss i seq =>
      cases done
      exact remeasured_tables (lossUpdate_remeasured _ seq)
  | rtt i sample =>
      cases done
      exact remeasured_tables (rttUpdate_remeasured _ sample)
  | checkLossy i => exact regrade_tables (fun _ changed => lossyStatus_up changed) done
  | checkSlow i => exact regrade_tables (fun _ changed => slowStatus_up changed) done

theorem LinkMove.tables (move : LinkMove d d') : SameTunnels d d' ∧ Tables d d' := by
  cases move with
  | event e done => exact linkStep_tables done
  | unseen unseen =>
      exact ⟨unseen.sameTunnels, .kept unseen.table fun j => .inl (unseen.links.status j)⟩

/-- While a primary tunnel is good, the table holds good primary tunnels only. -/
def Prefers (d : Daemon κ) : Prop :=
  d.PrimaryOk → ∀ j ∈ d.table, (d.tun j).fallbackOnly = 0 ∧ (d.tun j).status = .authok

theorem eligible_zero {j : Nat} (member : j ∈ d.eligible 0) :
    (d.tun j).fallbackOnly = 0 ∧ (d.tun j).status = .authok := by
  obtain ⟨_, primary, ⟨fallback, _⟩ | ok⟩ := mem_eligible.mp member
  · exact absurd primary fallback
  · exact ⟨primary, ok⟩

theorem LinkMove.prefers (move : LinkMove d d') (prefers : d.Prefers) : d'.Prefers := by
  obtain ⟨same, tables⟩ := move.tables
  intro ok j member
  cases tables with
  | kept table statuses =>
      -- a status that has changed is not `MLVPN_AUTHOK`, before or after
      have unchanged : ∀ k, (d.tun k).status.Up ∨ (d'.tun k).status.Up →
          (d'.tun k).status = (d.tun k).status := by
        intro k up
        rcases statuses k with equal | ⟨old, new⟩
        · exact equal
        · exact absurd up (not_or.mpr ⟨old, new⟩)
      obtain ⟨k, listed, primary, status⟩ := ok
      have up : (d'.tun k).status.Up := by
        rw [status]
        decide
      have before : d.PrimaryOk :=
        ⟨k, same.rtuns ▸ listed, same.fallbackOnly k ▸ primary, unchanged k (.inr up) ▸ status⟩
      obtain ⟨role, good⟩ := prefers before j (table ▸ member)
      have connected : (d.tun j).status.Up := by
        rw [good]
        decide
      rw [same.fallbackOnly, unchanged j (.inl connected)]
      exact ⟨role, good⟩
  | stuck _ _ bad => exact absurd ok bad
  | rebuilt mode table primary =>
      rw [table, primary ok] at member
      exact eligible_zero member

theorem LinkMoves.prefers (moves : LinkMoves d d') (prefers : d.Prefers) : d'.Prefers := by
  induction moves with
  | refl => exact prefers
  | tail _ last ih => exact last.prefers ih

end Mlvpn.Daemon
