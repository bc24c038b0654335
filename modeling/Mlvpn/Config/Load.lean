import Mlvpn.Config.Plan
import Mlvpn.Daemon.References

/-! # A load of the configuration refines the plan

The daemon keeps its settings in the structures of the tunnels, changes them one
section at a time, and takes tunnels down and out of the list on the way.  On the
settings of the listed tunnels this is what `Plan.load` does, and every event but
a load leaves them alone.
-/

namespace Mlvpn

open Library Library.Machine

namespace Tunnel

variable {t t' : Tunnel} {sends : Prop}

theorem settings_tickConnect (now : ℚ) (result : StartResult) :
    (t.tickConnect now result).settings = t.settings := by
  rcases t.tickConnect_started now result with started | ⟨opened, started, challenged⟩
  · rw [started]
    rfl
  · rw [challenged, started]
    rfl

theorem settings_queueBare (type : PktType) : (t.queueBare type).settings = t.settings := by
  unfold queueBare
  split <;> rfl

/-- Only a load of the configuration changes settings: it creates the tunnel, or reads it again,
    and weighs it. -/
theorem Act.settings_cases {loads : Prop} (act : Act sends loads t t') :
    t'.settings = t.settings ∨ loads ∧
      ((∃ conf serverMode, t'.settings = .create conf serverMode) ∨
        (∃ conf, t'.settings = t.settings.refit conf) ∨ ∃ total, t'.settings = t.settings.weigh total) := by
  cases act with
  | create conf serverMode _ _ load => exact .inr ⟨load, .inl ⟨conf, serverMode, rfl⟩⟩
  | refit conf load => exact .inr ⟨load, .inr (.inl ⟨conf, rfl⟩)⟩
  | weigh total load => exact .inr ⟨load, .inr (.inr ⟨total, settings_weigh t total⟩)⟩
  | measure remeasured =>
      rw [remeasured]
      exact .inl rfl
  | adoptAddr adopted =>
      obtain ⟨addr, rfl⟩ := adoptAddr_eq adopted
      exact .inl rfl
  | keepaliveReceived now =>
      unfold Tunnel.keepaliveReceived
      dsimp only
      split
      next => exact .inl (settings_queueBare .keepalive)
      next => exact .inl rfl
  | sendKeepalive now => exact .inl (settings_queueBare .keepalive)
  | queueBare => exact .inl (settings_queueBare _)
  | tickConnect now result => exact .inl (settings_tickConnect now result)
  | queueData highPriority data =>
      unfold Tunnel.queueData
      dsimp only
      cases highPriority <;> split <;> exact .inl rfl
  | take highPriority dataSeq now64 =>
      unfold taken sendHeader
      dsimp only
      cases highPriority <;> split <;> exact .inl rfl
  | stopIfEmpty =>
      unfold Tunnel.stopIfEmpty
      split <;> exact .inl rfl
  | answer now =>
      have watched : ∀ t : Tunnel, { t with ioWrite := true }.settings = t.settings := fun _ => rfl
      have raised : ∀ t : Tunnel, (t.raised now).settings = t.settings := fun _ => rfl
      have queued : (t.queueAuthOk.tick now).settings = t.settings := rfl
      exact .inl ((watched _).trans ((raised _).trans queued))
  | countReceived | tick | confirm | lower | regrade | watch | countSent | stopWatching => exact .inl rfl

theorem Act.settings (act : Act sends False t t') : t'.settings = t.settings :=
  act.settings_cases.resolve_right fun load => load.1

end Tunnel

namespace Daemon

open Tunnel

variable {κ : Type} {d d' : Daemon κ} {i : Nat}

/-- The settings of the listed tunnels. -/
def plan (d : Daemon κ) : Plan := d.rtuns.map fun i => (d.tun i).settings

theorem Acts.settings {sends : Nat → Prop} (acts : Acts sends False d d') (j : Nat) :
    (d'.tun j).settings = (d.tun j).settings := by
  refine acts.preserve (P := fun t => t.settings = (d.tun j).settings) ?_ rfl
  intro t t' act same
  exact act.settings.trans same

theorem plan_congr (rtuns : d'.rtuns = d.rtuns)
    (settings : ∀ j, (d'.tun j).settings = (d.tun j).settings) : d'.plan = d.plan := by
  unfold plan
  rw [rtuns]
  exact List.map_congr_left fun j _ => settings j

theorem plan_of_tuns (rtuns : d'.rtuns = d.rtuns) (tuns : d'.tuns = d.tuns) : d'.plan = d.plan :=
  plan_congr rtuns fun j => by rw [tun, tun, tuns]

theorem Current.plan_nodup (current : d.Current) : (d.plan.map Settings.name).Nodup := by
  unfold plan
  rw [List.map_map]
  exact current.names

/-- No event but a reload changes the settings. -/
theorem step_plan {now : ℚ} {e : Event κ} (current : d.Current) (fixed : ¬ e.Reloads)
    (done : d.step (now, e) = some d') : d'.plan = d.plan := by
  have same := ((step_links fixed done).current current).2
  have acts : Acts e.Sends False d d' := step_acts fixed done
  exact plan_congr same.rtuns acts.settings

theorem statusDown_plan (reloading : d.Reloading) (done : d.statusDown i = some d') :
    d'.plan = d.plan := by
  have same := ((LinkMoves.event (.down i) done).current reloading.1).2
  have acts : Acts (fun _ => True) False d d' := (statusDown_deeds done).acts
  exact plan_congr same.rtuns acts.settings

theorem named_eq_get (d : Daemon κ) (name : String) :
    d.named name = Registry.get (fun i => (d.tun i).name) d.rtuns name := rfl

theorem get_plan (d : Daemon κ) (name : String) :
    d.plan.get name = (d.named name).map fun i => (d.tun i).settings := by
  rw [named_eq_get]
  exact Registry.get_map fun _ => rfl

theorem named_name {name : String} (named : d.named name = some i) : (d.tun i).name = name := by
  rw [named_eq_get] at named
  exact (Registry.mem_of_get named).2

/-- A change of one tunnel is a change of the settings under its name. -/
theorem modify_plan (current : d.Current) (listed : i ∈ d.rtuns) {f : Tunnel → Tunnel}
    {g : Settings → Settings} (settings : ∀ t, (f t).settings = g t.settings) :
    (d.modify i f).plan = Registry.revise Settings.name d.plan (d.tun i).name g := by
  unfold plan Registry.revise
  rw [List.map_map]
  apply List.map_congr_left
  intro j member
  rw [Function.comp_apply, tun_modify]
  by_cases here : j = i
  · rw [if_pos ⟨here, current.inside i listed⟩, here, settings]
    exact (if_pos (c := (d.tun i).settings.name = (d.tun i).name) rfl).symm
  · have other : (d.tun j).settings.name ≠ (d.tun i).name := fun same =>
      here (List.inj_on_of_nodup_map current.names member listed same)
    rw [if_neg fun both => here both.1, if_neg other]

theorem rtunNew_plan (current : d.Current) (conf : TunnelConf) (serverMode : Bool) (flowId : UInt32)
    (now : ℚ) :
    (d.rtunNew conf serverMode flowId now).plan =
      if conf.Incomplete serverMode then d.plan else .create conf serverMode :: d.plan := by
  unfold rtunNew
  split
  next => rfl
  next =>
    unfold plan
    rw [log, List.map_cons]
    congr 1
    · rw [tun_append rfl, if_pos rfl, settings_init]
    · apply List.map_congr_left
      intro j listed
      rw [tun_append rfl, if_neg (Nat.ne_of_lt (current.inside j listed))]

theorem configTunnel_plan {conf : TunnelConf} {serverMode : Bool} {flowId : UInt32} {now : ℚ}
    (reloading : d.Reloading) (done : d.configTunnel conf serverMode flowId now = some d') :
    d'.plan = d.plan.configTunnel conf serverMode := by
  obtain ⟨d₁, flagged, configured⟩ := configTunnel_cases done
  have same : d₁.plan = d.plan := by rcases flagged with rfl | rfl <;> rfl
  have noted : d₁.Reloading := reloading.flagged flagged
  have found := get_plan d₁ conf.name
  rw [← same]
  unfold Plan.configTunnel
  rcases configured with ⟨new, rfl⟩ | ⟨j, d₂, named, down, rfl⟩
  · rw [new] at found
    rw [found]
    exact rtunNew_plan noted.1 conf serverMode flowId now
  · rw [named] at found
    rw [found]
    have settled : d₂.Reloading ∧ d₂.plan = d₁.plan ∧ d₂.rtuns = d₁.rtuns ∧
        (d₂.tun j).name = (d₁.tun j).name := by
      rcases down with ⟨_, down⟩ | ⟨_, rfl⟩
      · have links := ((LinkMoves.event (.down j) down).current noted.1).2
        exact ⟨statusDown_reloading noted down, statusDown_plan noted down, links.rtuns,
          links.names j⟩
      · exact ⟨noted, rfl, rfl, rfl⟩
    obtain ⟨reloading₂, plan₂, rtuns, name⟩ := settled
    have called : (d₂.tun j).name = conf.name := name.trans (named_name named)
    have listed : j ∈ d₂.rtuns := by
      rw [rtuns]
      exact named_mem named
    have refitted : (d₂.modify j (·.refit conf)).plan =
        Registry.revise Settings.name d₂.plan (d₂.tun j).name (·.refit conf) :=
      modify_plan reloading₂.1 listed fun t => settings_refit t conf
    rw [refitted, plan₂, called]
    rfl

theorem configSection_plan {now : ℚ} {s s' : Bool × Daemon κ} {part : Section κ}
    (reloading : s.2.Reloading) (done : configSection now s part = some s') :
    (s'.1, s'.2.plan) = Plan.configSection (s.1, s.2.plan) part := by
  obtain ⟨serverMode, d⟩ := s
  cases part with
  | general general =>
      simp only [configSection] at done
      obtain ⟨d₁, configured, rfl⟩ := Option.map_eq_some_iff.mp done
      unfold configGeneral at configured
      obtain ⟨rx, _, rfl⟩ := Option.map_eq_some_iff.mp configured
      rfl
  | tunnel conf flowId =>
      simp only [configSection] at done
      obtain ⟨d₁, configured, rfl⟩ := Option.map_eq_some_iff.mp done
      exact congrArg (serverMode, ·) (configTunnel_plan reloading configured)

theorem configSections_plan {now : ℚ} (sections : List (Section κ)) {s s' : Bool × Daemon κ}
    (reloading : s.2.Reloading) (done : run (configSection now) s sections = some s') :
    s'.2.Reloading ∧ (s'.1, s'.2.plan) = sections.foldl Plan.configSection (s.1, s.2.plan) := by
  induction sections generalizing s with
  | nil =>
      cases done
      exact ⟨reloading, rfl⟩
  | cons part rest ih =>
      obtain ⟨s₁, first, later⟩ := run_cons_eq_some.mp done
      obtain ⟨reloading', plan⟩ := ih (configSection_reloading reloading first) later
      refine ⟨reloading', ?_⟩
      rw [plan, configSection_plan reloading first, List.foldl_cons]

/-- A tunnel that is dropped leaves the plan. -/
theorem rtunDrop_plan {now : ℚ} {result : SendResult} (reloading : d.Reloading)
    (done : d.rtunDrop i now result = some d') :
    (∀ j, (d'.tun j).name = (d.tun j).name) ∧
      d'.plan = d.plan.filter fun s => s.name ≠ (d.tun i).name := by
  have acts : Acts (fun _ => True) False d d' := (rtunDrop_deeds trivial done).acts
  have names : ∀ j, (d'.tun j).name = (d.tun j).name := fun j =>
    congrArg Settings.name (acts.settings j)
  refine ⟨names, ?_⟩
  obtain ⟨d₁, sent, rest⟩ := Option.bind_eq_some_iff.mp done
  obtain ⟨d₂, lowered, rfl⟩ := Option.map_eq_some_iff.mp rest
  let d₃ := d₂.modify i Tunnel.stopWatching
  have moves : LinkMoves d d₃ :=
    ((sendDisconnect_links sent).trans (LinkMoves.event (.down i) lowered)).trans
      (LinkMoves.tune ⟨rfl, rfl, rfl⟩)
  obtain ⟨current, same⟩ := moves.current reloading.1
  have erased : d₃.rtuns.eraseP (fun j => (d₃.tun j).name = (d₃.tun i).name) =
      d.rtuns.filter fun j => (d.tun j).name ≠ (d.tun i).name := by
    rw [same.rtuns]
    simp only [same.names]
    exact Registry.eraseP_eq_filter reloading.1.names
  have viewed : d.plan.filter (fun s => s.name ≠ (d.tun i).name) =
      (d.rtuns.filter fun j => (d.tun j).name ≠ (d.tun i).name).map fun j => (d.tun j).settings := by
    unfold plan
    rw [List.filter_map]
    rfl
  rw [viewed, ← erased]
  unfold plan
  exact List.map_congr_left fun j _ => acts.settings j

/-- Of the tunnels that were looked at, those with a section are left. -/
theorem dropMissing_plan {conf : Config κ} {now : ℚ} {send : Nat → SendResult} (tunnels : List Nat)
    (distinct : tunnels.Nodup) (listed : ∀ j ∈ tunnels, j ∈ d.rtuns) (reloading : d.Reloading)
    (done : run (dropIfMissing conf now send) d tunnels = some d') :
    d'.plan = d.plan.filter fun s =>
      conf.sections.any (Section.names s.name) ∨ s.name ∉ tunnels.map fun j => (d.tun j).name := by
  induction tunnels generalizing d with
  | nil =>
      cases done
      simp only [List.map_nil, List.not_mem_nil, not_false_eq_true, or_true, decide_true,
        List.filter_true]
  | cons i rest ih =>
      obtain ⟨d₁, first, later⟩ := run_cons_eq_some.mp done
      obtain ⟨fresh, distinct⟩ := List.nodup_cons.mp distinct
      have remaining : ∀ j ∈ rest, j ∈ d.rtuns ∧ j ≠ i := fun j member =>
        ⟨listed j (List.mem_cons_of_mem i member), fun same => fresh (same ▸ member)⟩
      unfold dropIfMissing at first
      split at first
      next named =>
        cases first
        rw [ih distinct (fun j member => (remaining j member).1) reloading later]
        apply List.filter_congr
        intro s _
        apply decide_eq_decide.mpr
        rw [List.map_cons, List.mem_cons, not_or]
        constructor
        · rintro (kept | other)
          · exact .inl kept
          · by_cases here : s.name = (d.tun i).name
            · exact .inl (here ▸ named)
            · exact .inr ⟨here, other⟩
        · exact Or.imp_right And.right
      next unnamed =>
        obtain ⟨dropped, others⟩ := rtunDrop_reloading reloading (listed i List.mem_cons_self) first
        obtain ⟨names, left⟩ := rtunDrop_plan reloading first
        rw [ih distinct (fun j member => others j (remaining j member).1 (remaining j member).2) dropped
          later, left, List.filter_filter]
        apply List.filter_congr
        intro s _
        rw [← Bool.decide_and]
        apply decide_eq_decide.mpr
        simp only [names, List.map_cons, List.mem_cons, not_or]
        constructor
        · rintro ⟨kept | other, here⟩
          · exact .inl kept
          · exact .inr ⟨here, other⟩
        · rintro (kept | ⟨here, other⟩)
          · exact ⟨.inl kept, fun here => unnamed (here ▸ kept)⟩
          · exact ⟨.inr other, here⟩

theorem recalcWeight_plan (distinct : d.rtuns.Nodup) (inside : d.Inside) :
    d.recalcWeight.plan = d.plan.recalcWeight := by
  have total : (d.rtuns.map fun i => (d.tun i).bandwidth).sum = (d.plan.map Settings.bandwidth).sum := by
    unfold plan
    rw [List.map_map]
    rfl
  have unset : (∃ i ∈ d.rtuns, (d.tun i).bandwidth = 0) ↔ ∃ s ∈ d.plan, s.bandwidth = 0 := by
    simp only [plan, List.mem_map, exists_exists_and_eq_and]
    rfl
  unfold recalcWeight Plan.recalcWeight
  dsimp only
  rw [total]
  by_cases missing : ∃ s ∈ d.plan, s.bandwidth = 0
  · rw [if_pos missing, if_pos (unset.mpr missing)]
  · rw [if_neg missing, if_neg fun some => missing (unset.mp some)]
    generalize (d.plan.map Settings.bandwidth).sum = sum
    obtain ⟨rtuns, tunnels⟩ := foldl_modify (d := d) (·.weigh sum) d.rtuns distinct inside
    unfold plan
    rw [rtuns, List.map_map]
    apply List.map_congr_left
    intro j listed
    rw [tunnels, if_pos listed, settings_weigh]
    rfl

/-- A load of a configuration is what it does to the settings. -/
theorem configReload_plan {conf : Config κ} {now : ℚ} {send : Nat → SendResult} (current : d.Current)
    (done : d.configReload (some conf) now send = some d') : d'.plan = d.plan.load conf.sections := by
  have begun := current.reloading
  unfold configReload at done
  obtain ⟨⟨serverMode, d₁⟩, parsed, rest⟩ := Option.bind_eq_some_iff.mp done
  obtain ⟨d₂, dropped, rfl⟩ := Option.map_eq_some_iff.mp rest
  obtain ⟨reloading, folded⟩ := configSections_plan conf.sections begun parsed
  have left : d₂.plan = d₁.plan.filter fun s => conf.sections.any (Section.names s.name) := by
    rw [dropMissing_plan d₁.rtuns reloading.1.rtuns_nodup (fun _ member => member) reloading dropped]
    apply List.filter_congr
    intro s member
    obtain ⟨j, listed, rfl⟩ := List.mem_map.mp member
    have named : (d₁.tun j).settings.name ∈ d₁.rtuns.map fun j => (d₁.tun j).name :=
      List.mem_map_of_mem listed
    simp only [named, not_true, or_false, Bool.decide_eq_true]
  have current₂ : d₂.Current :=
    (dropMissing_reloading reloading dropped).1
  have sections : (conf.sections.foldl Plan.configSection (false, d.plan)).2 = d₁.plan :=
    (congrArg Prod.snd folded).symm
  unfold Plan.load Plan.configured
  rw [sections, ← left]
  exact recalcWeight_plan current₂.rtuns_nodup current₂.inside

end Daemon

end Mlvpn
