import Mlvpn.Config.Load
import Mathlib.Algebra.BigOperators.Group.List.Basic
import Mathlib.Data.List.Dedup

/-! # The settings a file leads to

The sections of a file may be read in any order and more than once, each with the
defaults of its place.  The settings of a tunnel depend on its first section, if
it has to be created, and on its last one.
-/

namespace Mlvpn

open Library Library.Machine

/-- A text that is copied twice is copied once. -/
theorem strlcpy_strlcpy (old : String) (size : Nat) (src : Option String) :
    strlcpy (strlcpy old size src) size src = strlcpy old size src := by
  cases src <;> rfl

theorem Settings.refit_name (conf : TunnelConf) (s : Settings) : (s.refit conf).name = s.name := rfl

theorem Settings.create_name (conf : TunnelConf) (serverMode : Bool) :
    (create conf serverMode).name = conf.name := rfl

theorem Settings.refit_create (conf : TunnelConf) (serverMode : Bool) :
    (create conf serverMode).refit conf = create conf serverMode := by
  simp only [refit, create, strlcpy_strlcpy]

namespace Plan

variable {κ : Type} {plan : Plan}

theorem get_configTunnel {conf : TunnelConf} {serverMode : Bool} (complete : ¬ conf.Incomplete serverMode)
    (name : String) :
    (plan.configTunnel conf serverMode).get name =
      if name = conf.name then
        some (((plan.get name).map (·.refit conf)).getD (.create conf serverMode))
      else plan.get name := by
  unfold configTunnel get
  split
  next new =>
    rw [if_neg complete, Registry.get_cons, Settings.create_name]
    by_cases here : name = conf.name
    · rw [if_pos here, here, new, if_pos rfl]
      rfl
    · rw [if_neg here, if_neg fun same => here same.symm]
  next s found =>
    rw [Registry.get_revise (Settings.refit_name conf)]
    by_cases here : name = conf.name
    · rw [if_pos here, if_pos here, here, found]
      rfl
    · rw [if_neg here, if_neg here]

theorem nodup_configTunnel (distinct : (plan.map Settings.name).Nodup) (conf : TunnelConf)
    (serverMode : Bool) : ((plan.configTunnel conf serverMode).map Settings.name).Nodup := by
  unfold configTunnel
  split
  next new =>
    split
    next => exact distinct
    next =>
      rw [List.map_cons, List.nodup_cons]
      exact ⟨Registry.get_eq_none_iff.mp new, distinct⟩
  next =>
    rw [Registry.map_key_revise (Settings.refit_name conf)]
    exact distinct

theorem nodup_configSections (distinct : (plan.map Settings.name).Nodup) (serverMode : Bool)
    (sections : List (Section κ)) :
    ((sections.foldl configSection (serverMode, plan)).2.map Settings.name).Nodup := by
  induction sections generalizing plan serverMode with
  | nil => exact distinct
  | cons part rest ih =>
      cases part with
      | general general => exact ih distinct _
      | tunnel conf flowId => exact ih (nodup_configTunnel distinct conf serverMode) serverMode

/-- The sections only add tunnels. -/
theorem mem_configSections {name : String} (member : name ∈ plan.map Settings.name) (serverMode : Bool)
    (sections : List (Section κ)) :
    name ∈ (sections.foldl configSection (serverMode, plan)).2.map Settings.name := by
  induction sections generalizing plan serverMode with
  | nil => exact member
  | cons part rest ih =>
      cases part with
      | general general => exact ih member _
      | tunnel conf flowId =>
          refine ih ?_ serverMode
          unfold configTunnel
          split
          next =>
            split
            next => exact member
            next => exact List.mem_cons_of_mem _ member
          next =>
            rw [Registry.map_key_revise (Settings.refit_name conf)]
            exact member

theorem nodup_configured (distinct : (plan.map Settings.name).Nodup) (sections : List (Section κ)) :
    ((plan.configured sections).map Settings.name).Nodup :=
  (nodup_configSections distinct false sections).sublist (List.filter_sublist.map _)

end Plan

namespace ConfFile

variable {κ : Type} {reader : Reader κ} {flowId : String → UInt32} {config : ConfFile}
  {defaults : Defaults} {name : String}

/-- The tunnels of a file, in the order of its sections. -/
def tunnels (config : ConfFile) : List String := (config.walk none).filter fun name => IsTunnel name

/-- The defaults where the first section of this name is read. -/
def defaultsBefore (config : ConfFile) (name : String) (defaults : Defaults) (names : List String) :
    Defaults :=
  (names.takeWhile fun other => other ≠ name).foldl config.nextDefaults defaults

theorem defaultsBefore_self (rest : List String) :
    config.defaultsBefore name defaults (name :: rest) = defaults := by
  unfold defaultsBefore
  rw [List.takeWhile_cons_of_neg (by simp), List.foldl_nil]

theorem defaultsBefore_cons {other : String} (differs : other ≠ name) (rest : List String) :
    config.defaultsBefore name defaults (other :: rest) =
      config.defaultsBefore name (config.nextDefaults defaults other) rest := by
  unfold defaultsBefore
  rw [List.takeWhile_cons_of_pos (by simp [differs]), List.foldl_cons]

/-- The defaults where the last section of this name is read. -/
def defaultsLast (config : ConfFile) (name : String) : Defaults → List String → Defaults
  | defaults, [] => defaults
  | defaults, other :: rest =>
      if name ∈ rest then config.defaultsLast name (config.nextDefaults defaults other) rest else defaults

theorem tunnelConf_name : (config.tunnelConf defaults name).name = name := rfl

/-- Two sections of a tunnel differ in the defaults only. -/
theorem refit_refit (s : Settings) (first second : Defaults) :
    (s.refit (config.tunnelConf first name)).refit (config.tunnelConf second name) =
      s.refit (config.tunnelConf second name) := by
  simp only [Settings.refit, tunnelConf, strlcpy_strlcpy]

/-- What one section does to the mode and to the plan. -/
theorem readSection_plan {sections : List (Section κ)}
    (read : config.readSection reader flowId defaults name = some sections) (plan : Plan) :
    (IsTunnel name → ¬ (config.tunnelConf defaults name).Incomplete defaults.serverMode) ∧
      sections.foldl Plan.configSection (defaults.serverMode, plan) =
        ((config.nextDefaults defaults name).serverMode,
          if IsTunnel name then plan.configTunnel (config.tunnelConf defaults name) defaults.serverMode
          else plan) := by
  unfold readSection at read
  unfold nextDefaults
  split at read
  next here =>
    have other : ¬ IsTunnel name := fun tunnel => tunnel.1 here
    obtain ⟨general, found, rfl⟩ := Option.map_eq_some_iff.mp read
    obtain ⟨mode, mandatory, rest⟩ := Option.bind_eq_some_iff.mp found
    obtain ⟨password, _, rfl⟩ := Option.map_eq_some_iff.mp rest
    refine ⟨fun tunnel => absurd tunnel other, ?_⟩
    rw [if_pos here, if_neg other]
    simp only [List.foldl_cons, List.foldl_nil, Plan.configSection, generalDefaults, mandatory,
      Option.some.injEq]
  next there =>
    rw [if_neg there]
    split at read
    next filters =>
      cases read
      have other : ¬ IsTunnel name := fun tunnel => tunnel.2 filters
      rw [if_neg other]
      exact ⟨fun tunnel => absurd tunnel other, rfl⟩
    next unfiltered =>
      obtain ⟨conf, found, rfl⟩ := Option.map_eq_some_iff.mp read
      rw [if_pos ⟨there, unfiltered⟩]
      unfold readTunnel at found
      dsimp only at found
      split at found
      next => cases found
      next complete =>
        cases found
        exact ⟨fun _ => complete, rfl⟩

/-- A tunnel without a section is as it was. -/
theorem readSections_get_of_notMem {names : List String} {sections : List (Section κ)}
    (read : config.readSections reader flowId defaults names = some sections) (absent : name ∉ names)
    (plan : Plan) :
    (sections.foldl Plan.configSection (defaults.serverMode, plan)).2.get name = plan.get name := by
  induction names generalizing defaults sections plan with
  | nil =>
      cases read
      rfl
  | cons first rest ih =>
      obtain ⟨parts, one, later⟩ := Option.bind_eq_some_iff.mp read
      obtain ⟨others, all, rfl⟩ := Option.map_eq_some_iff.mp later
      rw [List.mem_cons, not_or] at absent
      obtain ⟨complete, folded⟩ := readSection_plan one plan
      rw [List.foldl_append, folded, ih all absent.2]
      split
      next tunnel => rw [Plan.get_configTunnel (complete tunnel), tunnelConf_name, if_neg absent.1]
      next => rfl

/-- The settings of a tunnel after its sections: those it had, or was created with
    by the first one, refitted by the last. -/
theorem readSections_get {names : List String} {sections : List (Section κ)}
    (read : config.readSections reader flowId defaults names = some sections) (member : name ∈ names)
    (tunnel : IsTunnel name) (plan : Plan) :
    let first := config.defaultsBefore name defaults names
    let last := config.defaultsLast name defaults names
    (sections.foldl Plan.configSection (defaults.serverMode, plan)).2.get name =
      some (((plan.get name).getD (.create (config.tunnelConf first name) first.serverMode)).refit
        (config.tunnelConf last name)) := by
  induction names generalizing defaults sections plan with
  | nil => cases member
  | cons next rest ih =>
      obtain ⟨parts, one, later⟩ := Option.bind_eq_some_iff.mp read
      obtain ⟨others, all, rfl⟩ := Option.map_eq_some_iff.mp later
      obtain ⟨complete, folded⟩ := readSection_plan one plan
      dsimp only
      rw [List.foldl_append, folded, defaultsLast]
      by_cases here : next = name
      · subst here
        rw [defaultsBefore_self, if_pos tunnel]
        have created : (plan.configTunnel (config.tunnelConf defaults next) defaults.serverMode).get next =
            some (((plan.get next).getD (.create (config.tunnelConf defaults next)
              defaults.serverMode)).refit (config.tunnelConf defaults next)) := by
          rw [Plan.get_configTunnel (complete tunnel), tunnelConf_name, if_pos rfl]
          cases plan.get next with
          | none => exact congrArg some (Settings.refit_create _ _).symm
          | some s => rfl
        by_cases again : next ∈ rest
        · have settled := ih all again
            (plan.configTunnel (config.tunnelConf defaults next) defaults.serverMode)
          dsimp only at settled
          rw [if_pos again, settled, created, Option.getD_some, refit_refit]
        · rw [if_neg again, readSections_get_of_notMem all again, created]
      · have remaining : name ∈ rest := (List.mem_cons.mp member).resolve_left fun same => here same.symm
        rw [defaultsBefore_cons here, if_pos remaining]
        have settled := ih all remaining (if IsTunnel next then
          plan.configTunnel (config.tunnelConf defaults next) defaults.serverMode else plan)
        dsimp only at settled
        rw [settled]
        split
        next there =>
          rw [Plan.get_configTunnel (complete there), tunnelConf_name, if_neg fun same => here same.symm]
        next => rfl

theorem mem_readSection {sections : List (Section κ)} {part : Section κ}
    (read : config.readSection reader flowId defaults name = some sections) (member : part ∈ sections) :
    (∃ general, part = .general general) ∨
      IsTunnel name ∧ part = .tunnel (config.tunnelConf defaults name) (flowId name) := by
  unfold readSection at read
  split at read
  next =>
    obtain ⟨general, _, rfl⟩ := Option.map_eq_some_iff.mp read
    exact .inl ⟨general, List.mem_singleton.mp member⟩
  next there =>
    split at read
    next =>
      cases read
      cases member
    next unfiltered =>
      obtain ⟨conf, found, rfl⟩ := Option.map_eq_some_iff.mp read
      unfold readTunnel at found
      dsimp only at found
      split at found
      next => cases found
      next =>
        cases found
        exact .inr ⟨⟨there, unfiltered⟩, List.mem_singleton.mp member⟩

theorem readSection_names {sections : List (Section κ)}
    (read : config.readSection reader flowId defaults name = some sections) (other : String) :
    sections.any (Section.names other) ↔ other = name ∧ IsTunnel name := by
  unfold readSection at read
  split at read
  next here =>
    obtain ⟨general, _, rfl⟩ := Option.map_eq_some_iff.mp read
    simp only [List.any_cons, List.any_nil, Section.names, Bool.or_self, Bool.false_eq_true, false_iff]
    exact fun both => both.2.1 here
  next there =>
    split at read
    next filters =>
      cases read
      simp only [List.any_nil, Bool.false_eq_true, false_iff]
      exact fun both => both.2.2 filters
    next unfiltered =>
      obtain ⟨conf, found, rfl⟩ := Option.map_eq_some_iff.mp read
      have called : conf.name = name := by
        unfold readTunnel at found
        dsimp only at found
        split at found
        next => cases found
        next =>
          cases found
          rfl
      simp only [List.any_cons, List.any_nil, Section.names, Bool.or_false, decide_eq_true_eq, called]
      exact ⟨fun same => ⟨same.symm, there, unfiltered⟩, fun both => both.1.symm⟩

/-- The sections that name a tunnel are those of its name. -/
theorem readSections_names {names : List String} {sections : List (Section κ)}
    (read : config.readSections reader flowId defaults names = some sections) (other : String) :
    sections.any (Section.names other) ↔ other ∈ names ∧ IsTunnel other := by
  induction names generalizing defaults sections with
  | nil =>
      cases read
      simp only [List.any_nil, Bool.false_eq_true, List.not_mem_nil, false_and]
  | cons first rest ih =>
      obtain ⟨parts, one, later⟩ := Option.bind_eq_some_iff.mp read
      obtain ⟨others, all, rfl⟩ := Option.map_eq_some_iff.mp later
      rw [List.any_append, Bool.or_eq_true, readSection_names one, ih all, List.mem_cons, or_and_right]
      exact or_congr_left (and_congr_right fun same => by rw [same])

/-- The sections of a file, one by one. -/
theorem mem_readSections {names : List String} {sections : List (Section κ)} {part : Section κ}
    (read : config.readSections reader flowId defaults names = some sections) (member : part ∈ sections) :
    (∃ general, part = .general general) ∨ ∃ name ∈ names, IsTunnel name ∧
      ∃ defaults, part = .tunnel (config.tunnelConf defaults name) (flowId name) := by
  induction names generalizing defaults sections with
  | nil =>
      cases read
      cases member
  | cons first rest ih =>
      obtain ⟨parts, one, later⟩ := Option.bind_eq_some_iff.mp read
      obtain ⟨others, all, rfl⟩ := Option.map_eq_some_iff.mp later
      rcases List.mem_append.mp member with here | there
      · rcases mem_readSection one here with general | ⟨tunnel, part⟩
        · exact .inl general
        · exact .inr ⟨first, List.mem_cons_self, tunnel, defaults, part⟩
      · rcases ih all there with general | ⟨name, member, tunnel⟩
        · exact .inl general
        · exact .inr ⟨name, List.mem_cons_of_mem _ member, tunnel⟩

/-- Every tunnel of a file has a section. -/
theorem readSections_tunnel {names : List String} {sections : List (Section κ)}
    (read : config.readSections reader flowId defaults names = some sections) (member : name ∈ names)
    (tunnel : IsTunnel name) :
    ∃ defaults, Section.tunnel (config.tunnelConf defaults name) (flowId name) ∈ sections := by
  have named := (readSections_names read name).mpr ⟨member, tunnel⟩
  obtain ⟨part, there, names⟩ := List.any_eq_true.mp named
  rcases mem_readSections read there with ⟨general, rfl⟩ | ⟨other, _, _, defaults, rfl⟩
  · cases names
  · have same : other = name := of_decide_eq_true names
    exact ⟨defaults, same ▸ there⟩

theorem mem_tunnels : name ∈ config.tunnels ↔ name ∈ config.walk none ∧ IsTunnel name := by
  unfold tunnels
  rw [List.mem_filter, decide_eq_true_eq]

def bandwidth (config : ConfFile) (name : String) : UInt32 := config.getUint name "bandwidth_upload" 0

def bandwidthTotal (config : ConfFile) : UInt32 := (config.tunnels.dedup.map config.bandwidth).sum

/-- Every tunnel has a bandwidth, and their sum is not zero as a `uint32_t`. -/
def Weighted (config : ConfFile) : Prop :=
  (∀ name ∈ config.tunnels, config.bandwidth name ≠ 0) ∧ config.bandwidthTotal ≠ 0

instance (config : ConfFile) : Decidable config.Weighted := inferInstanceAs (Decidable (_ ∧ _))

/-- The settings with the weight that the file gives, if it gives one. -/
def weighed (config : ConfFile) (s : Settings) : Settings :=
  if config.Weighted then
    { s with weight := s.bandwidth.toNat / config.bandwidthTotal.toNat * 100 }
  else s

/-- The weights depend on the file only. -/
theorem recalcWeight_eq {plan : Plan} (distinct : (plan.map Settings.name).Nodup)
    (names : ∀ name, name ∈ plan.map Settings.name ↔ name ∈ config.tunnels)
    (bandwidths : ∀ s ∈ plan, s.bandwidth = config.bandwidth s.name) :
    plan.recalcWeight = plan.map config.weighed := by
  have total : (plan.map Settings.bandwidth).sum = config.bandwidthTotal := by
    have perm : (plan.map Settings.name).Perm config.tunnels.dedup :=
      (List.perm_ext_iff_of_nodup distinct (List.nodup_dedup _)).mpr fun name => by
        rw [names, List.mem_dedup]
    have keyed : plan.map Settings.bandwidth = (plan.map Settings.name).map config.bandwidth := by
      rw [List.map_map]
      exact List.map_congr_left bandwidths
    rw [keyed]
    exact (perm.map _).sum_eq
  have unset : (∃ s ∈ plan, s.bandwidth = 0) ↔ ¬ ∀ name ∈ config.tunnels, config.bandwidth name ≠ 0 := by
    simp only [← names, List.mem_map, forall_exists_index, and_imp, forall_apply_eq_imp_iff₂, not_forall,
      not_not, exists_prop]
    exact exists_congr fun s => and_congr_right fun member => by rw [bandwidths s member]
  unfold Plan.recalcWeight
  dsimp only
  rw [total]
  by_cases missing : ∃ s ∈ plan, s.bandwidth = 0
  · have unweighted : ¬ config.Weighted := fun weighted => unset.mp missing weighted.1
    have same : config.weighed = id := funext fun s => if_neg unweighted
    rw [if_pos missing, same, List.map_id]
  · rw [if_neg missing]
    apply List.map_congr_left
    intro s member
    have positive : s.bandwidth > 0 := UInt32.pos_iff_ne_zero.mpr fun zero => missing ⟨s, member, zero⟩
    have weighted : config.Weighted ↔ s.bandwidth > 0 ∧ config.bandwidthTotal > 0 := by
      have all := not_not.mp fun some => missing (unset.mpr some)
      exact ⟨fun weighted => ⟨positive, UInt32.pos_iff_ne_zero.mpr weighted.2⟩,
        fun both => ⟨all, UInt32.pos_iff_ne_zero.mp both.2⟩⟩
    unfold Settings.weigh weighed
    simp only [weighted]

/-- A load keeps the tunnels of the file. -/
theorem configured_get {sections : List (Section κ)}
    (read : config.readSections reader flowId .init (config.walk none) = some sections) (plan : Plan)
    (name : String) :
    (plan.configured sections).get name =
      if name ∈ config.tunnels then (sections.foldl Plan.configSection (false, plan)).2.get name
      else none := by
  have listed : sections.any (Section.names name) ↔ name ∈ config.tunnels :=
    (readSections_names read name).trans mem_tunnels.symm
  have found : (plan.configured sections).get name =
      if sections.any (Section.names name) then
        (sections.foldl Plan.configSection (false, plan)).2.get name
      else none := Registry.get_filter (p := fun name => sections.any (Section.names name))
  rw [found]
  simp only [listed]

/-- A load gives every tunnel the weight of the file. -/
theorem load_eq {sections : List (Section κ)}
    (read : config.readSections reader flowId .init (config.walk none) = some sections) {plan : Plan}
    (distinct : (plan.map Settings.name).Nodup) :
    plan.load sections = (plan.configured sections).map config.weighed := by
  have nodup := Plan.nodup_configured distinct sections
  have settled : ∀ name, name ∈ config.tunnels → ∃ s last,
      (sections.foldl Plan.configSection (false, plan)).2.get name =
        some (Settings.refit s (config.tunnelConf last name)) := by
    intro name member
    obtain ⟨walked, tunnel⟩ := mem_tunnels.mp member
    exact ⟨_, _, readSections_get read walked tunnel plan⟩
  apply recalcWeight_eq nodup
  · intro name
    rw [← not_iff_not, ← Registry.get_eq_none_iff]
    change (plan.configured sections).get name = none ↔ _
    rw [configured_get read]
    split
    next member =>
      obtain ⟨s, last, settled⟩ := settled name member
      simp only [settled, reduceCtorEq, member, not_true]
    next absent => simp only [absent, not_false_eq_true]
  · intro s member
    have there : (plan.configured sections).get s.name = some s := Registry.get_of_mem nodup member
    rw [configured_get read] at there
    split at there
    next member =>
      obtain ⟨y, last, settled⟩ := settled s.name member
      rw [settled] at there
      have same := congrArg Settings.bandwidth (Option.some.inj there)
      exact same.symm
    next => cases there

theorem weighed_name (s : Settings) : (config.weighed s).name = s.name := by
  unfold weighed
  split <;> rfl

theorem load_get_eq {sections : List (Section κ)}
    (read : config.readSections reader flowId .init (config.walk none) = some sections) {plan : Plan}
    (distinct : (plan.map Settings.name).Nodup) (name : String) :
    (plan.load sections).get name =
      if name ∈ config.tunnels then
        ((sections.foldl Plan.configSection (false, plan)).2.get name).map config.weighed
      else none := by
  have viewed : Plan.get ((plan.configured sections).map config.weighed) name =
      ((plan.configured sections).get name).map config.weighed := Registry.get_map weighed_name
  rw [load_eq read distinct, viewed, configured_get read]
  split <;> rfl

/-- The defaults where a tunnel is first met, and may be created. -/
def firstDefaults (config : ConfFile) (name : String) : Defaults :=
  config.defaultsBefore name .init (config.walk none)

/-- The settings of a tunnel after a load, by those it had if it was there. -/
def outcome (config : ConfFile) (name : String) (before : Option Settings) : Settings :=
  let created := Settings.create (config.tunnelConf (config.firstDefaults name) name)
    (config.firstDefaults name).serverMode
  config.weighed ((before.getD created).refit
    (config.tunnelConf (config.defaultsLast name .init (config.walk none)) name))

/-- What a load leaves of a tunnel of the file; the rest is dropped. -/
theorem load_get {sections : List (Section κ)}
    (read : config.readSections reader flowId .init (config.walk none) = some sections)
    (member : name ∈ config.tunnels) {plan : Plan} (distinct : (plan.map Settings.name).Nodup) :
    (plan.load sections).get name = some (config.outcome name (plan.get name)) := by
  obtain ⟨walked, tunnel⟩ := mem_tunnels.mp member
  rw [load_get_eq read distinct, if_pos member]
  exact congrArg (Option.map config.weighed) (readSections_get read walked tunnel plan)

end ConfFile

end Mlvpn
