import Mlvpn.Config.Reload

/-! # The order of the sections

The settings of a section are looked up in the whole list, so they do not depend on where it
stands.  What a tunnel leaves out is a default, which is that of the section `general` only
if this section has been taken up before: the mode and the timeout count where the tunnel
is first met, and the tolerences where it is last met.
-/

namespace Mlvpn

open Library Library.Machine

namespace ConfFile

variable {κ : Type} {file file' : ConfFile} {name : String}

/-- The sections of two files have the same entries, in the same order. -/
def SameSections (file file' : ConfFile) : Prop :=
  ∀ name, (file.filter fun entry => entry.sectionName = name) =
    file'.filter fun entry => entry.sectionName = name

/-- The entries of sections that are given one after the other. -/
def ofSections (sections : List (String × List (String × String))) : ConfFile :=
  sections.flatMap fun (name, settings) => settings.map fun (var, val) => ⟨name, var, val⟩

/-- A permutation of different sections keeps the entries of each. -/
theorem sameSections_of_perm {sections sections' : List (String × List (String × String))}
    (perm : sections.Perm sections') (distinct : (sections.map Prod.fst).Nodup) :
    (ofSections sections).SameSections (ofSections sections') := by
  intro name
  induction perm with
  | nil => rfl
  | cons first _ ih =>
      simp only [ofSections, List.flatMap_cons, List.filter_append] at ih ⊢
      rw [ih (List.nodup_cons.mp distinct).2]
  | swap first second rest =>
      have apart : second.1 ≠ first.1 := by
        intro both
        simp [both] at distinct
      by_cases here : first.1 = name
      · have there : second.1 ≠ name := here ▸ apart
        simp [ofSections, List.filter_map, Function.comp_def, here, there]
      · simp [ofSections, List.filter_map, Function.comp_def, here]
  | trans before _ ih ih' =>
      exact (ih distinct).trans (ih' ((before.map Prod.fst).nodup_iff.mp distinct))

theorem getValue_eq_filter (file : ConfFile) (name var : String) :
    file.getValue name var = ((file.filter fun entry => entry.sectionName = name).find? fun entry =>
      entry.var = var).map ConfEntry.val := by
  simp [getValue, List.find?_filter]

namespace SameSections

variable (same : file.SameSections file')

include same

theorem getValue (name var : String) : file'.getValue name var = file.getValue name var := by
  rw [getValue_eq_filter, getValue_eq_filter, same]

theorem getUint (name var : String) (default : UInt32) :
    file'.getUint name var default = file.getUint name var default := by
  simp only [ConfFile.getUint, same.getValue]

theorem tunnelConf (defaults : Defaults) (name : String) :
    file'.tunnelConf defaults name = file.tunnelConf defaults name := by
  simp only [ConfFile.tunnelConf, same.getValue, same.getUint]

theorem generalDefaults (defaults : Defaults) : file'.generalDefaults defaults = file.generalDefaults defaults := by
  simp only [ConfFile.generalDefaults, same.getValue, same.getUint]

theorem readGeneral (reader : Reader κ) : file'.readGeneral reader = file.readGeneral reader := by
  simp only [ConfFile.readGeneral, same.getValue, same.getUint]

/-- The same sections are taken up, in another order and number. -/
theorem mem_walk (name : String) : name ∈ file'.walk none ↔ name ∈ file.walk none := by
  have section_iff : ∀ file : ConfFile, (∃ entry ∈ file, entry.sectionName = name) ↔
      (file.filter fun entry => entry.sectionName = name) ≠ [] := by
    intro file
    simp
  rw [mem_walk_iff, mem_walk_iff, section_iff, section_iff, same]

theorem mem_tunnels (name : String) : name ∈ file'.tunnels ↔ name ∈ file.tunnels := by
  rw [ConfFile.mem_tunnels, ConfFile.mem_tunnels, same.mem_walk]

/-- A new tunnel has the same weight, whatever the order. -/
theorem weight (name : String) : file'.weight name = file.weight name := by
  have bandwidth : file'.bandwidth = file.bandwidth := funext fun name => same.getUint name _ 0
  have total : file'.bandwidthTotal = file.bandwidthTotal := by
    have perm : file'.tunnels.dedup.Perm file.tunnels.dedup := by
      rw [List.perm_ext_iff_of_nodup (List.nodup_dedup _) (List.nodup_dedup _)]
      intro name
      rw [List.mem_dedup, List.mem_dedup, same.mem_tunnels]
    rw [bandwidthTotal, bandwidthTotal, bandwidth]
    exact (perm.map _).sum_eq
  have weighted : file'.Weighted ↔ file.Weighted := by
    simp only [Weighted, same.mem_tunnels, bandwidth, total]
  simp only [ConfFile.weight, weighted, bandwidth, total]

end SameSections

/-- The defaults once `general` has been taken up. -/
def general (file : ConfFile) : Defaults := file.generalDefaults .init

/-- The section `general` is taken up before the first section of a tunnel. -/
def LeadsFirst (file : ConfFile) (name : String) : Prop :=
  "general" ∈ (file.walk none).takeWhile fun other => other ≠ name

/-- The section `general` is taken up before the last section of a tunnel. -/
def LeadsLast (file : ConfFile) (name : String) : Prop := List.Sublist ["general", name] (file.walk none)

instance (file : ConfFile) (name : String) : Decidable (file.LeadsFirst name) :=
  inferInstanceAs (Decidable (_ ∈ _))

instance (file : ConfFile) (name : String) : Decidable (file.LeadsLast name) :=
  inferInstanceAs (Decidable (List.Sublist _ _))

/-- Reading the section again changes nothing. -/
theorem generalDefaults_generalDefaults (defaults : Defaults) :
    file.generalDefaults (file.generalDefaults defaults) = file.generalDefaults defaults := by
  simp [generalDefaults]

/-- The defaults depend on whether `general` has been taken up. -/
theorem foldl_nextDefaults (names : List String) (defaults : Defaults) :
    names.foldl file.nextDefaults defaults =
      if "general" ∈ names then file.generalDefaults defaults else defaults := by
  induction names generalizing defaults with
  | nil => rfl
  | cons name rest ih =>
      rw [List.foldl_cons, ih]
      by_cases here : name = "general"
      · simp [nextDefaults, here, generalDefaults_generalDefaults]
      · simp [nextDefaults, here, Ne.symm here]

theorem firstDefaults_eq (file : ConfFile) (name : String) :
    file.firstDefaults name = if file.LeadsFirst name then file.general else .init :=
  foldl_nextDefaults _ _

theorem defaultsLast_eq {names : List String} (member : name ∈ names) (defaults : Defaults) :
    file.defaultsLast name defaults names =
      if List.Sublist ["general", name] names then file.generalDefaults defaults else defaults := by
  induction names generalizing defaults with
  | nil => cases member
  | cons other rest ih =>
      simp only [defaultsLast, List.cons_sublist_cons', List.singleton_sublist]
      by_cases later : name ∈ rest
      · rw [if_pos later, ih later]
        by_cases here : other = "general"
        · simp [nextDefaults, here, later, generalDefaults_generalDefaults]
        · simp [nextDefaults, here, Ne.symm here]
      · have ends : ¬ List.Sublist ["general", name] rest := fun some => later (some.subset (by simp))
        simp [later, ends]

theorem lastDefaults_eq (member : name ∈ file.tunnels) :
    file.defaultsLast name .init (file.walk none) = if file.LeadsLast name then file.general else .init :=
  defaultsLast_eq (mem_tunnels.mp member).1 .init

section Readable

variable {reader : Reader κ} {flowId : String → UInt32}

/-- A tunnel is met after `general` if its last section comes after it. -/
theorem leadsLast_iff :
    file.LeadsLast name ↔ ∃ before after, file.walk none = before ++ name :: after ∧ "general" ∈ before := by
  simp only [LeadsLast, List.cons_sublist_iff, List.nil_sublist, and_true]
  constructor
  · rintro ⟨first, rest, split, led, middle, after, found, member⟩
    obtain ⟨left, right, rfl⟩ := List.append_of_mem member
    exact ⟨first ++ left, right ++ after, by simp [split, found], List.mem_append_left _ led⟩
  · rintro ⟨before, after, split, led⟩
    exact ⟨before, name :: after, split, led, [name], after, rfl, List.mem_singleton_self name⟩

/-- A tunnel is met before `general` if its first section comes before it. -/
theorem not_leadsFirst_iff :
    (name ∈ file.walk none ∧ ¬ file.LeadsFirst name) ↔
      ∃ before after, file.walk none = before ++ name :: after ∧ "general" ∉ before := by
  unfold LeadsFirst
  constructor
  · rintro ⟨member, early⟩
    obtain ⟨before, after, split, new⟩ := List.eq_append_cons_of_mem member
    refine ⟨before, after, split, ?_⟩
    rwa [split, List.takeWhile_append_of_pos (by grind), List.takeWhile_cons_of_neg (by simp),
      List.append_nil] at early
  · rintro ⟨before, after, split, early⟩
    refine ⟨by simp [split], fun led => early ?_⟩
    rw [split, List.takeWhile_append, List.takeWhile_cons_of_neg (by simp), List.append_nil] at led
    split at led
    next => exact led
    next => exact (List.takeWhile_prefix _).subset led

/-- The sections can be read if `general` is complete, and every tunnel in the modes it is met in. -/
theorem read_isSome_iff :
    (∃ conf, file.read reader flowId = some conf) ↔
      ("general" ∈ file.walk none → ∃ general, file.readGeneral reader = some general) ∧
        ∀ name ∈ file.tunnels,
          (file.LeadsLast name → ¬ (file.tunnelConf .init name).Incomplete file.general.serverMode) ∧
            (¬ file.LeadsFirst name → ¬ (file.tunnelConf .init name).Incomplete false) := by
  have sections : (∃ conf, file.read reader flowId = some conf) ↔
      ∃ sections, file.readSections reader flowId .init (file.walk none) = some sections := by
    simp [read]
  rw [sections, readSections_isSome_iff]
  refine and_congr_right fun _ => ⟨fun complete name member => ⟨fun last => ?_, fun early => ?_⟩, ?_⟩
  · obtain ⟨before, after, split, led⟩ := leadsLast_iff.mp last
    have met := complete before name after split (mem_tunnels.mp member).2
    rwa [foldl_nextDefaults, if_pos led] at met
  · obtain ⟨before, after, split, led⟩ := not_leadsFirst_iff.mp ⟨(mem_tunnels.mp member).1, early⟩
    have met := complete before name after split (mem_tunnels.mp member).2
    rwa [foldl_nextDefaults, if_neg led] at met
  · intro complete before name after split tunnel
    have member : name ∈ file.tunnels := mem_tunnels.mpr ⟨by simp [split], tunnel⟩
    rw [foldl_nextDefaults]
    by_cases led : "general" ∈ before
    · rw [if_pos led]
      exact (complete name member).1 (leadsLast_iff.mpr ⟨before, after, split, led⟩)
    · rw [if_neg led]
      exact (complete name member).2 (not_leadsFirst_iff.mpr ⟨before, after, split, led⟩).2

end Readable

section Outcome

/-- Whether the defaults of a place are those of `general`. -/
theorem default_eq_iff {α : Type} (part : Defaults → α) (led led' : Prop) [Decidable led] [Decidable led']
    (general initial : Defaults) :
    part (if led then general else initial) = part (if led' then general else initial) ↔
      (led ↔ led') ∨ part general = part initial := by
  by_cases first : led <;> by_cases second : led' <;> simp [first, second, eq_comm]

/-- The value of `general` counts where the tunnel has none, and where it is not the default. -/
theorem getUint_eq_iff (file : ConfFile) (name var : String) {cap : UInt32 → UInt32}
    (idempotent : ∀ value, cap (cap value) = cap value) {default : UInt32} (capped : cap default = default)
    (value : UInt32) :
    (cap (file.getUint name var (cap value))).toNat = (cap (file.getUint name var default)).toNat ↔
      (file.getValue name var).isSome ∨ cap value = default := by
  rw [UInt32.toNat_inj]
  cases given : file.getValue name var <;> simp [getUint, given, idempotent, capped]

theorem capTimeout_capTimeout (timeout : UInt32) : capTimeout (capTimeout timeout) = capTimeout timeout := by
  unfold capTimeout
  split_ifs <;> simp_all

theorem capTolerence_capTolerence (most tolerence : UInt32) :
    capTolerence most (capTolerence most tolerence) = capTolerence most tolerence := by
  unfold capTolerence
  split_ifs <;> simp_all

/-- Where `general` comes before a tunnel in one of two files only, the tunnel does not depend on
    it: it has its own settings, or those of `general` are the defaults. -/
@[mk_iff]
structure SettingsAgree (file file' : ConfFile) (name : String) : Prop where
  mode : (file.LeadsFirst name ↔ file'.LeadsFirst name) ∨ file.general.serverMode = false
  timeout : (file.LeadsFirst name ↔ file'.LeadsFirst name) ∨
    (file.getValue name "timeout").isSome ∨ file.general.timeout = 60
  loss : (file.LeadsLast name ↔ file'.LeadsLast name) ∨
    (file.getValue name "loss_tolerence").isSome ∨ file.general.lossTolerence = 100
  latency : (file.LeadsLast name ↔ file'.LeadsLast name) ∨
    (file.getValue name "latency_tolerence").isSome ∨ file.general.latencyTolerence = 1000

instance (file file' : ConfFile) (name : String) : Decidable (SettingsAgree file file' name) :=
  decidable_of_iff _ (settingsAgree_iff file file' name).symm

/-- The settings of a new tunnel are the same in both orders. -/
theorem outcome_eq_iff (same : file.SameSections file') (member : name ∈ file.tunnels) :
    file.outcome name none = file'.outcome name none ↔ SettingsAgree file file' name := by
  have member' : name ∈ file'.tunnels := (same.mem_tunnels name).mpr member
  have general : file'.general = file.general := same.generalDefaults _
  rw [outcome_none, outcome_none, lastDefaults_eq member, lastDefaults_eq member', firstDefaults_eq,
    firstDefaults_eq, general, same.weight, settingsAgree_iff]
  simp only [Settings.create, tunnelConf, same.getValue, same.getUint, Settings.mk.injEq, true_and, and_true]
  refine and_congr ?_ (and_congr ?_ (and_congr ?_ ?_))
  · exact default_eq_iff Defaults.serverMode (file.LeadsFirst name) (file'.LeadsFirst name) file.general .init
  · refine (default_eq_iff (fun d => (file.tunnelConf d name).timeout) (file.LeadsFirst name)
      (file'.LeadsFirst name) _ _).trans ?_
    exact or_congr_right (getUint_eq_iff file name "timeout" capTimeout_capTimeout rfl _)
  · refine (default_eq_iff (fun d => (file.tunnelConf d name).lossTolerence) (file.LeadsLast name)
      (file'.LeadsLast name) _ _).trans ?_
    exact or_congr_right (getUint_eq_iff file name "loss_tolerence" (capTolerence_capTolerence 100) rfl _)
  · refine (default_eq_iff (fun d => (file.tunnelConf d name).latencyTolerence) (file.LeadsLast name)
      (file'.LeadsLast name) _ _).trans ?_
    exact or_congr_right (getUint_eq_iff file name "latency_tolerence" (capTolerence_capTolerence 1000) rfl _)

end Outcome

theorem leadsLast_of_leadsFirst (member : name ∈ file.walk none) (first : file.LeadsFirst name) :
    file.LeadsLast name := by
  obtain ⟨before, after, split⟩ := List.append_of_mem member
  by_cases led : "general" ∈ before
  · exact leadsLast_iff.mpr ⟨before, after, split, led⟩
  · exact absurd first (not_leadsFirst_iff.mpr ⟨before, after, split, led⟩).2

/-- A file whose tunnels get the same settings in both orders can be read in the other one, but
    for a port that is missing where a tunnel comes once more after `general`. -/
theorem read_isSome_order {reader : Reader κ} {flowId flowId' : String → UInt32}
    (same : file.SameSections file') (agree : ∀ name ∈ file.tunnels, SettingsAgree file file' name)
    (readable : ∃ conf, file.read reader flowId = some conf) :
    (∃ conf, file'.read reader flowId' = some conf) ↔
      ∀ name ∈ file.tunnels, file'.LeadsLast name → file.general.serverMode = true →
        (file.getValue name "bindport").isSome := by
  obtain ⟨general, complete⟩ := read_isSome_iff.mp readable
  have defaults : file'.general = file.general := same.generalDefaults _
  rw [read_isSome_iff, same.mem_walk, same.readGeneral, and_iff_right general]
  simp only [same.mem_tunnels, same.tunnelConf, defaults]
  refine forall₂_congr fun name member => ?_
  obtain ⟨last, early⟩ := complete name member
  cases mode : file.general.serverMode with
  | false =>
      rw [mode] at last
      have met : ¬ (file.tunnelConf .init name).Incomplete false := by
        by_cases first : file.LeadsFirst name
        · exact last (leadsLast_of_leadsFirst (mem_tunnels.mp member).1 first)
        · exact early first
      simp [met]
  | true =>
      have first : file.LeadsFirst name ↔ file'.LeadsFirst name := by simpa [mode] using (agree name member).mode
      have port : ¬ (file.tunnelConf .init name).Incomplete true ↔ (file.getValue name "bindport").isSome := by
        simp [TunnelConf.Incomplete, tunnelConf, Option.isSome_iff_ne_none]
      rw [first] at early
      rw [and_iff_left early, port]
      simp

end ConfFile

namespace Daemon

variable {κ : Type} {d : Daemon κ} {i : Nat}

/-- No tunnel is connected, as it is before the loop runs. -/
def Unconnected (d : Daemon κ) : Prop := ∀ i, ¬ (d.tun i).status.Up

theorem unconnected_init (host : Host κ) : (init host).Unconnected :=
  fun _ => (by decide : ¬ Status.disconnected.Up)

theorem Unconnected.modify (unconnected : d.Unconnected) {f : Tunnel → Tunnel}
    (down : ¬ (f (d.tun i)).status.Up) : (d.modify i f).Unconnected := by
  intro j
  rw [tun_modify]
  split
  next => exact down
  next => exact unconnected j

theorem Unconnected.rtunNew (unconnected : d.Unconnected) (conf : TunnelConf) (serverMode : Bool)
    (flowId : UInt32) (now : ℚ) : (d.rtunNew conf serverMode flowId now).Unconnected := by
  unfold Daemon.rtunNew
  split
  next => exact unconnected
  next =>
    intro j
    rw [tun_append (t := Tunnel.init conf serverMode flowId now) rfl]
    split
    next => exact (by decide : ¬ Status.disconnected.Up)
    next => exact unconnected j

/-- The table is rebuilt, which may fail, only if the tunnel was connected. -/
theorem Unconnected.statusDown (unconnected : d.Unconnected) (i : Nat) :
    ∃ d', d.statusDown i = some d' ∧ d'.Unconnected := by
  have lowered : (d.modify i Tunnel.lowered).Unconnected :=
    unconnected.modify (by decide : ¬ Status.disconnected.Up)
  rw [Daemon.statusDown, if_neg (unconnected i)]
  exact ⟨_, rfl, lowered⟩

theorem Unconnected.configTunnel (unconnected : d.Unconnected) (conf : TunnelConf) (serverMode : Bool)
    (flowId : UInt32) (now : ℚ) :
    ∃ d', d.configTunnel conf serverMode flowId now = some d' ∧ d'.Unconnected := by
  have flagged : (if conf.fallbackOnly ≠ 0 then { d with fallbackAvailable := 1 } else d).Unconnected := by
    split <;> exact unconnected
  rw [Daemon.configTunnel]
  generalize (if conf.fallbackOnly ≠ 0 then { d with fallbackAvailable := 1 } else d) = d₁ at flagged
  split
  next => exact ⟨_, rfl, flagged.rtunNew conf serverMode flowId now⟩
  next i named =>
    obtain ⟨d₂, settled, down⟩ :
        ∃ d₂, (if (d₁.tun i).Moved conf then d₁.statusDown i else some d₁) = some d₂ ∧ d₂.Unconnected := by
      split
      next => exact flagged.statusDown i
      next => exact ⟨d₁, rfl, flagged⟩
    rw [settled]
    exact ⟨_, rfl, down.modify (down i)⟩

/-- What fails in a first load is the reading of the file. -/
theorem Unconnected.config (unconnected : d.Unconnected) (conf : Config κ) (now : ℚ)
    (send : Nat → SendResult) : ∃ d', d.config true conf now send = some d' := by
  have progress : ∀ (s : Bool × Daemon κ) part, s.2.Unconnected →
      ∃ s', configSection now s part = some s' ∧ s'.2.Unconnected := by
    rintro ⟨serverMode, d⟩ (general | ⟨conf, flowId⟩) unconnected
    · exact ⟨_, rfl, unconnected⟩
    · obtain ⟨d', done, down⟩ := unconnected.configTunnel conf serverMode flowId now
      refine ⟨(serverMode, d'), ?_, down⟩
      rw [configSection, done]
      rfl
  have cleared : { d with fallbackAvailable := 0, filters := [] }.Unconnected := unconnected
  obtain ⟨s, parsed, _⟩ := run_total (I := fun s : Bool × Daemon κ => s.2.Unconnected) progress
    conf.sections (s := (false, _)) cleared
  rw [Daemon.config, parsed]
  exact ⟨_, rfl⟩

end Daemon

namespace Process

variable {κ : Type} {reader : Reader κ} {host host' : Host κ} {now now' : ℚ} {file file' : ConfFile}
  {flowId flowId' : String → UInt32} {send send' : Nat → SendResult} {p : Process κ}

theorem start_isSome_iff :
    (∃ p, start reader host now file flowId send = some p) ↔ ∃ conf, file.read reader flowId = some conf := by
  constructor
  · rintro ⟨p, begun⟩
    obtain ⟨conf, read, _⟩ := Option.bind_eq_some_iff.mp begun
    exact ⟨conf, read⟩
  · rintro ⟨conf, read⟩
    obtain ⟨d, done⟩ := (Daemon.unconnected_init host).config conf now send
    rw [start, read, Option.bind_some, done]
    exact ⟨_, rfl⟩

theorem start_settings (begun : start reader host now file flowId send = some p) (name : String) :
    p.settings name = if name ∈ file.tunnels then some (file.outcome name none) else none := by
  rw [start_eq_load] at begun
  rw [settings_eq, (start_plan begun).2]

/-- The sections of a file that can be loaded in another order give the same tunnels, with the
    same settings, exactly if no tunnel depends on where `general` comes. -/
theorem section_order_iff (begun : start reader host now file flowId send = some p)
    (same : file.SameSections file') :
    (∃ p', start reader host' now' file' flowId' send' = some p' ∧
      ∀ name, p'.settings name = p.settings name) ↔
        ∀ name ∈ file.tunnels, ConfFile.SettingsAgree file file' name ∧
          (file'.LeadsLast name → file.general.serverMode = true →
            (file.getValue name "bindport").isSome) := by
  have readable := start_isSome_iff.mp ⟨p, begun⟩
  constructor
  · rintro ⟨p', begun', settings⟩
    have agree : ∀ name ∈ file.tunnels, ConfFile.SettingsAgree file file' name := by
      intro name member
      have equal := settings name
      rw [start_settings begun, start_settings begun', if_pos member,
        if_pos ((same.mem_tunnels name).mpr member), Option.some.injEq] at equal
      exact (ConfFile.outcome_eq_iff same member).mp equal.symm
    have ports := (ConfFile.read_isSome_order same agree readable).mp (start_isSome_iff.mp ⟨p', begun'⟩)
    exact fun name member => ⟨agree name member, ports name member⟩
  · intro agree
    obtain ⟨p', begun'⟩ := start_isSome_iff.mpr ((ConfFile.read_isSome_order same
      (fun name member => (agree name member).1) readable).mpr fun name member => (agree name member).2)
    refine ⟨p', begun', fun name => ?_⟩
    simp only [start_settings begun, start_settings begun', same.mem_tunnels]
    split
    next member => rw [(ConfFile.outcome_eq_iff same member).mpr (agree name member).1]
    next => rfl

/-- A server that asks for an early timeout, and a tunnel with the addresses of both modes. -/
def serverSection : String × List (String × String) :=
  ("general", [("mode", "server"), ("password", "secret"), ("timeout", "30")])

def tunnelSection (name : String) : String × List (String × String) :=
  (name, [("bindport", "5080"), ("remotehost", "10.0.0.2"), ("remoteport", "5081")])

/-- The tunnels may come in any order after `general`. -/
theorem tunnels_swapped :
    let file := ConfFile.ofSections [serverSection, tunnelSection "a", tunnelSection "b"]
    let file' := ConfFile.ofSections [serverSection, tunnelSection "b", tunnelSection "a"]
    ∃ p ∈ start plainReader ⟨.little, plainBox, ()⟩ 0 file (fun _ => 1) fun _ => .blocked,
      ∃ p', start plainReader ⟨.little, plainBox, ()⟩ 0 file' (fun _ => 1) (fun _ => .blocked) = some p' ∧
        ∀ name, p'.settings name = p.settings name := by
  intro file file'
  obtain ⟨p, begun, _⟩ :
      ∃ p ∈ start plainReader ⟨.little, plainBox, ()⟩ 0 file (fun _ => 1) fun _ => .blocked, True := by
    decide +kernel
  have same : file.SameSections file' := ConfFile.sameSections_of_perm (by decide) (by decide)
  exact ⟨p, begun, (section_order_iff begun same).mpr (by decide +kernel)⟩

/-- A tunnel that comes before `general` is a client, with the timeout of the program. -/
theorem tunnel_before_general :
    let file := ConfFile.ofSections [serverSection, tunnelSection "a"]
    let file' := ConfFile.ofSections [tunnelSection "a", serverSection]
    file.SameSections file' ∧
      ∃ p ∈ start plainReader ⟨.little, plainBox, ()⟩ 0 file (fun _ => 1) fun _ => .blocked,
        ∃ p' ∈ start plainReader ⟨.little, plainBox, ()⟩ 0 file' (fun _ => 1) fun _ => .blocked,
          (p.settings "a").map (fun s => (s.serverMode, s.timeout)) = some (true, 30) ∧
            (p'.settings "a").map (fun s => (s.serverMode, s.timeout)) = some (false, 60) := by
  refine ⟨ConfFile.sameSections_of_perm (by decide) (by decide), ?_⟩
  decide +kernel

end Process

end Mlvpn
