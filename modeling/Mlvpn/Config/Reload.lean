import Mlvpn.Config.Unchanged

/-! # What a load leaves

The first load is a call of `mlvpn_config` with `first_time` set, and every later
one a call without it.  After a load that succeeds the tunnels are those of the
file, whatever was there before; a load that fails has by then forgotten the
filters, and that there is a fallback.
-/

namespace Mlvpn

open Library Library.Machine

variable {κ : Type}

namespace ConfFile

variable {config : ConfFile} {name : String}

theorem mem_of_walk {last : Option String} (walked : name ∈ config.walk last) :
    ∃ entry ∈ config, entry.sectionName = name := by
  induction config generalizing last with
  | nil => cases walked
  | cons entry rest ih =>
      simp only [walk] at walked
      split at walked
      next =>
        obtain ⟨other, member, named⟩ := ih walked
        exact ⟨other, List.mem_cons_of_mem _ member, named⟩
      next =>
        cases walked with
        | head => exact ⟨entry, List.mem_cons_self, rfl⟩
        | tail _ walked =>
            obtain ⟨other, member, named⟩ := ih walked
            exact ⟨other, List.mem_cons_of_mem _ member, named⟩

/-- The loop passes over an entry only if its section is the last one taken up. -/
theorem walk_of_mem {entry : ConfEntry} (member : entry ∈ config) (last : Option String) :
    last = some entry.sectionName ∨ entry.sectionName ∈ config.walk last := by
  induction config generalizing last with
  | nil => cases member
  | cons first rest ih =>
      simp only [walk]
      cases member with
      | head =>
          split
          next passed => exact .inl passed
          next => exact .inr List.mem_cons_self
      | tail _ member =>
          split
          next => exact ih member last
          next =>
            rcases ih member (some first.sectionName) with same | walked
            · simp [Option.some.inj same]
            · exact .inr (List.mem_cons_of_mem _ walked)

/-- The sections that are taken up are those with an entry. -/
theorem mem_walk_iff : name ∈ config.walk none ↔ ∃ entry ∈ config, entry.sectionName = name := by
  refine ⟨mem_of_walk, ?_⟩
  rintro ⟨entry, member, rfl⟩
  rcases walk_of_mem member none with passed | walked
  · cases passed
  · exact walked

/-- However the sections repeat, the tunnels are the names with an entry. -/
theorem mem_tunnels_iff :
    name ∈ config.tunnels ↔ IsTunnel name ∧ ∃ entry ∈ config, entry.sectionName = name := by
  rw [mem_tunnels, and_comm, mem_walk_iff]

end ConfFile

namespace Daemon

/-- `mlvpn_config` over a file that parses; `first_time` spares the old tunnels. -/
def config (d : Daemon κ) (firstTime : Bool) (conf : Config κ) (now : ℚ) (send : Nat → SendResult) :
    Option (Daemon κ) :=
  let d := { d with fallbackAvailable := 0, filters := [] }
  (run (configSection now) (false, d) conf.sections).bind fun result =>
    (if firstTime then some result.2
      else run (dropIfMissing conf now send) result.2 result.2.rtuns).map fun d =>
        let found := conf.filters.filterMap fun (filter, name) =>
          (d.named name).map fun i => (filter, i)
        { d with filters := found.take 255 }

variable {d d' : Daemon κ} {conf : Config κ} {now : ℚ} {send : Nat → SendResult}

theorem configReload_eq_config :
    d.configReload (some conf) now send = (d.config false conf now send).map recalcWeight := by
  simp only [configReload, config, Bool.false_eq_true, if_false, Option.map_bind, Option.map_map,
    Function.comp_def]

end Daemon

/-- The sections add no tunnel but their own. -/
theorem Plan.of_mem_configSections {plan : Plan} {name : String} {serverMode : Bool}
    {sections : List (Section κ)}
    (member : name ∈ (sections.foldl configSection (serverMode, plan)).2.map Settings.name) :
    name ∈ plan.map Settings.name ∨ sections.any (Section.names name) := by
  induction sections generalizing plan serverMode with
  | nil => exact .inl member
  | cons part rest ih =>
      rw [List.foldl_cons] at member
      cases part with
      | general general =>
          rcases ih member with there | named
          · exact .inl there
          · exact .inr (by simp [named])
      | tunnel conf flowId =>
          rcases ih member with there | named
          · unfold configTunnel at there
            split at there
            next =>
              split at there
              next => exact .inl there
              next =>
                rw [List.map_cons, List.mem_cons, Settings.create_name] at there
                rcases there with own | old
                · exact .inr (by simp [Section.names, own])
                · exact .inl old
            next =>
              rw [Registry.map_key_revise (Settings.refit_name conf)] at there
              exact .inl there
          · exact .inr (by simp [named])

namespace Daemon

variable {d d' : Daemon κ} {conf : Config κ} {now : ℚ} {send : Nat → SendResult}

/-- Where there were no tunnels, there are none to be dropped. -/
theorem config_first (current : d.Current) (empty : d.rtuns = []) :
    d.config true conf now send = d.config false conf now send := by
  simp only [config, if_true, Bool.false_eq_true, if_false]
  refine Option.bind_congr fun result parsed => ?_
  have kept : run (dropIfMissing conf now send) result.2 result.2.rtuns = some result.2 := by
    apply dropMissing_none
    intro i listed
    have planned := (configSections_plan conf.sections current.reloading parsed).2
    have member : (result.2.tun i).name ∈ result.2.plan.map Settings.name := by
      simp only [plan, List.map_map, List.mem_map]
      exact ⟨i, listed, rfl⟩
    rw [show result.2.plan = _ from congrArg Prod.snd planned] at member
    rcases Plan.of_mem_configSections member with old | named
    · simp [plan, empty] at old
    · exact named
  rw [kept]

end Daemon

namespace Process

variable {reader : Reader κ} {p p' : Process κ}

/-- The first load of a process, and the weights. -/
def start (reader : Reader κ) (host : Host κ) (now : ℚ) (file : ConfFile)
    (flowId : String → UInt32) (send : Nat → SendResult) : Option (Process κ) :=
  (file.read reader flowId).bind fun conf =>
    ((Daemon.init host).config true conf now send).map fun d => ⟨d.recalcWeight, Options.init.read file⟩

theorem start_eq_load (host : Host κ) (now : ℚ) (file : ConfFile) (flowId : String → UInt32)
    (send : Nat → SendResult) :
    start reader host now file flowId send =
      (init host).step reader (now, .load file flowId send) := by
  have running : (init host).daemon.stopped = false := rfl
  simp only [start, step, running, Bool.false_eq_true, if_false, Daemon.configReload_eq_config,
    Option.map_map, Function.comp_def]
  refine Option.bind_congr fun conf _ => ?_
  rw [Daemon.config_first (Daemon.current_init host) rfl]
  rfl

/-- The file that was loaded last. -/
def latest (file : ConfFile) : List (ℚ × Input κ) → ConfFile
  | [] => file
  | (_, .event _ _) :: rest => latest file rest
  | (_, .load later _ _) :: rest => latest later rest

theorem Loaded.run {file : ConfFile} {inputs : List (ℚ × Input κ)} (loaded : Loaded reader p file)
    (running : p'.daemon.stopped = false) (reached : Machine.run (step reader) p inputs = some p') :
    Loaded reader p' (latest file inputs) := by
  induction inputs generalizing p file with
  | nil =>
      cases reached
      exact loaded
  | cons input rest ih =>
      obtain ⟨p₁, first, later⟩ := run_cons_eq_some.mp reached
      obtain ⟨now, input⟩ := input
      cases input with
      | event e fixed =>
          have plan := (step_event loaded.current first).1
          exact ih (loaded.keep (step_current loaded.current first) plan) later
      | load file flowId send =>
          have before := step_running (run_running running later) first
          exact ih (loaded_of_load loaded.current before first) later

/-- The names of the tunnels. -/
def names (p : Process κ) : List String := p.daemon.rtuns.map fun i => (p.daemon.tun i).name

theorem Loaded.mem_names {file : ConfFile} (loaded : Loaded reader p file) {name : String} :
    name ∈ p.names ↔ name ∈ file.tunnels := by
  have planned : p.names = p.daemon.plan.map Settings.name := by
    simp only [names, Daemon.plan, List.map_map]
    rfl
  rw [planned]
  constructor
  · intro member
    by_contra absent
    exact Registry.get_eq_none_iff.mp (loaded.only name absent) member
  · intro member
    obtain ⟨before, found⟩ := loaded.found name member
    by_contra absent
    rw [show p.daemon.plan.get name = none from Registry.get_eq_none_iff.mpr absent] at found
    cases found

/-- From the first load on, the tunnels have different names, and these are the names of the
    sections of the last file, however often they come, but for `general` and the filters. -/
theorem tunnels_follow_file {host : Host κ} {first : ConfFile} {started : ℚ}
    {flowId : String → UInt32} {send : Nat → SendResult} {inputs : List (ℚ × Input κ)}
    (begun : start reader host started first flowId send = some p)
    (reached : run (step reader) p inputs = some p') (running : p'.daemon.stopped = false) :
    p'.names.Nodup ∧ ∀ name, name ∈ p'.names ↔
      IsTunnel name ∧ ∃ entry ∈ latest first inputs, entry.sectionName = name := by
  rw [start_eq_load] at begun
  have loaded := (loaded_of_load (Daemon.current_init host) rfl begun).run running reached
  refine ⟨loaded.current.names, fun name => ?_⟩
  rw [loaded.mem_names, ConfFile.mem_tunnels_iff]

/-- A file of a server with two sections of the tunnel `b` and one of the tunnel `c` between. -/
def twiceFile : ConfFile :=
  [⟨"general", "mode", "server"⟩, ⟨"general", "password", "secret"⟩, ⟨"b", "bindport", "5081"⟩,
    ⟨"c", "bindport", "5082"⟩, ⟨"b", "bandwidth_upload", "1000"⟩, ⟨"filters", "b", "udp"⟩]

/-- The tunnel `a` is replaced by `b` and `c`. -/
theorem tunnels_replaced :
    ∃ p ∈ start plainReader ⟨.little, plainBox, ()⟩ 0 fullFile (fun _ => 1) fun _ => .blocked,
      ∃ p' ∈ run (step plainReader) p (connectInputs ++ [(3, loadInput twiceFile)]),
        p'.names = ["c", "b"] ∧ p'.names.Nodup ∧ ∀ name, name ∈ p'.names ↔
          IsTunnel name ∧
            ∃ entry ∈ latest fullFile (connectInputs ++ [(3, loadInput twiceFile)]),
              entry.sectionName = name := by
  obtain ⟨p, begun, p', reached, running, names⟩ :
      ∃ p ∈ start plainReader ⟨.little, plainBox, ()⟩ 0 fullFile (fun _ => 1) fun _ => .blocked,
        ∃ p' ∈ run (step plainReader) p (connectInputs ++ [(3, loadInput twiceFile)]),
          p'.daemon.stopped = false ∧ p'.names = ["c", "b"] := by
    decide +kernel
  exact ⟨p, begun, p', reached, names, tunnels_follow_file begun reached running⟩

/-- A reload that fails has forgotten the filters and the fallback, and nothing else. -/
theorem failed_reload_eq {now : ℚ} {send : Nat → SendResult}
    {fixed : ¬ (Daemon.Event.reload none send : Daemon.Event κ).Loads}
    (running : p.daemon.stopped = false)
    (done : p.step reader (now, .event (.reload none send) fixed) = some p') :
    p' = { p with daemon := { p.daemon with fallbackAvailable := 0, filters := [] } } := by
  obtain ⟨d, stepped, rfl⟩ := Option.map_eq_some_iff.mp done
  unfold Daemon.step at stepped
  dsimp only at stepped
  rw [running, if_neg Bool.false_ne_true] at stepped
  cases stepped
  rfl

/-- A reload that fails changes nothing exactly if there is no fallback and no filter. -/
theorem failed_reload_unchanged_iff {now : ℚ} {send : Nat → SendResult}
    {fixed : ¬ (Daemon.Event.reload none send : Daemon.Event κ).Loads}
    (running : p.daemon.stopped = false)
    (done : p.step reader (now, .event (.reload none send) fixed) = some p') :
    p' = p ↔ p.daemon.fallbackAvailable = 0 ∧ p.daemon.filters = [] := by
  rw [failed_reload_eq running done]
  obtain ⟨daemon, options⟩ := p
  obtain ⟨⟩ := daemon
  simp only [Process.mk.injEq, Daemon.mk.injEq, true_and, and_true, eq_comm]

/-- A server without filters and fallbacks is not changed. -/
theorem failed_reload_of_full_file :
    ∃ p ∈ start plainReader ⟨.little, plainBox, ()⟩ 0 fullFile (fun _ => 1) fun _ => .blocked,
      p.step plainReader (1, .event (.reload none fun _ => .blocked) id) = some p := by
  obtain ⟨p, begun, p', reloaded, running, fallback, filters⟩ :
      ∃ p ∈ start plainReader ⟨.little, plainBox, ()⟩ 0 fullFile (fun _ => 1) fun _ => .blocked,
        ∃ p' ∈ p.step plainReader (1, .event (.reload none fun _ => .blocked) id),
          p.daemon.stopped = false ∧ p.daemon.fallbackAvailable = 0 ∧
            p.daemon.filters.length = 0 := by
    decide +kernel
  have same := (failed_reload_unchanged_iff running reloaded).mpr
    ⟨fallback, List.length_eq_zero_iff.mp filters⟩
  exact ⟨p, begun, reloaded.trans (congrArg some same)⟩

/-- A file of a server whose tunnel is a fallback, with a filter. -/
def filteredFile : ConfFile :=
  serverFile [("bindport", "5080"), ("fallback_only", "1")] ++ [⟨"filters", "a", "udp"⟩]

/-- Every filter compiles, and takes every packet. -/
def filterReader : Reader Unit := ⟨fun _ => (), fun _ => some fun _ => true⟩

/-- The filter is gone, and the fallback is not known, after a reload that fails. -/
theorem failed_reload_forgets :
    ∃ p ∈ start filterReader ⟨.little, plainBox, ()⟩ 0 filteredFile (fun _ => 1) fun _ => .blocked,
      ∃ p' ∈ p.step filterReader (1, .event (.reload none fun _ => .blocked) id),
        (p.daemon.filters.map Prod.snd, p.daemon.fallbackAvailable) = ([0], 1) ∧
          (p'.daemon.filters.map Prod.snd, p'.daemon.fallbackAvailable) = ([], 0) := by
  decide +kernel

end Process

end Mlvpn
