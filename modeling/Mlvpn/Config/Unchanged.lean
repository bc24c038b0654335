import Mlvpn.Config.Restart

/-! # Reloading an unchanged file

A reload compares the addresses of a tunnel with those of its section, and takes
the tunnel down where they differ.  `mystr_eq` is false of a setting that is
missing, so a tunnel that leaves out any of its addresses is taken down by every
reload, the one of an unchanged file included.
-/

namespace Mlvpn

open Library Library.Machine

/-- The addresses fit the fields of a tunnel, with the byte that ends them. -/
def TunnelConf.Short (conf : TunnelConf) : Prop :=
  (∀ text ∈ conf.bindaddr, text.length < 256) ∧ (∀ text ∈ conf.bindport, text.length < 6) ∧
    (∀ text ∈ conf.destaddr, text.length < 256) ∧ ∀ text ∈ conf.destport, text.length < 6

instance (conf : TunnelConf) : Decidable conf.Short := inferInstanceAs (Decidable (_ ∧ _))

/-- A text that fits is stored as it is. -/
theorem strlcpy_of_short {old text : String} {size : Nat} {src : Option String} (given : src = some text)
    (short : ∀ text ∈ src, text.length < size) : strlcpy old size src = text := by
  have fits : text.length < size := short text given
  have whole : text.toList.take (size - 1) = text.toList :=
    List.take_of_length_le (by rw [String.length_toList]; omega)
  rw [given, strlcpy, whole, String.ofList_toList]

/-- A call of `mlvpn_rtun_status_down` or of `mlvpn_rtun_new`. -/
def Effect.Disturbs : Effect → Prop
  | .statusDown _ | .created _ => True
  | _ => False

namespace Tunnel

variable {t t' t'' : Tunnel}

/-- The name, the addresses, the status and the queues are as they were. -/
structure Held (t t' : Tunnel) : Prop where
  name : t'.name = t.name
  bindaddr : t'.bindaddr = t.bindaddr
  bindport : t'.bindport = t.bindport
  bindfib : t'.bindfib = t.bindfib
  destaddr : t'.destaddr = t.destaddr
  destport : t'.destport = t.destport
  status : t'.status = t.status
  sbuf : t'.sbuf = t.sbuf
  hpsbuf : t'.hpsbuf = t.hpsbuf

theorem Held.refl (t : Tunnel) : Held t t := ⟨rfl, rfl, rfl, rfl, rfl, rfl, rfl, rfl, rfl⟩

theorem Held.trans (first : Held t t') (second : Held t' t'') : Held t t'' where
  name := second.name.trans first.name
  bindaddr := second.bindaddr.trans first.bindaddr
  bindport := second.bindport.trans first.bindport
  bindfib := second.bindfib.trans first.bindfib
  destaddr := second.destaddr.trans first.destaddr
  destport := second.destport.trans first.destport
  status := second.status.trans first.status
  sbuf := second.sbuf.trans first.sbuf
  hpsbuf := second.hpsbuf.trans first.hpsbuf

theorem Held.moved_iff (held : Held t t') (conf : TunnelConf) : t'.Moved conf ↔ t.Moved conf := by
  unfold Moved
  rw [held.bindaddr, held.bindport, held.bindfib, held.destaddr, held.destport]

/-- The same addresses once more. -/
theorem refit_held {conf : TunnelConf} (settled : ¬ t.Moved conf) (short : conf.Short) :
    Held t (t.refit conf) := by
  unfold Moved at settled
  simp only [not_or, not_not] at settled
  obtain ⟨bindaddr, bindport, bindfib, destaddr, destport⟩ := settled
  obtain ⟨shortBindaddr, shortBindport, shortDestaddr, shortDestport⟩ := short
  exact ⟨rfl, strlcpy_of_short bindaddr shortBindaddr, strlcpy_of_short bindport shortBindport,
    bindfib.symm, strlcpy_of_short destaddr shortDestaddr, strlcpy_of_short destport shortDestport,
    rfl, rfl, rfl⟩

theorem weigh_held (total : UInt32) : Held t (t.weigh total) := by
  unfold weigh
  split
  next => exact ⟨rfl, rfl, rfl, rfl, rfl, rfl, rfl, rfl, rfl⟩
  next => exact .refl t

end Tunnel

namespace Daemon

open Tunnel

variable {κ : Type} {d d' d'' : Daemon κ} {i : Nat}

/-- No tunnel was taken down, created or dropped, and their status and queues are
    as they were. -/
structure Harmless (d d' : Daemon κ) : Prop where
  rtuns : d'.rtuns = d.rtuns
  calls : ∀ e : Effect, e.Disturbs → d'.trace.count e = d.trace.count e
  status : ∀ i, (d'.tun i).status = (d.tun i).status
  sbuf : ∀ i, (d'.tun i).sbuf = (d.tun i).sbuf
  hpsbuf : ∀ i, (d'.tun i).hpsbuf = (d.tun i).hpsbuf

/-- In the middle of a reload that is harmless so far. -/
structure Undisturbed (d d' : Daemon κ) : Prop where
  rtuns : d'.rtuns = d.rtuns
  calls : ∀ e : Effect, e.Disturbs → d'.trace.count e = d.trace.count e
  held : ∀ i, Held (d.tun i) (d'.tun i)

theorem Undisturbed.trans (first : Undisturbed d d') (second : Undisturbed d' d'') : Undisturbed d d'' where
  rtuns := second.rtuns.trans first.rtuns
  calls e disturbs := (second.calls e disturbs).trans (first.calls e disturbs)
  held i := (first.held i).trans (second.held i)

theorem Undisturbed.harmless (undisturbed : Undisturbed d d') : Harmless d d' where
  rtuns := undisturbed.rtuns
  calls := undisturbed.calls
  status i := (undisturbed.held i).status
  sbuf i := (undisturbed.held i).sbuf
  hpsbuf i := (undisturbed.held i).hpsbuf

theorem Undisturbed.named (undisturbed : Undisturbed d d') (name : String) : d'.named name = d.named name := by
  unfold Daemon.named
  rw [undisturbed.rtuns]
  simp only [(undisturbed.held _).name]

/-- What neither touches a tunnel, nor the list, nor calls anything. -/
theorem Undisturbed.aside (tuns : d'.tuns = d.tuns) (rtuns : d'.rtuns = d.rtuns)
    (trace : d'.trace = d.trace) : Undisturbed d d' := by
  refine ⟨rtuns, fun e _ => by rw [trace], fun i => ?_⟩
  rw [tun, tun, tuns]
  exact .refl _

theorem Undisturbed.modify {f : Tunnel → Tunnel} (held : Held (d.tun i) (f (d.tun i))) :
    Undisturbed d (d.modify i f) := by
  refine ⟨rfl, fun _ _ => rfl, fun j => ?_⟩
  rw [tun_modify]
  split
  next here => exact here.1 ▸ held
  next => exact .refl _

theorem configGeneral_undisturbed (d : Daemon κ) (general : General κ) :
    ∃ d', d.configGeneral general = some d' ∧ Undisturbed d d' := by
  refine ⟨_, rfl, rfl, fun e disturbs => ?_, fun i => .refl _⟩
  refine (List.count_append ..).trans (Nat.add_eq_right.mpr (List.count_eq_zero.mpr fun member => ?_))
  obtain ⟨r, _, rfl⟩ := List.mem_map.mp (List.mem_reverse.mp member)
  exact disturbs

/-- The section leaves its tunnel alone. -/
def Benign (d : Daemon κ) : Section κ → Prop
  | .general _ => True
  | .tunnel conf _ => conf.Short ∧ ∃ i, d.named conf.name = some i ∧ ¬ (d.tun i).Moved conf

theorem Undisturbed.benign (undisturbed : Undisturbed d d') {part : Section κ} (benign : d.Benign part) :
    d'.Benign part := by
  cases part with
  | general general => exact trivial
  | tunnel conf flowId =>
      obtain ⟨short, i, named, settled⟩ := benign
      refine ⟨short, i, (undisturbed.named conf.name).trans named, ?_⟩
      rwa [(undisturbed.held i).moved_iff]

theorem configSection_undisturbed (now : ℚ) (serverMode : Bool) {part : Section κ}
    (benign : d.Benign part) :
    ∃ s, configSection now (serverMode, d) part = some s ∧ Undisturbed d s.2 := by
  cases part with
  | general general =>
      obtain ⟨d', done, undisturbed⟩ := configGeneral_undisturbed d general
      refine ⟨(serverMode || general.serverMode, d'), ?_, undisturbed⟩
      rw [configSection, done]
      rfl
  | tunnel conf flowId =>
      obtain ⟨short, i, named, settled⟩ := benign
      have flagged : Undisturbed d (if conf.fallbackOnly ≠ 0 then { d with fallbackAvailable := 1 } else d) := by
        split <;> exact .aside rfl rfl rfl
      rw [configSection, configTunnel]
      generalize (if conf.fallbackOnly ≠ 0 then { d with fallbackAvailable := 1 } else d) = d₁ at flagged
      have settled₁ : ¬ (d₁.tun i).Moved conf := by rwa [(flagged.held i).moved_iff]
      rw [flagged.named, named]
      dsimp only
      rw [if_neg settled₁]
      exact ⟨_, rfl, flagged.trans (.modify (refit_held settled₁ short))⟩

theorem configSections_undisturbed (now : ℚ) (sections : List (Section κ)) (serverMode : Bool)
    (benign : ∀ part ∈ sections, d.Benign part) :
    ∃ s, run (configSection now) (serverMode, d) sections = some s ∧ Undisturbed d s.2 := by
  induction sections generalizing d serverMode with
  | nil => exact ⟨_, rfl, .aside rfl rfl rfl⟩
  | cons part rest ih =>
      obtain ⟨⟨mode, d₁⟩, first, undisturbed⟩ :=
        configSection_undisturbed now serverMode (benign part List.mem_cons_self)
      obtain ⟨s, later, rest⟩ := ih mode fun part member =>
        undisturbed.benign (benign part (List.mem_cons_of_mem _ member))
      exact ⟨s, run_cons_eq_some.mpr ⟨_, first, later⟩, undisturbed.trans rest⟩

/-- Where every tunnel has a section, none is dropped. -/
theorem dropMissing_none {conf : Config κ} {now : ℚ} {send : Nat → SendResult} {tunnels : List Nat}
    (covered : ∀ i ∈ tunnels, conf.sections.any (Section.names (d.tun i).name)) :
    run (dropIfMissing conf now send) d tunnels = some d := by
  induction tunnels with
  | nil => rfl
  | cons i rest ih =>
      refine run_cons_eq_some.mpr ⟨d, ?_, ih fun j member => covered j (List.mem_cons_of_mem _ member)⟩
      unfold dropIfMissing
      exact if_pos (covered i List.mem_cons_self)

theorem recalcWeight_undisturbed (d : Daemon κ) : Undisturbed d d.recalcWeight := by
  apply recalcWeight_keeps (I := Undisturbed d) (.aside rfl rfl rfl)
  intro s j total undisturbed
  exact undisturbed.trans (.modify (weigh_held total))

theorem Undisturbed.recalcWeight (undisturbed : Undisturbed d d') : Undisturbed d d'.recalcWeight :=
  undisturbed.trans (recalcWeight_undisturbed d')

theorem configReload_undisturbed (conf : Config κ) (now : ℚ) (send : Nat → SendResult)
    (benign : ∀ part ∈ conf.sections, d.Benign part)
    (covered : ∀ i ∈ d.rtuns, conf.sections.any (Section.names (d.tun i).name)) :
    ∃ d', d.configReload (some conf) now send = some d' ∧ Undisturbed d d' := by
  have cleared : Undisturbed d { d with fallbackAvailable := 0, filters := [] } := .aside rfl rfl rfl
  obtain ⟨⟨mode, d₁⟩, sections, settled⟩ := configSections_undisturbed now conf.sections false
    fun part member => cleared.benign (benign part member)
  have left : run (dropIfMissing conf now send) d₁ d₁.rtuns = some d₁ := by
    apply dropMissing_none
    intro i listed
    rw [(settled.held i).name]
    exact covered i (settled.rtuns ▸ listed)
  unfold configReload
  dsimp only
  rw [sections, Option.bind_some, left, Option.map_some]
  exact ⟨_, rfl, .recalcWeight ((cleared.trans settled).trans (.aside rfl rfl rfl))⟩

theorem Moves.count_le {may : Prop} (moves : Moves may d d') (e : Effect) :
    d.trace.count e ≤ d'.trace.count e :=
  moves.trace_suffix.sublist.count_le e

/-- A section that leaves out an address takes its tunnel down. -/
theorem configTunnel_disturbs {conf : TunnelConf} {serverMode : Bool} {flowId : UInt32} {now : ℚ}
    (named : d.named conf.name = some i) (moved : (d.tun i).Moved conf)
    (done : d.configTunnel conf serverMode flowId now = some d') :
    d.trace.count (.statusDown i) < d'.trace.count (.statusDown i) := by
  obtain ⟨d₁, flagged, configured⟩ := configTunnel_cases done
  have noted : Undisturbed d d₁ := by rcases flagged with rfl | rfl <;> exact .aside rfl rfl rfl
  have named₁ : d₁.named conf.name = some i := (noted.named conf.name).trans named
  have moved₁ : (d₁.tun i).Moved conf := ((noted.held i).moved_iff conf).mpr moved
  rcases configured with ⟨new, _⟩ | ⟨j, d₂, found, down, rfl⟩
  · rw [named₁] at new
    cases new
  cases Option.some.inj (named₁.symm.trans found)
  rcases down with ⟨_, down⟩ | ⟨settled, _⟩
  case inr => exact absurd moved₁ settled
  obtain ⟨d₃, rfl, passes⟩ := (statusDown_lowers down).passes
  obtain ⟨effects, logged, _⟩ := passes.trace
  have before : d.trace.count (.statusDown i) ≤ d₃.trace.count (.statusDown i) := by
    rw [logged, List.count_append]
    have same := noted.calls (.statusDown i) trivial
    exact same ▸ Nat.le_add_left _ _
  exact (Nat.lt_succ_of_le before).trans_eq List.count_cons_self.symm

/-- So does a reload with such a section, if the tunnel is there. -/
theorem configReload_disturbs {conf : Config κ} {now : ℚ} {send : Nat → SendResult}
    {tunnel : TunnelConf} {flowId : UInt32} (current : d.Current)
    (member : .tunnel tunnel flowId ∈ conf.sections) (listed : tunnel.name ∈ d.plan.map Settings.name)
    (moved : ∀ t : Tunnel, t.Moved tunnel) (done : d.configReload (some conf) now send = some d') :
    ∃ i, d.trace.count (.statusDown i) < d'.trace.count (.statusDown i) := by
  obtain ⟨earlier, later, split⟩ := List.append_of_mem member
  have begun := current.reloading
  obtain ⟨⟨mode, d₃⟩, parsed, ended⟩ := Option.bind_eq_some_iff.mp done
  have reloading := (configSections_plan conf.sections begun parsed).1
  rw [split] at parsed
  obtain ⟨⟨mode₁, d₁⟩, first, rest⟩ := run_append_eq_some.mp parsed
  obtain ⟨⟨mode₂, d₂⟩, section₂, last⟩ := run_cons_eq_some.mp rest
  have planned := congrArg Prod.snd (configSections_plan earlier begun first).2
  obtain ⟨i, named⟩ : ∃ i, d₁.named tunnel.name = some i := by
    have there : tunnel.name ∈ d₁.plan.map Settings.name := by
      rw [show d₁.plan = _ from planned]
      exact Plan.mem_configSections listed false earlier
    cases named : d₁.named tunnel.name with
    | none =>
        have missing := get_plan d₁ tunnel.name
        rw [named] at missing
        exact absurd there (Registry.get_eq_none_iff.mp missing)
    | some i => exact ⟨i, rfl⟩
  obtain ⟨d₂', configured, same⟩ := Option.map_eq_some_iff.mp section₂
  cases same
  have cleared : Moves True d { d with fallbackAvailable := 0, filters := [] } :=
    Moves.settle ⟨rfl, rfl, rfl, rfl, List.Subset.refl _⟩
  have firstMoves : Moves True d d₁ := cleared.trans (configSections_moves trivial first)
  have lastMoves : Moves True d₂ d₃ := configSections_moves trivial last
  have endMoves : Moves True d₂ d' := lastMoves.trans (configEnd_moves reloading.1.inside ended)
  refine ⟨i, ?_⟩
  calc
    d.trace.count (.statusDown i) ≤ d₁.trace.count (.statusDown i) := Moves.count_le firstMoves _
    _ < d₂.trace.count (.statusDown i) := configTunnel_disturbs named (moved _) configured
    _ ≤ d'.trace.count (.statusDown i) := Moves.count_le endMoves _

end Daemon

namespace ConfFile

variable {κ : Type} {config : ConfFile}

/-- Every tunnel gives all of its addresses. -/
def Full (config : ConfFile) : Prop :=
  ∀ name ∈ config.tunnels, ∀ key ∈ addressKeys, (config.getValue name key).isSome

instance (config : ConfFile) : Decidable config.Full := inferInstanceAs (Decidable (∀ _ ∈ _, _))

/-- The addresses fit the fields of the tunnels. -/
def Sized (config : ConfFile) : Prop := ∀ name ∈ config.tunnels, (config.tunnelConf .init name).Short

instance (config : ConfFile) : Decidable config.Sized := inferInstanceAs (Decidable (∀ _ ∈ _, _))

theorem readSection_isSome_iff {reader : Reader κ} {flowId : String → UInt32} {defaults : Defaults}
    {name : String} :
    (∃ sections, config.readSection reader flowId defaults name = some sections) ↔
      (name = "general" → ∃ general, config.readGeneral reader = some general) ∧
        (IsTunnel name → ¬ (config.tunnelConf defaults name).Incomplete defaults.serverMode) := by
  unfold readSection
  by_cases here : name = "general"
  · simp [here, IsTunnel]
  · by_cases filters : IsFilters name
    · simp [here, filters, IsTunnel]
    · simp [here, filters, IsTunnel, readTunnel]

/-- The sections can be read if `general` is complete, and each tunnel wherever it is met. -/
theorem readSections_isSome_iff {reader : Reader κ} {flowId : String → UInt32} {defaults : Defaults}
    {names : List String} :
    (∃ sections, config.readSections reader flowId defaults names = some sections) ↔
      ("general" ∈ names → ∃ general, config.readGeneral reader = some general) ∧
        ∀ before name after, names = before ++ name :: after → IsTunnel name →
          ¬ (config.tunnelConf (before.foldl config.nextDefaults defaults) name).Incomplete
            (before.foldl config.nextDefaults defaults).serverMode := by
  induction names generalizing defaults with
  | nil => simp [readSections]
  | cons first rest ih =>
      have parts : (∃ sections, config.readSections reader flowId defaults (first :: rest) = some sections) ↔
          (∃ sections, config.readSection reader flowId defaults first = some sections) ∧
            ∃ sections, config.readSections reader flowId (config.nextDefaults defaults first) rest =
              some sections := by
        simp [readSections, Option.bind_eq_some_iff]
      rw [parts, ih, readSection_isSome_iff]
      constructor
      · rintro ⟨⟨general, complete⟩, later, others⟩
        refine ⟨?_, ?_⟩
        · intro member
          rcases List.mem_cons.mp member with here | there
          · exact general here.symm
          · exact later there
        · intro before name after split
          cases before with
          | nil =>
              cases split
              exact complete
          | cons other before =>
              cases split
              exact others before name after rfl
      · rintro ⟨general, complete⟩
        refine ⟨⟨fun here => general (by simp [here]), complete [] first rest rfl⟩,
          fun there => general (List.mem_cons_of_mem _ there), ?_⟩
        intro before name after split
        exact complete (first :: before) name after (by rw [split]; rfl)

/-- Whether a file can be read does not depend on the `flow_id`s. -/
theorem readSections_isSome (reader : Reader κ) (flowId flowId' : String → UInt32) (config : ConfFile)
    (defaults : Defaults) (names : List String) :
    (config.readSections reader flowId defaults names).isSome =
      (config.readSections reader flowId' defaults names).isSome := by
  rw [Bool.eq_iff_iff, Option.isSome_iff_exists, Option.isSome_iff_exists, readSections_isSome_iff,
    readSections_isSome_iff]

/-- A section that leaves out an address differs from every tunnel. -/
theorem moved_of_missing {name key : String} (listed : key ∈ addressKeys)
    (missing : config.getValue name key = none) (defaults : Defaults) (t : Tunnel) :
    t.Moved (config.tunnelConf defaults name) := by
  have differs : ∀ text, config.getValue name key ≠ some text := by
    intro text same
    rw [missing] at same
    cases same
  simp only [addressKeys, List.mem_cons, List.not_mem_nil, or_false] at listed
  rcases listed with rfl | rfl | rfl | rfl
  · exact .inl (differs _)
  · exact .inr (.inl (differs _))
  · exact .inr (.inr (.inr (.inl (differs _))))
  · exact .inr (.inr (.inr (.inr (differs _))))

/-- A tunnel that gives all of its addresses has them after a load. -/
theorem outcome_addresses (full : config.Full) (sized : config.Sized) {name : String}
    (member : name ∈ config.tunnels) (before : Option Settings) :
    let settings := config.outcome name before
    config.getValue name "bindhost" = some settings.bindaddr ∧
      config.getValue name "bindport" = some settings.bindport ∧
      settings.bindfib = config.getUint name "bindfib" 0 ∧
      config.getValue name "remotehost" = some settings.destaddr ∧
      config.getValue name "remoteport" = some settings.destport := by
  intro settings
  have given : ∀ key ∈ addressKeys, ∃ text, config.getValue name key = some text := fun key listed =>
    Option.isSome_iff_exists.mp (full name member key listed)
  obtain ⟨bindhost, hasBindhost⟩ := given "bindhost" (by decide)
  obtain ⟨bindport, hasBindport⟩ := given "bindport" (by decide)
  obtain ⟨remotehost, hasRemotehost⟩ := given "remotehost" (by decide)
  obtain ⟨remoteport, hasRemoteport⟩ := given "remoteport" (by decide)
  obtain ⟨shortBindhost, shortBindport, shortRemotehost, shortRemoteport⟩ := sized name member
  let created := Settings.create (config.tunnelConf (config.firstDefaults name) name)
    (config.firstDefaults name).serverMode
  have fields : settings.bindaddr =
        strlcpy (before.getD created).bindaddr 256 (config.getValue name "bindhost") ∧
      settings.bindport = strlcpy (before.getD created).bindport 6 (config.getValue name "bindport") ∧
      settings.bindfib = config.getUint name "bindfib" 0 ∧
      settings.destaddr =
        strlcpy (before.getD created).destaddr 256 (config.getValue name "remotehost") ∧
      settings.destport =
        strlcpy (before.getD created).destport 6 (config.getValue name "remoteport") := by
    unfold settings outcome weighed
    split <;> exact ⟨rfl, rfl, rfl, rfl, rfl⟩
  obtain ⟨atBindhost, atBindport, atBindfib, atRemotehost, atRemoteport⟩ := fields
  rw [atBindhost, strlcpy_of_short hasBindhost shortBindhost, atBindport,
    strlcpy_of_short hasBindport shortBindport, atRemotehost,
    strlcpy_of_short hasRemotehost shortRemotehost, atRemoteport,
    strlcpy_of_short hasRemoteport shortRemoteport]
  exact ⟨hasBindhost, hasBindport, atBindfib, hasRemotehost, hasRemoteport⟩

end ConfFile

namespace Process

open Daemon

variable {κ : Type} {reader : Reader κ}

/-- The state after a file was loaded, and no other since. -/
structure Loaded (reader : Reader κ) (p : Process κ) (file : ConfFile) : Prop where
  current : p.daemon.Current
  readable : ∀ flowId, ∃ sections, file.readSections reader flowId .init (file.walk none) = some sections
  found : ∀ name ∈ file.tunnels, ∃ before, p.daemon.plan.get name = some (file.outcome name before)
  only : ∀ name, name ∉ file.tunnels → p.daemon.plan.get name = none

theorem loaded_of_load {now : ℚ} {file : ConfFile} {flowId : String → UInt32}
    {send : Nat → SendResult} {p p' : Process κ} (current : p.daemon.Current)
    (running : p.daemon.stopped = false)
    (done : p.step reader (now, .load file flowId send) = some p') : Loaded reader p' file := by
  obtain ⟨_, sections, read, plan⟩ := load_plan current running done
  refine ⟨step_current current done, fun flowId' => ?_,
    fun name member => ⟨p.daemon.plan.get name, ?_⟩, fun name absent => ?_⟩
  · have same := ConfFile.readSections_isSome reader flowId flowId' file .init (file.walk none)
    rw [read] at same
    exact Option.isSome_iff_exists.mp same.symm
  · rw [plan, ConfFile.load_get read member current.plan_nodup]
  · rw [plan, ConfFile.load_get_eq read current.plan_nodup, if_neg absent]

theorem Loaded.keep {p p' : Process κ} {file : ConfFile} (loaded : Loaded reader p file)
    (current : p'.daemon.Current) (plan : p'.daemon.plan = p.daemon.plan) : Loaded reader p' file where
  current := current
  readable := loaded.readable
  found := by
    rw [plan]
    exact loaded.found
  only := by
    rw [plan]
    exact loaded.only

theorem loaded_of_run {host : Host κ} {before after : List (ℚ × Input κ)} {now : ℚ} {file : ConfFile}
    {flowId : String → UInt32} {send : Nat → SendResult} {p : Process κ}
    (reached : run (step reader) (init host) (before ++ (now, .load file flowId send) :: after) = some p)
    (unloaded : ∀ e ∈ after, ¬ e.2.Loads) (running : p.daemon.stopped = false) :
    Loaded reader p file := by
  obtain ⟨p₀, earlier, rest⟩ := run_append_eq_some.mp reached
  obtain ⟨p₁, loaded, later⟩ := run_cons_eq_some.mp rest
  have current₀ := run_current earlier
  have loaded₁ := loaded_of_load current₀ (step_running (run_running running later) loaded) loaded
  obtain ⟨current, plan, _⟩ := run_events unloaded loaded₁.current later
  exact loaded₁.keep current plan

/-- The tunnels are as their sections say. -/
theorem Loaded.benign {p : Process κ} {file : ConfFile} (loaded : Loaded reader p file)
    (full : file.Full) (sized : file.Sized) {flowId : String → UInt32} {sections : List (Section κ)}
    (read : file.readSections reader flowId .init (file.walk none) = some sections)
    {part : Section κ} (member : part ∈ sections) : p.daemon.Benign part := by
  rcases ConfFile.mem_readSections read member with ⟨general, rfl⟩ | ⟨name, walked, tunnel, defaults, rfl⟩
  · exact trivial
  · have listed : name ∈ file.tunnels := ConfFile.mem_tunnels.mpr ⟨walked, tunnel⟩
    obtain ⟨before, found⟩ := loaded.found name listed
    obtain ⟨bindhost, bindport, bindfib, remotehost, remoteport⟩ :=
      ConfFile.outcome_addresses full sized listed before
    rw [get_plan] at found
    obtain ⟨i, named, settings⟩ := Option.map_eq_some_iff.mp found
    refine ⟨sized name listed, i, named, ?_⟩
    rw [← settings] at bindhost bindport bindfib remotehost remoteport
    rintro (moved | moved | moved | moved | moved)
    · exact moved bindhost
    · exact moved bindport
    · exact moved bindfib
    · exact moved remotehost
    · exact moved remoteport

/-- Every tunnel has a section. -/
theorem Loaded.covered {p : Process κ} {file : ConfFile} (loaded : Loaded reader p file)
    {flowId : String → UInt32} {sections : List (Section κ)}
    (read : file.readSections reader flowId .init (file.walk none) = some sections) {i : Nat}
    (listed : i ∈ p.daemon.rtuns) : sections.any (Section.names (p.daemon.tun i).name) := by
  rw [ConfFile.readSections_names read, ← ConfFile.mem_tunnels]
  by_contra absent
  have settings : (p.daemon.tun i).settings ∈ p.daemon.plan := List.mem_map_of_mem listed
  have found : p.daemon.plan.get (p.daemon.tun i).name = some (p.daemon.tun i).settings :=
    Registry.get_of_mem loaded.current.plan_nodup settings
  rw [loaded.only _ absent] at found
  cases found

theorem Loaded.reload_harmless {p : Process κ} {file : ConfFile} (loaded : Loaded reader p file)
    (running : p.daemon.stopped = false) (full : file.Full) (sized : file.Sized) (now : ℚ)
    (flowId : String → UInt32) (send : Nat → SendResult) :
    ∃ p', p.step reader (now, .load file flowId send) = some p' ∧ Harmless p.daemon p'.daemon := by
  obtain ⟨sections, read⟩ := loaded.readable flowId
  have read' : file.read reader flowId = some ⟨sections, file.readFilters reader⟩ := by
    rw [ConfFile.read, read]
    rfl
  obtain ⟨d', reloaded, undisturbed⟩ := configReload_undisturbed
    ⟨sections, file.readFilters reader⟩ now send
    (fun part member => loaded.benign full sized read member) fun i listed => loaded.covered read listed
  refine ⟨⟨d', p.options.read file⟩, ?_, undisturbed.harmless⟩
  unfold step
  dsimp only
  rw [running, if_neg Bool.false_ne_true, read', Option.bind_some, reloaded]
  rfl

theorem Loaded.full_of_harmless {p p' : Process κ} {file : ConfFile} (loaded : Loaded reader p file)
    (running : p.daemon.stopped = false) {now : ℚ} {flowId : String → UInt32} {send : Nat → SendResult}
    (done : p.step reader (now, .load file flowId send) = some p')
    (harmless : Harmless p.daemon p'.daemon) : file.Full := by
  intro name member key listed
  by_contra missing
  obtain ⟨conf, read, reloaded, _⟩ := step_load running done
  obtain ⟨sections, readSections, rfl⟩ := Option.map_eq_some_iff.mp read
  obtain ⟨walked, tunnel⟩ := ConfFile.mem_tunnels.mp member
  obtain ⟨defaults, there⟩ := ConfFile.readSections_tunnel readSections walked tunnel
  have planned : (file.tunnelConf defaults name).name ∈ p.daemon.plan.map Settings.name := by
    by_contra absent
    obtain ⟨before, found⟩ := loaded.found name member
    rw [show p.daemon.plan.get name = none from Registry.get_eq_none_iff.mpr absent] at found
    cases found
  obtain ⟨i, more⟩ := configReload_disturbs loaded.current there planned
    (ConfFile.moved_of_missing listed (Option.not_isSome_iff_eq_none.mp missing) defaults) reloaded
  exact more.ne' (harmless.calls (.statusDown i) trivial)

/-- A reload of the file that was loaded last is harmless exactly if every tunnel
    gives all of its addresses, whatever happened since. -/
theorem unchanged_harmless_iff {host : Host κ} {before after : List (ℚ × Input κ)} {now now' : ℚ}
    {file : ConfFile} {flowId flowId' : String → UInt32} {send send' : Nat → SendResult} {p : Process κ}
    (reached : run (step reader) (init host) (before ++ (now, .load file flowId send) :: after) = some p)
    (unloaded : ∀ e ∈ after, ¬ e.2.Loads) (running : p.daemon.stopped = false) (sized : file.Sized) :
    (∃ p', p.step reader (now', .load file flowId' send') = some p' ∧
      Harmless p.daemon p'.daemon) ↔ file.Full := by
  have loaded := loaded_of_run reached unloaded running
  constructor
  · rintro ⟨p', done, harmless⟩
    exact loaded.full_of_harmless running done harmless
  · intro full
    exact loaded.reload_harmless running full sized now' flowId' send'

/-- A file of a server that gives the addresses of both ends. -/
def fullFile : ConfFile :=
  serverFile [("bindhost", "0.0.0.0"), ("bindport", "5080"), ("remotehost", "10.0.0.2"),
    ("remoteport", "5081")]

/-- The server opens its tunnel and answers a challenge. -/
def connectInputs : List (ℚ × Input Unit) :=
  [(1, .event (.timeout 0 (.opened [127] 3)) id), (2, .event (challenged 0).2 id)]

/-- A server that gives all addresses stays connected. -/
theorem full_file_harmless :
    ∃ p ∈ run (step plainReader) (init ⟨.little, plainBox, ()⟩)
        ([] ++ (0, loadInput fullFile) :: connectInputs),
      (p.daemon.tun 0).status = .authok ∧
        ∃ p', p.step plainReader (3, loadInput fullFile) = some p' ∧ Harmless p.daemon p'.daemon := by
  obtain ⟨p, reached, running, status⟩ :
      ∃ p ∈ run (step plainReader) (init ⟨.little, plainBox, ()⟩)
          ([] ++ (0, loadInput fullFile) :: connectInputs),
        p.daemon.stopped = false ∧ (p.daemon.tun 0).status = .authok := by
    decide +kernel
  have unloaded : ∀ e ∈ connectInputs, ¬ e.2.Loads := by
    simp only [connectInputs, List.forall_mem_cons]
    exact ⟨id, id, fun _ member => absurd member List.not_mem_nil⟩
  have sized : fullFile.Sized := by decide +kernel
  have full : fullFile.Full := by decide +kernel
  exact ⟨p, reached, status, (unchanged_harmless_iff reached unloaded running sized).mpr full⟩

/-- A server that leaves out its own address and those of the other end, as it may,
    is disconnected by a reload of the same file. -/
theorem unchanged_file_disconnects :
    ∃ p ∈ run (step plainReader) (init ⟨.little, plainBox, ()⟩)
        ((0, loadInput (serverFile [("bindport", "5080")])) :: connectInputs),
      ∃ p' ∈ p.step plainReader (3, loadInput (serverFile [("bindport", "5080")])),
        (p.daemon.tun 0).status = .authok ∧ (p'.daemon.tun 0).status = .disconnected ∧
          p.daemon.trace.count (.statusDown 0) = 0 ∧ p'.daemon.trace.count (.statusDown 0) = 1 := by
  decide +kernel

end Process

end Mlvpn
