import Mlvpn.Config.Process

/-! # A reload against a restart

A tunnel that a reload finds is refitted, and one that it does not find is
created.  The two do not agree: what a file leaves out is kept by a reload, the
mode and the timeout of a tunnel are never changed, nor is a weight that the new
file does not give.  The options of the scripts are stored anew, except for an
address that is left out and an `mtu` of 0.
-/

namespace Mlvpn

open Library Library.Machine

theorem strlcpy_eq_iff {old : String} {size : Nat} {src : Option String} :
    strlcpy old size src = strlcpy "" size src ↔ src.isSome ∨ old = "" := by
  cases src with
  | none => simp only [strlcpy, Option.isSome_none, Bool.false_eq_true, false_or]
  | some text => simp only [strlcpy, Option.isSome_some, true_or]

theorem strlcpy_eq_empty_iff {size : Nat} (roomy : 1 < size) {src : Option String} :
    strlcpy "" size src = "" ↔ src.getD "" = "" := by
  cases src with
  | none => simp only [strlcpy, Option.getD_none]
  | some text =>
      have room : size - 1 ≠ 0 := by omega
      simp only [strlcpy, Option.getD_some, String.ofList_eq_empty_iff, List.take_eq_nil_iff, room,
        false_or, String.toList_eq_nil_iff]

namespace Options

variable {options : Options} {config : ConfFile}

theorem general_eq (options : Options) (config : ConfFile) :
    options.general config =
      { ip4 := strlcpy options.ip4 24 (config.getValue "general" "ip4")
        ip6 := strlcpy options.ip6 128 (config.getValue "general" "ip6")
        ip4Gateway := strlcpy "" 16 (config.getValue "general" "ip4_gateway")
        ip6Gateway := strlcpy "" 128 (config.getValue "general" "ip6_gateway")
        ip4Routes := strlcpy "" 4096 (config.getValue "general" "ip4_routes")
        ip6Routes := strlcpy "" 8192 (config.getValue "general" "ip6_routes")
        mtu := if config.getUint "general" "mtu" 1432 ≠ 0 then config.getUint "general" "mtu" 1432
          else options.mtu } := by
  unfold general
  dsimp only
  split <;> rfl

theorem general_general : (options.general config).general config = options.general config := by
  simp only [general_eq, strlcpy_strlcpy]
  split <;> rfl

/-- The section is read once or not at all. -/
theorem read_eq (options : Options) (config : ConfFile) :
    options.read config =
      if "general" ∈ config.walk none then options.general config else options := by
  unfold read
  generalize config.walk none = names
  induction names generalizing options with
  | nil => rfl
  | cons name rest ih =>
      rw [List.foldl_cons, ih]
      by_cases here : name = "general"
      · subst here
        rw [if_pos rfl, general_general, if_pos List.mem_cons_self, ite_self]
      · rw [if_neg here]
        simp only [List.mem_cons, Ne.symm here, false_or]

end Options

namespace ConfFile

/-- The weight that a file gives to a new tunnel. -/
def weight (config : ConfFile) (name : String) : ℚ :=
  if config.Weighted then (config.bandwidth name).toNat / config.bandwidthTotal.toNat * 100 else 1

/-- The tunnel of a name is the same after a reload: its addresses are given again,
    or were not given, its mode and its timeout are the same, and its weight is
    given again, or is that of a new tunnel. -/
def TunnelAgrees (old new : ConfFile) (name : String) : Prop :=
  (∀ key ∈ addressKeys, (new.getValue name key).isSome ∨ (old.getValue name key).getD "" = "") ∧
    (old.firstDefaults name).serverMode = (new.firstDefaults name).serverMode ∧
    (old.tunnelConf (old.firstDefaults name) name).timeout =
      (new.tunnelConf (new.firstDefaults name) name).timeout ∧
    (new.Weighted ∨ old.weight name = 1)

instance (old new : ConfFile) (name : String) : Decidable (TunnelAgrees old new name) :=
  inferInstanceAs (Decidable (_ ∧ _))

/-- The options are the same after a reload: what a reload does not clear is given
    again, or was not given. -/
def OptionsAgree (old new : ConfFile) : Prop :=
  let before := Options.init.read old
  if "general" ∈ new.walk none then
    ((new.getValue "general" "ip4").isSome ∨ before.ip4 = "") ∧
      ((new.getValue "general" "ip6").isSome ∨ before.ip6 = "") ∧
      (new.getUint "general" "mtu" 1432 ≠ 0 ∨ before.mtu = 0)
  else before = Options.init

instance (old new : ConfFile) : Decidable (OptionsAgree old new) :=
  inferInstanceAs (Decidable (ite _ _ _))

/-- A reload of the one file after the other is as good as a restart. -/
def Agrees (old new : ConfFile) : Prop :=
  (∀ name ∈ new.tunnels, name ∈ old.tunnels → TunnelAgrees old new name) ∧ OptionsAgree old new

instance (old new : ConfFile) : Decidable (Agrees old new) := inferInstanceAs (Decidable (_ ∧ _))

theorem optionsAgree_iff {old new : ConfFile} :
    (Options.init.read old).read new = Options.init.read new ↔ OptionsAgree old new := by
  unfold OptionsAgree
  dsimp only
  generalize Options.init.read old = before
  rw [Options.read_eq before new, Options.read_eq Options.init new]
  split
  next =>
    have mtu : ∀ value : UInt32, (if value ≠ 0 then value else before.mtu) = (if value ≠ 0 then value else 0) ↔
        value ≠ 0 ∨ before.mtu = 0 := by
      intro value
      split
      next given => simp only [given, true_or, ne_eq, not_false_eq_true]
      next missing => simp only [missing, false_or]
    simp only [Options.general_eq, Options.mk.injEq, true_and, Options.init, strlcpy_eq_iff, mtu]
  next => rfl

/-- The settings that a file gives to a new tunnel. -/
theorem outcome_none (config : ConfFile) (name : String) :
    let first := config.tunnelConf (config.firstDefaults name) name
    let last := config.tunnelConf (config.defaultsLast name .init (config.walk none)) name
    config.outcome name none =
      { Settings.create first (config.firstDefaults name).serverMode with
        lossTolerence := last.lossTolerence
        latencyTolerence := last.latencyTolerence
        weight := config.weight name } := by
  unfold outcome weighed weight
  split
  next =>
    simp only [Option.getD_none, Settings.refit, Settings.create, tunnelConf, strlcpy_strlcpy]
    rfl
  next => simp only [Option.getD_none, Settings.refit, Settings.create, tunnelConf, strlcpy_strlcpy]

theorem tunnelAgrees_iff {old new : ConfFile} {name : String} :
    new.outcome name (some (old.outcome name none)) = new.outcome name none ↔
      TunnelAgrees old new name := by
  have host : ∀ key, strlcpy "" 256 (old.getValue name key) = "" ↔ (old.getValue name key).getD "" = "" :=
    fun key => strlcpy_eq_empty_iff (by decide)
  have port : ∀ key, strlcpy "" 6 (old.getValue name key) = "" ↔ (old.getValue name key).getD "" = "" :=
    fun key => strlcpy_eq_empty_iff (by decide)
  rw [outcome_none old name]
  unfold outcome weighed TunnelAgrees addressKeys
  simp only [Option.getD_some, Option.getD_none, Settings.refit, Settings.create, List.forall_mem_cons,
    List.not_mem_nil, false_imp_iff, implies_true, and_true]
  split
  next weighted =>
    simp only [tunnelConf, Settings.mk.injEq, strlcpy_strlcpy, strlcpy_eq_iff, host, port, true_and,
      weighted, true_or, and_assoc]
  next unweighted =>
    simp only [tunnelConf, Settings.mk.injEq, strlcpy_strlcpy, strlcpy_eq_iff, host, port, true_and,
      unweighted, false_or, and_assoc]

end ConfFile

namespace Process

variable {κ : Type} {reader : Reader κ}

/-- The settings of the tunnel that is found by a name. -/
def settings (p : Process κ) (name : String) : Option Settings :=
  (p.daemon.named name).map fun i => (p.daemon.tun i).settings

theorem settings_eq (p : Process κ) (name : String) : p.settings name = p.daemon.plan.get name :=
  (Daemon.get_plan p.daemon name).symm

/-- The first load of a process. -/
theorem start_plan {host : Host κ} {p : Process κ} {now : ℚ} {file : ConfFile}
    {flowId : String → UInt32} {send : Nat → SendResult}
    (done : (init host).step reader (now, .load file flowId send) = some p) :
    p.options = Options.init.read file ∧ ∀ name,
      p.daemon.plan.get name = if name ∈ file.tunnels then some (file.outcome name none) else none := by
  obtain ⟨options, sections, read, plan⟩ := load_plan (Daemon.current_init host) rfl done
  refine ⟨options, fun name => ?_⟩
  have distinct : (((init host).daemon.plan).map Settings.name).Nodup := List.nodup_nil
  rw [plan]
  split
  next member => exact ConfFile.load_get read member distinct
  next absent => rw [ConfFile.load_get_eq read distinct, if_neg absent]

/-- A reload of a file leaves what a restart with it leaves exactly if the two files
    agree, for any events between the start and the reload. -/
theorem reload_agrees_iff {host host' : Host κ} {old new : ConfFile} {p q : Process κ}
    {started reloading restarting : ℚ} {flowId flowId' flowId'' : String → UInt32}
    {send send' send'' : Nat → SendResult} (between : List (ℚ × Input κ))
    (unloaded : ∀ e ∈ between, ¬ e.2.Loads)
    (reloaded : run (step reader) (init host)
      ((started, .load old flowId send) :: (between ++ [(reloading, .load new flowId' send')])) = some p)
    (running : p.daemon.stopped = false)
    (restarted : (init host').step reader (restarting, .load new flowId'' send'') = some q) :
    ((∀ name ∈ new.tunnels, ∃ s, p.settings name = some s ∧ q.settings name = some s) ∧
      p.options = q.options) ↔ ConfFile.Agrees old new := by
  obtain ⟨p₁, loaded, rest⟩ := run_cons_eq_some.mp reloaded
  obtain ⟨p₂, events, last⟩ := run_append_eq_some.mp rest
  obtain ⟨p₃, again, ended⟩ := run_cons_eq_some.mp last
  cases ended
  obtain ⟨oldOptions, oldPlan⟩ := start_plan loaded
  obtain ⟨newOptions, newPlan⟩ := start_plan restarted
  obtain ⟨current, samePlan, sameOptions⟩ :=
    run_events unloaded (step_current (Daemon.current_init host) loaded) events
  obtain ⟨options, sections, read, plan⟩ := load_plan current (step_running running again) again
  rw [options, sameOptions, oldOptions, newOptions, ConfFile.optionsAgree_iff]
  unfold ConfFile.Agrees
  refine and_congr_left fun _ => forall₂_congr fun name member => ?_
  have fresh : q.settings name = some (new.outcome name none) := by
    rw [settings_eq, newPlan, if_pos member]
  have kept : p.settings name = some (new.outcome name (p₁.daemon.plan.get name)) := by
    rw [settings_eq, plan, ConfFile.load_get read member current.plan_nodup, samePlan]
  simp only [fresh, kept, oldPlan, Option.some.injEq, exists_eq_left']
  split
  next there => simp only [there, true_imp_iff, eq_comm, ← ConfFile.tunnelAgrees_iff]
  next absent => simp only [absent, false_imp_iff]

/-- A file of a server, with these settings of the tunnel `a`. -/
def serverFile (settings : List (String × String)) : ConfFile :=
  ⟨"general", "mode", "server"⟩ :: ⟨"general", "password", "secret"⟩ ::
    settings.map fun (var, val) => ⟨"a", var, val⟩

def plainReader : Reader Unit := ⟨fun _ => (), fun _ => none⟩

def loadInput (file : ConfFile) : Input Unit := .load file (fun _ => 1) fun _ => .blocked

/-- A file that gives the addresses again may give others. -/
theorem reload_with_other_address :
    ∃ p ∈ run (step plainReader) (init ⟨.little, plainBox, ()⟩)
        [(0, loadInput (serverFile [("bindport", "5080")])),
          (1, loadInput (serverFile [("bindport", "5081"), ("bandwidth_upload", "1000")]))],
      ∃ q ∈ (init ⟨.little, plainBox, ()⟩).step plainReader
          (0, loadInput (serverFile [("bindport", "5081"), ("bandwidth_upload", "1000")])),
        (∀ name ∈ (serverFile [("bindport", "5081"), ("bandwidth_upload", "1000")]).tunnels,
          ∃ s, p.settings name = some s ∧ q.settings name = some s) ∧ p.options = q.options := by
  obtain ⟨p, reached, running, q, restarted⟩ :
      ∃ p ∈ run (step plainReader) (init ⟨.little, plainBox, ()⟩)
          [(0, loadInput (serverFile [("bindport", "5080")])),
            (1, loadInput (serverFile [("bindport", "5081"), ("bandwidth_upload", "1000")]))],
        p.daemon.stopped = false ∧ ∃ q ∈ (init ⟨.little, plainBox, ()⟩).step plainReader
          (0, loadInput (serverFile [("bindport", "5081"), ("bandwidth_upload", "1000")])), True := by
    decide +kernel
  refine ⟨p, reached, q, restarted.1, ?_⟩
  have agrees : ConfFile.Agrees (serverFile [("bindport", "5080")])
      (serverFile [("bindport", "5081"), ("bandwidth_upload", "1000")]) := by decide +kernel
  exact (reload_agrees_iff [] (fun _ member => by cases member) reached running
    restarted.1).mpr agrees

/-- The address that is left out and the old timeout are kept by a reload. -/
theorem reload_keeps_address_and_timeout :
    ∃ p ∈ run (step plainReader) (init ⟨.little, plainBox, ()⟩)
        [(0, loadInput
            (serverFile [("bindhost", "10.0.0.1"), ("bindport", "5080"), ("timeout", "10")])),
          (1, loadInput (serverFile [("bindport", "5080"), ("timeout", "20")]))],
      ∃ q ∈ (init ⟨.little, plainBox, ()⟩).step plainReader
          (0, loadInput (serverFile [("bindport", "5080"), ("timeout", "20")])),
        (p.settings "a").map (fun s => (s.bindaddr, s.timeout)) = some ("10.0.0.1", 10) ∧
          (q.settings "a").map (fun s => (s.bindaddr, s.timeout)) = some ("", 20) := by
  decide +kernel

end Process

end Mlvpn
