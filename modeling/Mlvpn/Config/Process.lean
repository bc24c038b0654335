import Mlvpn.Config.Outcome

/-! # The process and its configuration files

The daemon with the options of its scripts, over whole runs: the events of the
loop, and loads of a file.  `mlvpn_config` and `mlvpn_rtun_recalc_weight` are
called at the start as they are for a reload; what the start does besides is not
seen here.
-/

namespace Mlvpn

open Library Library.Machine

variable {κ : Type}

/-- A configuration is loaded. -/
def Daemon.Event.Loads : Daemon.Event κ → Prop
  | .reload (some _) _ => True
  | _ => False

structure Process (κ : Type) where
  daemon : Daemon κ
  options : Options

namespace Process

/-- An event of the loop, or a file that is loaded.  A reload that fails is an
    event. -/
inductive Input (κ : Type) where
  | event (e : Daemon.Event κ) (fixed : ¬ e.Loads)
  | load (file : ConfFile) (flowId : String → UInt32) (send : Nat → SendResult)

def Input.Loads : Input κ → Prop
  | .event _ _ => False
  | .load _ _ _ => True

def init (host : Host κ) : Process κ := ⟨.init host, .init⟩

def step (reader : Reader κ) (p : Process κ) : ℚ × Input κ → Option (Process κ)
  | (now, .event e _) => (p.daemon.step (now, e)).map fun d => { p with daemon := d }
  | (now, .load file flowId send) =>
      if p.daemon.stopped then some p
      else
        (file.read reader flowId).bind fun conf =>
          (p.daemon.configReload (some conf) now send).map fun d => ⟨d, p.options.read file⟩

variable {reader : Reader κ} {p p' : Process κ} {now : ℚ}

/-- A load is a reload of what the file says. -/
theorem step_load {file : ConfFile} {flowId : String → UInt32} {send : Nat → SendResult}
    (running : p.daemon.stopped = false)
    (done : p.step reader (now, .load file flowId send) = some p') :
    ∃ conf, file.read reader flowId = some conf ∧
      p.daemon.configReload (some conf) now send = some p'.daemon ∧
      p'.options = p.options.read file := by
  unfold step at done
  dsimp only at done
  rw [running, if_neg Bool.false_ne_true] at done
  obtain ⟨conf, read, rest⟩ := Option.bind_eq_some_iff.mp done
  obtain ⟨d, reloaded, rfl⟩ := Option.map_eq_some_iff.mp rest
  exact ⟨conf, read, reloaded, rfl⟩

theorem step_stopped {e : ℚ × Input κ} (stopped : p.daemon.stopped = true)
    (done : p.step reader e = some p') : p' = p := by
  obtain ⟨now, e⟩ := e
  cases e with
  | event e fixed =>
      obtain ⟨d, stepped, rfl⟩ := Option.map_eq_some_iff.mp done
      unfold Daemon.step at stepped
      dsimp only at stepped
      rw [if_pos stopped] at stepped
      cases stepped
      rfl
  | load file flowId send =>
      unfold step at done
      dsimp only at done
      rw [if_pos stopped] at done
      cases done
      rfl

/-- A process that runs on has been running. -/
theorem step_running {e : ℚ × Input κ} (running : p'.daemon.stopped = false)
    (done : p.step reader e = some p') : p.daemon.stopped = false := by
  by_contra stopped
  have same := step_stopped (Bool.not_eq_false _ ▸ stopped) done
  exact stopped (same ▸ running)

theorem run_running {inputs : List (ℚ × Input κ)} (running : p'.daemon.stopped = false)
    (reached : run (step reader) p inputs = some p') : p.daemon.stopped = false := by
  induction inputs generalizing p with
  | nil =>
      cases reached
      exact running
  | cons e rest ih =>
      obtain ⟨p₁, first, later⟩ := run_cons_eq_some.mp reached
      exact step_running (ih later) first

theorem step_current {e : ℚ × Input κ} (current : p.daemon.Current)
    (done : p.step reader e = some p') : p'.daemon.Current := by
  obtain ⟨now, e⟩ := e
  cases e with
  | event e fixed =>
      obtain ⟨d, stepped, rfl⟩ := Option.map_eq_some_iff.mp done
      exact Daemon.step_current current stepped
  | load file flowId send =>
      cases stopped : p.daemon.stopped with
      | true =>
          rw [step_stopped stopped done]
          exact current
      | false =>
          obtain ⟨conf, _, reloaded, _⟩ := step_load stopped done
          exact Daemon.configReload_current current reloaded

theorem run_current {host : Host κ} {inputs : List (ℚ × Input κ)}
    (reached : run (step reader) (init host) inputs = some p) : p.daemon.Current :=
  run_preserves (I := fun p => p.daemon.Current) inputs (fun _ _ _ _ current done => step_current current done)
    (Daemon.current_init host) reached

/-- An event of the loop changes neither the settings nor the options. -/
theorem step_event {e : Daemon.Event κ} {fixed : ¬ e.Loads} (current : p.daemon.Current)
    (done : p.step reader (now, .event e fixed) = some p') :
    p'.daemon.plan = p.daemon.plan ∧ p'.options = p.options := by
  obtain ⟨d, stepped, rfl⟩ := Option.map_eq_some_iff.mp done
  refine ⟨?_, rfl⟩
  by_cases reloads : e.Reloads
  · cases e with
    | reload conf send =>
        cases conf with
        | some conf => exact absurd trivial fixed
        | none =>
            unfold Daemon.step at stepped
            dsimp only at stepped
            split at stepped
            next =>
              cases stepped
              rfl
            next =>
              cases stepped
              exact Daemon.plan_of_tuns rfl rfl
    | _ => cases reloads
  · exact Daemon.step_plan current reloads stepped

/-- Without a load, the settings and the options stay. -/
theorem run_events {inputs : List (ℚ × Input κ)} (unloaded : ∀ e ∈ inputs, ¬ e.2.Loads)
    (current : p.daemon.Current) (reached : run (step reader) p inputs = some p') :
    p'.daemon.Current ∧ p'.daemon.plan = p.daemon.plan ∧ p'.options = p.options := by
  refine run_preserves (I := fun q => q.daemon.Current ∧ q.daemon.plan = p.daemon.plan ∧
    q.options = p.options) inputs ?_ ⟨current, rfl, rfl⟩ reached
  rintro q ⟨now, e⟩ member q' ⟨current, plan, options⟩ done
  cases e with
  | event e fixed =>
      obtain ⟨samePlan, sameOptions⟩ := step_event current done
      exact ⟨step_current current done, samePlan.trans plan, sameOptions.trans options⟩
  | load file flowId send => exact absurd trivial (unloaded _ member)

/-- A load makes of the settings and the options what the file says. -/
theorem load_plan {file : ConfFile} {flowId : String → UInt32} {send : Nat → SendResult}
    (current : p.daemon.Current) (running : p.daemon.stopped = false)
    (done : p.step reader (now, .load file flowId send) = some p') :
    p'.options = p.options.read file ∧
      ∃ sections, file.readSections reader flowId .init (file.walk none) = some sections ∧
        p'.daemon.plan = p.daemon.plan.load sections := by
  obtain ⟨conf, read, reloaded, options⟩ := step_load running done
  obtain ⟨sections, found, rfl⟩ := Option.map_eq_some_iff.mp read
  exact ⟨options, sections, found, Daemon.configReload_plan current reloaded⟩

end Process

end Mlvpn
