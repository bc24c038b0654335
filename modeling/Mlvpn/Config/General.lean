import Mlvpn.Config.Entries
import Mlvpn.Config.Reload
import Mlvpn.Receive.Pool

/-! # The section `general`

`mlvpn_config` sets the key, `cleartext_data` and the reorder buffer where it takes up the
section `general`, and nowhere else.  A file without a setting in that section is loaded
all the same, and leaves them as they were.  A size of zero is stored as the option, but
the reorder buffer stays.
-/

namespace Mlvpn

open Library Library.Machine Reorder

variable {κ : Type}

namespace Receive

variable {s s' : Receive} {sizing : UInt32 × Option Nat}

/-- The reorder buffer is what the option says, and an option of zero disables it. -/
structure Matched (s : Receive) : Prop where
  null : s.reorderBuffer = none ↔ s.reorderBufferSize = 0
  rings : ∀ b, s.reorderBuffer = some b → b.Rings s.reorderBufferSize.toNat
  disabled : s.reorderBufferSize = 0 → ∀ tun pkt, recvData s tun pkt =
    some (1, { s with received := s.received ++ [s.arrival tun pkt] }.injectTuntap (s.arrival tun pkt))

/-- The option, and the rings there are. -/
structure Sized (s : Receive) (sizing : UInt32 × Option Nat) : Prop where
  option : s.reorderBufferSize = sizing.1
  rings : s.Ringed sizing.2

/-- The rings that an option stands for. -/
def ringsFor (size : UInt32) : Option Nat := if size = 0 then none else some size.toNat

/-- What `mlvpn_config` makes of them. -/
def resize (size : UInt32) (sizing : UInt32 × Option Nat) : UInt32 × Option Nat :=
  (size, if size ≠ sizing.1 ∧ size > 0 then some size.toNat else sizing.2)

theorem resize_resize (size : UInt32) (sizing : UInt32 × Option Nat) :
    resize size (resize size sizing) = resize size sizing := by
  simp [resize]

theorem sized_init : init.Sized (0, none) := ⟨rfl, .none⟩

theorem Sized.config (sized : s.Sized sizing) (size : UInt32) :
    (configReorderBufferSize s size).Sized (resize size sizing) := by
  obtain ⟨option, rings⟩ := sized
  unfold configReorderBufferSize resize
  rw [option]
  by_cases changed : size ≠ sizing.1
  · rw [if_pos changed]
    by_cases given : size > 0
    · simp only [changed, given, and_self, if_true, not_false_eq_true, ne_eq]
      exact ⟨rfl, .some (.create _)⟩
    · simp only [given, and_false, if_false]
      exact ⟨rfl, rings.congr rfl⟩
  · rw [if_neg changed, if_neg fun both => changed both.1, not_not.mp changed]
    exact ⟨option, rings⟩

theorem Sized.step (sized : s.Sized sizing) {e : Event} (fixed : ∀ size, e ≠ .reload size)
    (done : step s e = some s') : s'.Sized sizing := by
  obtain ⟨option, rings⟩ := step_rings fixed done
  exact ⟨option.trans sized.option, rings _ sized.rings⟩

theorem Ringed.unique {m n : Option Nat} (first : s.Ringed m) (second : s.Ringed n) : m = n := by
  unfold Ringed at first second
  generalize s.reorderBuffer = buffer at first second
  cases first with
  | none =>
      cases second
      rfl
  | some rings =>
      cases second with
      | some rings' => rw [← rings.1, ← rings'.1]

/-- The reorder buffer matches its option where the rings are those the option stands for. -/
theorem matched_iff : s.Matched ↔ s.Ringed (ringsFor s.reorderBufferSize) := by
  constructor
  · rintro ⟨null, rings, _⟩
    unfold ringsFor Ringed
    cases buffer : s.reorderBuffer with
    | none =>
        rw [if_pos (null.mp buffer)]
        exact .none
    | some b =>
        have given : s.reorderBufferSize ≠ 0 := by simpa [buffer] using mt null.mpr
        rw [if_neg given]
        exact .some (rings b buffer)
  · intro ringed
    unfold ringsFor Ringed at ringed
    by_cases off : s.reorderBufferSize = 0
    · rw [if_pos off] at ringed
      have none : s.reorderBuffer = none := by
        cases buffer : s.reorderBuffer with
        | none => rfl
        | some b =>
            rw [buffer] at ringed
            cases ringed
      refine ⟨by simp [none, off], by simp [none], fun _ tun pkt => ?_⟩
      simp [recvData, none]
    · rw [if_neg off] at ringed
      cases buffer : s.reorderBuffer with
      | none =>
          rw [buffer] at ringed
          cases ringed
      | some b =>
          rw [buffer] at ringed
          cases ringed with
          | some rings =>
              refine ⟨by simp [buffer, off], ?_, fun zero => absurd zero off⟩
              rintro _ same
              rw [buffer] at same
              cases same
              exact rings

theorem Sized.matched_iff (sized : s.Sized sizing) : s.Matched ↔ sizing.2 = ringsFor sizing.1 := by
  rw [Receive.matched_iff, sized.option]
  exact ⟨fun ringed => sized.rings.unique ringed, fun same => same ▸ sized.rings⟩

/-- Only where an option other than zero is set to zero, the rings are wrong. -/
theorem resize_matches_iff {size : UInt32} {option : UInt32} :
    (resize size (option, ringsFor option)).2 = ringsFor size ↔ (size = 0 → option = 0) := by
  unfold resize ringsFor
  have positive : size > 0 ↔ size ≠ 0 := UInt32.pos_iff_ne_zero
  by_cases off : size = 0
  · subst off
    by_cases before : option = 0 <;> simp [before]
  · by_cases same : size = option
    · simp [same]
    · simp [off, same, positive]

end Receive

namespace ConfFile

variable {reader : Reader κ} {flowId : String → UInt32} {config : ConfFile}

theorem mem_readSection_general {defaults : Defaults} {name : String} {sections : List (Section κ)}
    {general : General κ} (read : config.readSection reader flowId defaults name = some sections) :
    .general general ∈ sections ↔ name = "general" ∧ config.readGeneral reader = some general := by
  unfold readSection at read
  split at read
  next named =>
    obtain ⟨found, readable, rfl⟩ := Option.map_eq_some_iff.mp read
    simp [named, readable, eq_comm]
  next other =>
    split at read
    next =>
      cases read
      simp [other]
    next =>
      obtain ⟨conf, _, rfl⟩ := Option.map_eq_some_iff.mp read
      simp [other]

/-- The section is taken up as often as it stands in the file, with the same settings. -/
theorem mem_readSections_general {defaults : Defaults} {names : List String} {sections : List (Section κ)}
    {general : General κ} (read : config.readSections reader flowId defaults names = some sections) :
    .general general ∈ sections ↔ "general" ∈ names ∧ config.readGeneral reader = some general := by
  induction names generalizing defaults sections with
  | nil =>
      cases read
      simp
  | cons name rest ih =>
      obtain ⟨first, one, later⟩ := Option.bind_eq_some_iff.mp read
      obtain ⟨others, all, rfl⟩ := Option.map_eq_some_iff.mp later
      rw [List.mem_append, mem_readSection_general one, ih all, List.mem_cons, ← or_and_right, eq_comm]

end ConfFile

namespace Daemon

variable {d d' : Daemon κ} {now : ℚ}

/-- What the sections of tunnels keep, and a section `general` sets. -/
theorem configSections_general {P Q : Daemon κ → Prop} {sections : List (Section κ)}
    (tunnels : ∀ d d' conf serverMode flowId, configTunnel d conf serverMode flowId now = some d' →
      (P d → P d') ∧ (Q d → Q d'))
    (sets : ∀ general, .general general ∈ sections → ∀ d d', configGeneral d general = some d' →
      P d ∨ Q d → Q d')
    {s s' : Bool × Daemon κ} (done : run (configSection now) s sections = some s') :
    (Q s.2 → Q s'.2) ∧ (P s.2 → ((∃ general, .general general ∈ sections) → Q s'.2) ∧
      ((∀ general, .general general ∉ sections) → P s'.2)) := by
  induction sections generalizing s with
  | nil =>
      cases done
      simp
  | cons part rest ih =>
      obtain ⟨s₁, first, later⟩ := run_cons_eq_some.mp done
      obtain ⟨set, unset⟩ := ih (fun general member => sets general (List.mem_cons_of_mem _ member)) later
      obtain ⟨serverMode, d⟩ := s
      cases part with
      | general general =>
          simp only [configSection] at first
          obtain ⟨d₁, configured, rfl⟩ := Option.map_eq_some_iff.mp first
          have holds : P d ∨ Q d → Q s'.2 :=
            fun before => set (sets general List.mem_cons_self d d₁ configured before)
          exact ⟨fun before => holds (.inr before), fun before =>
            ⟨fun _ => holds (.inl before), fun none => absurd List.mem_cons_self (none general)⟩⟩
      | tunnel conf flowId =>
          simp only [configSection] at first
          obtain ⟨d₁, configured, rfl⟩ := Option.map_eq_some_iff.mp first
          obtain ⟨keepsP, keepsQ⟩ := tunnels d d₁ conf serverMode flowId configured
          have same : ∀ general, .general general ∈ Section.tunnel conf flowId :: rest ↔
              .general general ∈ rest := by simp
          simp only [same]
          exact ⟨fun before => set (keepsQ before), fun before => unset (keepsP before)⟩

/-! ## The reorder buffer -/

variable {sizing : UInt32 × Option Nat}

theorem Moves.sized (moves : Moves False d d') (sized : d.rx.Sized sizing) : d'.rx.Sized sizing := by
  refine moves.preserve (I := fun d => d.rx.Sized sizing) ?_ sized
  intro s s' move sized
  rcases move.receives with same | ⟨e, fixed, stepped⟩
  · rwa [same]
  · exact sized.step (fun size reloads => fixed size reloads) stepped

theorem statusDown_sized {i : Nat} (done : d.statusDown i = some d') (sized : d.rx.Sized sizing) :
    d'.rx.Sized sizing :=
  Moves.sized (Move.down done).moves sized

theorem configTunnel_sized {conf : TunnelConf} {serverMode : Bool} {flowId : UInt32}
    (done : d.configTunnel conf serverMode flowId now = some d') (sized : d.rx.Sized sizing) :
    d'.rx.Sized sizing := by
  obtain ⟨d₁, flagged, configured⟩ := configTunnel_cases done
  have sized₁ : d₁.rx.Sized sizing := by rcases flagged with rfl | rfl <;> exact sized
  rcases configured with ⟨_, rfl⟩ | ⟨j, d₂, _, down, rfl⟩
  · unfold rtunNew
    split <;> exact sized₁
  · have sized₂ : d₂.rx.Sized sizing := by
      rcases down with ⟨_, down⟩ | ⟨_, rfl⟩
      · exact statusDown_sized down sized₁
      · exact sized₁
    exact sized₂

theorem configGeneral_sized {general : General κ} (done : d.configGeneral general = some d')
    (sized : d.rx.Sized sizing) : d'.rx.Sized (Receive.resize general.reorderBufferSize sizing) := by
  unfold configGeneral at done
  obtain ⟨rx, stepped, rfl⟩ := Option.map_eq_some_iff.mp done
  cases stepped
  exact sized.config _

/-- An event between two configurations. -/
theorem step_sized {e : Event κ} (inside : d.Inside) (fixed : ¬ e.Loads) (done : d.step (now, e) = some d')
    (sized : d.rx.Sized sizing) : d'.rx.Sized sizing := by
  by_cases reloads : e.Reloads
  · cases e with
    | reload conf send =>
        cases conf with
        | some conf => exact absurd trivial fixed
        | none =>
            unfold step at done
            dsimp only at done
            split at done <;> cases done <;> exact sized
    | _ => cases reloads
  · have never : e.Reloads = False := eq_false reloads
    rcases step_moves inside done with moves | ⟨i, bytes, sender, named, d₁, _, auth, moves⟩
    · rw [never] at moves
      exact moves.sized sized
    · rw [never] at moves
      obtain ⟨_, _, t, _, _, rfl⟩ := auth
      exact moves.sized sized

theorem configReload_sized {conf : Config κ} {send : Nat → SendResult} {size : UInt32} (inside : d.Inside)
    (all : ∀ general, .general general ∈ conf.sections → general.reorderBufferSize = size)
    (done : d.configReload (some conf) now send = some d') (sized : d.rx.Sized sizing) :
    ((∃ general, .general general ∈ conf.sections) → d'.rx.Sized (Receive.resize size sizing)) ∧
      ((∀ general, .general general ∉ conf.sections) → d'.rx.Sized sizing) := by
  obtain ⟨⟨serverMode, d₁⟩, parsed, rest⟩ := Option.bind_eq_some_iff.mp done
  have inside₁ : d₁.Inside := ((configSections_moves trivial parsed).inside inside).1
  have ended : ∀ sizing, d₁.rx.Sized sizing → d'.rx.Sized sizing :=
    fun _ => (configEnd_moves inside₁ rest).sized
  have read := configSections_general (P := fun d => d.rx.Sized sizing)
    (Q := fun d => d.rx.Sized (Receive.resize size sizing))
    (fun d d' conf serverMode flowId configured =>
      ⟨configTunnel_sized configured, configTunnel_sized configured⟩)
    (fun general member d d' configured before => by
      rcases before with unset | set
      · have first := configGeneral_sized configured unset
        rwa [all general member] at first
      · have again := configGeneral_sized configured set
        rwa [all general member, Receive.resize_resize] at again)
    parsed
  obtain ⟨set, unset⟩ := read.2 sized
  exact ⟨fun general => ended _ (set general), fun none => ended _ (unset none)⟩

/-! ## The key -/

/-- The key, and whether data is sent in clear. -/
structure Keyed (d : Daemon κ) (key : κ) (cleartextData : Bool) : Prop where
  key : d.host.key = key
  cleartextData : d.cleartextData = cleartextData

variable {key : κ} {cleartextData : Bool}

theorem wrrReset_cleartextData {useFallbacks : Nat} (done : d.wrrReset useFallbacks = some d') :
    d'.cleartextData = d.cleartextData := by
  unfold wrrReset at done
  dsimp only at done
  split at done
  next =>
    cases done
    rfl
  next => cases done

theorem tuntapDown_cleartextData (d : Daemon κ) : d.tuntapDown.cleartextData = d.cleartextData := by
  unfold tuntapDown
  split <;> rfl

theorem statusDown_cleartextData {i : Nat} (done : d.statusDown i = some d') :
    d'.cleartextData = d.cleartextData := by
  obtain ⟨d₁, ended, rfl⟩ := Option.map_eq_some_iff.mp done
  split at ended
  next =>
    obtain ⟨d₂, reset, rest⟩ := Option.bind_eq_some_iff.mp ended
    obtain ⟨rx, _, rfl⟩ := Option.map_eq_some_iff.mp rest
    have same := wrrReset_cleartextData reset
    exact (tuntapDown_cleartextData d₂).trans same
  next =>
    cases ended
    rfl

theorem statusDown_keyed {i : Nat} (done : d.statusDown i = some d') (keyed : d.Keyed key cleartextData) :
    d'.Keyed key cleartextData := by
  refine ⟨?_, (statusDown_cleartextData done).trans keyed.cleartextData⟩
  obtain ⟨d₁, rfl, passes⟩ := (statusDown_lowers done).passes
  change d₁.host.key = key
  rw [passes.host]
  exact keyed.key

theorem configTunnel_keyed {conf : TunnelConf} {serverMode : Bool} {flowId : UInt32}
    (done : d.configTunnel conf serverMode flowId now = some d') (keyed : d.Keyed key cleartextData) :
    d'.Keyed key cleartextData := by
  obtain ⟨d₁, flagged, configured⟩ := configTunnel_cases done
  have keyed₁ : d₁.Keyed key cleartextData := by
    rcases flagged with rfl | rfl <;> exact ⟨keyed.key, keyed.cleartextData⟩
  rcases configured with ⟨_, rfl⟩ | ⟨j, d₂, _, down, rfl⟩
  · unfold rtunNew
    split <;> exact ⟨keyed₁.key, keyed₁.cleartextData⟩
  · have keyed₂ : d₂.Keyed key cleartextData := by
      rcases down with ⟨_, down⟩ | ⟨_, rfl⟩
      · exact statusDown_keyed down keyed₁
      · exact keyed₁
    exact ⟨keyed₂.key, keyed₂.cleartextData⟩

theorem configGeneral_keyed {general : General κ} (done : d.configGeneral general = some d') :
    d'.Keyed general.key general.cleartextData := by
  unfold configGeneral at done
  obtain ⟨rx, _, rfl⟩ := Option.map_eq_some_iff.mp done
  exact ⟨rfl, rfl⟩

theorem recalcWeight_keyed (keyed : d.Keyed key cleartextData) : d.recalcWeight.Keyed key cleartextData :=
  recalcWeight_keeps (I := fun d => d.Keyed key cleartextData) keyed
    fun _ _ _ keyed => ⟨keyed.key, keyed.cleartextData⟩

/-- The first load of a configuration whose sections `general` are all the same one. -/
theorem config_keyed {conf : Config κ} {send : Nat → SendResult} {general : General κ}
    (member : .general general ∈ conf.sections)
    (only : ∀ other, .general other ∈ conf.sections → other = general)
    (done : d.config true conf now send = some d') :
    d'.Keyed general.key general.cleartextData := by
  obtain ⟨s, parsed, rest⟩ := Option.bind_eq_some_iff.mp done
  obtain ⟨d₁, kept, rfl⟩ := Option.map_eq_some_iff.mp rest
  cases kept
  have read := configSections_general (P := fun _ => True)
    (Q := fun d => d.Keyed general.key general.cleartextData)
    (fun d d' conf serverMode flowId configured => ⟨fun _ => trivial, configTunnel_keyed configured⟩)
    (fun other listed d d' configured _ => only other listed ▸ configGeneral_keyed configured)
    parsed
  have keyed := (read.2 trivial).1 ⟨general, member⟩
  exact ⟨keyed.key, keyed.cleartextData⟩

end Daemon

namespace ConfFile

variable {reader : Reader κ} {flowId : String → UInt32} {file : ConfFile} {conf : Config κ}

theorem general_mem_iff (read : file.read reader flowId = some conf) {general : General κ} :
    .general general ∈ conf.sections ↔
      "general" ∈ file.walk none ∧ file.readGeneral reader = some general := by
  obtain ⟨sections, found, rfl⟩ := Option.map_eq_some_iff.mp read
  exact mem_readSections_general found

/-- A file that can be read has a complete section `general`, or none. -/
theorem exists_general_iff (read : file.read reader flowId = some conf) :
    (∃ general, .general general ∈ conf.sections) ↔ "general" ∈ file.walk none := by
  simp only [general_mem_iff read, exists_and_left, and_iff_left_iff_imp]
  obtain ⟨sections, found, rfl⟩ := Option.map_eq_some_iff.mp read
  exact (readSections_isSome_iff.mp ⟨sections, found⟩).1

end ConfFile

namespace Process

variable {reader : Reader κ} {p p' : Process κ} {now : ℚ} {sizing : UInt32 × Option Nat}

/-- The size of the reorder buffer that a file asks for. -/
def reorderBufferSize (file : ConfFile) : UInt32 := file.getUint "general" "reorder_buffer_size" 0

theorem load_sized {file : ConfFile} {flowId : String → UInt32} {send : Nat → SendResult}
    (current : p.daemon.Current) (running : p.daemon.stopped = false)
    (done : p.step reader (now, .load file flowId send) = some p') (sized : p.daemon.rx.Sized sizing) :
    p'.daemon.rx.Sized
      (if "general" ∈ file.walk none then Receive.resize (reorderBufferSize file) sizing else sizing) := by
  obtain ⟨conf, read, reloaded, _⟩ := step_load running done
  have all : ∀ general, .general general ∈ conf.sections →
      general.reorderBufferSize = reorderBufferSize file := by
    intro general member
    have found := ((ConfFile.general_mem_iff read).mp member).2
    obtain ⟨mode, _, given⟩ := Option.bind_eq_some_iff.mp found
    obtain ⟨password, _, rfl⟩ := Option.map_eq_some_iff.mp given
    rfl
  obtain ⟨set, unset⟩ := Daemon.configReload_sized current.inside all reloaded sized
  rw [ConfFile.exists_general_iff read] at set
  split
  next taken => exact set taken
  next missing =>
    apply unset
    intro general member
    exact missing ((ConfFile.exists_general_iff read).mp ⟨general, member⟩)

/-- An input that does not set the size of an existing reorder buffer to zero. -/
def KeepsReordering (p : Process κ) : ℚ × Input κ → Prop
  | (_, .event _ _) => True
  | (_, .load file _ _) => p.daemon.stopped = false → (∃ entry ∈ file, entry.sectionName = "general") →
      reorderBufferSize file = 0 → p.daemon.rx.reorderBufferSize = 0

instance (p : Process κ) : ∀ e, Decidable (p.KeepsReordering e)
  | (_, .event _ _) => isTrue trivial
  | (_, .load _ _ _) => inferInstanceAs (Decidable (_ → _ → _ → _))

theorem step_matched_iff {e : ℚ × Input κ} (current : p.daemon.Current) (matched : p.daemon.rx.Matched)
    (done : p.step reader e = some p') : p'.daemon.rx.Matched ↔ p.KeepsReordering e := by
  have sized : p.daemon.rx.Sized (p.daemon.rx.reorderBufferSize,
      Receive.ringsFor p.daemon.rx.reorderBufferSize) := ⟨rfl, Receive.matched_iff.mp matched⟩
  obtain ⟨now, input⟩ := e
  cases input with
  | event e fixed =>
      obtain ⟨d, stepped, rfl⟩ := Option.map_eq_some_iff.mp done
      have kept := Daemon.step_sized current.inside fixed stepped sized
      simp only [KeepsReordering, iff_true]
      exact kept.matched_iff.mpr rfl
  | load file flowId send =>
      cases stopped : p.daemon.stopped with
      | true =>
          rw [step_stopped stopped done]
          simp [KeepsReordering, stopped, matched]
      | false =>
          rw [(load_sized current stopped done sized).matched_iff]
          simp only [KeepsReordering, stopped, ← ConfFile.mem_walk_iff, true_implies]
          split
          next taken =>
            simp only [taken, true_implies]
            exact Receive.resize_matches_iff
          next missing => simp [missing]

/-- Over every run of loads and events, the reorder buffer matches its option just when no
    load sets the size of an existing buffer to zero. -/
theorem reorderBuffer_matches_iff {host : Host κ} {inputs : List (ℚ × Input κ)}
    (reached : run (step reader) (init host) inputs = some p) :
    Always (step reader) (fun p => p.daemon.rx.Matched) (init host) inputs ↔
      Meets (step reader) KeepsReordering (init host) inputs := by
  refine always_iff_meets_of_invariant (I := fun p => p.daemon.Current)
    (fun _ _ _ current done => step_current current done)
    (fun _ _ _ current matched done => step_matched_iff current matched done)
    inputs (Daemon.current_init host) ?_ reached
  exact Receive.sized_init.matched_iff.mpr rfl

/-- Loads of a file that asks for the given sizes, one after the other. -/
def sizeLoads (sizes : List String) : List (ℚ × Input Unit) :=
  sizes.map fun size => (0, loadInput
    [⟨"general", "mode", "server"⟩, ⟨"general", "password", "p"⟩, ⟨"general", "reorder_buffer_size", size⟩])

theorem reorderBuffer_matches_resized :
    ∃ p ∈ run (step plainReader) (init ⟨.little, plainBox, ()⟩) (sizeLoads ["0", "64", "128"]),
      p.daemon.rx.reorderBufferSize = 128 ∧ Always (step plainReader) (fun p => p.daemon.rx.Matched)
        (init ⟨.little, plainBox, ()⟩) (sizeLoads ["0", "64", "128"]) := by
  obtain ⟨p, reached, size⟩ :
      ∃ p ∈ run (step plainReader) (init ⟨.little, plainBox, ()⟩) (sizeLoads ["0", "64", "128"]),
        p.daemon.rx.reorderBufferSize = 128 := by decide +kernel
  exact ⟨p, reached, size, (reorderBuffer_matches_iff reached).mpr (by decide +kernel)⟩

/-- A size of zero after another one: the reorder buffer is still there. -/
theorem reorderBuffer_outlives_option :
    ∃ p ∈ run (step plainReader) (init ⟨.little, plainBox, ()⟩) (sizeLoads ["64", "0"]),
      p.daemon.rx.reorderBufferSize = 0 ∧ p.daemon.rx.reorderBuffer.isSome ∧ ¬ p.daemon.rx.Matched := by
  obtain ⟨p, reached, size, there⟩ :
      ∃ p ∈ run (step plainReader) (init ⟨.little, plainBox, ()⟩) (sizeLoads ["64", "0"]),
        p.daemon.rx.reorderBufferSize = 0 ∧ p.daemon.rx.reorderBuffer.isSome := by decide +kernel
  refine ⟨p, reached, size, there, fun matched => ?_⟩
  rw [matched.null.mpr size] at there
  cases there

/-- The password of the file is the key, and data is in clear only if the file says so. -/
structure Secured (reader : Reader κ) (file : ConfFile) (p : Process κ) : Prop where
  key : ∃ password, password ≠ "" ∧ file.getValue "general" "password" = some password ∧
    p.daemon.host.key = reader.setPassword password
  cleartextData : p.daemon.cleartextData = decide (file.getUint "general" "cleartext_data" 0 ≠ 0)

/-- Whatever the text of the first file that is loaded, the daemon is secured just when the
    file has a setting in the section `general`. -/
theorem secured_iff {host : Host κ} {content : List Char} {file : ConfFile} {flowId : String → UInt32}
    {send : Nat → SendResult} (parsed : entries content = some file)
    (begun : start reader host now file flowId send = some p) :
    Secured reader file p ↔ ∃ entry ∈ file, entry.sectionName = "general" := by
  constructor
  · rintro ⟨⟨password, _, found, _⟩, _⟩
    obtain ⟨entry, there, _⟩ := Option.map_eq_some_iff.mp found
    have named := List.find?_some there
    simp only [decide_eq_true_eq] at named
    exact ⟨entry, List.mem_of_find?_eq_some there, named.1⟩
  · intro general
    obtain ⟨conf, read, rest⟩ := Option.bind_eq_some_iff.mp begun
    obtain ⟨d, done, rfl⟩ := Option.map_eq_some_iff.mp rest
    obtain ⟨general, member⟩ := (ConfFile.exists_general_iff read).mpr (ConfFile.mem_walk_iff.mpr general)
    have found := ((ConfFile.general_mem_iff read).mp member).2
    have keyed := Daemon.config_keyed member (fun other listed => by
      have same := ((ConfFile.general_mem_iff read).mp listed).2
      rw [found] at same
      exact (Option.some.inj same).symm) done
    have keyed := Daemon.recalcWeight_keyed keyed
    obtain ⟨mode, _, given⟩ := Option.bind_eq_some_iff.mp found
    obtain ⟨password, there, rfl⟩ := Option.map_eq_some_iff.mp given
    obtain ⟨entry, first, value⟩ := Option.map_eq_some_iff.mp there
    have nonempty := entries_values parsed entry (List.mem_of_find?_eq_some first)
    exact ⟨⟨password, value ▸ nonempty, there, keyed.key⟩, keyed.cleartextData⟩

/-- A key is the password it was made of, and none is the key of zeros. -/
def passwordReader : Reader (Option String) := ⟨some, fun _ => none⟩

def unkeyedHost : Host (Option String) :=
  ⟨.little, ⟨fun _ => plainBox.easy (), fun _ => plainBox.openEasy ()⟩, none⟩

/-- The process after the first load of a file with the given text. -/
def startText (content : String) : Option (ConfFile × Process (Option String)) :=
  (entries content.toList).bind fun file =>
    (start passwordReader unkeyedHost 0 file (fun _ => 1) fun _ => .blocked).map fun p => (file, p)

theorem secured_with_password :
    ∃ result ∈ startText "[general]\nmode = server\npassword = p\n",
      Secured passwordReader result.1 result.2 := by
  obtain ⟨result, started, general⟩ : ∃ result ∈ startText "[general]\nmode = server\npassword = p\n",
      ∃ entry ∈ result.1, entry.sectionName = "general" := by decide +kernel
  obtain ⟨file, parsed, rest⟩ := Option.bind_eq_some_iff.mp started
  obtain ⟨p, begun, rfl⟩ := Option.map_eq_some_iff.mp rest
  exact ⟨_, started, (secured_iff parsed begun).mpr general⟩

/-- A file that has a tunnel and no section `general` is loaded, with the key of zeros and
    data in clear. -/
theorem tunnel_without_password :
    ∃ result ∈ startText "[a]\nremotehost = h\nremoteport = 1\n",
      result.2.daemon.host.key = none ∧ result.2.daemon.cleartextData = true ∧
        result.2.names = ["a"] ∧ ¬ Secured passwordReader result.1 result.2 := by
  obtain ⟨result, started, key, clear, names⟩ :
      ∃ result ∈ startText "[a]\nremotehost = h\nremoteport = 1\n",
        result.2.daemon.host.key = none ∧ result.2.daemon.cleartextData = true ∧
          result.2.names = ["a"] := by decide +kernel
  refine ⟨result, started, key, clear, names, ?_⟩
  rintro ⟨⟨password, _, _, set⟩, _⟩
  rw [key] at set
  cases set

end Process

end Mlvpn
