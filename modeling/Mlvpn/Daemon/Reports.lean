import Mlvpn.Daemon.Scripts

/-! # What the scripts have reported

The interface is reported up and down in turn, and is up while a tunnel of the list
is connected.  The tunnels are reported in turn as well, unless a server takes a
handshake on a tunnel that is connected already.
-/

namespace Mlvpn.Daemon

open Library.Machine Library.History Tunnel

variable {κ : Type} {d d' : Daemon κ} {i : Nat} {now : ℚ} {again : Prop} {name : String}

/-- The tunnels of the list have distinct names, and those that are called back or
    connected are among them. -/
structure Roster (d : Daemon κ) : Prop where
  inside : d.Inside
  names : (d.rtuns.map fun j => (d.tun j).name).Nodup
  listed : ∀ j, (d.tun j).Watched ∨ (d.tun j).status.Up → j ∈ d.rtuns

theorem roster_init (host : Host κ) : (init host).Roster where
  inside := fun j member => by cases member
  names := List.nodup_nil
  listed := fun j either => by
    rw [tun_eq_blank (Nat.not_lt_zero j)] at either
    exact absurd either (not_or.mpr ⟨not_watched rfl rfl, by decide⟩)

/-- The list is as it was, and nothing outside of it was called back or connected. -/
theorem Roster.congr (roster : d.Roster) (rtuns : d'.rtuns = d.rtuns)
    (length : d'.tuns.length = d.tuns.length) (names : ∀ j, (d'.tun j).name = (d.tun j).name)
    (listed : ∀ j, (d'.tun j).Watched ∨ (d'.tun j).status.Up → j ∈ d.rtuns) : d'.Roster where
  inside := roster.inside.grow (by rw [rtuns]; exact List.Subset.refl _) length.ge
  names := by
    simp only [rtuns, names]
    exact roster.names
  listed := by
    rw [rtuns]
    exact listed

/-- Tunnels of the list with the same name are the same. -/
theorem Roster.name_inj {j : Nat} (roster : d.Roster) (first : i ∈ d.rtuns) (second : j ∈ d.rtuns)
    (same : (d.tun i).name = (d.tun j).name) : i = j :=
  List.inj_on_of_nodup_map roster.names first second same

theorem Raises.tun_eq (raises : Raises d d' i now) (inside : i < d.tuns.length) (j : Nat) :
    d'.tun j = if j = i then (d.tun i).raised now else d.tun j := by
  have changed : d'.tun j = (d.modify i (·.raised now)).tun j := by rw [tun, tun, raises.tuns]
  rw [changed, tun_modify]
  simp only [inside, and_true]

theorem Falls.tun_eq (falls : Falls d d' i) (inside : i < d.tuns.length) (j : Nat) :
    d'.tun j = if j = i then (d.tun i).lowered else d.tun j := by
  have changed : d'.tun j = (d.modify i Tunnel.lowered).tun j := by rw [tun, tun, falls.tuns]
  rw [changed, tun_modify]
  simp only [inside, and_true]

/-- Neither a name nor a watcher is touched. -/
theorem Falls.frame (falls : Falls d d' i) (j : Nat) :
    (d'.tun j).name = (d.tun j).name ∧ ((d'.tun j).Watched → (d.tun j).Watched) := by
  have changed : d'.tun j = (d.modify i Tunnel.lowered).tun j := by rw [tun, tun, falls.tuns]
  rw [changed, tun_modify]
  split
  next here =>
    rw [here.1]
    exact ⟨rfl, id⟩
  next => exact ⟨rfl, id⟩

theorem Falls.up_iff (falls : Falls d d' i) (j : Nat) :
    (d'.tun j).status.Up ↔ (d.tun j).status.Up ∧ j ≠ i := by
  have changed : d'.tun j = (d.modify i Tunnel.lowered).tun j := by rw [tun, tun, falls.tuns]
  rw [changed, up_lowered]

theorem Change.roster (change : Change again d d') (roster : d.Roster) : d'.Roster := by
  cases change with
  | unheard unheard =>
      refine roster.congr unheard.rtuns unheard.length (fun j => (unheard.hushed j).name) ?_
      intro j either
      exact roster.listed j (either.imp (unheard.hushed j).watched (unheard.hushed j).up.mp)
  | @up _ i now watched _ done =>
      have listed : i ∈ d.rtuns := roster.listed i (.inl watched)
      have raises := statusUp_raises (lt_of_watched watched) listed done
      have tuns := raises.tun_eq (lt_of_watched watched)
      refine roster.congr raises.rtuns (by rw [raises.tuns, length_modify]) (fun j => ?_) fun j either => ?_
      · rw [tuns]
        split
        next here => rw [here]; rfl
        next => rfl
      · rw [tuns] at either
        split at either
        next here => exact here ▸ listed
        next => exact roster.listed j either
  | @down _ i done =>
      have falls := statusDown_falls done
      have length : d'.tuns.length = d.tuns.length := by rw [falls.tuns, length_modify]
      refine roster.congr falls.rtuns length (fun j => (falls.frame j).1) fun j either => ?_
      apply roster.listed j
      exact either.imp (falls.frame j).2 fun up => ((falls.up_iff j).mp up).1
  | create conf serverMode flowId now new =>
      let t := Tunnel.init conf serverMode flowId now
      have inside : ({ d with
          tuns := d.tuns ++ [t]
          rtuns := d.tuns.length :: d.rtuns }.log (.created d.tuns.length)).Inside :=
        (roster.inside.create (t := t) rfl rfl).1
      refine ⟨inside, names_create roster.inside roster.names (t := t) (named_eq_none new) rfl rfl, ?_⟩
      intro j either
      by_cases last : j = d.tuns.length
      · exact last ▸ List.mem_cons_self
      · rw [tun_append rfl, if_neg last] at either
        exact List.mem_cons_of_mem _ (roster.listed j either)
  | @drop i listed unwatched down =>
      refine ⟨roster.inside.grow List.eraseP_subset (le_refl _),
        roster.names.sublist (List.eraseP_sublist.map _), fun j either => ?_⟩
      apply mem_erased roster.names listed (roster.listed j either)
      rintro rfl
      exact absurd either (not_or.mpr ⟨unwatched, down⟩)

/-- A new tunnel of the list is found by nothing that its structure does not meet. -/
theorem exists_create (inside : d.Inside) {P : Tunnel → Prop} {t : Tunnel} (not : ¬ P t)
    (tuns : d'.tuns = d.tuns ++ [t]) (rtuns : d'.rtuns = d.tuns.length :: d.rtuns) :
    (∃ j ∈ d'.rtuns, P (d'.tun j)) ↔ ∃ j ∈ d.rtuns, P (d.tun j) := by
  have last : d'.tun d.tuns.length = t := by rw [tun_append tuns, if_pos rfl]
  have kept := (inside.create tuns rtuns).2
  rw [rtuns]
  simp only [List.mem_cons, exists_eq_or_imp, last, not, false_or]
  constructor
  · rintro ⟨j, listed, found⟩
    exact ⟨j, listed, kept j listed ▸ found⟩
  · rintro ⟨j, listed, found⟩
    exact ⟨j, listed, (kept j listed).symm ▸ found⟩

/-- A tunnel that leaves the list is missed by nothing that it does not meet. -/
theorem Roster.exists_drop (roster : d.Roster) {P : Tunnel → Prop} (listed : i ∈ d.rtuns)
    (not : ¬ P (d.tun i)) :
    (∃ j ∈ d.rtuns.eraseP fun j => (d.tun j).name = (d.tun i).name, P (d.tun j)) ↔
      ∃ j ∈ d.rtuns, P (d.tun j) := by
  constructor
  · rintro ⟨j, member, found⟩
    exact ⟨j, List.mem_of_mem_eraseP member, found⟩
  · rintro ⟨j, member, found⟩
    exact ⟨j, mem_erased roster.names listed member fun here => not (here ▸ found), found⟩

/-- The interface is up while a tunnel is connected, and was reported so in turn. -/
structure Interface (d : Daemon κ) : Prop where
  initialized : d.initialized = true ↔ ∃ i ∈ d.rtuns, (d.tun i).status.Up
  alternates : Alternates d.tuntapReports
  latest : latest d.tuntapReports = d.initialized

theorem interface_init (host : Host κ) : (init host).Interface where
  initialized := by
    constructor
    · intro on
      cases on
    · rintro ⟨j, member, _⟩
      cases member
  alternates := alternates_nil
  latest := rfl

/-- Scripts that report tunnels only. -/
theorem Interface.congr (interface : d.Interface)
    (up : (∃ i ∈ d'.rtuns, (d'.tun i).status.Up) ↔ ∃ i ∈ d.rtuns, (d.tun i).status.Up)
    (initialized : d'.initialized = d.initialized) (reports : d'.tuntapReports = d.tuntapReports) :
    d'.Interface where
  initialized := by rw [initialized, interface.initialized, up]
  alternates := by
    rw [reports]
    exact interface.alternates
  latest := by
    rw [reports, initialized]
    exact interface.latest

/-- The interface is switched, and the switch is reported. -/
theorem Interface.switch (interface : d.Interface) (on : Bool) (before : d.initialized = !on)
    (up : on = true ↔ ∃ i ∈ d'.rtuns, (d'.tun i).status.Up) (initialized : d'.initialized = on)
    (reports : d'.tuntapReports = on :: d.tuntapReports) : d'.Interface where
  initialized := by rw [initialized, up]
  alternates := by
    rw [reports, alternates_cons, interface.latest, before]
    exact ⟨(Bool.not_ne_self on).symm, interface.alternates⟩
  latest := by
    rw [reports, initialized]
    rfl

theorem mem_up_iff : d.up = [] ↔ ¬ ∃ i ∈ d.rtuns, (d.tun i).status.Up := by
  unfold up
  simp only [List.filter_eq_nil_iff, decide_eq_true_eq, not_exists, not_and]

theorem Raises.interface (raises : Raises d d' i now) (roster : d.Roster) (listed : i ∈ d.rtuns)
    (interface : d.Interface) : d'.Interface := by
  have up : ∃ j ∈ d'.rtuns, (d'.tun j).status.Up := by
    refine ⟨i, raises.rtuns ▸ listed, ?_⟩
    rw [raises.tun_eq (roster.inside i listed), if_pos rfl]
    exact (by decide : Status.authok.Up)
  cases before : d.initialized with
  | false =>
      refine interface.switch true before ⟨fun _ => up, fun _ => rfl⟩ raises.initialized ?_
      rw [tuntapReports, raises.scripts, before]
      rfl
  | true =>
      refine interface.congr ⟨fun _ => interface.initialized.mp before, fun _ => up⟩
        (raises.initialized.trans before.symm) ?_
      rw [tuntapReports, raises.scripts, before]
      rfl

theorem Falls.interface (falls : Falls d d' i) (roster : d.Roster) (interface : d.Interface) :
    d'.Interface := by
  by_cases connected : (d.tun i).status.Up
  · have listed : i ∈ d.rtuns := roster.listed i (.inr connected)
    have before : d.initialized = true := interface.initialized.mpr ⟨i, listed, connected⟩
    cases falls.ended connected with
    | last none on off scripts =>
        refine interface.switch false on ?_ off ?_
        · exact ⟨fun wrong => (by cases wrong), fun up => absurd up (mem_up_iff.mp none)⟩
        · rw [tuntapReports, scripts]
          rfl
    | kept remains same scripts =>
        have some : ∃ j ∈ d'.rtuns, (d'.tun j).status.Up := by
          by_contra none
          exact remains ⟨mem_up_iff.mpr none, before⟩
        refine interface.congr ⟨fun _ => ⟨i, listed, connected⟩, fun _ => some⟩ same ?_
        rw [tuntapReports, scripts]
        rfl
  · obtain ⟨initialized, scripts⟩ := falls.idle connected
    refine interface.congr ?_ initialized (by rw [tuntapReports, scripts]; rfl)
    simp only [falls.rtuns, falls.up_iff]
    constructor
    · rintro ⟨j, listed, up, _⟩
      exact ⟨j, listed, up⟩
    · rintro ⟨j, listed, up⟩
      exact ⟨j, listed, up, fun here => connected (here ▸ up)⟩

theorem Change.interface (change : Change again d d') (roster : d.Roster) (interface : d.Interface) :
    d'.Interface := by
  cases change with
  | unheard unheard =>
      apply interface.congr _ unheard.initialized (by rw [tuntapReports, unheard.scripts]; rfl)
      simp only [unheard.rtuns, (unheard.hushed _).up]
  | @up _ i now watched _ done =>
      have listed : i ∈ d.rtuns := roster.listed i (.inl watched)
      exact (statusUp_raises (lt_of_watched watched) listed done).interface roster listed interface
  | down done => exact (statusDown_falls done).interface roster interface
  | create conf serverMode flowId now new =>
      have down : ¬ (Tunnel.init conf serverMode flowId now).status.Up :=
        (by decide : ¬ Status.disconnected.Up)
      exact interface.congr (exists_create roster.inside (P := (·.status.Up)) down rfl rfl) rfl rfl
  | @drop i listed _ down =>
      exact interface.congr (roster.exists_drop (P := (·.status.Up)) listed down) rfl rfl

theorem Changes.interface (changes : Changes again d d') (roster : d.Roster)
    (interface : d.Interface) : d'.Roster ∧ d'.Interface := by
  induction changes with
  | refl => exact ⟨roster, interface⟩
  | tail _ last ih => exact ⟨last.roster ih.1, last.interface ih.1 ih.2⟩

/-- What every event keeps. -/
structure Sound (d : Daemon κ) : Prop where
  current : d.Current
  roster : d.Roster
  interface : d.Interface

theorem sound_init (host : Host κ) : (init host).Sound :=
  ⟨current_init host, roster_init host, interface_init host⟩

theorem step_sound {e : ℚ × Event κ} (sound : d.Sound) (done : d.step e = some d') : d'.Sound := by
  obtain ⟨roster, interface⟩ := (step_changes sound.current done).interface sound.roster sound.interface
  exact ⟨step_current sound.current done, roster, interface⟩

/-- In every run, `tuntap_up` and `tuntap_down` are run in turn, and the interface is up
    while a tunnel of the list is connected. -/
theorem tuntap_alternates {host : Host κ} {events : List (ℚ × Event κ)}
    (reached : run step (init host) events = some d) :
    Alternates d.tuntapReports ∧
      (d.initialized = true ↔ ∃ i ∈ d.rtuns, (d.tun i).status.Up) := by
  have sound : d.Sound :=
    run_preserves events (fun _ _ _ _ sound done => step_sound sound done) (sound_init host) reached
  exact ⟨sound.interface.alternates, sound.interface.initialized⟩

/-- One of two tunnels fails, then the other one, which is connected again. -/
theorem tuntap_alternates_twice :
    ∃ d ∈ run step (init ⟨.little, plainBox, ()⟩) (serverRun [serverConf "a" 0, serverConf "b" 0] ++
        [(3, .read 0 .failed), (3, .read 1 .failed), challenged 1]),
      d.tuntapReports = [true, false, true] ∧ Alternates d.tuntapReports ∧
        (d.initialized = true ↔ ∃ i ∈ d.rtuns, (d.tun i).status.Up) := by
  obtain ⟨d, reached, reports⟩ :
      ∃ d ∈ run step (init ⟨.little, plainBox, ()⟩)
        (serverRun [serverConf "a" 0, serverConf "b" 0] ++
          [(3, .read 0 .failed), (3, .read 1 .failed), challenged 1]),
        d.tuntapReports = [true, false, true] := by
    decide +kernel
  exact ⟨d, reached, reports, tuntap_alternates reached⟩

/-- A tunnel of the list has this name and is connected. -/
def UpNamed (d : Daemon κ) (name : String) : Prop :=
  ∃ i ∈ d.rtuns, (d.tun i).name = name ∧ (d.tun i).status.Up

/-- The reports of every name are in turn, and the last one says whether a tunnel of
    that name is connected. -/
def Reported (d : Daemon κ) : Prop :=
  ∀ name, Alternates (d.rtunReports name) ∧ (latest (d.rtunReports name) = true ↔ d.UpNamed name)

theorem reported_init (host : Host κ) : (init host).Reported := by
  intro name
  refine ⟨alternates_nil, fun wrong => (by cases wrong), ?_⟩
  rintro ⟨j, member, _⟩
  cases member

/-- No script was run, and no tunnel has changed that one would tell of. -/
theorem Reported.congr (reported : d.Reported) (scripts : d'.scripts = d.scripts)
    (up : ∀ name, d'.UpNamed name ↔ d.UpNamed name) : d'.Reported := by
  intro name
  rw [rtunReports, scripts, up]
  exact reported name

/-- A tunnel of the list is found by its name. -/
theorem Roster.upNamed_iff (roster : d.Roster) (listed : i ∈ d.rtuns) :
    d.UpNamed (d.tun i).name ↔ (d.tun i).status.Up := by
  constructor
  · rintro ⟨j, member, same, up⟩
    exact roster.name_inj member listed same ▸ up
  · intro up
    exact ⟨i, listed, rfl, up⟩

/-- One tunnel has changed, and this was reported. -/
theorem Reported.switch (reported : d.Reported) (name : String) (on : Bool)
    (own : d'.rtunReports name = on :: d.rtunReports name)
    (others : ∀ other, other ≠ name → d'.rtunReports other = d.rtunReports other)
    (before : d.UpNamed name ↔ on = false) (after : d'.UpNamed name ↔ on = true)
    (up : ∀ other, other ≠ name → (d'.UpNamed other ↔ d.UpNamed other)) : d'.Reported := by
  intro other
  by_cases here : other = name
  · obtain ⟨alternates, shown⟩ := reported name
    rw [here, own, alternates_cons, after]
    refine ⟨⟨?_, alternates⟩, Iff.rfl⟩
    rw [before] at shown
    rintro same
    rw [← same] at shown
    cases on
    · exact absurd (shown.mpr rfl) Bool.false_ne_true
    · exact absurd (shown.mp rfl) (by decide)
  · rw [others other here, up other here]
    exact reported other

/-- One tunnel has changed, but not its name. -/
theorem upNamed_other {other : String} (rtuns : d'.rtuns = d.rtuns)
    (name : (d'.tun i).name = (d.tun i).name) (others : ∀ j, j ≠ i → d'.tun j = d.tun j)
    (different : other ≠ (d.tun i).name) : d'.UpNamed other ↔ d.UpNamed other := by
  unfold UpNamed
  rw [rtuns]
  constructor
  · rintro ⟨j, listed, same, up⟩
    have here : j ≠ i := by
      rintro rfl
      exact different (same.symm.trans name)
    rw [others j here] at same up
    exact ⟨j, listed, same, up⟩
  · rintro ⟨j, listed, same, up⟩
    have here : j ≠ i := by
      rintro rfl
      exact different same.symm
    rw [← others j here] at same up
    exact ⟨j, listed, same, up⟩

theorem Raises.rtunReports_eq (raises : Raises d d' i now) (name : String) :
    d'.rtunReports name =
      if (d.tun i).name = name then true :: d.rtunReports name else d.rtunReports name := by
  unfold rtunReports
  rw [raises.scripts]
  by_cases own : (d.tun i).name = name <;> cases d.initialized <;> simp [List.filterMap_cons, Script.rtun?, own]

theorem Falls.rtunReports_eq (falls : Falls d d' i) (connected : (d.tun i).status.Up)
    (name : String) :
    d'.rtunReports name =
      if (d.tun i).name = name then false :: d.rtunReports name else d.rtunReports name := by
  unfold rtunReports
  cases falls.ended connected with
  | last _ _ _ scripts =>
      rw [scripts]
      by_cases own : (d.tun i).name = name <;> simp [List.filterMap_cons, Script.rtun?, own]
  | kept _ _ scripts =>
      rw [scripts]
      by_cases own : (d.tun i).name = name <;> simp [Script.rtun?, own]

/-- A tunnel that was not connected is reported up. -/
theorem Raises.reported (raises : Raises d d' i now) (roster : d.Roster) (listed : i ∈ d.rtuns)
    (idle : ¬ (d.tun i).status.Up) (reported : d.Reported) : d'.Reported := by
  have tuns := raises.tun_eq (roster.inside i listed)
  refine reported.switch (d.tun i).name true ?_ ?_ ?_ ?_ ?_
  · rw [raises.rtunReports_eq, if_pos rfl]
  · intro other different
    rw [raises.rtunReports_eq, if_neg (Ne.symm different)]
  · rw [roster.upNamed_iff listed]
    exact ⟨fun up => absurd up idle, fun wrong => (by cases wrong)⟩
  · refine ⟨fun _ => rfl, fun _ => ⟨i, raises.rtuns ▸ listed, ?_⟩⟩
    rw [tuns, if_pos rfl]
    exact ⟨rfl, (by decide : Status.authok.Up)⟩
  · intro other different
    refine upNamed_other raises.rtuns ?_ (fun j here => ?_) different
    · rw [tuns, if_pos rfl]
      rfl
    · rw [tuns, if_neg here]

/-- A tunnel that was connected is reported down, and another one is not reported. -/
theorem Falls.reported (falls : Falls d d' i) (roster : d.Roster) (reported : d.Reported) :
    d'.Reported := by
  by_cases connected : (d.tun i).status.Up
  · have listed : i ∈ d.rtuns := roster.listed i (.inr connected)
    have tuns := falls.tun_eq (roster.inside i listed)
    have named : (d'.tun i).name = (d.tun i).name := by
      rw [tuns, if_pos rfl]
      rfl
    refine reported.switch (d.tun i).name false ?_ ?_ ?_ ?_ ?_
    · rw [falls.rtunReports_eq connected, if_pos rfl]
    · intro other different
      rw [falls.rtunReports_eq connected, if_neg (Ne.symm different)]
    · rw [roster.upNamed_iff listed]
      exact ⟨fun _ => rfl, fun _ => connected⟩
    · refine ⟨fun remains => ?_, fun wrong => (by cases wrong)⟩
      obtain ⟨j, member, same, up⟩ := remains
      obtain ⟨before, here⟩ := (falls.up_iff j).mp up
      rw [tuns, if_neg here] at same
      exact absurd (roster.name_inj (falls.rtuns ▸ member) listed same) here
    · intro other different
      refine upNamed_other falls.rtuns named (fun j here => ?_) different
      rw [tuns, if_neg here]
  · refine reported.congr (falls.idle connected).2 fun name => ?_
    unfold UpNamed
    simp only [falls.rtuns, falls.frame, falls.up_iff]
    constructor
    · rintro ⟨j, listed, same, up, _⟩
      exact ⟨j, listed, same, up⟩
    · rintro ⟨j, listed, same, up⟩
      exact ⟨j, listed, same, up, fun here => connected (here ▸ up)⟩

/-- While no connected tunnel is connected again, every change is reported. -/
theorem Change.reported (change : Change False d d') (roster : d.Roster) (reported : d.Reported) :
    d'.Reported := by
  cases change with
  | unheard unheard =>
      refine reported.congr unheard.scripts fun name => ?_
      unfold UpNamed
      simp only [unheard.rtuns, (unheard.hushed _).name, (unheard.hushed _).up]
  | @up _ i now watched fresh done =>
      have listed : i ∈ d.rtuns := roster.listed i (.inl watched)
      exact (statusUp_raises (lt_of_watched watched) listed done).reported roster listed fresh reported
  | down done => exact (statusDown_falls done).reported roster reported
  | create conf serverMode flowId now new =>
      refine reported.congr rfl fun name => ?_
      have down : ¬ ((Tunnel.init conf serverMode flowId now).name = name ∧
          (Tunnel.init conf serverMode flowId now).status.Up) :=
        fun both => absurd both.2 (by decide : ¬ Status.disconnected.Up)
      exact exists_create roster.inside (P := fun t => t.name = name ∧ t.status.Up) down rfl rfl
  | @drop i listed _ down =>
      refine reported.congr rfl fun name => ?_
      exact roster.exists_drop (P := fun t => t.name = name ∧ t.status.Up) listed
        fun both => down both.2

theorem Changes.reported (changes : Changes False d d') (roster : d.Roster) (reported : d.Reported) :
    d'.Roster ∧ d'.Reported := by
  induction changes with
  | refl => exact ⟨roster, reported⟩
  | tail _ last ih => exact ⟨last.roster ih.1, last.reported ih.1 ih.2⟩

theorem rtunReports_modify (f : Tunnel → Tunnel) (name : String) :
    (d.modify i f).rtunReports name = d.rtunReports name := rfl

/-- A handshake on a connected tunnel of a server is reported as if it had been down. -/
theorem sendAuth_reports (server : (d.tun i).serverMode = true) (connected : (d.tun i).status.Up)
    (listed : i ∈ d.rtuns) (done : d.sendAuth i now = some d') :
    d'.rtunReports (d.tun i).name = true :: d.rtunReports (d.tun i).name := by
  have inside := lt_of_up connected
  simp only [sendAuth, server, connected, or_true, if_true] at done
  obtain ⟨d₁, raised, rfl⟩ := Option.map_eq_some_iff.mp done
  have name : ((d.modify i fun t => t.queueAuthOk.tick now).tun i).name = (d.tun i).name := by
    rw [tun_modify_self inside]
    exact Hushed.queueAuthOk.name
  have within : i < (d.modify i fun t => t.queueAuthOk.tick now).tuns.length := by
    rw [length_modify]
    exact inside
  have raises := statusUp_raises within listed raised
  have reports := raises.rtunReports_eq (d.tun i).name
  rw [if_pos name, rtunReports_modify] at reports
  rw [rtunReports_modify]
  exact reports

theorem dispatch_reports {pkt : Pkt} (handshake : pkt.type = .auth ∨ pkt.type = .authOk)
    (server : (d.tun i).serverMode = true) (connected : (d.tun i).status.Up) (listed : i ∈ d.rtuns)
    (done : d.dispatch i now pkt = some d') :
    d'.rtunReports (d.tun i).name = true :: d.rtunReports (d.tun i).name := by
  rw [dispatch_handshake handshake] at done
  exact sendAuth_reports server connected listed done

theorem Repeats.not_reported {e : ℚ × Event κ} (repeats : d.Repeats e) (roster : d.Roster)
    (reported : d.Reported) (done : d.step e = some d') : ¬ d'.Reported := by
  obtain ⟨now, e⟩ := e
  unfold Repeats at repeats
  split at repeats
  next _ i bytes sender named same =>
    cases same
    obtain ⟨running, reading, server, connected, ⟨decrypted, pkt⟩, accepted, handshake⟩ := repeats
    have listed := roster.listed i (.inr connected)
    have received : d.rtunRead i now (.datagram bytes sender named) = some d' := by
      simpa only [step, running, reading, if_true, Bool.false_eq_true, if_false] using done
    cases rtunRead_cases received with
    | waits silent => simp at silent
    | refuses read =>
        rw [read] at accepted
        cases accepted
    | @accepts _ _ _ _ _ _ t₁ _ read adopted dispatched =>
        rw [read] at accepted
        cases accepted
        have followed : Received (d.tun i) t₁ := accepted_received read adopted
        let d₁ := (d.modify i fun _ => t₁).log (.accepted i pkt.type decrypted)
        have there : d₁.tun i = t₁ := tun_modify_self (lt_of_up connected) _
        have name : (d₁.tun i).name = (d.tun i).name := there ▸ followed.name
        have reports := dispatch_reports (d := d₁) handshake (there ▸ followed.serverMode.trans server)
          (by rw [there, followed.status]; exact connected) listed dispatched
        rw [name] at reports
        have before : latest (d.rtunReports (d.tun i).name) = true :=
          (reported _).2.mpr ((roster.upNamed_iff listed).mpr connected)
        intro after
        have alternates := (after (d.tun i).name).1
        rw [reports, alternates_cons] at alternates
        exact alternates.1 before.symm
  next => exact repeats.elim

/-- The condition for one event. -/
theorem step_reported_iff {e : ℚ × Event κ} (sound : d.Sound) (reported : d.Reported)
    (done : d.step e = some d') : d'.Reported ↔ ¬ d.Repeats e := by
  constructor
  · intro after repeats
    exact repeats.not_reported sound.roster reported done after
  · intro fresh
    have changes : Changes False d d' := by
      have changes := step_changes sound.current done
      rwa [eq_false fresh] at changes
    exact (changes.reported sound.roster reported).2

/-- In a run, `rtun_up` and `rtun_down` report the tunnels in turn, each as it is, if and
    only if no handshake reaches a connected tunnel of a server. -/
theorem rtun_alternates_iff {host : Host κ} {events : List (ℚ × Event κ)}
    (reached : run step (init host) events = some d) :
    Always step Reported (init host) events ↔
      Meets step (fun s e => ¬ Repeats s e) (init host) events :=
  always_iff_meets_of_invariant (fun _ _ _ sound done => step_sound sound done)
    (fun _ _ _ sound reported done => step_reported_iff sound reported done) events
    (sound_init host) (reported_init host) reached

instance (d : Daemon κ) (e : ℚ × Event κ) : Decidable (d.Repeats e) := by
  unfold Repeats
  split <;> infer_instance

/-- A tunnel of a server is connected, fails, and is connected again. -/
theorem rtun_alternates_reconnected :
    ∃ d ∈ run step (init ⟨.little, plainBox, ()⟩)
        (serverRun [serverConf "a" 0] ++ [(3, .read 0 .failed), challenged 0]),
      d.rtunReports "a" = [true, false, true] ∧
        Always step Reported (init ⟨.little, plainBox, ()⟩)
          (serverRun [serverConf "a" 0] ++ [(3, .read 0 .failed), challenged 0]) := by
  obtain ⟨d, reached, reports⟩ :
      ∃ d ∈ run step (init ⟨.little, plainBox, ()⟩)
        (serverRun [serverConf "a" 0] ++ [(3, .read 0 .failed), challenged 0]),
        d.rtunReports "a" = [true, false, true] := by
    decide +kernel
  exact ⟨d, reached, reports, (rtun_alternates_iff reached).mpr (by decide +kernel)⟩

/-- A second challenge makes the server run `rtun_up` again. -/
theorem rtun_up_repeated :
    ∃ d ∈ run step (init ⟨.little, plainBox, ()⟩) (serverRun [serverConf "a" 0] ++ [challenged 0]),
      d.rtunReports "a" = [true, true] ∧ ¬ Alternates (d.rtunReports "a") := by
  decide +kernel

end Mlvpn.Daemon
