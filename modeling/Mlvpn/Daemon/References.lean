import Mlvpn.Daemon.Table

/-! # References to tunnels

A tunnel that was dropped is referred to by nothing any more: the round robin
holds connected tunnels of the list, and the filters hold tunnels of the list.
A reload clears the filters before it drops a tunnel, and the tunnel is
disconnected before it leaves the list, which takes it out of the table.  It is
found in the list by its name, so the names have to be distinct.
-/

namespace Mlvpn.Daemon

open Library.Machine Tunnel

variable {κ : Type} {d d' : Daemon κ} {i : Nat}

/-- The table and the filters refer to tunnels that are there. -/
structure Current (d : Daemon κ) : Prop where
  inside : d.Inside
  table : ∀ j ∈ d.table, j ∈ d.rtuns ∧ (d.tun j).status.Up
  filters : ∀ f ∈ d.filters, f.2 ∈ d.rtuns
  names : (d.rtuns.map fun j => (d.tun j).name).Nodup

theorem current_init (host : Host κ) : (init host).Current where
  inside := fun j member => by cases member
  table := fun j member => by cases member
  filters := fun f member => by cases member
  names := List.nodup_nil

theorem Current.rtuns_nodup (current : d.Current) : d.rtuns.Nodup := current.names.of_map

/-- The list, the names and the filters are as they were. -/
theorem Current.of_sameTunnels (current : d.Current) (same : SameTunnels d d')
    (table : ∀ j ∈ d'.table, j ∈ d.rtuns ∧ (d'.tun j).status.Up) : d'.Current where
  inside := current.inside.grow (by rw [same.rtuns]; exact List.Subset.refl _) same.length.ge
  table := fun j member => by
    rw [same.rtuns]
    exact table j member
  filters := by
    rw [same.filters, same.rtuns]
    exact current.filters
  names := by
    simp only [same.rtuns, same.names]
    exact current.names

theorem eligible_up {mode j : Nat} (member : j ∈ d.eligible mode) :
    j ∈ d.rtuns ∧ (d.tun j).status.Up := by
  obtain ⟨listed, _, ⟨_, up⟩ | ok⟩ := mem_eligible.mp member
  · exact ⟨listed, up⟩
  · rw [ok]
    exact ⟨listed, by decide⟩

theorem LinkMove.current (move : LinkMove d d') (current : d.Current) : d'.Current := by
  obtain ⟨same, tables⟩ := move.tables
  apply current.of_sameTunnels same
  intro j member
  cases tables with
  | kept table statuses =>
      obtain ⟨listed, up⟩ := current.table j (table ▸ member)
      refine ⟨listed, ?_⟩
      rcases statuses j with equal | ⟨down, _⟩
      · rwa [equal]
      · exact absurd up down
  | stuck table up _ =>
      obtain ⟨listed, connected⟩ := current.table j (table ▸ member)
      exact ⟨listed, (up j).mpr connected⟩
  | rebuilt mode table _ =>
      rw [table] at member
      exact same.rtuns ▸ eligible_up member

theorem LinkMoves.current (moves : LinkMoves d d') (current : d.Current) :
    d'.Current ∧ SameTunnels d d' := by
  induction moves with
  | refl => exact ⟨current, .refl d⟩
  | tail _ last ih => exact ⟨last.current ih.1, ih.2.trans last.tables.1⟩

/-- The changes of a reload that neither add a tunnel nor remove one. -/
theorem Current.modify {f : Tunnel → Tunnel} (current : d.Current)
    (name : (f (d.tun i)).name = (d.tun i).name) (status : (f (d.tun i)).status = (d.tun i).status) :
    (d.modify i f).Current where
  inside := current.inside.modify i f
  table := fun j member => by
    obtain ⟨listed, up⟩ := current.table j member
    exact ⟨listed, (modify_up (by rw [status]) j).mpr up⟩
  filters := current.filters
  names := by
    have same : ∀ j, ((d.modify i f).tun j).name = (d.tun j).name := by
      intro j
      rw [tun_modify]
      split
      next here => rw [name, here.1]
      next => rfl
    simp only [same]
    exact current.names

/-- A tunnel is put in front of the list, and the others are as they were. -/
theorem Inside.create (inside : d.Inside) {t : Tunnel} (tuns : d'.tuns = d.tuns ++ [t])
    (rtuns : d'.rtuns = d.tuns.length :: d.rtuns) :
    d'.Inside ∧ ∀ j ∈ d.rtuns, d'.tun j = d.tun j := by
  constructor
  · intro j member
    rw [tuns, List.length_append, List.length_singleton]
    rcases List.mem_cons.mp (rtuns ▸ member) with rfl | listed
    · exact Nat.lt_succ_self _
    · exact Nat.lt_succ_of_lt (inside j listed)
  · intro j listed
    rw [tun_append tuns, if_neg (Nat.ne_of_lt (inside j listed))]

/-- Its name is new. -/
theorem names_create (inside : d.Inside) (names : (d.rtuns.map fun j => (d.tun j).name).Nodup)
    {t : Tunnel} (new : ∀ j ∈ d.rtuns, (d.tun j).name ≠ t.name) (tuns : d'.tuns = d.tuns ++ [t])
    (rtuns : d'.rtuns = d.tuns.length :: d.rtuns) :
    (d'.rtuns.map fun j => (d'.tun j).name).Nodup := by
  have last : d'.tun d.tuns.length = t := by rw [tun_append tuns, if_pos rfl]
  have same : (d.rtuns.map fun j => (d'.tun j).name) = d.rtuns.map fun j => (d.tun j).name :=
    List.map_congr_left fun j listed =>
      congrArg Tunnel.name ((inside.create tuns rtuns).2 j listed)
  rw [rtuns, List.map_cons, last, same]
  refine List.nodup_cons.mpr ⟨fun member => ?_, names⟩
  obtain ⟨j, listed, found⟩ := List.mem_map.mp member
  exact new j listed found

theorem Current.create (current : d.Current) {t : Tunnel} (new : ∀ j ∈ d.rtuns, (d.tun j).name ≠ t.name)
    (tuns : d'.tuns = d.tuns ++ [t]) (rtuns : d'.rtuns = d.tuns.length :: d.rtuns)
    (wrr : d'.wrr = d.wrr) (filters : d'.filters = d.filters) : d'.Current := by
  obtain ⟨inside, kept⟩ := current.inside.create tuns rtuns
  refine ⟨inside, fun j member => ?_, fun f member => ?_,
    names_create current.inside current.names new tuns rtuns⟩
  · have before : j ∈ d.table := by rwa [Daemon.table, wrr] at member
    obtain ⟨listed, up⟩ := current.table j before
    rw [kept j listed, rtuns]
    exact ⟨List.mem_cons_of_mem _ listed, up⟩
  · rw [rtuns]
    exact List.mem_cons_of_mem _ (current.filters f (filters ▸ member))

theorem named_eq_none {name : String} (new : d.named name = none) : ∀ j ∈ d.rtuns, (d.tun j).name ≠ name :=
  fun j listed same => List.find?_eq_none.mp new j listed (decide_eq_true same)

theorem rtunNew_current (current : d.Current) {conf : TunnelConf} (new : d.named conf.name = none)
    (serverMode : Bool) (flowId : UInt32) (now : ℚ) :
    (d.rtunNew conf serverMode flowId now).Current := by
  unfold rtunNew
  split
  next => exact current
  next =>
    exact current.create (t := Tunnel.init conf serverMode flowId now) (named_eq_none new) rfl rfl rfl rfl

theorem statusDown_down (done : d.statusDown i = some d') : ¬ (d'.tun i).status.Up := by
  obtain ⟨d₁, rfl, passes⟩ := (statusDown_lowers done).passes
  have lowered : (d₁.log (.statusDown i)).tun i = (d.modify i Tunnel.lowered).tun i := by
    rw [tun, log, passes.tuns, tun]
  rw [lowered, up_lowered]
  exact fun both => both.2 rfl

/-- A tunnel is found by its name to leave the list, so the others stay. -/
theorem mem_erased {j : Nat} (names : (d.rtuns.map fun j => (d.tun j).name).Nodup)
    (listed : i ∈ d.rtuns) (member : j ∈ d.rtuns) (other : j ≠ i) :
    j ∈ d.rtuns.eraseP fun j => (d.tun j).name = (d.tun i).name := by
  apply (List.mem_eraseP_of_neg _).mpr member
  intro same
  exact other (List.inj_on_of_nodup_map names member listed (of_decide_eq_true same))

/-- A tunnel that is not connected leaves the list. -/
theorem Current.drop (current : d.Current) (listed : i ∈ d.rtuns) (down : ¬ (d.tun i).status.Up)
    (cleared : d.filters = []) :
    let d' := { d with rtuns := d.rtuns.eraseP fun j => (d.tun j).name = (d.tun i).name }
    d'.Current ∧ ∀ j ∈ d.rtuns, j ≠ i → j ∈ d'.rtuns := by
  have others : ∀ j ∈ d.rtuns, j ≠ i →
      j ∈ d.rtuns.eraseP fun j => (d.tun j).name = (d.tun i).name :=
    fun _ member other => mem_erased current.names listed member other
  refine ⟨⟨?_, fun j member => ?_, fun f member => ?_, ?_⟩, others⟩
  · exact current.inside.grow List.eraseP_subset (le_refl _)
  · obtain ⟨there, up⟩ := current.table j member
    exact ⟨others j there fun same => down (same ▸ up), up⟩
  · rw [cleared] at member
    cases member
  · exact current.names.sublist (List.eraseP_sublist.map _)

/-- In the middle of a reload. -/
def Reloading (d : Daemon κ) : Prop := d.Current ∧ d.filters = []

theorem LinkMoves.reloading (moves : LinkMoves d d') (reloading : d.Reloading) : d'.Reloading := by
  obtain ⟨current, same⟩ := moves.current reloading.1
  exact ⟨current, same.filters.trans reloading.2⟩

theorem statusDown_reloading (reloading : d.Reloading) (done : d.statusDown i = some d') :
    d'.Reloading :=
  (LinkMoves.event (.down i) done).reloading reloading

/-- The beginning of a reload: the filters are cleared before anything is dropped. -/
theorem Current.reloading (current : d.Current) :
    { d with fallbackAvailable := 0, filters := [] }.Reloading :=
  ⟨⟨current.inside, current.table, fun f member => (by cases member), current.names⟩, rfl⟩

theorem Reloading.flagged (reloading : d.Reloading)
    (flagged : d' = d ∨ d' = { d with fallbackAvailable := 1 }) : d'.Reloading := by
  rcases flagged with rfl | rfl
  · exact reloading
  · obtain ⟨⟨inside, table, filters, names⟩, cleared⟩ := reloading
    exact ⟨⟨inside, table, filters, names⟩, cleared⟩

theorem configTunnel_reloading {conf : TunnelConf} {serverMode : Bool} {flowId : UInt32} {now : ℚ}
    (reloading : d.Reloading) (done : d.configTunnel conf serverMode flowId now = some d') :
    d'.Reloading := by
  obtain ⟨d₁, flagged, configured⟩ := configTunnel_cases done
  have noted : d₁.Reloading := reloading.flagged flagged
  rcases configured with ⟨new, rfl⟩ | ⟨j, d₂, _, down, rfl⟩
  · refine ⟨rtunNew_current noted.1 new serverMode flowId now, ?_⟩
    unfold rtunNew
    split <;> exact noted.2
  · have settled : d₂.Reloading := by
      rcases down with ⟨_, down⟩ | ⟨_, rfl⟩
      · exact statusDown_reloading noted down
      · exact noted
    exact ⟨settled.1.modify rfl rfl, settled.2⟩

theorem configGeneral_reloading {general : General κ} (reloading : d.Reloading)
    (done : d.configGeneral general = some d') : d'.Reloading := by
  unfold configGeneral at done
  obtain ⟨rx, _, rfl⟩ := Option.map_eq_some_iff.mp done
  obtain ⟨⟨inside, table, filters, names⟩, cleared⟩ := reloading
  exact ⟨⟨inside, table, filters, names⟩, cleared⟩

theorem configSection_reloading {now : ℚ} {s s' : Bool × Daemon κ} {part : Section κ}
    (reloading : s.2.Reloading) (done : configSection now s part = some s') : s'.2.Reloading := by
  rcases configSection_cases done with ⟨general, configured⟩ | ⟨conf, flowId, configured⟩
  · exact configGeneral_reloading reloading configured
  · exact configTunnel_reloading reloading configured

theorem rtunDrop_reloading {now : ℚ} {result : SendResult} (reloading : d.Reloading)
    (listed : i ∈ d.rtuns) (done : d.rtunDrop i now result = some d') :
    d'.Reloading ∧ ∀ j ∈ d.rtuns, j ≠ i → j ∈ d'.rtuns := by
  obtain ⟨d₁, sent, rest⟩ := Option.bind_eq_some_iff.mp done
  obtain ⟨d₂, lowered, rfl⟩ := Option.map_eq_some_iff.mp rest
  let d₃ := d₂.modify i Tunnel.stopWatching
  have moves : LinkMoves d d₃ :=
    ((sendDisconnect_links sent).trans (LinkMoves.event (.down i) lowered)).trans
      (LinkMoves.tune ⟨rfl, rfl, rfl⟩)
  obtain ⟨current, same⟩ := moves.current reloading.1
  have cleared : d₃.filters = [] := same.filters.trans reloading.2
  have down : ¬ (d₃.tun i).status.Up :=
    fun up => statusDown_down lowered ((modify_up Iff.rfl i).mp up)
  obtain ⟨dropped, others⟩ := current.drop (same.rtuns ▸ listed) down cleared
  exact ⟨⟨dropped, cleared⟩, fun j member other => others j (same.rtuns ▸ member) other⟩

/-- The tunnels to look at are all in the list still: only the one at hand leaves it.  So what
    every call of `mlvpn_rtun_drop` for a listed tunnel keeps is kept. -/
theorem dropMissing_keeps {I : Daemon κ → Prop} {conf : Config κ} {now : ℚ} {send : Nat → SendResult}
    (drops : ∀ s s' j, s.Reloading → j ∈ s.rtuns → s.rtunDrop j now (send j) = some s' → I s → I s')
    (tunnels : List Nat) (distinct : tunnels.Nodup) (listed : ∀ j ∈ tunnels, j ∈ d.rtuns)
    (reloading : d.Reloading) (initially : I d)
    (done : run (dropIfMissing conf now send) d tunnels = some d') : d'.Reloading ∧ I d' := by
  induction tunnels generalizing d with
  | nil =>
      cases done
      exact ⟨reloading, initially⟩
  | cons i rest ih =>
      obtain ⟨d₁, first, later⟩ := run_cons_eq_some.mp done
      obtain ⟨fresh, distinct⟩ := List.nodup_cons.mp distinct
      have remaining : ∀ j ∈ rest, j ∈ d.rtuns ∧ j ≠ i := fun j member =>
        ⟨listed j (List.mem_cons_of_mem i member), fun same => fresh (same ▸ member)⟩
      unfold dropIfMissing at first
      split at first
      next =>
        cases first
        exact ih distinct (fun j member => (remaining j member).1) reloading initially later
      next =>
        have here := listed i List.mem_cons_self
        obtain ⟨dropped, others⟩ := rtunDrop_reloading reloading here first
        refine ih distinct (fun j member => ?_) dropped (drops d d₁ i reloading here first initially) later
        exact others j (remaining j member).1 (remaining j member).2

theorem dropMissing_reloading {conf : Config κ} {now : ℚ} {send : Nat → SendResult} (reloading : d.Reloading)
    (done : run (dropIfMissing conf now send) d d.rtuns = some d') : d'.Reloading :=
  (dropMissing_keeps (I := fun _ => True) (fun _ _ _ _ _ _ _ => trivial) d.rtuns
    reloading.1.rtuns_nodup (fun _ member => member) reloading trivial done).1

theorem recalcWeight_current (current : d.Current) : d.recalcWeight.Current := by
  apply recalcWeight_keeps (I := Current) current
  intro s j total current
  apply current.modify
  · unfold Tunnel.weigh
    split <;> rfl
  · unfold Tunnel.weigh
    split <;> rfl

theorem named_mem {name : String} {j : Nat} (found : d.named name = some j) : j ∈ d.rtuns :=
  List.mem_of_find?_eq_some found

theorem configReload_current {conf : Option (Config κ)} {now : ℚ} {send : Nat → SendResult}
    (current : d.Current) (done : d.configReload conf now send = some d') : d'.Current := by
  have begun := current.reloading
  cases conf with
  | none =>
      cases done
      exact begun.1
  | some conf =>
      unfold configReload at done
      obtain ⟨⟨serverMode, d₁⟩, parsed, rest⟩ := Option.bind_eq_some_iff.mp done
      obtain ⟨d₂, dropped, rfl⟩ := Option.map_eq_some_iff.mp rest
      have sections : d₁.Reloading :=
        run_preserves (I := fun s => s.2.Reloading) conf.sections
          (fun s part _ s' reloading taken => configSection_reloading reloading taken) begun parsed
      have left : d₂.Reloading :=
        dropMissing_reloading sections dropped
      apply recalcWeight_current
      refine ⟨left.1.inside, left.1.table, fun f member => ?_, left.1.names⟩
      obtain ⟨⟨filter, name⟩, _, found⟩ := List.mem_filterMap.mp (List.mem_of_mem_take member)
      obtain ⟨j, named, rfl⟩ := Option.map_eq_some_iff.mp found
      exact named_mem named

theorem step_current {now : ℚ} {e : Event κ} (current : d.Current)
    (done : d.step (now, e) = some d') : d'.Current := by
  by_cases reloads : e.Reloads
  · cases e with
    | reload conf send =>
        cases step_cases done with
        | pass => exact current
        | reload done => exact configReload_current current done
    | _ => cases reloads
  · exact ((step_links reloads done).current current).1

theorem run_current {host : Host κ} {events : List (ℚ × Event κ)}
    (reached : run step (init host) events = some d) : d.Current :=
  run_preserves events (fun _ _ _ _ current done => step_current current done) (current_init host)
    reached

theorem rtunChoose_mem (chosen : d.rtunChoose.1 = some i) : i ∈ d.table := by
  unfold rtunChoose wrrChoose at chosen
  dsimp only at chosen
  split at chosen
  next => cases chosen
  next found =>
    cases chosen
    exact List.mem_map_of_mem (List.mem_of_getElem? found)

theorem filtersChoose_mem {data : List UInt8} (chosen : d.filtersChoose data = some i) :
    (∃ f ∈ d.filters, f.2 = i) ∧ (d.tun i).status.Up := by
  obtain ⟨⟨filter, j⟩, found, rfl⟩ := Option.map_eq_some_iff.mp chosen
  have accepted := List.find?_some found
  dsimp only at accepted
  exact ⟨⟨_, List.mem_of_find?_eq_some found, rfl⟩,
    of_decide_eq_true ((Bool.and_eq_true _ _).mp accepted).2⟩

/-- In every run, a tunnel that is chosen for a packet is in the list of tunnels
    and connected. -/
theorem chosen_listed_and_up {host : Host κ} {events : List (ℚ × Event κ)}
    (reached : run step (init host) events = some d) :
    (∀ i, d.rtunChoose.1 = some i → i ∈ d.rtuns ∧ (d.tun i).status.Up) ∧
      ∀ data i, d.filtersChoose data = some i → i ∈ d.rtuns ∧ (d.tun i).status.Up := by
  have current := run_current reached
  refine ⟨fun i chosen => current.table i (rtunChoose_mem chosen), fun data i chosen => ?_⟩
  obtain ⟨⟨f, member, rfl⟩, up⟩ := filtersChoose_mem chosen
  exact ⟨current.filters f member, up⟩

/-- A tunnel of a server. -/
def serverConf (name : String) (fallbackOnly : Nat) : TunnelConf :=
  { name := name, bindaddr := none, bindport := some "5080", bindfib := 0, destaddr := none
    destport := none, timeout := 60, fallbackOnly := fallbackOnly, bandwidth := 0
    lossTolerence := 50, latencyTolerence := 1000 }

/-- The configuration of a server, with filters that take every packet. -/
def serverConfig (confs : List TunnelConf) (filters : List String) : Config Unit :=
  let general : General Unit :=
    { serverMode := true, key := (), cleartextData := true, reorderBufferSize := 0 }
  ⟨.general general :: confs.map fun conf => .tunnel conf 1,
    filters.map fun name => (fun _ => true, name)⟩

/-- A challenge reaches a tunnel of a server. -/
def challenged (i : Nat) : ℚ × Event Unit :=
  let pkt : Pkt := { len := 2, type := .auth, reorder := true, seq := 0, data := [65, 85] }
  let datagram := sendDatagram ⟨.little, plainBox, ()⟩ true (sendHeader .blank 0 0 pkt).1 pkt
  (2, .read i (.datagram (datagram.getD []) [10] true))

/-- A server reads its configuration, and each tunnel is opened and sent a challenge. -/
def serverRun (confs : List TunnelConf) : List (ℚ × Event Unit) :=
  (0, .reload (some (serverConfig confs [])) fun _ => .blocked) ::
    (List.range confs.length).flatMap fun i =>
      [(1, .timeout i (.opened [127] (3 + i))), challenged i]

/-- Of two connected tunnels one is removed by a reload, which also adds filters
    for both: once the other one is connected again, the packets are for it. -/
theorem chosen_after_removal :
    ∃ d ∈ run step (init ⟨.little, plainBox, ()⟩) (serverRun [serverConf "a" 0, serverConf "b" 0] ++
        [(3, .reload (some (serverConfig [serverConf "b" 0] ["a", "b"])) fun _ => .blocked),
          challenged 1]),
      d.rtunChoose.1 = some 1 ∧ d.filtersChoose [69] = some 1 ∧ 1 ∈ d.rtuns ∧ 0 ∉ d.rtuns := by
  obtain ⟨d, reached, chosen, filtered, dropped⟩ :
      ∃ d ∈ run step (init ⟨.little, plainBox, ()⟩)
        (serverRun [serverConf "a" 0, serverConf "b" 0] ++
          [(3, .reload (some (serverConfig [serverConf "b" 0] ["a", "b"])) fun _ => .blocked),
            challenged 1]),
        d.rtunChoose.1 = some 1 ∧ d.filtersChoose [69] = some 1 ∧ 0 ∉ d.rtuns := by
    decide +kernel
  exact ⟨d, reached, chosen, filtered, ((chosen_listed_and_up reached).1 1 chosen).1, dropped⟩

/-- The first configuration connects no tunnel, so the table is empty. -/
theorem configured_prefers {host : Host κ} {now : ℚ} {conf : Config κ} {send : Nat → SendResult}
    (configured : (init host).step (now, .reload (some conf) send) = some d) : d.Prefers := by
  have current := step_current (current_init host) configured
  rcases step_moves (current_init host).inside configured with moves | ⟨_, _, _, _, _, other, _⟩
  · intro _ j member
    have up := moves.up j (current.table j member).2
    exact absurd up (by rw [tun_eq_blank (Nat.not_lt_zero j)]; decide)
  · cases other

/-- With a fixed configuration, no fallback and no bad tunnel is chosen while a
    primary tunnel is good. -/
theorem chosen_primary_and_good {host : Host κ} {now : ℚ} {conf : Config κ}
    {send : Nat → SendResult} {events : List (ℚ × Event κ)} (fixed : ∀ e ∈ events, ¬ e.2.Reloads)
    (reached : run step (init host) ((now, .reload (some conf) send) :: events) = some d) {i j : Nat}
    (chosen : d.rtunChoose.1 = some i) (listed : j ∈ d.rtuns) (primary : (d.tun j).fallbackOnly = 0)
    (good : (d.tun j).status = .authok) :
    (d.tun i).fallbackOnly = 0 ∧ (d.tun i).status ≠ .lossy ∧ (d.tun i).status ≠ .highLatency := by
  obtain ⟨d₀, configured, later⟩ := run_cons_eq_some.mp reached
  have moves : LinkMoves d₀ d := by
    refine run_preserves (I := fun s => LinkMoves d₀ s) events ?_ .refl later
    intro s e member s' before done
    exact before.trans (step_links (fixed e member) done)
  have prefers := moves.prefers (configured_prefers configured)
  obtain ⟨role, status⟩ := prefers ⟨j, listed, primary, good⟩ i (rtunChoose_mem chosen)
  rw [status]
  exact ⟨role, by decide, by decide⟩

/-- A primary tunnel and a fallback, both connected. -/
theorem primary_chosen_before_fallback :
    ∃ d ∈ run step (init ⟨.little, plainBox, ()⟩) (serverRun [serverConf "a" 0, serverConf "b" 1]),
      d.rtunChoose.1 = some 0 ∧ (d.tun 1).status.Up ∧
        (d.tun 0).fallbackOnly = 0 ∧ (d.tun 0).status ≠ .lossy ∧ (d.tun 0).status ≠ .highLatency := by
  obtain ⟨d, reached, chosen, up, listed, primary, good⟩ :
      ∃ d ∈ run step (init ⟨.little, plainBox, ()⟩) (serverRun [serverConf "a" 0, serverConf "b" 1]),
        d.rtunChoose.1 = some 0 ∧ (d.tun 1).status.Up ∧ 0 ∈ d.rtuns ∧
          (d.tun 0).fallbackOnly = 0 ∧ (d.tun 0).status = .authok := by
    decide +kernel
  have fixed : ∀ e ∈ (serverRun [serverConf "a" 0, serverConf "b" 1]).tail, ¬ e.2.Reloads := by
    intro e member
    simp only [serverRun, List.tail_cons, List.mem_flatMap, List.mem_cons, List.not_mem_nil,
      or_false] at member
    obtain ⟨k, _, rfl | rfl⟩ := member
    · exact id
    · exact id
  exact ⟨d, reached, chosen, up, chosen_primary_and_good fixed reached chosen listed primary good⟩

end Mlvpn.Daemon
