import Mlvpn.Daemon.References
import Mlvpn.Library.History

/-! # The scripts that are run

`rtun_up` and `rtun_down` report the tunnels, `tuntap_up` and `tuntap_down` the
interface.  Only the functions that change the status of a tunnel run them, so an
event is a sequence of such changes, with others between them that no script tells
of.  What the scripts have reported last is compared with the tunnels of the list.
-/

namespace Mlvpn

/-- The scripts among what the daemon does. -/
def Effect.script? : Effect → Option Script
  | .script command => some command
  | _ => none

/-- Whether a script reports that the interface is up. -/
def Script.tuntap? : Script → Option Bool
  | .tuntapUp => some true
  | .tuntapDown => some false
  | _ => none

/-- Whether a script reports that the tunnel of this name is up. -/
def Script.rtun? (name : String) : Script → Option Bool
  | .rtunUp other => if other = name then some true else none
  | .rtunDown other => if other = name then some false else none
  | _ => none

namespace Tunnel

variable {t t' t'' : Tunnel}

/-- The loop calls back for the socket or the timer. -/
def Watched (t : Tunnel) : Prop := t.ioRead = true ∨ t.ioTimeout.active = true

theorem not_watched (reads : t.ioRead = false) (times : t.ioTimeout.active = false) : ¬ t.Watched := by
  unfold Watched
  rw [reads, times]
  decide

/-- Nothing that a script would tell of has changed, and no watcher was started. -/
structure Hushed (t t' : Tunnel) : Prop where
  name : t'.name = t.name
  up : t'.status.Up ↔ t.status.Up
  watched : t'.Watched → t.Watched

theorem Hushed.refl (t : Tunnel) : Hushed t t := ⟨rfl, Iff.rfl, id⟩

theorem Hushed.trans (first : Hushed t t') (second : Hushed t' t'') : Hushed t t'' :=
  ⟨second.name.trans first.name, second.up.trans first.up, first.watched ∘ second.watched⟩

theorem Hushed.tick (t : Tunnel) (now : ℚ) : Hushed t (t.tick now) := ⟨rfl, Iff.rfl, id⟩

/-- What a datagram leaves alone of its tunnel before its type is looked at. -/
structure Received (t t' : Tunnel) : Prop where
  name : t'.name = t.name
  status : t'.status = t.status
  serverMode : t'.serverMode = t.serverMode
  ioRead : t'.ioRead = t.ioRead
  ioTimeout : t'.ioTimeout = t.ioTimeout

theorem Received.trans (first : Received t t') (second : Received t' t'') : Received t t'' :=
  ⟨second.name.trans first.name, second.status.trans first.status,
    second.serverMode.trans first.serverMode, second.ioRead.trans first.ioRead,
    second.ioTimeout.trans first.ioTimeout⟩

theorem Received.of_remeasured (remeasured : t.Remeasured t') : Received t t' := by
  rw [remeasured]
  exact ⟨rfl, rfl, rfl, rfl, rfl⟩

theorem Received.adoptAddr {sender : Addr} {named : Bool}
    (adopted : t.adoptAddr sender named = some t') : Received t t' := by
  obtain ⟨addr, rfl⟩ := adoptAddr_eq adopted
  exact ⟨rfl, rfl, rfl, rfl, rfl⟩

theorem Received.watched_iff (received : Received t t') : t'.Watched ↔ t.Watched := by
  unfold Watched
  rw [received.ioRead, received.ioTimeout]

theorem Received.hushed (received : Received t t') : Hushed t t' :=
  ⟨received.name, by rw [received.status], received.watched_iff.mp⟩

theorem Hushed.queueBare (type : PktType) : Hushed t (t.queueBare type) := by
  unfold Tunnel.queueBare
  split <;> exact ⟨rfl, Iff.rfl, id⟩

theorem Hushed.sendKeepalive (now : ℚ) : Hushed t (t.sendKeepalive now) :=
  (Hushed.queueBare .keepalive).trans ⟨rfl, Iff.rfl, id⟩

theorem Hushed.keepaliveReceived (now : ℚ) : Hushed t (t.keepaliveReceived now) := by
  unfold Tunnel.keepaliveReceived
  dsimp only
  split
  next =>
    have noted : Hushed t { t.tick now with lastKeepaliveAck := now, lastKeepaliveAckSent := now } :=
      ⟨rfl, Iff.rfl, id⟩
    exact noted.trans (.sendKeepalive now)
  next => exact ⟨rfl, Iff.rfl, id⟩

theorem Hushed.setQueue (highPriority : Bool) (buf : Pktbuffer) :
    Hushed t (t.setQueue highPriority buf) := by
  cases highPriority <;> exact ⟨rfl, Iff.rfl, id⟩

theorem Hushed.queueData (highPriority : Bool) (data : List UInt8) :
    Hushed t (t.queueData highPriority data) := by
  unfold Tunnel.queueData
  dsimp only
  split
  next => exact (Hushed.setQueue highPriority _).trans ⟨rfl, Iff.rfl, id⟩
  next => exact .setQueue highPriority _

theorem Hushed.stopIfEmpty (highPriority : Bool) : Hushed t (t.stopIfEmpty highPriority) := by
  unfold Tunnel.stopIfEmpty
  split <;> exact ⟨rfl, Iff.rfl, id⟩

theorem Hushed.sendHeader (dataSeq now64 : UInt64) (pkt : Pkt) :
    Hushed t (sendHeader t dataSeq now64 pkt).2.1 := by
  unfold Mlvpn.sendHeader
  dsimp only
  split <;> exact ⟨rfl, Iff.rfl, id⟩

theorem Hushed.stopWatching : Hushed t t.stopWatching :=
  ⟨rfl, Iff.rfl, fun watched => absurd watched (not_watched rfl rfl)⟩

/-- The answer of a server to a challenge, before its status is stored. -/
theorem Hushed.queueAuthOk : Hushed t t.queueAuthOk := by
  refine ⟨rfl, ?_, id⟩
  unfold Tunnel.queueAuthOk
  dsimp only
  split
  next => exact Iff.rfl
  next idle => exact ⟨fun sent => absurd sent (by decide), fun up => absurd up idle⟩

/-- A tunnel that is called back may open its socket. -/
theorem Hushed.tickConnect (now : ℚ) (result : StartResult) (idle : ¬ t.status.Up)
    (watched : t.Watched) : Hushed t (t.tickConnect now result) := by
  have down : ¬ Status.authsent.Up := by decide
  rcases tickConnect_still now result with still | ⟨opened, still, challenged⟩
  · exact ⟨still.name, by rw [still.status], fun _ => watched⟩
  · rw [challenged]
    exact ⟨still.name, ⟨fun up => absurd up down, fun up => absurd up idle⟩, fun _ => watched⟩

end Tunnel

namespace Daemon

open Library.Machine Library.History Tunnel

variable {κ : Type} {d d₁ d' : Daemon κ} {i : Nat} {now : ℚ}

/-- The scripts run so far, newest first. -/
def scripts (d : Daemon κ) : List Script := d.trace.filterMap Effect.script?

/-- What the scripts have reported of the interface. -/
def tuntapReports (d : Daemon κ) : List Bool := d.scripts.filterMap Script.tuntap?

/-- What the scripts have reported of the tunnels of a name. -/
def rtunReports (d : Daemon κ) (name : String) : List Bool :=
  d.scripts.filterMap (Script.rtun? name)

theorem scripts_script (command : Script) :
    (d.log (.script command)).scripts = command :: d.scripts := rfl

theorem scripts_append {effects : List Effect} (trace : d'.trace = effects ++ d.trace)
    (other : ∀ e ∈ effects, e.script? = none) : d'.scripts = d.scripts := by
  rw [scripts, trace, List.filterMap_append, List.filterMap_eq_nil_iff.mpr other, List.nil_append]
  rfl

theorem scripts_withRx (rx : Receive) : (d.withRx rx).scripts = d.scripts := by
  refine scripts_append rfl fun e member => ?_
  obtain ⟨r, _, rfl⟩ := List.mem_map.mp (List.mem_reverse.mp member)
  rfl

/-- The table is rebuilt without a script. -/
theorem wrrReset_scripts {mode : Nat} (done : d.wrrReset mode = some d') :
    d'.scripts = d.scripts ∧ d'.initialized = d.initialized ∧ d'.connected = d.connected := by
  unfold wrrReset at done
  dsimp only at done
  split at done
  next =>
    cases done
    refine ⟨scripts_append rfl fun e member => ?_, rfl, rfl⟩
    obtain ⟨j, _, rfl⟩ := List.mem_map.mp (List.mem_reverse.mp member)
    rfl
  next => cases done

/-- What `mlvpn_rtun_status_up` leaves of a listed tunnel, with the scripts it runs. -/
structure Raises (d d' : Daemon κ) (i : Nat) (now : ℚ) : Prop where
  tuns : d'.tuns = (d.modify i (·.raised now)).tuns
  rtuns : d'.rtuns = d.rtuns
  initialized : d'.initialized = true
  scripts : d'.scripts =
    (if d.initialized then [] else [.tuntapUp]) ++ .rtunUp (d.tun i).name :: d.scripts

theorem statusUp_raises (inside : i < d.tuns.length) (listed : i ∈ d.rtuns)
    (done : d.statusUp i now = some d') : Raises d d' i now := by
  have rebuilds := statusUp_rebuilds done
  obtain ⟨d₂, reset, rest⟩ := Option.bind_eq_some_iff.mp done
  obtain ⟨scripts, initialized, connected⟩ := wrrReset_scripts reset
  have name : (d₂.tun i).name = (d.tun i).name := by
    rw [tun, (wrrReset_rebuilds reset).tuns]
    exact (congrArg Tunnel.name (tun_modify_self inside (·.raised now))).trans rfl
  -- the tunnel itself is counted
  have counted : 0 < d₂.connected := by
    rw [connected]
    apply List.length_pos_of_mem (a := i)
    refine List.mem_filter.mpr ⟨listed, decide_eq_true ?_⟩
    rw [tun_modify_self inside]
    exact (by decide : Status.authok.Up)
  have flag : d₂.initialized = d.initialized := initialized
  have before : d₂.scripts = d.scripts := scripts
  dsimp only at rest
  rw [name] at rest
  split at rest
  next fresh =>
    have off : d.initialized = false := flag.symm.trans fresh.2
    obtain ⟨rx, _, rfl⟩ := Option.map_eq_some_iff.mp rest
    refine ⟨rebuilds.tuns, rebuilds.rtuns, rfl, ?_⟩
    rw [scripts_withRx, off, ← before]
    rfl
  next known =>
    have on : d₂.initialized = true := by
      by_contra off
      exact known ⟨counted, Bool.eq_false_iff.mpr off⟩
    cases rest
    refine ⟨rebuilds.tuns, rebuilds.rtuns, on, ?_⟩
    rw [scripts_script, ← flag, on, before]
    rfl

/-- Scripts were run, and the interface went down if no tunnel is left. -/
inductive Closes (d d' : Daemon κ) (commands : List Script) : Prop where
  | last : d'.up = [] → d.initialized = true → d'.initialized = false →
      d'.scripts = .tuntapDown :: commands ++ d.scripts → Closes d d' commands
  | kept : ¬ (d'.up = [] ∧ d.initialized = true) → d'.initialized = d.initialized →
      d'.scripts = commands ++ d.scripts → Closes d d' commands

theorem tuntapDown_closes (counted : d.connected = d.up.length) : Closes d d.tuntapDown [] := by
  have empty : d.connected = 0 ↔ d.up = [] := by rw [counted, List.length_eq_zero_iff]
  unfold tuntapDown
  split
  next ending => exact .last (empty.mp ending.1) ending.2 rfl rfl
  next going =>
    rw [empty] at going
    exact .kept going rfl rfl

/-- What `mlvpn_rtun_status_down` leaves, with the scripts it runs. -/
structure Falls (d d' : Daemon κ) (i : Nat) : Prop where
  tuns : d'.tuns = (d.modify i Tunnel.lowered).tuns
  rtuns : d'.rtuns = d.rtuns
  idle : ¬ (d.tun i).status.Up → d'.initialized = d.initialized ∧ d'.scripts = d.scripts
  ended : (d.tun i).status.Up → Closes d d' [.rtunDown (d.tun i).name]

theorem up_congr (tuns : d'.tuns = d.tuns) (rtuns : d'.rtuns = d.rtuns) : d'.up = d.up := by
  unfold up tun
  rw [tuns, rtuns]

theorem statusDown_falls (done : d.statusDown i = some d') : Falls d d' i := by
  obtain ⟨same, _⟩ := statusDown_tables done
  have tuns : d'.tuns = (d.modify i Tunnel.lowered).tuns := by
    obtain ⟨d₁, rfl, passes⟩ := (statusDown_lowers done).passes
    exact passes.tuns
  refine ⟨tuns, same.rtuns, fun idle => ?_, fun connected => ?_⟩
  · unfold statusDown at done
    simp only [if_neg idle, Option.map_some, Option.some.injEq] at done
    cases done
    exact ⟨rfl, rfl⟩
  · unfold statusDown afterDown at done
    simp only [if_pos connected] at done
    obtain ⟨d₁, ended, rfl⟩ := Option.map_eq_some_iff.mp done
    obtain ⟨d₂, reset, rest⟩ := Option.bind_eq_some_iff.mp ended
    obtain ⟨rx, _, rfl⟩ := Option.map_eq_some_iff.mp rest
    obtain ⟨scripts, initialized, counted⟩ := wrrReset_scripts reset
    have rebuilds := wrrReset_rebuilds reset
    have name : ((d.modify i Tunnel.lowered).tun i).name = (d.tun i).name := by
      rw [tun_modify_self (lt_of_up connected)]
      rfl
    have remaining : d₂.connected = d₂.up.length := by
      rw [counted, up_congr rebuilds.tuns rebuilds.rtuns]
      rfl
    have logged : d₂.scripts = .rtunDown (d.tun i).name :: d.scripts := by
      rw [scripts, scripts_script, ← name]
      rfl
    have flag : d₂.initialized = d.initialized := initialized
    cases tuntapDown_closes remaining with
    | last up on off commands =>
        refine .last up (flag ▸ on) off ?_
        exact (scripts_withRx rx).trans (commands.trans (congrArg (Script.tuntapDown :: ·) logged))
    | kept going same commands =>
        refine .kept (flag ▸ going) (same.trans flag) ?_
        exact (scripts_withRx rx).trans (commands.trans logged)

/-- Nothing has changed that a script would tell of. -/
structure Unheard (d d' : Daemon κ) : Prop where
  scripts : d'.scripts = d.scripts
  initialized : d'.initialized = d.initialized
  rtuns : d'.rtuns = d.rtuns
  length : d'.tuns.length = d.tuns.length
  hushed : ∀ j, Hushed (d.tun j) (d'.tun j)

/-- A change of the status of a tunnel, of the list of tunnels, or one that no script
    tells of.  A connected tunnel is connected `again` only where that may be. -/
inductive Change (again : Prop) : Daemon κ → Daemon κ → Prop where
  | unheard {d d' : Daemon κ} : Unheard d d' → Change again d d'
  | up {d d' : Daemon κ} {i : Nat} {now : ℚ} : (d.tun i).Watched →
      ((d.tun i).status.Up → again) → d.statusUp i now = some d' → Change again d d'
  | down {d d' : Daemon κ} {i : Nat} : d.statusDown i = some d' → Change again d d'
  | create {d : Daemon κ} (conf : TunnelConf) (serverMode : Bool) (flowId : UInt32) (now : ℚ) :
      d.named conf.name = none → Change again d ({ d with
        tuns := d.tuns ++ [Tunnel.init conf serverMode flowId now]
        rtuns := d.tuns.length :: d.rtuns }.log (.created d.tuns.length))
  | drop {d : Daemon κ} {i : Nat} : i ∈ d.rtuns → ¬ (d.tun i).Watched → ¬ (d.tun i).status.Up →
      Change again d
        { d with rtuns := d.rtuns.eraseP fun j => (d.tun j).name = (d.tun i).name }

abbrev Changes (again : Prop) : Daemon κ → Daemon κ → Prop := Relation.ReflTransGen (Change again)

variable {again : Prop}

theorem Unheard.tune {f : Tunnel → Tunnel} (hushed : Hushed (d.tun i) (f (d.tun i))) :
    Unheard d (d.modify i f) := by
  refine ⟨rfl, rfl, rfl, length_modify .., fun j => ?_⟩
  rw [tun_modify]
  split
  next here => exact here.1 ▸ hushed
  next => exact .refl _

/-- A change of what is neither a tunnel nor a script. -/
theorem Unheard.aside (tuns : d'.tuns = d.tuns) (rtuns : d'.rtuns = d.rtuns)
    (initialized : d'.initialized = d.initialized) (scripts : d'.scripts = d.scripts) :
    Unheard d d' := by
  refine ⟨scripts, initialized, rtuns, by rw [tuns], fun j => ?_⟩
  rw [tun, tun, tuns]
  exact .refl _

theorem Changes.tune {f : Tunnel → Tunnel} (hushed : Hushed (d.tun i) (f (d.tun i))) :
    Changes again d (d.modify i f) :=
  .single (.unheard (.tune hushed))

theorem Changes.aside (tuns : d'.tuns = d.tuns) (rtuns : d'.rtuns = d.rtuns)
    (initialized : d'.initialized = d.initialized) (scripts : d'.scripts = d.scripts) :
    Changes again d d' :=
  .single (.unheard (.aside tuns rtuns initialized scripts))

theorem Changes.down (done : d.statusDown i = some d') : Changes again d d' := .single (.down done)

theorem Changes.receive {e : Receive.Event} (done : (d.rx.step e).map d.withRx = some d') :
    Changes again d d' := by
  obtain ⟨rx, _, rfl⟩ := Option.map_eq_some_iff.mp done
  exact Changes.aside rfl rfl rfl (scripts_withRx rx)

theorem Changes.reset {mode : Nat} (done : d.wrrReset mode = some d') : Changes again d d' := by
  obtain ⟨scripts, initialized, _⟩ := wrrReset_scripts done
  have rebuilds := wrrReset_rebuilds done
  exact Changes.aside rebuilds.tuns rebuilds.rtuns initialized scripts

theorem afterSendto_changes {type : PktType} {datagram : List UInt8} {result : SendResult}
    (done : d.afterSendto i type datagram result = some d') : Changes again d d' := by
  cases result with
  | blocked =>
      cases done
      exact .refl
  | failed => exact Changes.down done
  | sent len =>
      cases done
      have counted : Changes again d (d.modify i (·.countSent len)) := Changes.tune ⟨rfl, Iff.rfl, id⟩
      exact counted.trans (Changes.aside rfl rfl rfl rfl)

theorem takePacket_changes (highPriority : Bool) (now : ℚ) :
    Changes again d (d.takePacket i highPriority now).2.2 := by
  let queue := (d.tun i).queue highPriority
  let read := (d.tun i).setQueue highPriority (pktbufferRead queue).2
  let header := sendHeader read d.dataSeq (timestamp64 now) (queue.pkts queue.start)
  have hushed : Hushed (d.tun i) header.2.1 := (Hushed.setQueue ..).trans (.sendHeader ..)
  have numbered : Changes again d (d.modify i fun _ => header.2.1) := Changes.tune hushed
  apply numbered.trans
  unfold takePacket
  dsimp only
  split <;> exact Changes.aside rfl rfl rfl rfl

theorem rtunSend_changes {highPriority : Bool} {result : SendResult}
    (done : d.rtunSend i highPriority now result = some d') : Changes again d d' := by
  have taken : Changes again d (d.takePacket i highPriority now).2.2 := takePacket_changes ..
  apply taken.trans
  cases rtunSend_cases done with
  | refuses _ => exact .refl
  | hands _ sent => exact (afterSendto_changes sent).trans (Changes.tune (.stopIfEmpty _))

theorem writeQueue_changes {highPriority : Bool} {result : SendResult}
    (done : d.writeQueue i highPriority now result = some d') : Changes again d d' := by
  unfold writeQueue at done
  split at done
  next =>
    cases done
    exact .refl
  next => exact rtunSend_changes done

/-- A tunnel that is called back exists. -/
theorem lt_of_watched (watched : (d.tun i).Watched) : i < d.tuns.length := by
  by_contra outside
  rw [tun_eq_blank outside] at watched
  exact not_watched rfl rfl watched

/-- A tunnel is connected after a change of its own. -/
theorem Changes.raise {f : Tunnel → Tunnel} (watched : (d.tun i).Watched)
    (hushed : Hushed (d.tun i) (f (d.tun i))) (called : (f (d.tun i)).Watched)
    (repeated : (d.tun i).status.Up → again) (done : (d.modify i f).statusUp i now = some d') :
    Changes again d d' := by
  have there : (d.modify i f).tun i = f (d.tun i) := tun_modify_self (lt_of_watched watched) f
  refine (Changes.tune hushed).tail (.up ?_ ?_ done)
  · rw [there]
    exact called
  · rw [there, hushed.up]
    exact repeated

/-- A handshake connects the tunnel, again if it was connected already. -/
theorem sendAuth_changes (watched : (d.tun i).Watched)
    (repeated : (d.tun i).serverMode = true → (d.tun i).status.Up → again)
    (done : d.sendAuth i now = some d') : Changes again d d' := by
  cases sendAuth_cases done with
  | @answers d₁ server _ raised =>
      have queued : Hushed (d.tun i) ((d.tun i).queueAuthOk.tick now) :=
        Hushed.queueAuthOk.trans (.tick _ now)
      have connected : Changes again d d₁ := Changes.raise watched queued watched (repeated server) raised
      exact connected.trans (Changes.tune ⟨rfl, Iff.rfl, id⟩)
  | confirms _ sent raised =>
      have down : ¬ (d.tun i).status.Up := by
        rw [sent]
        decide
      exact Changes.raise watched (.tick _ now) watched (fun up => absurd up down) raised
  | ignores _ => exact .refl

theorem dispatch_changes {pkt : Pkt} (watched : (d.tun i).Watched)
    (repeated : pkt.type = .auth ∨ pkt.type = .authOk → (d.tun i).serverMode = true →
      (d.tun i).status.Up → again)
    (done : d.dispatch i now pkt = some d') : Changes again d d' := by
  cases dispatch_cases done with
  | ignores => exact .refl
  | delivers _ _ stepped =>
      have ticked : Changes again d (d.modify i (·.tick now)) := Changes.tune ⟨rfl, Iff.rfl, id⟩
      exact ticked.trans (Changes.receive (by rw [stepped, Option.map_some]))
  | keepsAlive _ => exact Changes.tune (.keepaliveReceived now)
  | disconnects _ down => exact Changes.down down
  | handshakes handshake answered => exact sendAuth_changes watched (repeated handshake) answered

/-- A datagram of a handshake reaches a server's tunnel that is connected already. -/
def Repeats (d : Daemon κ) : ℚ × Event κ → Prop
  | (now, .read i (.datagram bytes _ _)) =>
      d.stopped = false ∧ (d.tun i).ioRead = true ∧ (d.tun i).serverMode = true ∧
        (d.tun i).status.Up ∧
        ∃ accepted ∈ (protocolRead d.host d.cleartextData (timestamp64 now) (d.tun i)
            (bytes.take defaultMtu)).1,
          accepted.2.type = .auth ∨ accepted.2.type = .authOk
  | _ => False

/-- A datagram that was accepted, and followed to where it came from. -/
theorem accepted_received {host : Host κ} {cleartextData : Bool} {now64 : UInt64}
    {bytes : List UInt8} {t t₁ t₂ : Tunnel} {answer : Option (Bool × Pkt)} {len : Nat} {sender : Addr}
    {named : Bool} (read : protocolRead host cleartextData now64 t bytes = (answer, t₁))
    (adopted : (t₁.countReceived len).adoptAddr sender named = some t₂) : Received t t₂ := by
  have measured : Received t t₁ := .of_remeasured (remeasured_of_read read)
  have counted : Received t₁ (t₁.countReceived len) := ⟨rfl, rfl, rfl, rfl, rfl⟩
  exact (measured.trans counted).trans (.adoptAddr adopted)

theorem rtunRead_changes {result : ReadResult} (running : d.stopped = false)
    (reading : (d.tun i).ioRead = true) (done : d.rtunRead i now result = some d') :
    Changes (d.Repeats (now, .read i result)) d d' := by
  cases rtunRead_cases done with
  | waits _ => exact .refl
  | fails down => exact Changes.down down
  | refuses read => exact Changes.tune (Received.of_remeasured (remeasured_of_read read)).hushed
  | @accepts bytes sender named decrypted pkt _ t₁ _ read adopted dispatched =>
      have received : Received (d.tun i) t₁ := accepted_received read adopted
      let d₁ := (d.modify i fun _ => t₁).log (.accepted i pkt.type decrypted)
      have there : d₁.tun i = t₁ := tun_modify_self (lt_of_watched (.inl reading)) _
      have logged : Changes (d.Repeats (now, .read i (.datagram bytes sender named))) d d₁ :=
        (Changes.tune received.hushed).trans (Changes.aside rfl rfl rfl rfl)
      refine logged.trans (dispatch_changes ?_ ?_ dispatched)
      · rw [there]
        exact received.watched_iff.mpr (.inl reading)
      · rw [there, received.serverMode, received.status]
        intro handshake server up
        refine ⟨running, reading, server, up, (decrypted, pkt), ?_, handshake⟩
        rw [read]
        rfl

theorem switchToFallback_changes (done : d.switchToFallbackIfNecessary = some d') :
    Changes again d d' := by
  have switched : ∀ mode, Changes again d { d with fallbackMode := mode } :=
    fun _ => Changes.aside rfl rfl rfl rfl
  unfold switchToFallbackIfNecessary at done
  split at done
  next => exact (switched 0).trans (Changes.reset done)
  next =>
    split at done
    next => exact (switched 1).trans (Changes.reset done)
    next =>
      cases done
      exact .refl

theorem regrade_changes {grade : Option Status}
    (connected : ∀ status, grade = some status → (d.tun i).status.Up ∧ status.Up)
    (done : d.regrade i grade = some d') : Changes again d d' := by
  cases grade with
  | none =>
      cases done
      exact .refl
  | some status =>
      obtain ⟨old, new⟩ := connected status rfl
      have graded : Changes again d (d.modify i fun t => { t with status := status }) :=
        Changes.tune ⟨rfl, ⟨fun _ => old, fun _ => new⟩, id⟩
      exact graded.trans (switchToFallback_changes done)

theorem checkAlive_changes {result : StartResult} (watched : (d.tun i).Watched)
    (done : d.checkAlive i now result = some d') : Changes again d d' := by
  unfold checkAlive at done
  dsimp only at done
  split at done
  next =>
    repeat' split at done
    next => exact Changes.down done
    all_goals cases done
    next => exact Changes.tune (.sendKeepalive now)
    all_goals exact .refl
  next idle =>
    cases done
    exact Changes.tune (.tickConnect now result idle watched)

theorem checkTimeout_changes {result : StartResult} (watched : (d.tun i).Watched)
    (done : d.checkTimeout i now result = some d') : Changes again d d' := by
  obtain ⟨d₁, alive, rest⟩ := Option.bind_eq_some_iff.mp done
  obtain ⟨d₂, lossy, slow⟩ := Option.bind_eq_some_iff.mp rest
  apply (checkAlive_changes watched alive).trans
  refine Relation.ReflTransGen.trans (Changes.tune ?_)
    ((regrade_changes (fun _ => lossyStatus_up) lossy).trans
      (regrade_changes (fun _ => slowStatus_up) slow))
  split <;> exact ⟨rfl, Iff.rfl, id⟩

theorem tuntapRead_changes {data : List UInt8} (done : d.tuntapRead data = some d') :
    Changes again d d' := by
  unfold tuntapRead at done
  split at done
  next => cases done
  next =>
    cases done
    unfold tuntapGenericRead
    split
    next => exact Changes.tune (.queueData ..)
    next =>
      have chosen : Changes again d d.rtunChoose.2 := by
        unfold rtunChoose wrrChoose
        dsimp only
        split <;> exact Changes.aside rfl rfl rfl rfl
      split
      next answer =>
        rw [answer] at chosen
        exact chosen
      next answer =>
        rw [answer] at chosen
        exact chosen.trans (Changes.tune (.queueData ..))

theorem sendDisconnect_changes {result : SendResult}
    (done : d.sendDisconnect i now result = some d') : Changes again d d' := by
  have queued : Changes again d (d.modify i (·.queueBare .disconnect)) :=
    Changes.tune (.queueBare .disconnect)
  exact queued.trans (rtunSend_changes done)

theorem statusDown_rtuns (done : d.statusDown i = some d') : d'.rtuns = d.rtuns :=
  (statusDown_tables done).1.rtuns

/-- A tunnel that leaves the list is not connected, and is not called back. -/
theorem rtunDrop_changes {result : SendResult} (listed : i ∈ d.rtuns) (current : d.Current)
    (done : d.rtunDrop i now result = some d') : Changes again d d' := by
  obtain ⟨d₁, sent, rest⟩ := Option.bind_eq_some_iff.mp done
  obtain ⟨d₂, lowered, rfl⟩ := Option.map_eq_some_iff.mp rest
  let d₃ := d₂.modify i Tunnel.stopWatching
  have told : Changes again d d₃ :=
    ((sendDisconnect_changes sent).trans (Changes.down lowered)).trans (Changes.tune .stopWatching)
  have rtuns : d₃.rtuns = d.rtuns :=
    (statusDown_rtuns lowered).trans ((sendDisconnect_links sent).current current).2.rtuns
  have unwatched : ¬ (d₃.tun i).Watched := by
    intro watched
    have inside : i < d₂.tuns.length := (length_modify ..) ▸ lt_of_watched watched
    rw [tun_modify_self inside] at watched
    exact not_watched rfl rfl watched
  have down : ¬ (d₃.tun i).status.Up :=
    fun up => statusDown_down lowered ((modify_up Iff.rfl i).mp up)
  exact told.tail (.drop (rtuns ▸ listed) unwatched down)

theorem configTunnel_changes {conf : TunnelConf} {serverMode : Bool} {flowId : UInt32}
    (done : d.configTunnel conf serverMode flowId now = some d') : Changes again d d' := by
  obtain ⟨d₁, flagged, configured⟩ := configTunnel_cases done
  have noted : Changes again d d₁ := by
    rcases flagged with rfl | rfl <;> exact Changes.aside rfl rfl rfl rfl
  apply noted.trans
  rcases configured with ⟨new, rfl⟩ | ⟨j, d₂, _, down, rfl⟩
  · unfold rtunNew
    split
    next => exact .refl
    next => exact .single (.create conf serverMode flowId now new)
  · have refitted : Changes again d₂ (d₂.modify j (·.refit conf)) := Changes.tune ⟨rfl, Iff.rfl, id⟩
    rcases down with ⟨_, down⟩ | ⟨_, rfl⟩
    · exact (Changes.down down).trans refitted
    · exact refitted

theorem configGeneral_changes {general : General κ} (done : d.configGeneral general = some d') :
    Changes again d d' := by
  unfold configGeneral at done
  obtain ⟨rx, _, rfl⟩ := Option.map_eq_some_iff.mp done
  exact Changes.aside rfl rfl rfl (scripts_withRx rx)

theorem configSection_changes {s s' : Bool × Daemon κ} {part : Section κ}
    (done : configSection now s part = some s') : Changes again s.2 s'.2 := by
  rcases configSection_cases done with ⟨general, configured⟩ | ⟨conf, flowId, configured⟩
  · exact configGeneral_changes configured
  · exact configTunnel_changes configured

theorem recalcWeight_changes : Changes again d d.recalcWeight := by
  apply recalcWeight_keeps (I := Changes again d) .refl
  intro s j total before
  refine before.trans (Changes.tune ?_)
  unfold Tunnel.weigh
  split <;> exact ⟨rfl, Iff.rfl, id⟩

theorem configReload_changes {conf : Option (Config κ)} {send : Nat → SendResult}
    (current : d.Current) (done : d.configReload conf now send = some d') : Changes again d d' := by
  have cleared : Changes again d { d with fallbackAvailable := 0, filters := [] } :=
    Changes.aside rfl rfl rfl rfl
  cases conf with
  | none =>
      cases done
      exact cleared
  | some conf =>
      unfold configReload at done
      obtain ⟨⟨serverMode, d₁⟩, parsed, rest⟩ := Option.bind_eq_some_iff.mp done
      obtain ⟨d₂, dropped, rfl⟩ := Option.map_eq_some_iff.mp rest
      obtain ⟨reloading, sections⟩ : d₁.Reloading ∧ Changes again d d₁ :=
        run_preserves (I := fun s => s.2.Reloading ∧ Changes again d s.2) conf.sections
          (fun s part _ s' before taken => ⟨configSection_reloading before.1 taken,
            before.2.trans (configSection_changes taken)⟩) ⟨current.reloading, cleared⟩ parsed
      have left : Changes again d₁ d₂ :=
        (dropMissing_keeps (I := Changes again d₁)
          (fun _ _ _ before listed done told => told.trans (rtunDrop_changes listed before.1 done))
          d₁.rtuns reloading.1.rtuns_nodup (fun _ member => member) reloading .refl dropped).2
      have filtered : ∀ filters, Changes again d₂ { d₂ with filters := filters } :=
        fun _ => Changes.aside rfl rfl rfl rfl
      exact ((sections.trans left).trans (filtered _)).trans recalcWeight_changes

theorem quit_changes {send : Nat → SendResult} (done : d.quit now send = some d') :
    Changes again d d' := by
  obtain ⟨d₁, told, rfl⟩ := Option.map_eq_some_iff.mp done
  have told : Changes again d d₁ := by
    refine run_preserves (I := fun s => Changes again d s) d.rtuns ?_ .refl told
    intro s j _ s' before taken
    have stopped : Changes again s (s.modify j Tunnel.stopWatching) := Changes.tune .stopWatching
    rcases quitTunnel_cases taken with ⟨_, sent⟩ | rfl
    · exact (before.trans stopped).trans (sendDisconnect_changes sent)
    · exact before.trans stopped
  exact told.trans (Changes.aside rfl rfl rfl rfl)

/-- Every event of the loop is made of changes. -/
theorem step_changes {e : Event κ} (current : d.Current) (done : d.step (now, e) = some d') :
    Changes (d.Repeats (now, e)) d d' := by
  cases step_cases done with
  | pass => exact .refl
  | read running reading done => exact rtunRead_changes running reading done
  | write done =>
      obtain ⟨d₁, high, low⟩ := Option.bind_eq_some_iff.mp done
      exact (writeQueue_changes high).trans (writeQueue_changes low)
  | timeout _ active done => exact checkTimeout_changes (.inr active) done
  | tuntapRead done => exact tuntapRead_changes done
  | tuntapWrite done | drainTimeout done | adjustTimeout done => exact Changes.receive done
  | reload done => exact configReload_changes current done
  | quit done => exact quit_changes done

end Daemon

end Mlvpn
