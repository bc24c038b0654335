import Mlvpn.Daemon.Balance
import Mlvpn.Daemon.Moves

/-! # The events of the loop, seen from the table of the round robin

While the configuration is fixed, a callback of the loop is a sequence of link
events, with changes between them that neither a status nor the table sees.  So
a choice that the daemon loses was lost by a link event that was not backed.
-/

namespace Mlvpn

namespace Tunnel

variable {t t' t'' : Tunnel}

/-- The name, the status and the role are as they were. -/
structure Still (t t' : Tunnel) : Prop where
  name : t'.name = t.name
  status : t'.status = t.status
  fallbackOnly : t'.fallbackOnly = t.fallbackOnly

theorem Still.trans (first : Still t t') (second : Still t' t'') : Still t t'' :=
  ⟨second.name.trans first.name, second.status.trans first.status,
    second.fallbackOnly.trans first.fallbackOnly⟩

theorem Still.of_remeasured (remeasured : t.Remeasured t') : Still t t' := by
  rw [remeasured]
  exact ⟨rfl, rfl, rfl⟩

theorem Still.adoptAddr {sender : Addr} {named : Bool}
    (adopted : t.adoptAddr sender named = some t') : Still t t' := by
  obtain ⟨addr, rfl⟩ := adoptAddr_eq adopted
  exact ⟨rfl, rfl, rfl⟩

theorem Still.sendKeepalive (now : ℚ) : Still t (t.sendKeepalive now) := by
  unfold Tunnel.sendKeepalive Tunnel.queueBare
  split <;> exact ⟨rfl, rfl, rfl⟩

theorem Still.keepaliveReceived (now : ℚ) : Still t (t.keepaliveReceived now) := by
  unfold Tunnel.keepaliveReceived
  dsimp only
  split
  next =>
    have noted : Still t { t.tick now with lastKeepaliveAck := now, lastKeepaliveAckSent := now } :=
      ⟨rfl, rfl, rfl⟩
    exact noted.trans (.sendKeepalive now)
  next => exact ⟨rfl, rfl, rfl⟩

theorem Still.setQueue (highPriority : Bool) (buf : Pktbuffer) :
    Still t (t.setQueue highPriority buf) := by
  cases highPriority <;> exact ⟨rfl, rfl, rfl⟩

theorem Still.queueData (highPriority : Bool) (data : List UInt8) :
    Still t (t.queueData highPriority data) := by
  unfold Tunnel.queueData
  dsimp only
  split
  next => exact (Still.setQueue highPriority _).trans ⟨rfl, rfl, rfl⟩
  next => exact .setQueue highPriority _

theorem Still.stopIfEmpty (highPriority : Bool) : Still t (t.stopIfEmpty highPriority) := by
  unfold Tunnel.stopIfEmpty
  split <;> exact ⟨rfl, rfl, rfl⟩

theorem Still.sendHeader (dataSeq now64 : UInt64) (pkt : Pkt) :
    Still t (sendHeader t dataSeq now64 pkt).2.1 := by
  unfold Mlvpn.sendHeader
  dsimp only
  split <;> exact ⟨rfl, rfl, rfl⟩

theorem Still.of_started (started : t.Started t') : Still t t' := by
  rw [started]
  exact ⟨rfl, rfl, rfl⟩

/-- A tunnel keeps its status, or sends its challenge. -/
theorem tickConnect_still (now : ℚ) (result : StartResult) :
    Still t (t.tickConnect now result) ∨
      ∃ opened, Still t opened ∧ t.tickConnect now result = opened.challengeSend := by
  rcases t.tickConnect_started now result with started | ⟨opened, started, challenged⟩
  · exact .inl (.of_started started)
  · exact .inr ⟨opened, .of_started started, challenged⟩

end Tunnel

namespace Daemon

open Library.Machine Tunnel

variable {κ : Type} {d d' : Daemon κ} {i : Nat}

/-- The tunnels of the table. -/
def table (d : Daemon κ) : List Nat := d.wrr.map Prod.fst

/-- Neither the tunnels as links, nor those of the table, have changed. -/
structure Unseen (d d' : Daemon κ) : Prop where
  links : SameLinks d d'
  table : d'.table = d.table
  filters : d'.filters = d.filters
  length : d'.tuns.length = d.tuns.length
  names : ∀ i, (d'.tun i).name = (d.tun i).name

theorem Unseen.tune {f : Tunnel → Tunnel} (still : Still (d.tun i) (f (d.tun i))) :
    Unseen d (d.modify i f) := by
  refine ⟨.quiet still.status still.fallbackOnly, rfl, rfl, length_modify .., fun j => ?_⟩
  rw [tun_modify]
  split
  next here => rw [still.name, here.1]
  next => rfl

/-- A link event, or a change that is not seen. -/
inductive LinkMove : Daemon κ → Daemon κ → Prop where
  | event {d d' : Daemon κ} (e : LinkEvent) : d.linkStep e = some d' → LinkMove d d'
  | unseen {d d' : Daemon κ} : Unseen d d' → LinkMove d d'

abbrev LinkMoves : Daemon κ → Daemon κ → Prop := Relation.ReflTransGen LinkMove

theorem LinkMoves.event (e : LinkEvent) (done : d.linkStep e = some d') : LinkMoves d d' :=
  .single (.event e done)

theorem LinkMoves.tune {f : Tunnel → Tunnel} (still : Still (d.tun i) (f (d.tun i))) :
    LinkMoves d (d.modify i f) :=
  .single (.unseen (.tune still))

/-- A change of what is neither a tunnel, nor the table, nor the filters. -/
theorem LinkMoves.aside (tuns : d'.tuns = d.tuns) (rtuns : d'.rtuns = d.rtuns)
    (available : d'.fallbackAvailable = d.fallbackAvailable) (wrr : d'.wrr = d.wrr)
    (filters : d'.filters = d.filters) : LinkMoves d d' := by
  have same : ∀ j, d'.tun j = d.tun j := fun j => by rw [tun, tun, tuns]
  have links : SameLinks d d' := ⟨rtuns, available, fun j => by rw [same], fun j => by rw [same]⟩
  exact .single (.unseen
    ⟨links, by rw [table, wrr, table], filters, by rw [tuns], fun j => by rw [same]⟩)

theorem LinkMoves.log (e : Effect) : LinkMoves d (d.log e) := LinkMoves.aside rfl rfl rfl rfl rfl

theorem LinkMoves.receive {e : Receive.Event} (done : (d.rx.step e).map d.withRx = some d') :
    LinkMoves d d' := by
  obtain ⟨rx, _, rfl⟩ := Option.map_eq_some_iff.mp done
  exact LinkMoves.aside rfl rfl rfl rfl rfl

theorem afterSendto_links {type : PktType} {datagram : List UInt8} {result : SendResult}
    (done : d.afterSendto i type datagram result = some d') : LinkMoves d d' := by
  cases result with
  | blocked =>
      cases done
      exact .refl
  | failed => exact LinkMoves.event (.down i) done
  | sent len =>
      cases done
      have counted : LinkMoves d (d.modify i (·.countSent len)) := LinkMoves.tune ⟨rfl, rfl, rfl⟩
      exact counted.trans (LinkMoves.log _)

theorem takePacket_links (highPriority : Bool) (now : ℚ) :
    LinkMoves d (d.takePacket i highPriority now).2.2 := by
  let queue := (d.tun i).queue highPriority
  let read := (d.tun i).setQueue highPriority (pktbufferRead queue).2
  let header := sendHeader read d.dataSeq (timestamp64 now) (queue.pkts queue.start)
  have still : Still (d.tun i) header.2.1 := (Still.setQueue ..).trans (.sendHeader ..)
  have numbered : LinkMoves d (d.modify i fun _ => header.2.1) := LinkMoves.tune still
  refine numbered.trans ?_
  unfold takePacket
  dsimp only
  split <;> exact LinkMoves.aside rfl rfl rfl rfl rfl

theorem rtunSend_links {highPriority : Bool} {now : ℚ} {result : SendResult}
    (done : d.rtunSend i highPriority now result = some d') : LinkMoves d d' := by
  have taken : LinkMoves d (d.takePacket i highPriority now).2.2 := takePacket_links ..
  refine taken.trans ?_
  cases rtunSend_cases done with
  | refuses _ => exact .refl
  | hands _ sent => exact (afterSendto_links sent).trans (LinkMoves.tune (.stopIfEmpty _))

theorem writeQueue_links {highPriority : Bool} {now : ℚ} {result : SendResult}
    (done : d.writeQueue i highPriority now result = some d') : LinkMoves d d' := by
  unfold writeQueue at done
  split at done
  next =>
    cases done
    exact .refl
  next => exact rtunSend_links done

theorem rtunWrite_links {now : ℚ} {first second : SendResult}
    (done : d.rtunWrite i now first second = some d') : LinkMoves d d' := by
  obtain ⟨d₁, high, low⟩ := Option.bind_eq_some_iff.mp done
  exact (writeQueue_links high).trans (writeQueue_links low)

theorem dispatch_links {now : ℚ} {pkt : Pkt} (done : d.dispatch i now pkt = some d') :
    LinkMoves d d' := by
  cases dispatch_cases done with
  | ignores => exact .refl
  | delivers _ _ _ =>
      have ticked : LinkMoves d (d.modify i (·.tick now)) := LinkMoves.tune ⟨rfl, rfl, rfl⟩
      exact ticked.trans (LinkMoves.aside rfl rfl rfl rfl rfl)
  | keepsAlive _ => exact LinkMoves.tune (.keepaliveReceived now)
  | disconnects _ down => exact LinkMoves.event (.down i) down
  | handshakes _ answered => exact LinkMoves.event (.auth i now) answered

theorem rtunRead_links {now : ℚ} {result : ReadResult} (done : d.rtunRead i now result = some d') :
    LinkMoves d d' := by
  cases rtunRead_cases done with
  | waits _ => exact .refl
  | fails down => exact LinkMoves.event (.down i) down
  | refuses read => exact LinkMoves.tune (.of_remeasured (remeasured_of_read read))
  | @accepts bytes _ _ decrypted pkt t t₁ _ read adopted dispatched =>
      have measured : Still (d.tun i) t := .of_remeasured (remeasured_of_read read)
      have counted : Still t (t.countReceived (bytes.take defaultMtu).length) := ⟨rfl, rfl, rfl⟩
      have followed : Still (d.tun i) t₁ := (measured.trans counted).trans (.adoptAddr adopted)
      have accepted : LinkMoves d ((d.modify i fun _ => t₁).log (.accepted i pkt.type decrypted)) :=
        (LinkMoves.tune followed).trans (LinkMoves.log _)
      exact accepted.trans (dispatch_links dispatched)

/-- Only the tunnel as it is matters to a change of it. -/
theorem modify_congr {f g : Tunnel → Tunnel} (same : f (d.tun i) = g (d.tun i)) :
    d.modify i f = d.modify i g := by
  have tuns : d.tuns.modify i f = d.tuns.modify i g := by
    rw [List.modify_eq_set_getElem?, List.modify_eq_set_getElem?]
    cases found : d.tuns[i]? with
    | none => rfl
    | some t =>
        rw [tun, List.getD_eq_getElem?_getD, found, Option.getD_some] at same
        exact congrArg (d.tuns.set i) same
  rw [modify, modify, tuns]

theorem tickConnect_links (now : ℚ) (result : StartResult) (idle : ¬ (d.tun i).status.Up) :
    LinkMoves d (d.modify i (·.tickConnect now result)) := by
  rcases tickConnect_still now result with still | ⟨opened, still, challenged⟩
  · exact LinkMoves.tune still
  · have opening : LinkMoves d (d.modify i fun _ => opened) := LinkMoves.tune still
    refine opening.trans (LinkMoves.event (.challenge i) ?_)
    have down : ¬ ((d.modify i fun _ => opened).tun i).status.Up :=
      fun up => idle ((modify_up (by rw [still.status]) i).mp up)
    rw [linkStep, if_neg down, modify_modify]
    exact congrArg some (modify_congr challenged.symm)

theorem checkAlive_links {now : ℚ} {result : StartResult}
    (done : d.checkAlive i now result = some d') : LinkMoves d d' := by
  unfold checkAlive at done
  dsimp only at done
  split at done
  next =>
    repeat' split at done
    next => exact LinkMoves.event (.down i) done
    all_goals cases done
    next => exact LinkMoves.tune (.sendKeepalive now)
    all_goals exact .refl
  next idle =>
    cases done
    exact tickConnect_links now result idle

theorem checkTimeout_links {now : ℚ} {result : StartResult}
    (done : d.checkTimeout i now result = some d') : LinkMoves d d' := by
  obtain ⟨d₁, alive, rest⟩ := Option.bind_eq_some_iff.mp done
  obtain ⟨d₂, lossy, slow⟩ := Option.bind_eq_some_iff.mp rest
  refine (checkAlive_links alive).trans ?_
  refine Relation.ReflTransGen.trans ?_
    ((LinkMoves.event (.checkLossy i) lossy).trans (LinkMoves.event (.checkSlow i) slow))
  apply LinkMoves.tune
  split <;> exact ⟨rfl, rfl, rfl⟩

/-- A choice moves the values of the table only. -/
theorem rtunChoose_table : d.rtunChoose.2.table = d.table := by
  unfold rtunChoose wrrChoose
  dsimp only
  split
  next => rfl
  next entry tunval found =>
    have same : d.table[wrrMinIndex (d.wrr.map Prod.snd) 0 100 0]? = some entry := by
      rw [table, List.getElem?_map, found, Option.map_some]
    have lowered : (d.wrr.map fun e : Nat × ℚ => (e.1, if e.2 > 0 then e.2 - 1 else e.2)).map Prod.fst =
        d.table := by
      rw [List.map_map]
      rfl
    unfold table at same ⊢
    rw [List.map_set, lowered, table]
    obtain ⟨inside, there⟩ := List.getElem?_eq_some_iff.mp same
    rw [← there, List.set_getElem_self]

theorem rtunChoose_links : LinkMoves d d.rtunChoose.2 := by
  have kept := rtunChoose_table (d := d)
  unfold rtunChoose wrrChoose at kept ⊢
  dsimp only at kept ⊢
  split at kept
  next => exact .refl
  next => exact .single (.unseen ⟨⟨rfl, rfl, fun _ => rfl, fun _ => rfl⟩, kept, rfl, rfl, fun _ => rfl⟩)

theorem tuntapRead_links {data : List UInt8} (done : d.tuntapRead data = some d') :
    LinkMoves d d' := by
  unfold tuntapRead at done
  split at done
  next => cases done
  next =>
    cases done
    unfold tuntapGenericRead
    split
    next => exact LinkMoves.tune (.queueData ..)
    next =>
      have chosen : LinkMoves d d.rtunChoose.2 := rtunChoose_links
      split
      next answer =>
        rw [answer] at chosen
        exact chosen
      next answer =>
        rw [answer] at chosen
        exact chosen.trans (LinkMoves.tune (.queueData ..))

theorem sendDisconnect_links {now : ℚ} {result : SendResult}
    (done : d.sendDisconnect i now result = some d') : LinkMoves d d' := by
  have queued : LinkMoves d (d.modify i (·.queueBare .disconnect)) := by
    apply LinkMoves.tune
    unfold queueBare
    split <;> exact ⟨rfl, rfl, rfl⟩
  exact queued.trans (rtunSend_links done)

theorem quit_links {now : ℚ} {send : Nat → SendResult} (done : d.quit now send = some d') :
    LinkMoves d d' := by
  obtain ⟨d₁, told, rfl⟩ := Option.map_eq_some_iff.mp done
  have told : LinkMoves d d₁ := by
    refine run_preserves (I := fun s => LinkMoves d s) d.rtuns ?_ .refl told
    intro s j _ s' moves taken
    have stopped : LinkMoves s (s.modify j Tunnel.stopWatching) := LinkMoves.tune ⟨rfl, rfl, rfl⟩
    rcases quitTunnel_cases taken with ⟨_, sent⟩ | rfl
    · exact (moves.trans stopped).trans (sendDisconnect_links sent)
    · exact moves.trans stopped
  exact told.trans (LinkMoves.aside rfl rfl rfl rfl rfl)

/-- Every event of the loop but a reload is made of link events. -/
theorem step_links {now : ℚ} {e : Event κ} (fixed : ¬ e.Reloads)
    (done : d.step (now, e) = some d') : LinkMoves d d' := by
  cases step_cases done with
  | pass => exact .refl
  | read _ _ done => exact rtunRead_links done
  | write done => exact rtunWrite_links done
  | timeout _ _ done => exact checkTimeout_links done
  | tuntapRead done => exact tuntapRead_links done
  | tuntapWrite done | drainTimeout done | adjustTimeout done => exact LinkMoves.receive done
  | reload => exact absurd trivial fixed
  | quit done => exact quit_links done

end Daemon

end Mlvpn
