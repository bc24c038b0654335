import Mathlib.Algebra.Order.Group.Multiset
import Mathlib.Tactic.Abel
import Mlvpn.Daemon.Transit

/-! # Data is sent once

A packet of the tuntap device goes into one queue of one tunnel, and leaves it for one datagram
or for none: a full queue gives it up, a tunnel that goes down forgets it, and `sendto` may fail.
Whatever the events, no packet is sent twice, nor by two tunnels.
-/

namespace Mlvpn

open Library.Machine

variable {κ : Type}

/-- The data that a datagram carries, as any tunnel reads it. -/
def cargoOf (host : Host κ) (cleartextData : Bool) (datagram : List UInt8) : List (List UInt8) :=
  match (protocolRead host cleartextData 0 .blank (datagram.take defaultMtu)).1 with
  | some (_, message) => message.cargo
  | none => []

theorem sum_modify {α M : Type} [AddCommMonoid M] (weight : α → M) (f : α → α) {items : List α} {i : Nat}
    {item : α} (found : items[i]? = some item) :
    ((items.modify i f).map weight).sum + weight item = (items.map weight).sum + weight (f item) := by
  induction items generalizing i with
  | nil => cases found
  | cons first rest ih =>
      cases i with
      | zero =>
          cases found
          simp only [List.modify_zero_cons, List.map_cons, List.sum_cons]
          abel
      | succ i =>
          rw [List.getElem?_cons_succ] at found
          simp only [List.modify_succ_cons, List.map_cons, List.sum_cons, add_assoc, ih found]

namespace Daemon

open Tunnel

variable {d d' : Daemon κ} {i : Nat} {now : ℚ} {e : Event κ} {host : Host κ} {cleartextData : Bool}

/-- The data in the queues of a tunnel. -/
def stow (t : Tunnel) : Multiset (List UInt8) := ↑(t.cargo true) + ↑(t.cargo false)

/-- The data in the queues of all tunnels. -/
def stowed (d : Daemon κ) : Multiset (List UInt8) := (d.tuns.map stow).sum

/-- The data of the datagrams that were sent. -/
def shipped (d : Daemon κ) : Multiset (List UInt8) :=
  ↑(d.datagrams.flatMap (cargoOf d.host d.cleartextData))

theorem getElem?_tuns (inside : i < d.tuns.length) : d.tuns[i]? = some (d.tun i) := by
  rw [tun, List.getD_eq_getElem?_getD, List.getElem?_eq_getElem inside, Option.getD_some]

theorem stowed_modify (inside : i < d.tuns.length) (f : Tunnel → Tunnel) :
    (d.modify i f).stowed + stow (d.tun i) = d.stowed + stow (f (d.tun i)) :=
  sum_modify stow f (getElem?_tuns inside)

/-- A tunnel that gets nothing more, but perhaps `extra`. -/
theorem stowed_modify_le {f : Tunnel → Tunnel} (extra : Multiset (List UInt8))
    (less : stow (f (d.tun i)) ≤ stow (d.tun i) + extra) : (d.modify i f).stowed ≤ d.stowed + extra := by
  by_cases inside : i < d.tuns.length
  · refine le_of_add_le_add_right (a := stow (d.tun i)) ?_
    calc (d.modify i f).stowed + stow (d.tun i)
      _ = d.stowed + stow (f (d.tun i)) := stowed_modify inside f
      _ ≤ d.stowed + (stow (d.tun i) + extra) := by gcongr
      _ = d.stowed + extra + stow (d.tun i) := by abel
  · have same : (d.modify i f).tuns = d.tuns :=
      List.modify_eq_self (Nat.le_of_not_lt inside)
    rw [stowed, same]
    exact Multiset.le_add_right _ _

theorem stow_lightens {t t' : Tunnel} (lightens : Lightens t t') : stow t' ≤ stow t :=
  add_le_add (Multiset.coe_le.mpr (lightens true).subperm) (Multiset.coe_le.mpr (lightens false).subperm)

theorem stow_queueData {t : Tunnel} (queued : t.Queued) (highPriority : Bool) (data : List UInt8) :
    stow (t.queueData highPriority data) ≤ stow t + {data} := by
  have joined (other : Bool) := Multiset.coe_le.mpr (queued.cargo_queueData highPriority other data).subperm
  have both := add_le_add (joined true) (joined false)
  refine both.trans (le_of_eq ?_)
  cases highPriority
  all_goals
    simp only [stow, ← Multiset.coe_add, Bool.true_eq_false, Bool.false_eq_true, if_true, if_false,
      Multiset.coe_nil, Multiset.coe_singleton]
    abel

/-- A packet that is taken leaves one queue. -/
theorem stow_taken {t : Tunnel} (queued : t.Queued) {highPriority : Bool}
    (filled : ¬ cbIsEmpty (t.queue highPriority)) (dataSeq now64 : UInt64) :
    stow t = ↑(pktbufferRead (t.queue highPriority)).1.cargo +
      stow (t.taken highPriority dataSeq now64) := by
  have taken (other : Bool) := queued.cargo_taken filled other dataSeq now64
  rw [stow, taken true, taken false, stow]
  cases highPriority
  all_goals
    simp only [← Multiset.coe_add, Bool.true_eq_false, Bool.false_eq_true, if_true, if_false,
      Multiset.coe_nil]
    abel

theorem shipped_eq (sent : d'.datagrams = d.datagrams) (sameKey : SameKey d d') : d'.shipped = d.shipped := by
  rw [shipped, sent, sameKey.host, sameKey.cleartextData, shipped]

theorem datagrams_append (effects : List Effect) (logged : d'.trace = effects ++ d.trace)
    (silent : ∀ effect ∈ effects, effect.datagram? = none) : d'.datagrams = d.datagrams := by
  rw [datagrams, logged, List.filterMap_append, List.filterMap_eq_nil_iff.mpr silent, List.nil_append,
    datagrams]

theorem Passes.datagrams {new : List Reception} (passes : Passes d d' new) : d'.datagrams = d.datagrams := by
  obtain ⟨effects, logged, passing⟩ := passes.trace
  refine datagrams_append effects logged fun effect member => ?_
  cases passing effect member <;> rfl

theorem Takes.datagrams {highPriority : Bool} (takes : Takes d d' i highPriority now) :
    d'.datagrams = d.datagrams := by
  rcases takes.trace with logged | ⟨nonce, logged⟩
  · exact datagrams_append [.sending i] logged (by simp [Effect.datagram?])
  · exact datagrams_append [.encrypted nonce, .sending i] logged (by simp [Effect.datagram?])

theorem stowed_eq (tuns : d'.tuns = d.tuns) : d'.stowed = d.stowed := by rw [stowed, tuns, stowed]

theorem Takes.stowed {highPriority : Bool} (takes : Takes d d' i highPriority now) (tidy : d.Tidy)
    (inside : i < d.tuns.length) (filled : ¬ cbIsEmpty ((d.tun i).queue highPriority)) :
    ↑(pktbufferRead ((d.tun i).queue highPriority)).1.cargo + d'.stowed = d.stowed := by
  have moved := stowed_modify inside (·.taken highPriority d.dataSeq (timestamp64 now))
  rw [← stowed_eq takes.tuns, stow_taken (tidy.queued i) filled d.dataSeq (timestamp64 now),
    ← add_assoc] at moved
  rw [add_comm]
  exact add_right_cancel moved

/-- The datagram carries the packet that was taken. -/
theorem cargoOf_made (correct : d.host.box.Correct) (tidy : d.Tidy) {highPriority : Bool}
    {datagram : List UInt8} (built : sendDatagram d.host d.cleartextData (d.takePacket i highPriority now).2.1
      (d.takePacket i highPriority now).1 = some datagram) :
    cargoOf d.host d.cleartextData datagram = (pktbufferRead ((d.tun i).queue highPriority)).1.cargo := by
  have queueable : (d.takePacket i highPriority now).1.Queueable := tidy.queueable i highPriority
  have pkt := takePacket_pkt d i highPriority now
  rw [takePacket_proto, ← pkt] at built
  obtain ⟨decrypted, message, t', read, _, same⟩ := sendDatagram_reads correct queueable built 0 .blank
  rw [cargoOf, read, ← pkt]
  exact same

/-- What a stroke does not fetch it does not have. -/
theorem Stroke.conserves (stroke : Stroke now e d d') (correct : d.host.box.Correct) (tidy : d.Tidy)
    (fixed : ¬ e.Reloads) (inside : e.fetched = []) : d'.shipped + d'.stowed ≤ d.shipped + d.stowed := by
  have sameKey := stroke.sameKey fixed
  -- nothing is sent, and one tunnel loses data, or none
  have quiet (sent : d'.datagrams = d.datagrams) {i : Nat} {f : Tunnel → Tunnel}
      (tuns : d'.tuns = (d.modify i f).tuns) (less : stow (f (d.tun i)) ≤ stow (d.tun i)) :
      d'.shipped + d'.stowed ≤ d.shipped + d.stowed := by
    have kept := stowed_modify_le (f := f) (i := i) (d := d) 0 (by rwa [add_zero])
    rw [add_zero, ← stowed_eq tuns] at kept
    rw [shipped_eq sent sameKey]
    gcongr
  have same (sent : d'.datagrams = d.datagrams) (tuns : d'.tuns = d.tuns) :
      d'.shipped + d'.stowed ≤ d.shipped + d.stowed := by
    rw [shipped_eq sent sameKey, stowed_eq tuns]
  cases stroke with
  | settle steady =>
      refine same ?_ steady.tuns
      rw [datagrams, steady.trace, datagrams]
  | configure _ reloads => exact absurd reloads fixed
  | tend tends =>
      refine quiet rfl rfl (stow_lightens fun highPriority => ?_)
      have kept := tends.cargo (tidy.queued _) highPriority
      rwa [inside, List.append_nil] at kept
  | @lose i highPriority _ filled =>
      have takes := takePacket_takes d i highPriority now
      refine quiet takes.datagrams takes.tuns ?_
      rw [stow_taken (tidy.queued i) filled d.dataSeq (timestamp64 now)]
      exact Multiset.le_add_left _ _
  | @send i highPriority len datagram inside filled built =>
      have takes := takePacket_takes d i highPriority now
      have taken := takes.stowed tidy inside filled
      have counted : ((d.takePacket i highPriority now).2.2.modify i (·.countSent len)).stowed ≤
          (d.takePacket i highPriority now).2.2.stowed := by
        have kept := stowed_modify_le (d := (d.takePacket i highPriority now).2.2) (i := i)
          (f := (·.countSent len)) 0 (by rw [add_zero]; exact stow_lightens (.of_queues rfl rfl))
        rwa [add_zero] at kept
      have sent : (((d.takePacket i highPriority now).2.2.modify i (·.countSent len)).log
            (.sent i (d.takePacket i highPriority now).1.type datagram)).shipped =
          ↑(pktbufferRead ((d.tun i).queue highPriority)).1.cargo + d.shipped := by
        have listed : (((d.takePacket i highPriority now).2.2.modify i (·.countSent len)).log
            (.sent i (d.takePacket i highPriority now).1.type datagram)).datagrams =
              datagram :: d.datagrams := congrArg (datagram :: ·) takes.datagrams
        rw [shipped, listed, sameKey.host, sameKey.cleartextData, List.flatMap_cons,
          cargoOf_made correct tidy built, ← Multiset.coe_add]
        rfl
      rw [sent, ← taken, add_assoc, add_left_comm]
      gcongr
      exact counted
  | @accept i bytes _ _ _ _ t _ _ _ read adopted =>
      refine quiet (datagrams_append [.accepted i _ _] rfl (by simp [Effect.datagram?])) rfl ?_
      have measured : Lightens (d.tun i) t := by
        rw [remeasured_of_read read]
        exact .of_queues rfl rfl
      obtain ⟨addr, rfl⟩ := adoptAddr_eq adopted
      exact stow_lightens (measured.trans (.of_queues rfl rfl))
  | deliver _ _ _ _ | receive _ _ => exact same (withRx_passes d _).datagrams rfl
  | down _ done =>
      obtain ⟨d₁, rfl, passes⟩ := (statusDown_lowers done).passes
      refine quiet ?_ passes.tuns (stow_lightens (tidy.queued _).lowered_lightens)
      exact (datagrams_append [.statusDown _] rfl (by simp [Effect.datagram?])).trans passes.datagrams
  | up _ done =>
      obtain ⟨passes, _⟩ := statusUp_passes done
      exact quiet passes.datagrams passes.tuns (stow_lightens (.of_queues rfl rfl))
  | regrade _ done =>
      obtain ⟨passes, _⟩ := regrade_passes done
      exact quiet passes.datagrams passes.tuns (stow_lightens (.of_queues rfl rfl))
  | drop _ reloads | create _ _ _ reloads _ => exact absurd reloads fixed

theorem Strokes.conserves (strokes : Strokes now e d d') (correct : d.host.box.Correct) (tidy : d.Tidy)
    (fixed : ¬ e.Reloads) (inside : e.fetched = []) : d'.shipped + d'.stowed ≤ d.shipped + d.stowed := by
  induction strokes with
  | refl => exact le_refl _
  | tail before last ih =>
      rw [← (Strokes.sameKey before fixed).host] at correct
      exact (last.conserves correct (Strokes.tidy before tidy).1 fixed inside).trans ih

/-- A packet of the device goes into one queue, if into any. -/
theorem tuntapRead_conserves {data : List UInt8} (tidy : d.Tidy) (done : d.tuntapRead data = some d') :
    d'.datagrams = d.datagrams ∧ d'.stowed ≤ d.stowed + ↑(.tuntapRead data : Event κ).fetched := by
  have queues (s : Daemon κ) (tuns : s.tuns = d.tuns) (trace : s.trace = d.trace) (i : Nat)
      (highPriority : Bool) (payload : List UInt8) :
      (s.modify i (·.queueData highPriority payload)).datagrams = d.datagrams ∧
        (s.modify i (·.queueData highPriority payload)).stowed ≤ d.stowed + {payload} := by
    rw [← stowed_eq tuns]
    refine ⟨datagrams_append [] trace (by simp), stowed_modify_le {payload} ?_⟩
    rw [tun_congr tuns]
    exact stow_queueData (tidy.queued i) highPriority payload
  unfold tuntapRead at done
  split at done
  next => cases done
  next nonempty =>
    cases done
    rw [Event.fetched, if_neg nonempty, Multiset.coe_singleton]
    unfold tuntapGenericRead
    split
    next i _ => exact queues d rfl rfl i true _
    next =>
      have chosen : d.rtunChoose.2.tuns = d.tuns ∧ d.rtunChoose.2.trace = d.trace := by
        unfold rtunChoose wrrChoose
        dsimp only
        split <;> exact ⟨rfl, rfl⟩
      split
      next answer =>
        rw [answer] at chosen
        refine ⟨datagrams_append [] chosen.2 (by simp), ?_⟩
        rw [stowed_eq chosen.1]
        exact Multiset.le_add_right _ _
      next i _ answer =>
        rw [answer] at chosen
        exact queues _ chosen.1 chosen.2 i false _

/-- What an event adds to what was sent and what waits, it has fetched. -/
theorem step_conserves {event : ℚ × Event κ} (correct : d.host.box.Correct) (tidy : d.Tidy)
    (fixed : ¬ event.2.Reloads) (done : d.step event = some d') :
    SameKey d d' ∧ d'.shipped + d'.stowed ≤ d.shipped + d.stowed + ↑(d.fetched event) := by
  obtain ⟨now, e⟩ := event
  have strokes := step_strokes tidy done
  have sameKey := strokes.sameKey fixed
  refine ⟨sameKey, ?_⟩
  by_cases quiet : e.fetched = []
  · exact (strokes.conserves correct tidy fixed quiet).trans (Multiset.le_add_right _ _)
  · cases stopped : d.stopped with
    | true =>
        simp only [step, stopped, if_true] at done
        cases done
        exact Multiset.le_add_right _ _
    | false =>
        cases e with
        | tuntapRead data =>
            simp only [step, stopped, Bool.false_eq_true, if_false] at done
            obtain ⟨sent, queued⟩ := tuntapRead_conserves tidy done
            rw [shipped_eq sent sameKey, fetched, stopped, if_neg Bool.false_ne_true, add_assoc]
            gcongr
        | _ => exact absurd rfl quiet

theorem Unused.conserves (unused : d.Unused) : d.shipped + d.stowed = ↑([] : List (List UInt8)) := by
  have silent : d.datagrams = [] := by
    refine List.filterMap_eq_nil_iff.mpr fun effect member => ?_
    cases effect with
    | sent i type datagram => exact absurd member (unused.silent i type datagram)
    | _ => rfl
  have empty (j : Nat) (highPriority : Bool) : (d.tun j).cargo highPriority = [] :=
    List.eq_nil_iff_forall_not_mem.mpr fun payload member => unused.bears.loaded j highPriority payload member
  have stowed : d.stowed = 0 := by
    refine List.sum_eq_zero fun load member => ?_
    obtain ⟨t, there, rfl⟩ := List.mem_map.mp member
    obtain ⟨j, inside, rfl⟩ := List.getElem_of_mem there
    have found := getElem?_tuns inside
    rw [List.getElem?_eq_getElem inside] at found
    rw [Option.some.inj found, stow, empty, empty]
    rfl
  rw [shipped, silent, stowed]
  rfl

/-- However the events come, the packets that were sent, and those that wait, were fetched from
    the device, each of them once. -/
theorem sent_at_most_once {start : Daemon κ} (starting : start.Starting)
    (correct : start.host.box.Correct) {events : List (ℚ × Event κ)}
    (fixed : ∀ event ∈ events, ¬ event.2.Reloads) (reached : run step start events = some d) :
    d.shipped + d.stowed ≤ ↑((visits step start events).flatMap fun visit => visit.1.fetched visit.2) := by
  have held : d.Tidy ∧ d.host.box.Correct ∧ d.shipped + d.stowed ≤ Multiset.ofList
      ([] ++ (visits step start events).flatMap fun visit => visit.1.fetched visit.2) :=
    run_outputs (I := fun s (log : List (List UInt8)) =>
        s.Tidy ∧ s.host.box.Correct ∧ s.shipped + s.stowed ≤ ↑log)
      (fun s event s' log kept fixed done => by
        obtain ⟨tidy, correct, less⟩ := kept
        obtain ⟨sameKey, more⟩ := step_conserves correct tidy fixed done
        refine ⟨step_tidy tidy done, sameKey.host ▸ correct, more.trans ?_⟩
        rw [← Multiset.coe_add]
        gcongr)
      events ⟨starting.unused.tidy, correct, starting.unused.conserves.le⟩
      (meets_of_forall events (fun event member _ => fixed event member) start) reached
  exact held.2.2

/-- A server that is connected fetches two packets of its device, and sends the first. -/
def shipment : List (ℚ × Event Unit) :=
  [(1, .timeout 0 (.opened [127] 3)), challenged 0, (3, .tuntapRead [69, 0, 7]),
    (3, .tuntapRead [69, 0, 8]), (3, .write 0 (.sent 46) (.sent 47))]

theorem shipment_sent_once :
    ∃ d ∈ run step (Net.configured true) shipment, d.shipped = {[69, 0, 7]} ∧ d.stowed = {[69, 0, 8]} ∧
      d.shipped + d.stowed ≤ {[69, 0, 7], [69, 0, 8]} := by
  obtain ⟨d, reached, sent, waits⟩ : ∃ d ∈ run step (Net.configured true) shipment,
      d.shipped = {[69, 0, 7]} ∧ d.stowed = {[69, 0, 8]} := by
    decide +kernel
  have fetched : ((visits step (Net.configured true) shipment).flatMap fun visit =>
      visit.1.fetched visit.2) = [[69, 0, 7], [69, 0, 8]] := by
    decide +kernel
  have fixed : ∀ event ∈ shipment, ¬ event.2.Reloads := by
    simp [shipment, challenged, Event.Reloads]
  have once := sent_at_most_once (Net.configured_starting true) plainBox_correct fixed reached
  rw [fetched] at once
  exact ⟨d, reached, sent, waits, once⟩

end Daemon

end Mlvpn
