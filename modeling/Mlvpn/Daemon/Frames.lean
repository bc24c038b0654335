import Mlvpn.Daemon.Acts

/-! # Which tunnel an event touches

A callback of the loop works on the tunnel it was called for: a datagram, a
socket that can be written to and a timer leave the structures of all other
tunnels as they were.
-/

namespace Mlvpn.Daemon

open Library.Machine Tunnel

variable {κ : Type} {d d' d'' : Daemon κ} {i : Nat}

/-- No structure but that of one tunnel is changed. -/
def Only (i : Nat) (d d' : Daemon κ) : Prop := ∀ j, j ≠ i → d'.tun j = d.tun j

theorem Only.trans (first : Only i d d') (second : Only i d' d'') : Only i d d'' :=
  fun j other => (second j other).trans (first j other)

theorem Only.of_tuns (tuns : d'.tuns = d.tuns) : Only i d d' := by
  intro j _
  rw [tun, tun, tuns]

theorem Only.refl (i : Nat) (d : Daemon κ) : Only i d d := .of_tuns rfl

theorem Only.modify (d : Daemon κ) (i : Nat) (f : Tunnel → Tunnel) : Only i d (d.modify i f) := by
  intro j other
  rw [tun_modify, if_neg fun here => other here.1]

/-- What is read off a tunnel, and a change of it keeps. -/
theorem modify_keeps {α : Type} {f : Tunnel → Tunnel} (g : Tunnel → α)
    (kept : g (f (d.tun i)) = g (d.tun i)) (j : Nat) : g ((d.modify i f).tun j) = g (d.tun j) := by
  rw [tun_modify]
  split
  next here => rw [kept, here.1]
  next => rfl

theorem statusDown_only (done : d.statusDown i = some d') : Only i d d' :=
  (Only.modify d i lowered).trans (.of_tuns (statusDown_tuns done))

theorem statusUp_only {now : ℚ} (done : d.statusUp i now = some d') : Only i d d' :=
  (Only.modify d i (·.raised now)).trans (.of_tuns (statusUp_rebuilds done).tuns)

theorem sendAuth_only {now : ℚ} (done : d.sendAuth i now = some d') : Only i d d' := by
  cases sendAuth_cases done with
  | @answers d₁ _ _ raised =>
      exact ((Only.modify d i _).trans (statusUp_only raised)).trans (.modify d₁ i _)
  | confirms _ _ raised => exact (Only.modify d i _).trans (statusUp_only raised)
  | ignores _ => exact .refl i d

theorem regrade_only {grade : Option Status} (done : d.regrade i grade = some d') : Only i d d' := by
  cases grade with
  | none =>
      cases done
      exact .refl i d
  | some status =>
      refine (Only.modify d i fun t => { t with status := status }).trans ?_
      rcases switchToFallback_tables done with ⟨_, rebuilds, _⟩ | ⟨rfl, _⟩
      · exact .of_tuns rebuilds.tuns
      · exact .refl i _

theorem takePacket_only (highPriority : Bool) (now : ℚ) :
    Only i d (d.takePacket i highPriority now).2.2 :=
  (Only.modify d i _).trans (.of_tuns (takePacket_tuns highPriority now))

theorem afterSendto_only {type : PktType} {datagram : List UInt8} {result : SendResult}
    (done : d.afterSendto i type datagram result = some d') : Only i d d' := by
  cases result with
  | blocked =>
      cases done
      exact .refl i d
  | failed => exact statusDown_only done
  | sent len =>
      cases done
      exact (Only.modify d i (·.countSent len)).trans (.of_tuns rfl)

theorem rtunSend_only {highPriority : Bool} {now : ℚ} {result : SendResult}
    (done : d.rtunSend i highPriority now result = some d') : Only i d d' := by
  refine (takePacket_only highPriority now).trans ?_
  cases rtunSend_cases done with
  | refuses _ => exact .refl i _
  | @hands _ d₁ _ sent => exact (afterSendto_only sent).trans (.modify d₁ i _)

theorem writeQueue_only {highPriority : Bool} {now : ℚ} {result : SendResult}
    (done : d.writeQueue i highPriority now result = some d') : Only i d d' := by
  unfold writeQueue at done
  split at done
  next =>
    cases done
    exact .refl i d
  next => exact rtunSend_only done

theorem dispatch_only {now : ℚ} {pkt : Pkt} (done : d.dispatch i now pkt = some d') :
    Only i d d' := by
  cases dispatch_cases done with
  | ignores => exact .refl i d
  | delivers _ _ _ => exact (Only.modify d i (·.tick now)).trans (.of_tuns rfl)
  | keepsAlive _ => exact .modify d i _
  | disconnects _ down => exact statusDown_only down
  | handshakes _ answered => exact sendAuth_only answered

theorem rtunRead_only {now : ℚ} {result : ReadResult} (done : d.rtunRead i now result = some d') :
    Only i d d' := by
  cases rtunRead_cases done with
  | waits _ => exact .refl i d
  | fails down => exact statusDown_only down
  | refuses _ => exact .modify d i _
  | @accepts _ _ _ decrypted pkt _ t₁ _ _ _ dispatched =>
      have accepted : Only i d ((d.modify i fun _ => t₁).log (.accepted i pkt.type decrypted)) :=
        (Only.modify d i fun _ => t₁).trans (.of_tuns rfl)
      exact accepted.trans (dispatch_only dispatched)

theorem checkAlive_only {now : ℚ} {result : StartResult}
    (done : d.checkAlive i now result = some d') : Only i d d' := by
  unfold checkAlive at done
  dsimp only at done
  split at done
  next =>
    repeat' split at done
    next => exact statusDown_only done
    all_goals cases done
    next => exact .modify d i _
    all_goals exact .refl i d
  next =>
    cases done
    exact .modify d i _

theorem checkTimeout_only {now : ℚ} {result : StartResult}
    (done : d.checkTimeout i now result = some d') : Only i d d' := by
  obtain ⟨d₁, alive, rest⟩ := Option.bind_eq_some_iff.mp done
  obtain ⟨d₂, lossy, slow⟩ := Option.bind_eq_some_iff.mp rest
  exact (((checkAlive_only alive).trans (.modify d₁ i _)).trans (regrade_only lossy)).trans
    (regrade_only slow)

theorem sendDisconnect_only {now : ℚ} {result : SendResult}
    (done : d.sendDisconnect i now result = some d') : Only i d d' :=
  (Only.modify d i (·.queueBare .disconnect)).trans (rtunSend_only done)

theorem rtunDrop_only {now : ℚ} {result : SendResult} (done : d.rtunDrop i now result = some d') :
    Only i d d' := by
  obtain ⟨d₁, sent, rest⟩ := Option.bind_eq_some_iff.mp done
  obtain ⟨d₂, down, rfl⟩ := Option.map_eq_some_iff.mp rest
  exact ((sendDisconnect_only sent).trans (statusDown_only down)).trans
    ((Only.modify d₂ i stopWatching).trans (.of_tuns rfl))

/-- The tunnel that a packet of the device is queued for, and whether a filter chose it. -/
def route (d : Daemon κ) (data : List UInt8) : Option (Nat × Bool) :=
  match d.filtersChoose data with
  | some i => some (i, true)
  | none => d.rtunChoose.1.map fun i => (i, false)

/-- A packet of the device is put on one queue, or on none. -/
theorem tuntapGenericRead_tuns (d : Daemon κ) (data : List UInt8) :
    (d.tuntapGenericRead data).tuns =
      match d.route data with
      | some (i, highPriority) => (d.modify i (·.queueData highPriority data)).tuns
      | none => d.tuns := by
  have chosen := rtunChoose_tuns d
  unfold tuntapGenericRead route
  cases d.filtersChoose data with
  | some i => rfl
  | none =>
      generalize d.rtunChoose = answer at chosen
      obtain ⟨choice, d₁⟩ := answer
      cases choice with
      | none => exact chosen
      | some i =>
          dsimp only [modify, Option.map_some] at chosen ⊢
          rw [chosen]

end Mlvpn.Daemon
