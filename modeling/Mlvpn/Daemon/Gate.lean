import Mlvpn.Library.History
import Mlvpn.Daemon.Moves
import Mlvpn.Receive.Provenance

/-! # Authentication gates traffic

A tunnel is connected by a datagram of a handshake that could be decrypted, and
by nothing else.  What is injected came in by a connected tunnel, and the pool is
emptied before one is disconnected.
-/

namespace Mlvpn.Daemon

open Library.Machine Library.History Tunnel

variable {κ : Type} {d d' : Daemon κ} {i : Nat} {e : Effect} {effects : List Effect}

/-- A datagram of a handshake was accepted, and had been decrypted. -/
def Authenticated (i : Nat) : Effect → Prop
  | .accepted j type decrypted => j = i ∧ (type = .auth ∨ type = .authOk) ∧ decrypted = true
  | _ => False

/-- The tunnel starts over. -/
def Ended (i : Nat) : Effect → Prop
  | .statusDown j => j = i
  | .created j => j = i
  | _ => False

abbrev AuthedSince (i : Nat) (trace : List Effect) : Prop := Since (Authenticated i) (Ended i) trace

/-- A packet that came in by the tunnel is injected, or the tunnel is put into
    the table of the round robin. -/
def Uses (i : Nat) : Effect → Prop
  | .injected r => r.tun = i
  | .placed j => j = i
  | _ => False

/-- Whatever used the tunnel had been earned. -/
abbrev Earned (i : Nat) (trace : List Effect) : Prop :=
  Historically (fun e older => Uses i e → AuthedSince i older) trace

/-- A connected tunnel has authenticated, and what is held came by connected ones. -/
structure Gated (d : Daemon κ) : Prop where
  authed : ∀ i, (d.tun i).status.Up → AuthedSince i d.trace
  held : ∀ r ∈ (Receive.ledger d.rx).held, (d.tun r.tun).status.Up
  idle : d.rx.Idle
  earned : ∀ i, Earned i d.trace

/-- Effects that end nothing, and use what has authenticated. -/
def Fair (trace : List Effect) (e : Effect) : Prop :=
  ∀ i, ¬ Ended i e ∧ (Uses i e → AuthedSince i trace)

theorem Earned.append {trace : List Effect} (h : Earned i trace) (fair : ∀ e ∈ effects, Fair trace e) :
    Earned i (effects ++ trace) :=
  Historically.append h (fun e member => (fair e member i).2)
    fun e member _ _ earned uses => (earned uses).cons (fair e member i).1

/-- No tunnel is connected, and what happens is fair. -/
theorem Gated.frame (h : Gated d) (up : ∀ i, (d'.tun i).status.Up → (d.tun i).status.Up)
    (held : ∀ r ∈ (Receive.ledger d'.rx).held, (d'.tun r.tun).status.Up) (idle : d'.rx.Idle)
    (logged : d'.trace = effects ++ d.trace) (fair : ∀ e ∈ effects, Fair d.trace e) : Gated d' where
  authed := fun i connected => by
    rw [logged]
    exact (h.authed i (up i connected)).append fun e member => (fair e member i).1
  held := held
  idle := idle
  earned := fun i => by
    rw [logged]
    exact (h.earned i).append fair

/-- What passes on the way is fair, if what is injected came by connected tunnels. -/
theorem Passing.fair {d₀ : Daemon κ} {new : List Reception} (h : Gated d)
    (up : ∀ i, (d₀.tun i).status.Up → (d.tun i).status.Up)
    (origin : ∀ r ∈ new, (d.tun r.tun).status.Up) (passing : Passing d₀ new e) : Fair d.trace e := by
  intro i
  cases passing with
  | script command => exact ⟨id, fun other => by cases other⟩
  | placed j connected => exact ⟨id, fun same => same ▸ h.authed j (up j connected)⟩
  | injected r member => exact ⟨id, fun same => same ▸ h.authed r.tun (origin r member)⟩

/-- A tunnel that is not connected starts over. -/
theorem Gated.restart (h : Gated d) (down : ¬ (d.tun i).status.Up)
    (ends : e = .statusDown i ∨ e = .created i) : Gated (d.log e) where
  authed := fun j connected => by
    have other : i ≠ j := fun same => down (same ▸ connected)
    refine (h.authed j connected).cons ?_
    rcases ends with rfl | rfl <;> exact other
  held := h.held
  idle := h.idle
  earned := fun j => (h.earned j).cons (by rcases ends with rfl | rfl <;> exact fun other => by cases other)

theorem Gated.receive (h : Gated d) {event : Receive.Event} {rx : Receive}
    (stepped : d.rx.step event = some rx)
    (connected : ∀ i pkt, event = .recv i pkt → (d.tun i).status.Up) : Gated (d.withRx rx) := by
  obtain ⟨draws, idle⟩ := Receive.step_draws h.idle stepped
  have known : ∀ r, r ∈ (Receive.ledger d.rx).held ∨ r ∈ event.brings d.rx →
      (d.tun r.tun).status.Up := by
    rintro r (held | brought)
    · exact h.held r held
    · cases event with
      | recv i pkt => exact List.mem_singleton.mp brought ▸ connected i pkt rfl
      | timeout | statusChange | reload | adjust | tuntapWrite => cases brought
  obtain ⟨effects, logged, passing⟩ := (withRx_passes d rx).trace
  exact h.frame (fun _ => id) (fun r held => known r (draws.held r held)) idle logged
    fun e member => (passing e member).fair h (fun _ => id) fun r new => known r (draws.origin r new)

/-- The pool is emptied before the tunnel is out of use. -/
theorem Gated.down (h : Gated d) (done : d.statusDown i = some d') : Gated d' := by
  obtain ⟨drained, kept, d₁, rfl, passes⟩ := statusDown_lowers done
  obtain ⟨effects, logged, passing⟩ := passes.trace
  have lowered (j : Nat) : (d₁.tun j).status.Up ↔ (d.tun j).status.Up ∧ j ≠ i := by
    rw [← up_lowered, tun, passes.tuns, tun]
  have drawn : Receive.Draws d.rx d₁.rx [] ∧ d₁.rx.Idle ∧
      ∀ r ∈ (Receive.ledger d₁.rx).held, (d.tun r.tun).status.Up ∧ r.tun ≠ i := by
    by_cases up : (d.tun i).status.Up
    · obtain ⟨draws, empty⟩ := Receive.statusDrain_draws h.idle (drained up)
      refine ⟨draws, fun _ => empty, fun r held => ?_⟩
      obtain ⟨entry, used, _⟩ := List.mem_map.mp held
      exact absurd used (empty ▸ List.not_mem_nil)
    · have same : d₁.rx = d.rx := kept up
      rw [same]
      exact ⟨.of_same rfl rfl, h.idle, fun r held => ⟨h.held r held, fun at_i =>
        up (at_i ▸ h.held r held)⟩⟩
  obtain ⟨draws, idle, held⟩ := drawn
  have cleared : Gated d₁ := by
    refine h.frame (fun j up => ((lowered j).mp up).1) (fun r member => (lowered _).mpr (held r member))
      idle logged fun e member => (passing e member).fair h (fun j up => ((up_lowered j).mp up).1) ?_
    intro r new
    rcases draws.origin r new with old | none
    · exact h.held r old
    · cases none
  exact cleared.restart (fun connected => ((lowered i).mp connected).2 rfl) (.inl rfl)

/-- The tunnels and what they have received are as they were. -/
theorem Gated.aside (h : Gated d) {effects : List Effect} (tuns : d'.tuns = d.tuns) (rx : d'.rx = d.rx)
    (logged : d'.trace = effects ++ d.trace) (fair : ∀ e ∈ effects, Fair d.trace e) : Gated d' := by
  have tun (j : Nat) : d'.tun j = d.tun j := by rw [Daemon.tun, tuns, Daemon.tun]
  refine h.frame (fun j up => tun j ▸ up) (fun r held => ?_) (rx ▸ h.idle) logged fair
  rw [tun]
  exact h.held r (rx ▸ held)

/-- A new tunnel is not connected. -/
theorem Gated.create (h : Gated d) (conf : TunnelConf) (serverMode : Bool) (flowId : UInt32) (now : ℚ) :
    Gated ({ d with
      tuns := d.tuns ++ [Tunnel.init conf serverMode flowId now]
      rtuns := d.tuns.length :: d.rtuns }.log (.created d.tuns.length)) := by
  let grown : Daemon κ :=
    { d with
      tuns := d.tuns ++ [Tunnel.init conf serverMode flowId now]
      rtuns := d.tuns.length :: d.rtuns }
  have old (j : Nat) : (grown.tun j).status.Up ↔ (d.tun j).status.Up := by
    rw [tun_append (d := d) rfl]
    split
    next new =>
      rw [tun_eq_blank (d := d) (i := j) (by omega)]
      exact Iff.rfl
    next => exact Iff.rfl
  have created : Gated grown := h.frame (fun j => (old j).mp)
    (fun r held => (old _).mpr (h.held r held)) h.idle (List.nil_append _).symm (fun e member => by cases member)
  refine created.restart (i := d.tuns.length) (fun up => ?_) (.inr rfl)
  exact absurd (lt_of_up ((old _).mp up)) (Nat.lt_irrefl _)

theorem Gated.move (h : Gated d) {may : Prop} (move : Move may d d') : Gated d' := by
  have quiet : ∀ e ∈ ([] : List Effect), Fair d.trace e := fun e member => by cases member
  have plain {e : Effect} (fair : Fair d.trace e) : ∀ e' ∈ [e], Fair d.trace e' :=
    fun e' member => List.mem_singleton.mp member ▸ fair
  cases move with
  | tune same =>
      exact h.frame (fun j => (modify_up same.up j).mp)
        (fun r held => (modify_up same.up _).mpr (h.held r held)) h.idle (List.nil_append _).symm quiet
  | settle settles =>
      exact h.aside settles.tuns settles.rx (settles.trace.trans (List.nil_append _).symm) quiet
  | script command => exact h.aside rfl rfl rfl (plain fun _ => ⟨id, fun other => by cases other⟩)
  | reset done =>
      obtain ⟨passes, rx⟩ := wrrReset_passes [] done
      obtain ⟨effects, logged, passing⟩ := passes.trace
      exact h.aside passes.tuns rx logged fun e member =>
        (passing e member).fair h (fun _ => id) fun r member => by cases member
  | receive stepped connected _ => exact h.receive stepped connected
  | down done => exact h.down done
  | accept _ _ _ => exact h.aside rfl rfl rfl (plain fun _ => ⟨id, fun other => by cases other⟩)
  | number numbers =>
      rename_i i t effects
      have same := modify_up (d := d) (i := i) (f := fun _ => t) numbers.quiet.up
      refine h.frame (fun j => (same j).mp) (fun r held => (same _).mpr (h.held r held)) h.idle rfl
        fun e member j => ?_
      rcases numbers.effects with rfl | rfl
      · exact List.mem_singleton.mp member ▸ ⟨id, fun other => by cases other⟩
      · rcases List.mem_pair.mp member with rfl | rfl <;> exact ⟨id, fun other => by cases other⟩
  | sent _ => exact h.aside rfl rfl rfl (plain fun _ => ⟨id, fun other => by cases other⟩)
  | create conf serverMode flowId now _ => exact h.create conf serverMode flowId now

theorem Gated.authenticate (h : Gated d) {type : PktType} (auth : Authenticates d d' i type) :
    Gated d' := by
  obtain ⟨handshake, _, t, _, up, rfl⟩ := auth
  refine ⟨fun j connected => ?_, fun r held => ?_, h.idle, fun j => (h.earned j).cons fun other => by cases other⟩
  · by_cases same : j = i
    · exact .now ⟨same.symm, handshake, rfl⟩
    · have before : ((d.modify i fun _ => t).tun j) = d.tun j := by
        rw [tun_modify, if_neg fun both => same both.1]
      exact (h.authed j (before ▸ connected)).cons id
  · have after : ((d.modify i fun _ => t).tun r.tun).status.Up := by
      rw [tun_modify]
      split
      next => exact up
      next => exact h.held r held
    exact after

theorem gated_init (host : Host κ) : Gated (.init host) where
  authed := fun j connected => absurd (lt_of_up connected) (Nat.not_lt_zero j)
  held := fun r held => by cases held
  idle := fun _ => rfl
  earned := fun _ => .nil

/-- Whenever a packet of a tunnel is injected, or the tunnel is put into the table
    of the round robin, a datagram of a handshake was decrypted and accepted since
    the tunnel was created and was last disconnected. -/
theorem traffic_after_authentication {host : Host κ} {events : List (ℚ × Event κ)}
    (reached : run step (.init host) events = some d) {newer older : List Effect}
    (recorded : d.trace = newer ++ e :: older) (uses : Uses i e) :
    ∃ since type before, older = since ++ .accepted i type true :: before ∧
      (type = .auth ∨ type = .authOk) ∧ .statusDown i ∉ since ∧ .created i ∉ since := by
  have gated : Gated d := run_keeps (fun _ _ _ move h => Gated.move h move)
    (fun _ _ _ _ auth h => Gated.authenticate h auth) (gated_init host) reached
  obtain ⟨since, accepted, before, split, authenticated, kept⟩ :=
    gated.earned i newer e older recorded uses
  cases accepted with
  | accepted j type decrypted =>
      obtain ⟨rfl, handshake, rfl⟩ := authenticated
      exact ⟨since, type, before, split, handshake, fun ended => kept _ ended rfl,
        fun created => kept _ created rfl⟩
  | _ => exact absurd authenticated id

/-- A server with one tunnel is sent a challenge, and a packet. -/
def challengeAndPacket (host : Host Unit) : List (ℚ × Event Unit) :=
  let conf : TunnelConf :=
    { name := "a", bindaddr := none, bindport := some "5080", bindfib := 0, destaddr := none
      destport := none, timeout := 60, fallbackOnly := 0, bandwidth := 0, lossTolerence := 50
      latencyTolerence := 1000 }
  let general : General Unit :=
    { serverMode := true, key := (), cleartextData := true, reorderBufferSize := 0 }
  let datagram (type : PktType) (data : List UInt8) : ReadResult :=
    let pkt : Pkt := { len := data.length, type := type, reorder := true, seq := 0, data := data }
    let sent := sendDatagram host true (sendHeader .blank 0 0 pkt).1 pkt
    .datagram (sent.getD []) [10] true
  [(0, .reload (some ⟨[.general general, .tunnel conf 1], []⟩) fun _ => .blocked),
    (1, .timeout 0 (.opened [127] 3)), (2, .read 0 (datagram .auth [65, 85])),
    (3, .read 0 (datagram .data [69]))]

theorem packet_after_challenge :
    let host : Host Unit := ⟨.little, plainBox, ()⟩
    ∃ d ∈ run step (.init host) (challengeAndPacket host), ∃ newer r older,
      d.trace = newer ++ .injected r :: older ∧ r.tun = 0 ∧ ∃ since type before,
        older = since ++ .accepted 0 type true :: before ∧ (type = .auth ∨ type = .authOk) ∧
          .statusDown 0 ∉ since ∧ .created 0 ∉ since := by
  intro host
  obtain ⟨d, reached, r, _, uses, member⟩ :
      ∃ d ∈ run step (.init host) (challengeAndPacket host),
        ∃ r ∈ d.rx.injected, r.tun = 0 ∧ .injected r ∈ d.trace := by
    decide +kernel
  obtain ⟨newer, older, recorded⟩ := List.append_of_mem member
  exact ⟨d, reached, newer, r, older, recorded, uses,
    traffic_after_authentication reached recorded uses⟩

end Mlvpn.Daemon
