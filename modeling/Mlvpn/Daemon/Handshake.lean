import Mlvpn.Daemon.Moves

/-! # The handshake over a network that forges nothing

A client and a server with one key, and a network that keeps what either of them
has sent: it hands any of it to either, at any time and as often as it likes.
-/

namespace Mlvpn

open Library.Machine Tunnel

variable {κ : Type}

namespace Daemon

variable {d d' d'' : Daemon κ} {i : Nat}

/-- With its configuration fixed, a daemon keeps the roles of its tunnels, and
    sends what was queued. -/
structure Keeps (d d' : Daemon κ) : Prop where
  endian : d'.host.endian = d.host.endian
  serverMode : ∀ i, (d'.tun i).serverMode = (d.tun i).serverMode
  stocked : ∀ i, (d.tun i).Stocked → (d'.tun i).Stocked
  grows : ∀ e ∈ d.trace, e ∈ d'.trace
  sent : ∀ i type datagram, .sent i type datagram ∈ d'.trace →
    .sent i type datagram ∈ d.trace ∨ Shows d i type datagram

theorem Keeps.refl (d : Daemon κ) : Keeps d d :=
  ⟨rfl, fun _ => rfl, fun _ => id, fun _ => id, fun _ _ _ => .inl⟩

theorem Keeps.trans (first : Keeps d d') (second : Keeps d' d'') : Keeps d d'' where
  endian := second.endian.trans first.endian
  serverMode := fun i => (second.serverMode i).trans (first.serverMode i)
  stocked := fun i => second.stocked i ∘ first.stocked i
  grows := fun e => second.grows e ∘ first.grows e
  sent := fun i type datagram member => by
    rcases second.sent i type datagram member with earlier | ⟨queued, typed⟩
    · exact first.sent i type datagram earlier
    · refine .inr ⟨fun stocked => ?_, fun known => ?_⟩
      · rw [← first.serverMode]
        exact queued (first.stocked i stocked)
      · rw [← first.endian]
        exact typed known

theorem Shifts.keeps {effects : List Effect} (shifts : Shifts d d' effects) : Keeps d d' where
  endian := shifts.endian
  serverMode := fun i => (shifts.alike i).serverMode
  stocked := fun i => (shifts.alike i).stocked
  grows := fun e member => by
    rw [shifts.trace]
    exact List.mem_append_right _ member
  sent := fun i type datagram member => by
    rw [shifts.trace] at member
    rcases List.mem_append.mp member with new | old
    · exact (shifts.plain _ new).elim
    · exact .inl old

theorem Numbers.keeps {t : Tunnel} {effects : List Effect} (numbers : Numbers d i t effects) :
    Keeps d { d.modify i (fun _ => t) with trace := effects ++ d.trace } := by
  obtain ⟨_, quiet, shape⟩ := numbers
  have tun (j : Nat) : ((d.modify i fun _ => t).tun j).serverMode = (d.tun j).serverMode ∧
      ((d.tun j).Stocked → ((d.modify i fun _ => t).tun j).Stocked) := by
    rw [tun_modify]
    split
    next same => exact same.1 ▸ ⟨quiet.serverMode, quiet.stocked⟩
    next => exact ⟨rfl, id⟩
  refine ⟨rfl, fun j => (tun j).1, fun j => (tun j).2, fun e => List.mem_append_right _,
    fun j type datagram member => ?_⟩
  rcases List.mem_append.mp member with new | old
  · rcases shape with rfl | rfl <;> simp at new
  · exact .inl old

theorem Move.keeps {may : Prop} (fixed : ¬ may) (move : Move may d d') : Keeps d d' := by
  rcases move.shifts with ⟨effects, shifts⟩ | notable
  · exact shifts.keeps
  · cases notable with
    | number numbers => exact numbers.keeps
    | sent shows =>
        refine ⟨rfl, fun _ => rfl, fun _ => id, fun _ => List.mem_cons_of_mem _,
          fun j type datagram member => ?_⟩
        rcases List.mem_cons.mp member with new | old
        · cases new
          exact .inr shows
        · exact .inl old
    | create allowed => exact absurd allowed fixed

theorem Moves.keeps {may : Prop} (fixed : ¬ may) (moves : Moves may d d') : Keeps d d' := by
  induction moves with
  | refl => exact .refl d
  | tail _ last ih => exact ih.trans (last.keeps fixed)

/-- The type that a datagram shows. -/
def shownType (d : Daemon κ) (datagram : List UInt8) : PktType :=
  .ofCode (Proto.decode d.host.endian datagram).flags

/-- A tunnel is connected by nothing but a datagram that shows a type of the
    handshake: any, for a server, and for a client one that it waits for. -/
theorem step_keeps {now : ℚ} {e : Event κ} (inside : d.Inside) (fixed : ¬ e.Reloads)
    (done : d.step (now, e) = some d') :
    Keeps d d' ∧ d'.Inside ∧ ((∀ j, (d'.tun j).status.Up → (d.tun j).status.Up) ∨
      ∃ i bytes sender named, e = .read i (.datagram bytes sender named) ∧
        (d.shownType bytes = .auth ∨ d.shownType bytes = .authOk) ∧
        ((d.tun i).serverMode = true ∨ (d.tun i).status = .authsent)) := by
  rcases step_moves inside done with moves | ⟨i, bytes, sender, named, d₁, rfl, auth, moves⟩
  · exact ⟨moves.keeps fixed, (moves.inside inside).1, .inl moves.up⟩
  · obtain ⟨effects, shifts⟩ := auth.shifts
    refine ⟨shifts.keeps.trans (moves.keeps fixed), ?_, .inr ⟨i, bytes, sender, named, rfl, ?_, auth.ready⟩⟩
    · obtain ⟨_, _, t, _, _, rfl⟩ := auth
      exact (moves.inside (inside.modify i fun _ => t)).1
    · have handshake := auth.handshake
      rwa [Proto.decode_take_flags (by decide)] at handshake

/-- What a daemon sent shows its type, and `AUTH_OK` is sent by servers only. -/
structure Labelled (d : Daemon κ) : Prop where
  inside : d.Inside
  stocked : ∀ i, (d.tun i).Stocked
  sent : ∀ i type datagram, .sent i type datagram ∈ d.trace →
    d.shownType datagram = type ∧ (type = .authOk → (d.tun i).serverMode = true)

theorem Labelled.keep (h : Labelled d) (keeps : Keeps d d') (inside : d'.Inside) : Labelled d' where
  inside := inside
  stocked := fun i => keeps.stocked i (h.stocked i)
  sent := fun i type datagram member => by
    rw [shownType, keeps.endian, keeps.serverMode]
    rcases keeps.sent i type datagram member with old | ⟨queued, typed⟩
    · exact h.sent i type datagram old
    · obtain ⟨known, role⟩ := queued (h.stocked i)
      exact ⟨typed known, role⟩

end Daemon

/-- The two ends of a tunnel. -/
structure Net (κ : Type) where
  client : Daemon κ
  server : Daemon κ

inductive Party where
  | client
  | server
  deriving Repr, DecidableEq

namespace Net

open Daemon

def daemon (n : Net κ) : Party → Daemon κ
  | .client => n.client
  | .server => n.server

def withDaemon (n : Net κ) (d : Daemon κ) : Party → Net κ
  | .client => { n with client := d }
  | .server => { n with server := d }

/-- Every datagram that either has sent. -/
def wire (n : Net κ) : List (List UInt8) :=
  (n.client.trace ++ n.server.trace).filterMap fun
    | .sent _ _ datagram => some datagram
    | _ => none

/-- A datagram that arrives was sent, and the configurations stay as they are. -/
def Permits (n : Net κ) : Event κ → Prop
  | .read _ (.datagram bytes _ _) => bytes ∈ n.wire
  | .reload _ _ => False
  | _ => True

instance (n : Net κ) : ∀ e, Decidable (n.Permits e)
  | .read _ (.datagram bytes _ _) => inferInstanceAs (Decidable (bytes ∈ n.wire))
  | .reload _ _ => isFalse id
  | .read _ .blocked | .read _ .failed | .read _ .closed => isTrue trivial
  | .write _ _ _ | .timeout _ _ | .tuntapRead _ | .tuntapWrite => isTrue trivial
  | .drainTimeout | .adjustTimeout | .quit _ => isTrue trivial

/-- One event of one party. -/
def step (n : Net κ) : Party × ℚ × Event κ → Option (Net κ)
  | (party, now, e) =>
      if n.Permits e then ((n.daemon party).step (now, e)).map (n.withDaemon · party) else none

/-- One client tunnel and one server tunnel under one key, and nothing sent yet. -/
structure Starts (n : Net κ) : Prop where
  hosts : n.client.host = n.server.host
  client : ∃ conf flowId now, n.client.tuns = [Tunnel.init conf false flowId now]
  server : ∃ conf flowId now, n.server.tuns = [Tunnel.init conf true flowId now]
  listed : n.client.rtuns = [0] ∧ n.server.rtuns = [0]
  silent : n.wire = []

/-- If the client is connected, the server has sent an `AUTH_OK`. -/
def Answered (n : Net κ) : Prop :=
  (n.client.tun 0).status.Up → ∃ i datagram, .sent i .authOk datagram ∈ n.server.trace

/-- No challenge is handed to a client that waits for the answer to its own. -/
def Unreflected (n : Net κ) : Party × ℚ × Event κ → Prop
  | (.client, _, .read i (.datagram bytes _ _)) =>
      (n.client.tun i).status = .authsent → n.client.shownType bytes ≠ .auth
  | _ => True

variable {n n' : Net κ}

theorem mem_wire {bytes : List UInt8} :
    bytes ∈ n.wire ↔ ∃ party i type, .sent i type bytes ∈ (n.daemon party).trace := by
  simp only [wire, List.mem_filterMap, List.mem_append]
  constructor
  · rintro ⟨e, member, found⟩
    cases e with
    | sent i type datagram =>
        cases found
        exact member.elim (fun old => ⟨.client, i, type, old⟩) fun old => ⟨.server, i, type, old⟩
    | _ => cases found
  · rintro ⟨party, i, type, member⟩
    cases party with
    | client => exact ⟨_, .inl member, rfl⟩
    | server => exact ⟨_, .inr member, rfl⟩

/-- Both are in order, the client is one, and it is not connected without an answer. -/
structure Sound (n : Net κ) : Prop where
  labelled : ∀ party, (n.daemon party).Labelled
  endian : n.client.host.endian = n.server.host.endian
  role : ∀ i, ¬ (n.client.tun i).serverMode = true
  answered : ∀ i, (n.client.tun i).status.Up →
    ∃ j datagram, .sent j .authOk datagram ∈ n.server.trace

/-- A client that waits is answered by a server, unless it is handed a challenge. -/
theorem Sound.reply (h : Sound n) {bytes : List UInt8} (sent : bytes ∈ n.wire)
    (handshake : n.client.shownType bytes = .auth ∨ n.client.shownType bytes = .authOk)
    (unreflected : n.client.shownType bytes ≠ .auth) :
    ∃ j datagram, .sent j .authOk datagram ∈ n.server.trace := by
  have isOk := handshake.resolve_left unreflected
  obtain ⟨party, j, type, member⟩ := mem_wire.mp sent
  obtain ⟨shown, role⟩ := (h.labelled party).sent j type bytes member
  cases party with
  | client => exact absurd (role (shown.symm.trans isOk)) (h.role j)
  | server =>
      have same : n.server.shownType bytes = n.client.shownType bytes := by
        rw [shownType, shownType, h.endian]
      have ok : type = .authOk := shown.symm.trans (same.trans isOk)
      exact ⟨j, bytes, ok ▸ member⟩

theorem Sound.step (h : Sound n) {event : Party × ℚ × Event κ} (unreflected : n.Unreflected event)
    (done : n.step event = some n') : Sound n' := by
  obtain ⟨party, now, e⟩ := event
  rw [Net.step] at done
  split at done
  next permitted =>
    obtain ⟨d, stepped, rfl⟩ := Option.map_eq_some_iff.mp done
    have fixed : ¬ e.Reloads := by
      cases e with
      | reload => exact permitted.elim
      | _ => exact id
    obtain ⟨keeps, inside, connects⟩ := step_keeps (h.labelled party).inside fixed stepped
    have labelled := (h.labelled party).keep keeps inside
    cases party with
    | client =>
        refine ⟨fun | .client => labelled | .server => h.labelled .server,
          keeps.endian.trans h.endian, fun i server => h.role i (keeps.serverMode i ▸ server),
          fun i up => ?_⟩
        rcases connects with kept | ⟨j, bytes, sender, named, rfl, handshake, ready⟩
        · exact h.answered i (kept i up)
        · have waits : (n.client.tun j).status = .authsent := ready.resolve_left (h.role j)
          exact h.reply permitted handshake (unreflected waits)
    | server =>
        refine ⟨fun | .client => h.labelled .client | .server => labelled,
          h.endian.trans keeps.endian.symm, h.role, fun i up => ?_⟩
        obtain ⟨j, datagram, member⟩ := h.answered i up
        exact ⟨j, datagram, keeps.grows _ member⟩
  next => cases done

/-- A daemon with one new tunnel that has sent nothing. -/
theorem labelled_start {d : Daemon κ} {conf : TunnelConf} {serverMode : Bool} {flowId : UInt32}
    {now : ℚ} (tuns : d.tuns = [Tunnel.init conf serverMode flowId now]) (listed : d.rtuns = [0])
    (silent : ∀ i type datagram, .sent i type datagram ∉ d.trace) : d.Labelled where
  inside := by
    rw [Inside, tuns, listed]
    exact fun i member => List.mem_singleton.mp member ▸ Nat.zero_lt_one
  stocked := fun i => by
    rw [tun, tuns]
    cases i <;> exact ⟨.init _ _, .init _ _⟩
  sent := fun i type datagram member => absurd member (silent i type datagram)

theorem Starts.sound (starts : n.Starts) : Sound n := by
  obtain ⟨hosts, ⟨conf, flowId, now, client⟩, ⟨conf', flowId', now', server⟩, listed, silent⟩ := starts
  have unsent (party : Party) (i : Nat) (type : PktType) (datagram : List UInt8) :
      .sent i type datagram ∉ (n.daemon party).trace := by
    intro member
    have found : datagram ∈ n.wire := mem_wire.mpr ⟨party, i, type, member⟩
    rw [silent] at found
    cases found
  have down : ∀ i, (n.client.tun i).status = .disconnected ∧ ¬ (n.client.tun i).serverMode = true := by
    intro i
    rw [tun, client]
    cases i <;> exact ⟨rfl, Bool.false_ne_true⟩
  refine ⟨fun party => ?_, by rw [hosts], fun i => (down i).2, fun i up => ?_⟩
  · cases party with
    | client => exact labelled_start client listed.1 (unsent .client)
    | server => exact labelled_start server listed.2 (unsent .server)
  · rw [(down i).1] at up
    exact absurd up (by decide)

/-- Whatever the network does but to hand a challenge to a client that waits: a
    client that is connected has been answered. -/
theorem client_connects_answered {start : Net κ} (starts : start.Starts)
    {events : List (Party × ℚ × Event κ)} (unreflected : Meets step Unreflected start events)
    (reached : run step start events = some n) : n.Answered :=
  (run_invariant (fun _ _ _ h allowed done => Sound.step h allowed done) events starts.sound
    unreflected reached).answered 0

instance (n : Net κ) : ∀ e, Decidable (n.Unreflected e)
  | (.client, _, .read i (.datagram bytes _ _)) =>
      inferInstanceAs (Decidable ((n.client.tun i).status = .authsent → n.client.shownType bytes ≠ .auth))
  | (.client, _, .read _ .blocked) | (.client, _, .read _ .failed) => isTrue trivial
  | (.client, _, .read _ .closed) | (.client, _, .write _ _ _) => isTrue trivial
  | (.client, _, .timeout _ _) | (.client, _, .tuntapRead _) => isTrue trivial
  | (.client, _, .tuntapWrite) | (.client, _, .drainTimeout) => isTrue trivial
  | (.client, _, .adjustTimeout) | (.client, _, .reload _ _) => isTrue trivial
  | (.client, _, .quit _) | (.server, _, _) => isTrue trivial

/-- A client and a server that know each other's address. -/
def pair : Net Unit :=
  let host : Host Unit := ⟨.little, plainBox, ()⟩
  let conf : TunnelConf :=
    { name := "a", bindaddr := none, bindport := some "5080", bindfib := 0, destaddr := some "h"
      destport := some "5080", timeout := 60, fallbackOnly := 0, bandwidth := 0
      lossTolerence := 50, latencyTolerence := 1000 }
  ⟨(Daemon.init host).rtunNew conf false 1 0, (Daemon.init host).rtunNew conf true 2 0⟩

theorem pair_starts : pair.Starts :=
  ⟨rfl, ⟨_, _, _, rfl⟩, ⟨_, _, _, rfl⟩, ⟨rfl, rfl⟩, rfl⟩

/-- The `k`th datagram on the wire after a run of the pair, handed to a party. -/
def handed (party : Party) (k : Nat) (events : List (Party × ℚ × Event Unit)) :
    List (Party × ℚ × Event Unit) :=
  let wire := ((run step pair events).map wire).getD []
  events ++ [(party, 2, .read 0 (.datagram (wire.getD k []) [10] true))]

/-- Both open their sockets, and the client sends its challenge. -/
def challenge : List (Party × ℚ × Event Unit) :=
  [(.client, 1, .timeout 0 (.opened [127] 3)), (.server, 1, .timeout 0 (.opened [127] 3)),
    (.client, 1, .write 0 (.sent 46) .blocked)]

/-- The client is handed its own challenge, and takes it for the answer: the
    server has sent nothing at all. -/
theorem client_connects_to_itself :
    pair.Starts ∧ ∃ n ∈ run step pair (handed .client 0 challenge), ¬ n.Answered := by
  obtain ⟨n, reached, connected, silent⟩ : ∃ n ∈ run step pair (handed .client 0 challenge),
      (n.client.tun 0).status.Up ∧ n.server.trace = [.created 0] := by
    decide +kernel
  refine ⟨pair_starts, n, reached, fun answered => ?_⟩
  obtain ⟨i, datagram, member⟩ := answered connected
  rw [silent] at member
  cases List.mem_singleton.mp member

/-- The challenge goes to the server, and its answer to the client. -/
def answer : List (Party × ℚ × Event Unit) :=
  handed .client 1 (handed .server 0 challenge ++ [(.server, 2, .write 0 (.sent 46) .blocked)])

theorem client_connects_to_server :
    ∃ n ∈ run step pair answer, (n.client.tun 0).status.Up ∧
      ∃ i datagram, .sent i .authOk datagram ∈ n.server.trace := by
  obtain ⟨n, reached, connected⟩ : ∃ n ∈ run step pair answer, (n.client.tun 0).status.Up := by
    decide +kernel
  have unreflected : Meets step Unreflected pair answer := by decide +kernel
  exact ⟨n, reached, connected, client_connects_answered pair_starts unreflected reached connected⟩

end Net

end Mlvpn
