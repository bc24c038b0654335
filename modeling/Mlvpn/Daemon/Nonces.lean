import Mlvpn.Daemon.Moves

/-! # Nonces

A nonce is made of the sequence number of a tunnel and its flow.  The number
goes up with every call of `mlvpn_rtun_send` and at no other time, so no nonce
comes back before it overflows.
-/

namespace Mlvpn.Daemon

open Library.Machine Tunnel

variable {κ : Type} {d d' : Daemon κ}

/-- The nonces that `crypto_encrypt` was called with. -/
def nonces (trace : List Effect) : List (List UInt8) :=
  trace.filterMap fun
    | .encrypted nonce => some nonce
    | _ => none

/-- How often `mlvpn_rtun_send` was called for a tunnel. -/
def sends (trace : List Effect) (i : Nat) : Nat := trace.count (.sending i)

/-- The nonce of the `k`th packet of a tunnel. -/
def nonceOf (d : Daemon κ) (packet : Nat × Nat) : List UInt8 :=
  nonce d.host.endian (UInt64.ofNat packet.2) (d.tun packet.1).flowId

/-- The sequence numbers count the packets, and each nonce was made for another one. -/
structure Numbered (d : Daemon κ) : Prop where
  seq : ∀ i, (d.tun i).seq = UInt64.ofNat (sends d.trace i)
  outside : ∀ i, ¬ i < d.tuns.length → sends d.trace i = 0
  used : ∃ packets : List (Nat × Nat), nonces d.trace = packets.map d.nonceOf ∧ packets.Nodup ∧
    ∀ packet ∈ packets, packet.2 < sends d.trace packet.1

theorem Numbered.inside (h : Numbered d) {i k : Nat} (earlier : k < sends d.trace i) :
    i < d.tuns.length := by
  by_contra out
  rw [h.outside i out] at earlier
  omega

/-- An effect that is neither a packet nor a nonce. -/
def Unnumbered (e : Effect) : Prop := nonces [e] = [] ∧ ∀ i, sends [e] i = 0

theorem nonces_append (effects trace : List Effect) :
    nonces (effects ++ trace) = nonces effects ++ nonces trace :=
  List.filterMap_append ..

theorem sends_append (effects trace : List Effect) (i : Nat) :
    sends (effects ++ trace) i = sends effects i + sends trace i :=
  List.count_append ..

theorem unnumbered_append {effects : List Effect} (trace : List Effect)
    (none : ∀ e ∈ effects, Unnumbered e) :
    nonces (effects ++ trace) = nonces trace ∧ ∀ i, sends (effects ++ trace) i = sends trace i := by
  induction effects with
  | nil => exact ⟨rfl, fun _ => rfl⟩
  | cons e rest ih =>
      obtain ⟨noNonce, noSend⟩ := none e List.mem_cons_self
      obtain ⟨sameNonces, sameSends⟩ := ih fun e' member => none e' (List.mem_cons_of_mem _ member)
      refine ⟨?_, fun i => ?_⟩
      · rw [List.cons_append, ← List.singleton_append, nonces_append, noNonce, sameNonces,
          List.nil_append]
      · rw [List.cons_append, ← List.singleton_append, sends_append, noSend, sameSends, Nat.zero_add]

/-- Nothing was numbered: what exists keeps its number, and what is new has none. -/
theorem Numbered.frame (h : Numbered d) (endian : d'.host.endian = d.host.endian)
    (kept : ∀ i, (d'.tun i).seq = (d.tun i).seq ∧
      (i < d.tuns.length → (d'.tun i).flowId = (d.tun i).flowId))
    (longer : d.tuns.length ≤ d'.tuns.length) {effects : List Effect}
    (logged : d'.trace = effects ++ d.trace) (none : ∀ e ∈ effects, Unnumbered e) : Numbered d' := by
  obtain ⟨sameNonces, sameSends⟩ := unnumbered_append d.trace none
  rw [← logged] at sameNonces sameSends
  obtain ⟨packets, made, distinct, earlier⟩ := h.used
  refine ⟨fun i => ?_, fun i out => ?_, packets, ?_, distinct, fun packet member => ?_⟩
  · rw [(kept i).1, h.seq, sameSends]
  · rw [sameSends]
    exact h.outside i (by omega)
  · rw [sameNonces, made]
    refine List.map_congr_left fun packet member => ?_
    rw [nonceOf, nonceOf, endian, (kept packet.1).2 (h.inside (earlier packet member))]
  · rw [sameSends]
    exact earlier packet member

theorem Plain.unnumbered {e : Effect} (plain : Plain e) : Unnumbered e := by
  cases e <;> first | exact ⟨rfl, fun _ => rfl⟩ | exact plain.elim

theorem Numbered.shift (h : Numbered d) {effects : List Effect} (shifts : Shifts d d' effects) :
    Numbered d' :=
  h.frame shifts.endian (fun j => ⟨(shifts.alike j).seq, fun _ => (shifts.alike j).flowId⟩)
    shifts.length.ge shifts.trace fun e member => (shifts.plain e member).unnumbered

namespace Numbers

variable {i : Nat} {t : Tunnel} {effects : List Effect}

theorem sends_eq (h : Numbers d i t effects) (j : Nat) :
    sends (effects ++ d.trace) j = sends d.trace j + if j = i then 1 else 0 := by
  rw [sends_append, Nat.add_comm]
  by_cases same : j = i
  · rcases h.effects with rfl | rfl <;> simp [sends, same]
  · rcases h.effects with rfl | rfl <;> simp [sends, same, Ne.symm same]

theorem sends_le (h : Numbers d i t effects) (j : Nat) :
    sends d.trace j ≤ sends (effects ++ d.trace) j := by
  rw [h.sends_eq]
  exact Nat.le_add_right ..

theorem seq_eq (h : Numbers d i t effects) (j : Nat) :
    ((d.modify i fun _ => t).tun j).seq = (d.tun j).seq + if j = i then 1 else 0 := by
  rw [tun_modify]
  by_cases same : j = i
  · rw [if_pos ⟨same, h.inside⟩, if_pos same, h.quiet.seq, same]
  · rw [if_neg fun both => same both.1, if_neg same, UInt64.add_zero]

theorem flowId_eq (h : Numbers d i t effects) (j : Nat) :
    ((d.modify i fun _ => t).tun j).flowId = (d.tun j).flowId := by
  rw [tun_modify]
  split
  next same => rw [h.quiet.flowId, same.1]
  next => rfl

end Numbers

/-- The packet that is numbered is the next of its tunnel. -/
theorem Numbered.number (h : Numbered d) {i : Nat} {t : Tunnel} {effects : List Effect}
    (numbers : Numbers d i t effects) :
    Numbered { d.modify i (fun _ => t) with trace := effects ++ d.trace } := by
  obtain ⟨packets, made, distinct, earlier⟩ := h.used
  have flows (packet : Nat × Nat) : nonceOf { d.modify i (fun _ => t) with
      trace := effects ++ d.trace } packet = d.nonceOf packet :=
    congrArg (nonce d.host.endian _) (numbers.flowId_eq packet.1)
  refine ⟨fun j => ?_, fun j out => ?_, ?_⟩
  · refine (numbers.seq_eq j).trans ?_
    rw [numbers.sends_eq, h.seq, UInt64.ofNat_add]
    split <;> rfl
  · rw [length_modify] at out
    have other : j ≠ i := fun same => out (same ▸ numbers.inside)
    rw [numbers.sends_eq, if_neg other, h.outside j out]
  · rcases numbers.effects with rfl | rfl
    · refine ⟨packets, ?_, distinct, fun packet member =>
        (earlier packet member).trans_le (numbers.sends_le _)⟩
      rw [List.map_congr_left fun packet _ => flows packet, ← made]
      rfl
    · refine ⟨(i, sends d.trace i) :: packets, ?_, List.nodup_cons.mpr ⟨fun member => ?_, distinct⟩,
        fun packet member => ?_⟩
      · rw [List.map_congr_left fun packet _ => flows packet, List.map_cons, ← made, nonceOf, ← h.seq]
        rfl
      · exact absurd (earlier _ member) (Nat.lt_irrefl _)
      · rcases List.mem_cons.mp member with rfl | old
        · rw [numbers.sends_eq, if_pos rfl]
          exact Nat.lt_succ_self _
        · exact (earlier packet old).trans_le (numbers.sends_le _)

theorem Numbered.move (h : Numbered d) {may : Prop} (move : Move may d d') : Numbered d' := by
  have single {e : Effect} (none : Unnumbered e) : ∀ e' ∈ [e], Unnumbered e' :=
    fun e' member => List.mem_singleton.mp member ▸ none
  rcases move.shifts with ⟨effects, shifts⟩ | notable
  · exact h.shift shifts
  · cases notable with
    | number numbers => exact h.number numbers
    | sent _ =>
        exact h.frame rfl (fun _ => ⟨rfl, fun _ => rfl⟩) (le_refl _) rfl (single ⟨rfl, fun _ => rfl⟩)
    | create _ zero _ host grown logged =>
        refine h.frame (by rw [host]) (fun j => ?_) ?_ logged (single ⟨rfl, fun _ => rfl⟩)
        · rw [tun_append grown j]
          split
          next new =>
            rw [tun_eq_blank (d := d) (i := j) (by omega)]
            exact ⟨zero, fun inside => absurd inside (by omega)⟩
          next => exact ⟨rfl, fun _ => rfl⟩
        · rw [grown, List.length_append]
          exact Nat.le_add_right ..

/-- No two calls of `crypto_encrypt` are made with one nonce, whatever happens to
    the daemon: the flows of its tunnels are distinct, and no number overflows. -/
theorem encrypted_nonces_nodup {host : Host κ} {events : List (ℚ × Event κ)}
    (reached : run step (.init host) events = some d)
    (distinct : ∀ i < d.tuns.length, ∀ j < d.tuns.length,
      (d.tun i).flowId = (d.tun j).flowId → i = j)
    (few : ∀ i < d.tuns.length, sends d.trace i < 2 ^ 64) : (nonces d.trace).Nodup := by
  have numbered : Numbered d := run_keeps (fun _ _ _ move h => Numbered.move h move)
    (fun _ _ _ _ auth h => Numbered.shift h auth.shifts.choose_spec)
    ⟨fun _ => rfl, fun _ _ => rfl, [], rfl, List.nodup_nil, fun _ member => by cases member⟩ reached
  obtain ⟨packets, made, nodup, earlier⟩ := numbered.used
  rw [made]
  refine nodup.map_on fun a memberA b memberB same => ?_
  have boundA := earlier a memberA
  have boundB := earlier b memberB
  have insideA := numbered.inside boundA
  have insideB := numbered.inside boundB
  obtain ⟨seqs, flows⟩ := nonce_injective same
  have number := congrArg UInt64.toNat seqs
  rw [UInt64.toNat_ofNat_of_lt' (boundA.trans (few _ insideA)),
    UInt64.toNat_ofNat_of_lt' (boundB.trans (few _ insideB))] at number
  exact Prod.ext (distinct _ insideA _ insideB flows) number

/-- Two tunnels of a client send their challenges, and one of them a second. -/
def threeChallenges : List (ℚ × Event Unit) :=
  let conf : TunnelConf :=
    { name := "a", bindaddr := none, bindport := none, bindfib := 0, destaddr := some "h"
      destport := some "5080", timeout := 60, fallbackOnly := 0, bandwidth := 0
      lossTolerence := 50, latencyTolerence := 1000 }
  let general : General Unit :=
    { serverMode := false, key := (), cleartextData := false, reorderBufferSize := 0 }
  [(0, .reload (some ⟨[.general general, .tunnel conf 1, .tunnel { conf with name := "b" } 2], []⟩)
      fun _ => .blocked),
    (1, .timeout 0 (.opened [127] 3)), (1, .timeout 1 (.opened [127] 4)),
    (1, .write 0 (.sent 46) .blocked), (1, .write 1 (.sent 46) .blocked),
    (2, .timeout 0 .unresolved), (2, .write 0 (.sent 46) .blocked)]

theorem challenges_nonces_nodup :
    ∃ d ∈ run step (.init ⟨.little, plainBox, ()⟩) threeChallenges,
      (nonces d.trace).length = 3 ∧ (nonces d.trace).Nodup := by
  obtain ⟨d, reached, distinct, few, three⟩ :
      ∃ d ∈ run step (.init ⟨.little, plainBox, ()⟩) threeChallenges,
        (∀ i < d.tuns.length, ∀ j < d.tuns.length, (d.tun i).flowId = (d.tun j).flowId → i = j) ∧
          (∀ i < d.tuns.length, sends d.trace i < 2 ^ 64) ∧ (nonces d.trace).length = 3 := by
    decide +kernel
  exact ⟨d, reached, three, encrypted_nonces_nodup reached distinct few⟩

end Mlvpn.Daemon
