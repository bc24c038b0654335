import Mlvpn.Receive.Ledger

/-! # Where an injected packet comes from

Whatever the configuration, the receive path injects and holds nothing but what
it held before and the packet that has just arrived.
-/

namespace Mlvpn.Receive

open Reorder

variable {s s' s'' : Receive} {fresh : List Reception}

/-- What is injected or held was held before, or is fresh. -/
structure Draws (s s' : Receive) (fresh : List Reception) : Prop where
  injected : ∃ out, s'.injected = s.injected ++ out ∧ ∀ r ∈ out, r ∈ (ledger s).held ∨ r ∈ fresh
  held : ∀ r ∈ (ledger s').held, r ∈ (ledger s).held ∨ r ∈ fresh

/-- Without a reorder buffer the pool is not used. -/
def Idle (s : Receive) : Prop := s.reorderBuffer = none → s.freebuf.usedHead = []

theorem Idle.of_buffer (buffer : s.reorderBuffer ≠ none) : Idle s := fun none => absurd none buffer

theorem Draws.of_same (injected : s'.injected = s.injected) (held : (ledger s').held = (ledger s).held) :
    Draws s s' fresh :=
  ⟨⟨[], by rw [injected, List.append_nil], fun r member => by cases member⟩,
    fun r member => .inl (held ▸ member)⟩

theorem Draws.trans (first : Draws s s' fresh) (second : Draws s' s'' fresh) : Draws s s'' fresh := by
  obtain ⟨out, injected, origin⟩ := first.injected
  obtain ⟨out', injected', origin'⟩ := second.injected
  have back : ∀ r, r ∈ (ledger s').held ∨ r ∈ fresh → r ∈ (ledger s).held ∨ r ∈ fresh :=
    fun r found => found.elim (first.held r) .inr
  refine ⟨⟨out ++ out', by rw [injected', injected, List.append_assoc], fun r member => ?_⟩,
    fun r member => back r (second.held r member)⟩
  rcases List.mem_append.mp member with early | late
  · exact origin r early
  · exact back r (origin' r late)

/-- A packet leaves the pool, if it was there. -/
theorem Draws.inject {r : Reception} {freebuf : Freebuffer Reception}
    (known : r ∈ (ledger s).held ∨ r ∈ fresh)
    (shrunk : ∀ p ∈ freebuf.usedHead.map freebuf.mem, p ∈ (ledger s).held) :
    Draws s { injectTuntap s r with freebuf := freebuf } fresh :=
  ⟨⟨[r], rfl, fun _ member => List.mem_singleton.mp member ▸ known⟩,
    fun p member => .inl (shrunk p member)⟩

theorem drainUsed_draws (fuel drained : Nat) : Draws s (drainUsed fuel drained s).2 [] := by
  induction fuel generalizing s drained with
  | zero => exact .of_same rfl rfl
  | succ fuel ih =>
      cases used : s.freebuf.usedHead with
      | nil =>
          simp only [drainUsed, freebufferDrainUsed, used]
          exact .of_same rfl rfl
      | cons entry rest =>
          simp only [drainUsed, freebufferDrainUsed, used]
          refine .trans ?_ (ih (drained + 1))
          refine Draws.inject (.inl ?_) fun p member => ?_
          · rw [ledger, used]
            exact List.mem_map_of_mem List.mem_cons_self
          · rw [ledger, used]
            exact List.mem_cons_of_mem _ member

theorem injectDrained_draws (drained : List (Option Nat))
    (done : injectDrained drained s = some s') :
    Draws s s' [] ∧ s'.reorderBuffer = s.reorderBuffer := by
  induction drained generalizing s with
  | nil =>
      cases done
      exact ⟨.of_same rfl rfl, rfl⟩
  | cons pointer rest ih =>
      cases pointer with
      | none => cases done
      | some entry =>
          obtain ⟨freebuf, freed, later⟩ := Option.bind_eq_some_iff.mp done
          rw [freebufferFree] at freed
          split at freed
          next used =>
            cases freed
            obtain ⟨draws, buffer⟩ := ih later
            refine ⟨.trans (Draws.inject ?_ fun p member => ?_) draws, buffer⟩
            · exact .inl (List.mem_map_of_mem used)
            · obtain ⟨other, kept, rfl⟩ := List.mem_map.mp member
              exact List.mem_map_of_mem (List.mem_of_mem_erase kept)
          next => cases freed

theorem stopIfUnused_draws : Draws s (stopIfUnused s) fresh := by
  rw [stopIfUnused]
  split <;> exact .of_same rfl rfl

/-- A drain by age leaves nothing behind. -/
theorem reorderDrainAll_draws {n : Nat} (done : reorderDrainAll s = some (n, s')) :
    Draws s s' [] ∧ s'.freebuf.usedHead = [] ∧ s'.reorderBuffer ≠ none := by
  have drained := drainUsed_draws (s := s) s.freebuf.usedHead.length 0
  rw [reorderDrainAll] at done
  generalize drainUsed s.freebuf.usedHead.length 0 s = result at done drained
  obtain ⟨count, s₁⟩ := result
  dsimp only at done drained
  split at done
  next => cases done
  next b _ =>
    cases done
    obtain ⟨buffer, freebuf⟩ := stopIfUnused_buffer
      { s₁ with freebuf := freebufferReset s₁.freebuf, reorderBuffer := some (reorderReset b) }
    refine ⟨drained.trans (.trans ?_ stopIfUnused_draws), by rw [freebuf]; rfl, ?_⟩
    · exact ⟨⟨[], by rw [List.append_nil], fun r member => by cases member⟩,
        fun r member => by cases member⟩
    · rw [buffer]
      exact Option.some_ne_none _

theorem reorderDrainOrdered_draws {n : Nat} (done : reorderDrainOrdered s = some (n, s')) :
    Draws s s' [] ∧ s'.reorderBuffer ≠ none := by
  rw [reorderDrainOrdered] at done
  split at done
  next => cases done
  next b _ =>
    obtain ⟨s₁, injected, same⟩ := Option.map_eq_some_iff.mp done
    cases same
    have drained : Draws s { s with reorderBuffer := some (reorderDrain b 1024).2 } [] :=
      .of_same rfl rfl
    obtain ⟨draws, buffer⟩ := injectDrained_draws _ injected
    refine ⟨drained.trans (draws.trans stopIfUnused_draws), ?_⟩
    rw [(stopIfUnused_buffer s₁).1, buffer]
    exact Option.some_ne_none _

theorem restartIfUsed_draws {n : Nat} {result : Nat × Receive} (same : restartIfUsed result = (n, s')) :
    Draws result.2 s' fresh ∧ s'.reorderBuffer = result.2.reorderBuffer := by
  rw [restartIfUsed] at same
  split at same <;> cases same <;> exact ⟨.of_same rfl rfl, rfl⟩

theorem statusDrain_draws (idle : Idle s) (done : statusDrain s = some s') :
    Draws s s' [] ∧ s'.freebuf.usedHead = [] := by
  rcases statusDrain_cases done with ⟨none, rfl⟩ | ⟨n, s₁, drained, rfl⟩
  · exact ⟨.of_same rfl rfl, idle none⟩
  · obtain ⟨draws, empty, _⟩ := reorderDrainAll_draws drained
    exact ⟨draws.trans (.of_same rfl rfl), empty⟩

theorem Draws.origin (draws : Draws s s' fresh) :
    ∀ r ∈ s'.injected.drop s.injected.length, r ∈ (ledger s).held ∨ r ∈ fresh := by
  obtain ⟨out, injected, origin⟩ := draws.injected
  rw [injected, List.drop_left]
  exact origin

theorem Draws.mono {more : List Reception} (draws : Draws s s' fresh)
    (subset : ∀ r ∈ fresh, r ∈ more) : Draws s s' more := by
  obtain ⟨⟨out, injected, origin⟩, held⟩ := draws
  exact ⟨⟨out, injected, fun r member => (origin r member).imp_right (subset r)⟩,
    fun r member => (held r member).imp_right (subset r)⟩

theorem injectTuntap_draws {r : Reception} (known : r ∈ fresh) : Draws s (injectTuntap s r) fresh :=
  Draws.inject (.inr known) fun _ member => member

/-- A drain at the end of `mlvpn_rtun_recv_data`. -/
theorem restarted_draws {drained : Option (Nat × Receive)} {n : Nat}
    (draws : ∀ m s₁, drained = some (m, s₁) → Draws s s₁ [] ∧ s₁.reorderBuffer ≠ none)
    (done : drained.map restartIfUsed = some (n, s')) :
    Draws s s' fresh ∧ s'.reorderBuffer ≠ none := by
  obtain ⟨⟨m, s₁⟩, found, same⟩ := Option.map_eq_some_iff.mp done
  obtain ⟨drawn, buffer⟩ := draws m s₁ found
  have again : Draws s₁ s' [] ∧ s'.reorderBuffer = s₁.reorderBuffer := restartIfUsed_draws same
  refine ⟨(drawn.trans again.1).mono fun r member => (by cases member), ?_⟩
  rw [again.2]
  exact buffer

theorem recvEntry_draws {b : ReorderBuffer Nat} {entry n : Nat} {r : Reception}
    (known : r ∈ fresh) (done : recvEntry s b entry r = some (n, s')) :
    Draws s s' fresh ∧ s'.reorderBuffer ≠ none := by
  have stored (b' : ReorderBuffer Nat) : Draws s { s with reorderBuffer := some b' } fresh :=
    .of_same rfl rfl
  rw [recvEntry] at done
  split at done
  next =>
    generalize reorderInsert b entry r.pkt.seq = inserted at done
    obtain ⟨ret, b₁⟩ := inserted
    dsimp only at done
    split at done
    next =>
      obtain ⟨draws, buffer⟩ := restarted_draws
        (fun m s₁ drained => (reorderDrainAll_draws drained).imp_right And.right) done
      exact ⟨(stored _).trans draws, buffer⟩
    next =>
      split at done
      next =>
        cases done
        exact ⟨(stored b₁).trans (injectTuntap_draws known), Option.some_ne_none _⟩
      next =>
        obtain ⟨draws, buffer⟩ := restarted_draws
          (fun m s₁ drained => reorderDrainOrdered_draws drained) done
        exact ⟨(stored _).trans draws, buffer⟩
  next => cases done

/-- An entry of the pool holds the packet that has arrived. -/
theorem store_draws {entry : Nat} {freebuf : Freebuffer Reception} {r : Reception}
    (known : r ∈ fresh) (got : freebufferGet s.freebuf = some (entry, freebuf)) :
    Draws s { s with freebuf := freebuf.store entry r } fresh := by
  refine ⟨⟨[], (List.append_nil _).symm, fun p member => by cases member⟩, fun p member => ?_⟩
  rw [freebufferGet] at got
  split at got
  next => cases got
  next =>
    cases got
    obtain ⟨other, used, rfl⟩ := List.mem_map.mp member
    dsimp only [Freebuffer.store] at used ⊢
    by_cases same : other = entry
    · subst same
      exact .inr (by rwa [Function.update_self])
    · rw [Function.update_of_ne same]
      rcases List.mem_append.mp used with old | new
      · exact .inl (List.mem_map_of_mem old)
      · exact absurd (List.mem_singleton.mp new) same

theorem recvData_draws {tun n : Nat} {pkt : Pkt} (idle : Idle s)
    (done : recvData s tun pkt = some (n, s')) :
    Draws s s' [s.arrival tun pkt] ∧ Idle s' := by
  have known : s.arrival tun pkt ∈ [s.arrival tun pkt] := List.mem_singleton_self _
  have logged : Draws s { s with received := s.received ++ [s.arrival tun pkt] }
      [s.arrival tun pkt] := .of_same rfl rfl
  have passed : Draws s (injectTuntap { s with received := s.received ++ [s.arrival tun pkt] }
      (s.arrival tun pkt)) [s.arrival tun pkt] := logged.trans (injectTuntap_draws known)
  simp only [recvData] at done
  split at done
  next =>
    cases done
    exact ⟨passed, idle⟩
  next =>
    split at done
    next =>
      split at done
      next =>
        cases done
        exact ⟨passed, idle⟩
      next entry freebuf got =>
        obtain ⟨draws, buffer⟩ := recvEntry_draws known done
        exact ⟨(logged.trans (store_draws known got)).trans draws, .of_buffer buffer⟩
    next =>
      cases done
      exact ⟨passed, idle⟩

/-- What a packet that arrives brings; the other events bring nothing. -/
def Event.brings (s : Receive) : Event → List Reception
  | .recv tun pkt => [s.arrival tun pkt]
  | _ => []

theorem step_draws {e : Event} (idle : Idle s) (done : s.step e = some s') :
    Draws s s' (e.brings s) ∧ Idle s' := by
  cases e with
  | recv tun pkt =>
      obtain ⟨⟨n, s₁⟩, received, rfl⟩ := Option.map_eq_some_iff.mp done
      exact recvData_draws idle received
  | timeout =>
      rcases reorderDrainTimeout_cases done with rfl | ⟨n, s₁, drained, rfl⟩
      · exact ⟨.of_same rfl rfl, idle⟩
      · obtain ⟨draws, _, buffer⟩ := reorderDrainAll_draws drained
        have restarted : Draws s { s with drainTimeout := s.drainTimeout.again } [] :=
          .of_same rfl rfl
        refine ⟨restarted.trans (draws.trans stopIfUnused_draws), .of_buffer ?_⟩
        rw [(stopIfUnused_buffer s₁).1]
        exact buffer
  | statusChange =>
      obtain ⟨draws, empty⟩ := statusDrain_draws idle done
      exact ⟨draws, fun _ => empty⟩
  | reload size =>
      cases done
      rw [configReorderBufferSize]
      split
      next =>
        refine ⟨.of_same rfl rfl, fun none => ?_⟩
        dsimp only at none
        split at none
        next => cases none
        next => exact idle none
      next => exact ⟨.of_same rfl rfl, idle⟩
  | adjust period =>
      cases done
      exact ⟨.of_same rfl rfl, idle⟩
  | tuntapWrite =>
      obtain ⟨sbuf, ioWrite, rfl⟩ := tuntapWrite_cases done
      exact ⟨.of_same rfl rfl, idle⟩

end Mlvpn.Receive
