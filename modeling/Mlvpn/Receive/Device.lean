import Mlvpn.Buffer.Fifo
import Mlvpn.Receive.Provenance
import Mlvpn.Wire.Roundtrip

/-! # The queue of the tuntap device

What is injected waits in the ring of the device, and a full ring gives up its oldest packet.
Whatever happens, a part of what was injected is handed to `write`, in that order, and what
still waits is the end of it.  A packet that `write` fails for is gone.
-/

namespace Mlvpn

/-- The bytes that the length of a packet covers. -/
def Pkt.payload (pkt : Pkt) : List UInt8 := pkt.bytes pkt.len

theorem Pkt.bytes_append {pkt : Pkt} {front rest : List UInt8} {n : Nat} (data : pkt.data = front ++ rest)
    (whole : front.length = n) : pkt.bytes n = front := by
  have none : n - (front ++ rest).length = 0 := by
    rw [List.length_append]
    omega
  rw [Pkt.bytes, data, none, List.replicate_zero, List.append_nil, ← whole, List.take_left']
  rfl

namespace Receive

open Reorder

variable {s s' s'' : Receive}

/-- `mlvpn_rtun_inject_tuntap`, as the queue sees it. -/
def enqueue (sbuf : Pktbuffer) (r : Reception) : Pktbuffer :=
  pktbufferWrite sbuf fun slot =>
    { slot with len := r.pkt.len, data := slot.copyData r.pkt r.pkt.len }

/-- Everything that has been injected since was put into the queue, and the watcher started. -/
def Fed (s s' : Receive) : Prop :=
  ∃ out, s'.injected = s.injected ++ out ∧ s'.sbuf = out.foldl enqueue s.sbuf ∧
    s'.ioWrite = (s.ioWrite || !out.isEmpty)

theorem Fed.of_same (injected : s'.injected = s.injected) (sbuf : s'.sbuf = s.sbuf)
    (ioWrite : s'.ioWrite = s.ioWrite) : Fed s s' :=
  ⟨[], by rw [injected, List.append_nil], sbuf, by rw [ioWrite]; exact (Bool.or_false _).symm⟩

theorem Fed.trans (first : Fed s s') (second : Fed s' s'') : Fed s s'' := by
  obtain ⟨out, injected, sbuf, ioWrite⟩ := first
  obtain ⟨out', injected', sbuf', ioWrite'⟩ := second
  refine ⟨out ++ out', by rw [injected', injected, List.append_assoc],
    by rw [sbuf', sbuf, List.foldl_append], ?_⟩
  rw [ioWrite', ioWrite]
  cases out <;> simp

theorem Fed.inject (r : Reception) : Fed s (injectTuntap s r) :=
  ⟨[r], rfl, rfl, (Bool.or_true _).symm⟩

theorem drainUsed_fed (fuel drained : Nat) : Fed s (drainUsed fuel drained s).2 := by
  induction fuel generalizing s drained with
  | zero => exact .of_same rfl rfl rfl
  | succ fuel ih =>
      rw [drainUsed]
      split
      next => exact .of_same rfl rfl rfl
      next entry freebuf _ =>
        have taken : Fed s { s with freebuf := freebuf } := .of_same rfl rfl rfl
        exact (taken.trans (.inject _)).trans (ih _)

theorem injectDrained_fed (drained : List (Option Nat)) (done : injectDrained drained s = some s') :
    Fed s s' := by
  induction drained generalizing s with
  | nil =>
      cases done
      exact .of_same rfl rfl rfl
  | cons pointer rest ih =>
      cases pointer with
      | none => cases done
      | some entry =>
          obtain ⟨freebuf, _, later⟩ := Option.bind_eq_some_iff.mp done
          have freed (s : Receive) : Fed s { s with freebuf := freebuf } := .of_same rfl rfl rfl
          exact ((Fed.inject _).trans (freed _)).trans (ih later)

theorem stopIfUnused_fed (s : Receive) : Fed s (stopIfUnused s) := by
  rw [stopIfUnused]
  split <;> exact .of_same rfl rfl rfl

theorem reorderDrainAll_fed {n : Nat} (done : reorderDrainAll s = some (n, s')) : Fed s s' := by
  have drained := drainUsed_fed (s := s) s.freebuf.usedHead.length 0
  rw [reorderDrainAll] at done
  generalize drainUsed s.freebuf.usedHead.length 0 s = result at done drained
  obtain ⟨count, s₁⟩ := result
  dsimp only at done drained
  split at done
  next => cases done
  next b _ =>
    cases done
    have reset : Fed s₁ { s₁ with
        freebuf := freebufferReset s₁.freebuf
        reorderBuffer := some (reorderReset b) } := .of_same rfl rfl rfl
    exact (drained.trans reset).trans (stopIfUnused_fed _)

theorem reorderDrainOrdered_fed {n : Nat} (done : reorderDrainOrdered s = some (n, s')) : Fed s s' := by
  rw [reorderDrainOrdered] at done
  split at done
  next => cases done
  next b _ =>
    obtain ⟨s₁, injected, same⟩ := Option.map_eq_some_iff.mp done
    cases same
    have drained : Fed s { s with reorderBuffer := some (reorderDrain b 1024).2 } := .of_same rfl rfl rfl
    exact (drained.trans (injectDrained_fed _ injected)).trans (stopIfUnused_fed s₁)

theorem restartIfUsed_fed {drained : Option (Nat × Receive)} {n : Nat}
    (fed : ∀ m s₁, drained = some (m, s₁) → Fed s s₁)
    (done : drained.map restartIfUsed = some (n, s')) : Fed s s' := by
  obtain ⟨⟨m, s₁⟩, found, same⟩ := Option.map_eq_some_iff.mp done
  rw [restartIfUsed] at same
  split at same
  next =>
    cases same
    exact (fed _ _ found).trans (.of_same rfl rfl rfl)
  next =>
    cases same
    exact fed _ _ found

theorem recvEntry_fed {b : ReorderBuffer Nat} {entry n : Nat} {r : Reception}
    (done : recvEntry s b entry r = some (n, s')) : Fed s s' := by
  have stored (b' : ReorderBuffer Nat) : Fed s { s with reorderBuffer := some b' } := .of_same rfl rfl rfl
  rw [recvEntry] at done
  split at done
  next =>
    generalize reorderInsert b entry r.pkt.seq = inserted at done
    obtain ⟨ret, b₁⟩ := inserted
    dsimp only at done
    split at done
    next => exact (stored _).trans (restartIfUsed_fed (fun _ _ => reorderDrainAll_fed) done)
    next =>
      split at done
      next =>
        cases done
        exact (stored b₁).trans (.inject r)
      next => exact (stored _).trans (restartIfUsed_fed (fun _ _ => reorderDrainOrdered_fed) done)
  next => cases done

theorem recvData_fed {tun n : Nat} {pkt : Pkt} (done : recvData s tun pkt = some (n, s')) : Fed s s' := by
  have logged (s : Receive) : Fed s { s with received := s.received ++ [s.arrival tun pkt] } :=
    .of_same rfl rfl rfl
  simp only [recvData] at done
  split at done
  next =>
    cases done
    exact (logged s).trans (.inject _)
  next =>
    split at done
    next =>
      split at done
      next =>
        cases done
        exact (logged s).trans (.inject _)
      next entry freebuf _ =>
        have stored (s : Receive) (pool : Freebuffer Reception) : Fed s { s with freebuf := pool } :=
          .of_same rfl rfl rfl
        exact ((logged s).trans (stored _ _)).trans (recvEntry_fed done)
    next =>
      cases done
      exact (logged s).trans (.inject _)

theorem statusDrain_fed (done : statusDrain s = some s') : Fed s s' := by
  rcases statusDrain_cases done with ⟨_, rfl⟩ | ⟨n, s₁, drained, rfl⟩
  · exact .of_same rfl rfl rfl
  · exact (reorderDrainAll_fed drained).trans (.of_same rfl rfl rfl)

/-- The queue of the device grows by what is injected, unless the device is written to. -/
theorem step_fed {e : Event} (inside : e ≠ .tuntapWrite) (done : s.step e = some s') : Fed s s' := by
  cases e with
  | recv tun pkt =>
      obtain ⟨⟨n, s₁⟩, received, rfl⟩ := Option.map_eq_some_iff.mp done
      exact recvData_fed received
  | timeout =>
      rcases reorderDrainTimeout_cases done with rfl | ⟨n, s₁, drained, rfl⟩
      · exact .of_same rfl rfl rfl
      · have restarted : Fed s { s with drainTimeout := s.drainTimeout.again } := .of_same rfl rfl rfl
        exact (restarted.trans (reorderDrainAll_fed drained)).trans (stopIfUnused_fed s₁)
  | statusChange => exact statusDrain_fed done
  | reload size =>
      cases done
      rw [configReorderBufferSize]
      split <;> exact .of_same rfl rfl rfl
  | adjust period =>
      cases done
      exact .of_same rfl rfl rfl
  | tuntapWrite => exact absurd rfl inside

/-- The packets that wait for the device, oldest first. -/
def waiting (s : Receive) : List (List UInt8) := s.sbuf.contents.map Pkt.payload

/-- What `tuntap_io_event` hands to `write` for the device. -/
def written (s : Receive) : List (List UInt8) :=
  if s.ioWrite then [(pktbufferRead s.sbuf).1.payload] else []

/-- The payloads that were handed to `mlvpn_rtun_inject_tuntap`. -/
def handed (s : Receive) : List (List UInt8) := s.injected.map (·.pkt.payload)

theorem contents_enqueue {sbuf : Pktbuffer} (wf : sbuf.Wf) (r : Reception) :
    (enqueue sbuf r).contents.map Pkt.payload =
      (if sbuf.contents.length + 1 = sbuf.size then (sbuf.contents.map Pkt.payload).tail
        else sbuf.contents.map Pkt.payload) ++ [r.pkt.payload] := by
  have copied (slot : Pkt) : Pkt.payload
      { slot with len := r.pkt.len, data := slot.copyData r.pkt r.pkt.len } = r.pkt.payload :=
    Pkt.bytes_append rfl (r.pkt.bytes_length r.pkt.len)
  rw [enqueue, wf.contents_write, List.map_append, List.map_singleton, copied]
  split
  next => rw [List.map_tail]
  next => rfl

theorem foldl_enqueue_queued {sbuf : Pktbuffer} {ioWrite : Bool} (queued : Queued sbuf ioWrite)
    (out : List Reception) : Queued (out.foldl enqueue sbuf) (ioWrite || !out.isEmpty) := by
  induction out generalizing sbuf ioWrite with
  | nil => exact (Bool.or_false ioWrite).symm ▸ queued
  | cons r rest ih =>
      rw [List.isEmpty_cons, Bool.not_false, Bool.or_true, ← Bool.true_or (!rest.isEmpty)]
      exact ih (queued.write _)

theorem foldl_enqueue_size (sbuf : Pktbuffer) (out : List Reception) :
    (out.foldl enqueue sbuf).size = sbuf.size := by
  induction out generalizing sbuf with
  | nil => rfl
  | cons r rest ih => exact ih (enqueue sbuf r)

/-- While there is room, nothing is given up. -/
theorem contents_foldl_enqueue {sbuf : Pktbuffer} {ioWrite : Bool} (queued : Queued sbuf ioWrite)
    (out : List Reception) (room : sbuf.contents.length + out.length < sbuf.size) :
    (out.foldl enqueue sbuf).contents.map Pkt.payload =
      sbuf.contents.map Pkt.payload ++ out.map (·.pkt.payload) := by
  induction out using List.reverseRecOn with
  | nil => simp
  | append_singleton rest r ih =>
      rw [List.length_append, List.length_singleton] at room
      have before := ih (by omega)
      have length := congrArg List.length before
      simp only [List.length_map, List.length_append] at length
      have free : ¬ (rest.foldl enqueue sbuf).contents.length + 1 = (rest.foldl enqueue sbuf).size := by
        rw [length, foldl_enqueue_size]
        omega
      simp only [List.foldl_append, List.foldl_cons, List.foldl_nil]
      rw [contents_enqueue (foldl_enqueue_queued queued rest).wf, if_neg free, before, List.map_append,
        List.append_assoc]
      rfl

/-- What was handed to `write` and what waits for it were injected in that order; what
    waits is the end of what was injected. -/
structure Ordered (s : Receive) (out : List (List UInt8)) : Prop where
  queued : Queued s.sbuf s.ioWrite
  size : s.sbuf.size = pktbufsize + 1
  order : (out ++ s.waiting).Sublist s.handed
  newest : s.waiting <:+ s.handed

/-- A full queue gives up its oldest packet. -/
theorem enqueue_keeps {sbuf : Pktbuffer} {out all : List (List UInt8)} (wf : sbuf.Wf) (r : Reception)
    (order : (out ++ sbuf.contents.map Pkt.payload).Sublist all)
    (newest : sbuf.contents.map Pkt.payload <:+ all) :
    (out ++ (enqueue sbuf r).contents.map Pkt.payload).Sublist (all ++ [r.pkt.payload]) ∧
      (enqueue sbuf r).contents.map Pkt.payload <:+ all ++ [r.pkt.payload] := by
  have kept : ∃ left, (enqueue sbuf r).contents.map Pkt.payload = left ++ [r.pkt.payload] ∧
      left <:+ sbuf.contents.map Pkt.payload := by
    rw [contents_enqueue wf]
    split
    next => exact ⟨_, rfl, List.tail_suffix _⟩
    next => exact ⟨_, rfl, List.suffix_refl _⟩
  obtain ⟨left, queued, suffix⟩ := kept
  obtain ⟨front, there⟩ := suffix.trans newest
  rw [queued, ← List.append_assoc]
  refine ⟨((suffix.sublist.append_left out).trans order).append_right _, front, ?_⟩
  rw [← List.append_assoc, there]

theorem Ordered.fed {out : List (List UInt8)} (ordered : Ordered s out) (fed : Fed s s') :
    Ordered s' out := by
  obtain ⟨added, injected, sbuf, ioWrite⟩ := fed
  have both : (out ++ (added.foldl enqueue s.sbuf).contents.map Pkt.payload).Sublist
        (s.handed ++ added.map (·.pkt.payload)) ∧
      (added.foldl enqueue s.sbuf).contents.map Pkt.payload <:+
        s.handed ++ added.map (·.pkt.payload) := by
    clear injected sbuf ioWrite
    induction added using List.reverseRecOn with
    | nil =>
        rw [List.map_nil, List.append_nil]
        exact ⟨ordered.order, ordered.newest⟩
    | append_singleton rest r ih =>
        have kept := enqueue_keeps (foldl_enqueue_queued ordered.queued rest).wf r ih.1 ih.2
        rw [List.foldl_append, List.map_append, ← List.append_assoc]
        exact kept
  rw [← sbuf] at both
  have all : s'.handed = s.handed ++ added.map (·.pkt.payload) := by
    rw [handed, injected, List.map_append]
    rfl
  rw [← all] at both
  refine ⟨?_, ?_, both.1, both.2⟩
  · rw [sbuf, ioWrite]
    exact foldl_enqueue_queued ordered.queued added
  · rw [sbuf, foldl_enqueue_size]
    exact ordered.size

/-- Nothing is lost while there is room for what is injected. -/
theorem Ordered.fed_all {out : List (List UInt8)} (ordered : Ordered s out) (fed : Fed s s')
    (room : s.waiting.length + s'.handed.length ≤ s.handed.length + pktbufsize)
    (all : out ++ s.waiting = s.handed) : out ++ s'.waiting = s'.handed := by
  obtain ⟨added, injected, sbuf, _⟩ := fed
  have grown : s'.handed = s.handed ++ added.map (·.pkt.payload) := by
    rw [handed, injected, List.map_append]
    rfl
  rw [grown, waiting, List.length_append, List.length_map, List.length_map] at room
  have kept : s'.waiting = s.waiting ++ added.map (·.pkt.payload) := by
    rw [waiting, sbuf]
    exact contents_foldl_enqueue ordered.queued added (by rw [ordered.size]; omega)
  rw [grown, kept, ← List.append_assoc, all]

theorem waiting_init : init.waiting = [] := by
  have empty : init.sbuf.contents = [] := Pktbuffer.contents_init pktbufsize
  rw [waiting, empty]
  rfl

theorem handed_init : init.handed = [] := rfl

theorem ordered_init : Ordered init [] where
  queued := owned_init.queued
  size := rfl
  order := waiting_init ▸ List.nil_sublist _
  newest := waiting_init ▸ List.nil_suffix

/-- A packet leaves the queue for the device. -/
theorem Ordered.written {out : List (List UInt8)} (ordered : Ordered s out)
    (done : s.step .tuntapWrite = some s') :
    Ordered s' (out ++ s.written) ∧ s.written ++ s'.waiting = s.waiting ∧ s'.handed = s.handed := by
  simp only [step] at done
  by_cases writing : s.ioWrite = true
  · have filled := ordered.queued.writing writing
    have waits := ordered.queued.wf.contents_read filled
    rw [if_pos writing, if_neg filled] at done
    cases done
    have first : s.waiting = (pktbufferRead s.sbuf).1.payload ::
        (pktbufferRead s.sbuf).2.contents.map Pkt.payload := by
      rw [waiting, waits, List.map_cons]
    have order := ordered.order
    have newest := ordered.newest
    rw [first] at order newest
    rw [Receive.written, if_pos writing]
    refine ⟨⟨⟨ordered.queued.wf.read, fun filled => of_decide_eq_true filled⟩, ordered.size, ?_,
      (List.suffix_cons _ _).trans newest⟩, first.symm, rfl⟩
    rw [List.append_assoc]
    exact order
  · rw [if_neg writing] at done
    cases done
    rw [Receive.written, if_neg writing, List.append_nil]
    exact ⟨ordered, rfl, rfl⟩

end Receive

end Mlvpn
