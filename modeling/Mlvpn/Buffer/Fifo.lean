import Mlvpn.Buffer.Pktbuffer
import Mlvpn.Library.Machine
import Mlvpn.Library.MaskedRing

/-! # The packet ring as a queue

What a ring of packets holds is a list, oldest first.  A packet is written to its
end, for which a full ring gives up its first one, and read from its beginning: over
any sequence of operations, a ring is a queue that drops its oldest item.
-/

namespace Mlvpn

open Library.Machine Library.MaskedRing

/-- What happens to a queue. -/
inductive QueueAct (α : Type) where
  | write (item : α)
  | read (item : α)
  | reset
  deriving Repr, DecidableEq

/-- A queue of at most `n` items, oldest first. -/
def dropOldest {α : Type} [DecidableEq α] (n : Nat) (items : List α) : QueueAct α → Option (List α)
  | .write item => some (if items.length + 1 > n then items.tail ++ [item] else items ++ [item])
  | .read item => if items.head? = some item then some items.tail else none
  | .reset => some []

/-- The operations on a ring; what is written is filled in afterwards. -/
inductive RingOp where
  | write (fill : Pkt → Pkt)
  | read
  | reset

namespace Pktbuffer

/-- An operation, with what it stores or returns.  An empty ring is not read. -/
def operate (buf : Pktbuffer) : RingOp → Option (QueueAct Pkt × Pktbuffer)
  | .write fill =>
      let buf' := pktbufferWrite buf fill
      some (.write (buf'.pkts buf.stop), buf')
  | .read =>
      let (pkt, buf') := pktbufferRead buf
      if cbIsEmpty buf then none else some (.read pkt, buf')
  | .reset => some (.reset, pktbufferReset buf)

variable {buf : Pktbuffer} {pkts : List Pkt}

/-- The packets of a ring, oldest first. -/
def Queues (buf : Pktbuffer) (pkts : List Pkt) : Prop :=
  Holds buf.size (fun n => some (buf.pkts n)) buf.start buf.stop pkts

/-- How many there are, by the two indices. -/
def count (buf : Pktbuffer) : Nat := (buf.stop + buf.size - buf.start) % buf.size

theorem Queues.count_eq (queues : buf.Queues pkts) : buf.count = pkts.length := by
  have short := queues.short
  have startLt := queues.tailLt
  unfold count
  rcases queues.head_cases with ⟨here, _⟩ | ⟨wrapped, _⟩
  · have distance : buf.stop + buf.size - buf.start = pkts.length + buf.size := by omega
    rw [distance, Nat.add_mod_right, Nat.mod_eq_of_lt short]
  · have distance : buf.stop + buf.size - buf.start = pkts.length := by omega
    rw [distance, Nat.mod_eq_of_lt short]

theorem Queues.empty_iff (queues : buf.Queues pkts) : cbIsEmpty buf ↔ pkts = [] :=
  eq_comm.trans queues.eq_iff_nil

theorem Wf.queues_nil (wf : buf.Wf) (empty : cbIsEmpty buf) : buf.Queues [] := by
  unfold Queues
  rw [empty]
  exact Holds.empty _ wf.startLt

theorem Queues.reset (queues : buf.Queues pkts) : (pktbufferReset buf).Queues [] :=
  Holds.empty _ (Nat.zero_lt_of_lt queues.tailLt)

theorem Queues.read {pkt : Pkt} (queues : buf.Queues (pkt :: pkts)) :
    (pktbufferRead buf).1 = pkt ∧ (pktbufferRead buf).2.Queues pkts := by
  obtain ⟨first, rest⟩ := queues.pop_mod
  exact ⟨Option.some.inj first, rest⟩

/-- The slot that is written to is free, so the list it joins is what was there
    before, or all of that but its oldest packet. -/
theorem Queues.write (queues : buf.Queues pkts) (roomy : 1 < buf.size) (fill : Pkt → Pkt) :
    (pktbufferWrite buf fill).Queues ((if pkts.length + 1 = buf.size then pkts.tail else pkts) ++
      [fill { buf.pkts buf.stop with len := 0, type := .data }]) := by
  generalize written : fill { buf.pkts buf.stop with len := 0, type := .data } = pkt
  have stored : (fun n => some (Function.update buf.pkts buf.stop pkt n)) =
      Function.update (fun n => some (buf.pkts n)) buf.stop (some pkt) := by
    funext n
    by_cases here : n = buf.stop
    · rw [here, Function.update_self, Function.update_self]
    · rw [Function.update_of_ne here, Function.update_of_ne here]
  unfold Queues pktbufferWrite
  dsimp only
  rw [written, stored]
  by_cases full : pkts.length + 1 = buf.size
  · rw [if_pos full, if_pos (queues.full_mod_iff.mpr full)]
    cases pkts with
    | nil =>
        simp only [List.length_nil] at full
        omega
    | cons oldest rest =>
        have shorter := queues.pop_mod.2
        refine shorter.push_mod ?_ pkt
        simp only [List.length_cons] at full
        omega
  · rw [if_neg full, if_neg fun meets => full (queues.full_mod_iff.mp meets)]
    have short := queues.short
    exact queues.push_mod (by omega) pkt

theorem Queues.full_iff (queues : buf.Queues pkts) : cbIsFull buf ↔ pkts.length + 1 = buf.size :=
  queues.full_mod_iff

/-- The packets of a ring, as the two indices tell them. -/
def contents (buf : Pktbuffer) : List Pkt :=
  (List.range buf.count).map fun k => buf.pkts ((buf.start + k) % buf.size)

theorem Wf.queues (wf : buf.Wf) : buf.Queues buf.contents := by
  obtain ⟨roomy, startLt, stopLt⟩ := wf
  have length : buf.contents.length = buf.count := by simp [contents]
  have count : buf.count < buf.size := Nat.mod_lt _ (by omega)
  refine ⟨startLt, by rwa [length], ?_, fun k inside => ?_⟩
  · rw [length, Pktbuffer.count, Nat.add_mod_mod]
    have back : buf.start + (buf.stop + buf.size - buf.start) = buf.stop + buf.size := by omega
    rw [back, Nat.add_mod_right, Nat.mod_eq_of_lt stopLt]
  · simp [contents]

theorem Queues.contents_eq (queues : buf.Queues pkts) : buf.contents = pkts := by
  have count := queues.count_eq
  refine List.ext_getElem (by simp [contents, count]) fun k _ inside => ?_
  have stored := queues.stored k inside
  simpa [contents] using stored

theorem Wf.contents_write (wf : buf.Wf) (fill : Pkt → Pkt) :
    (pktbufferWrite buf fill).contents =
      (if buf.contents.length + 1 = buf.size then buf.contents.tail else buf.contents) ++
        [fill { buf.pkts buf.stop with len := 0, type := .data }] :=
  (wf.queues.write wf.roomy fill).contents_eq

/-- A packet is written behind those that are kept. -/
theorem Wf.contents_write_kept (wf : buf.Wf) (fill : Pkt → Pkt) :
    ∃ kept, kept.Sublist buf.contents ∧ (pktbufferWrite buf fill).contents =
      kept ++ [fill { buf.pkts buf.stop with len := 0, type := .data }] := by
  refine ⟨_, ?_, wf.contents_write fill⟩
  split
  next => exact List.tail_sublist _
  next => exact List.Sublist.refl _

/-- The oldest packet is the one that is read. -/
theorem Wf.contents_read (wf : buf.Wf) (filled : ¬ cbIsEmpty buf) :
    buf.contents = (pktbufferRead buf).1 :: (pktbufferRead buf).2.contents := by
  have queues := wf.queues
  cases found : buf.contents with
  | nil => exact absurd (queues.empty_iff.mpr found) filled
  | cons pkt rest =>
      rw [found] at queues
      obtain ⟨first, left⟩ := queues.read
      rw [first, left.contents_eq]

theorem Wf.contents_reset (wf : buf.Wf) : (pktbufferReset buf).contents = [] :=
  wf.queues.reset.contents_eq

theorem contents_init (size : Nat) : (pktbufferInit size).contents = [] := by
  have empty : (pktbufferInit size).count = 0 := by simp [count, pktbufferInit]
  rw [contents, empty]
  rfl

/-- Only an empty ring refuses an operation, a read. -/
theorem Queues.operate_eq_none_iff (queues : buf.Queues pkts) (op : RingOp) :
    buf.operate op = none ↔ op = .read ∧ pkts = [] := by
  cases op with
  | write fill => simp [operate]
  | read => simp [operate, queues.empty_iff]
  | reset => simp [operate]

/-- The ring of `n` packets and one free slot, with its packets. -/
structure Carries (n : Nat) (buf : Pktbuffer) (pkts : List Pkt) : Prop where
  queues : buf.Queues pkts
  size : buf.size = n + 1

theorem carries_init (n : Nat) : Carries n (pktbufferInit n) [] :=
  ⟨Holds.empty _ (Nat.succ_pos n), rfl⟩

/-- One operation on the ring is one on the queue. -/
theorem Carries.operate {n : Nat} {op : RingOp} {act : QueueAct Pkt} {buf' : Pktbuffer}
    (positive : 1 ≤ n) (carries : Carries n buf pkts) (done : buf.operate op = some (act, buf')) :
    ∃ pkts', dropOldest n pkts act = some pkts' ∧ Carries n buf' pkts' := by
  obtain ⟨queues, size⟩ := carries
  cases op with
  | write fill =>
      cases done
      have written := queues.write (by omega) fill
      have short := queues.short
      have full : pkts.length + 1 = buf.size ↔ pkts.length + 1 > n := by omega
      refine ⟨_, rfl, ?_, size⟩
      simp only [full] at written
      simp only [pktbufferWrite, Function.update_self]
      split at written
      next drops => rwa [if_pos drops]
      next keeps => rwa [if_neg keeps]
  | read =>
      simp only [Pktbuffer.operate, queues.empty_iff] at done
      split at done
      next => cases done
      next given =>
        cases done
        cases pkts with
        | nil => exact absurd rfl given
        | cons pkt rest =>
            obtain ⟨first, left⟩ := queues.read
            refine ⟨rest, ?_, left, size⟩
            simp [dropOldest, first]
  | reset =>
      cases done
      exact ⟨[], rfl, queues.reset, size⟩

/-- Every run of operations on a ring is one of the queue, and the ring is empty and
    full when the queue is. -/
theorem ring_refines_dropOldest {n : Nat} (positive : 1 ≤ n) {ops : List RingOp}
    {acts : List (QueueAct Pkt)} (done : traceOption operate (pktbufferInit n) ops = some (acts, buf)) :
    ∃ pkts, run (dropOldest n) [] acts = some pkts ∧
      (cbIsEmpty buf ↔ pkts.length = 0) ∧ (cbIsFull buf ↔ pkts.length = n) ∧
        ∀ op, buf.operate op = none ↔ op = .read ∧ pkts = [] := by
  obtain ⟨pkts, followed, queues, size⟩ :=
    traceOption_followed (fun _ _ _ _ _ carries => carries.operate positive) (carries_init n) done
  refine ⟨pkts, followed, ?_, ?_, queues.operate_eq_none_iff⟩
  · rw [queues.empty_iff, List.length_eq_zero_iff]
  · rw [queues.full_iff, size, Nat.add_left_inj]

/-- Three packets in a ring of two: the first one is gone. -/
theorem ring_refines_dropOldest_overwrites :
    let number (seq : UInt64) : RingOp := .write fun pkt => { pkt with seq := seq }
    let kept (seq : UInt64) : Pkt := { Pkt.zero with type := .data, seq := seq }
    ∃ buf, traceOption operate (pktbufferInit 2) [number 1, number 2, number 3, .read] =
        some ([.write (kept 1), .write (kept 2), .write (kept 3), .read (kept 2)], buf) ∧
      ∃ pkts, run (dropOldest 2) []
          [.write (kept 1), .write (kept 2), .write (kept 3), .read (kept 2)] = some pkts ∧
        (cbIsEmpty buf ↔ pkts.length = 0) ∧ (cbIsFull buf ↔ pkts.length = 2) ∧
          ∀ op, buf.operate op = none ↔ op = .read ∧ pkts = [] := by
  intro number kept
  have done : traceOption operate (pktbufferInit 2) [number 1, number 2, number 3, .read] =
      some ([.write (kept 1), .write (kept 2), .write (kept 3), .read (kept 2)], _) := rfl
  exact ⟨_, done, ring_refines_dropOldest (by decide) done⟩

end Pktbuffer

end Mlvpn
