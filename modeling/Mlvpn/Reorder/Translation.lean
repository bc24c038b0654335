import Mlvpn.Reorder.Interleaving

/-! # Sequence numbers moved by a constant

The buffer only ever subtracts sequence numbers from each other, so a buffer that
has seen its first packet does not know where its numbers start.  `translate`
moves the window of such a buffer by a constant.  It commutes with every
operation, and then with every sequence of calls.
-/

namespace Mlvpn.Reorder

open Library.Machine

variable {α : Type*}

/-- The buffer that the same packets would have left under numbers larger by `c`. -/
def ReorderBuffer.translate (c : UInt64) (b : ReorderBuffer α) : ReorderBuffer α :=
  { b with minSeqn := if b.isInitialized then b.minSeqn + c else b.minSeqn }

namespace ReorderBuffer

variable {c : UInt64} {b : ReorderBuffer α}

theorem translate_initialized (initialized : b.isInitialized = true) :
    b.translate c = { b with minSeqn := b.minSeqn + c } := by
  simp only [translate, initialized, if_true]

/-- A buffer without a packet carries no number. -/
theorem translate_fresh (fresh : b.isInitialized = false) : b.translate c = b := by
  have unmoved : ¬ b.isInitialized = true := by simp [fresh]
  rw [translate, if_neg unmoved]

theorem translate_allocated : (b.translate c).Allocated ↔ b.Allocated := Iff.rfl

end ReorderBuffer

theorem reorderBegin_initialized (b : ReorderBuffer α) (seq : UInt64) :
    (reorderBegin b seq).isInitialized = true := by
  rw [reorderBegin]
  split
  next initialized => exact initialized
  next => rfl

theorem reorderBegin_translate (c : UInt64) (b : ReorderBuffer α) (seq : UInt64) :
    reorderBegin (b.translate c) (seq + c) = (reorderBegin b seq).translate c := by
  cases initialized : b.isInitialized with
  | false =>
      simp only [ReorderBuffer.translate, reorderBegin, initialized, Bool.false_eq_true, if_false,
        if_true]
  | true => simp only [ReorderBuffer.translate, reorderBegin, initialized, if_true]

/-- The distance of a number from the window is what survives. -/
theorem distance_translate (seq minSeqn c : UInt64) : seq + c - (minSeqn + c) = seq - minSeqn := by
  grind

theorem add_translate (minSeqn adv c : UInt64) : minSeqn + c + adv = minSeqn + adv + c := by
  grind

theorem storeAt_translate (c : UInt64) (b : ReorderBuffer α) (offset : Nat) (pkt : α) :
    storeAt (b.translate c) offset pkt = (storeAt b offset pkt).translate c := rfl

theorem reorderFillOverflow_translate (c : UInt64) {b : ReorderBuffer α}
    (initialized : b.isInitialized = true) (needed : Nat) :
    reorderFillOverflow (b.translate c) needed =
      ((reorderFillOverflow b needed).1, (reorderFillOverflow b needed).2.translate c) := by
  simp only [reorderFillOverflow, ReorderBuffer.translate, initialized, if_true, add_translate]

/-- Initialisation, the window, the overflow and the refusal all go by distances. -/
theorem reorderInsert_translate (c : UInt64) (b : ReorderBuffer α) (pkt : α) (seq : UInt64) :
    reorderInsert (b.translate c) pkt (seq + c) =
      ((reorderInsert b pkt seq).1, (reorderInsert b pkt seq).2.translate c) := by
  have initialized := reorderBegin_initialized b seq
  simp only [reorderInsert, reorderBegin_translate]
  generalize reorderBegin b seq = begun at initialized ⊢
  have distance : seq + c - (begun.translate c).minSeqn = seq - begun.minSeqn := by
    rw [ReorderBuffer.translate_initialized initialized, distance_translate]
  have size : (begun.translate c).orderBuf = begun.orderBuf := rfl
  simp only [distance, size]
  split
  · rfl
  · split
    · generalize (seq - begun.minSeqn).toNat + 1 - begun.orderBuf.size = needed
      simp only [reorderFillOverflow_translate c initialized]
      split
      · rfl
      · have moved : (reorderFillOverflow begun needed).2.isInitialized = true := initialized
        have remaining : seq + c - ((reorderFillOverflow begun needed).2.translate c).minSeqn =
            seq - (reorderFillOverflow begun needed).2.minSeqn := by
          rw [ReorderBuffer.translate_initialized moved, distance_translate]
        simp only [remaining, storeAt_translate]
    · rfl

theorem drainOrder_translate (c : UInt64) (wanted : Nat) (b : ReorderBuffer α) :
    drainOrder wanted (b.translate c) =
      ((drainOrder wanted b).1, (drainOrder wanted b).2.translate c) := by
  induction wanted generalizing b with
  | zero => rfl
  | succ wanted ih =>
      have order : (b.translate c).orderBuf = b.orderBuf := rfl
      simp only [drainOrder, order]
      cases b.orderBuf.pkts b.orderBuf.head with
      | none => rfl
      | some p =>
          have popped : { b.translate c with
                orderBuf := (b.orderBuf.write b.orderBuf.head none).advance
                minSeqn := (b.translate c).minSeqn + 1 } =
              ({ b with
                orderBuf := (b.orderBuf.write b.orderBuf.head none).advance
                minSeqn := b.minSeqn + 1 } : ReorderBuffer α).translate c := by
            cases initialized : b.isInitialized with
            | false => simp [ReorderBuffer.translate, initialized]
            | true => simp [ReorderBuffer.translate, initialized, add_translate]
          simp only [popped, ih]

theorem reorderDrain_translate (c : UInt64) (b : ReorderBuffer α) (maxPkts : Nat) :
    reorderDrain (b.translate c) maxPkts =
      ((reorderDrain b maxPkts).1, (reorderDrain b maxPkts).2.translate c) := by
  have ready : (b.translate c).readyBuf = b.readyBuf := rfl
  have drained : { b.translate c with readyBuf := (drainReady maxPkts b.readyBuf).2 } =
      ({ b with readyBuf := (drainReady maxPkts b.readyBuf).2 } : ReorderBuffer α).translate c := rfl
  simp only [reorderDrain, ready, drained, drainOrder_translate]

/-- What a call gives its caller. -/
inductive Answer (α : Type*) where
  | code (result : Int)
  | packets (out : List (Option α))

/-- One call with its answer, undefined where `Session.call` is. -/
def answer (seq : α → UInt64) (b : ReorderBuffer α) : Call α → Option (Answer α × ReorderBuffer α)
  | .insert pkt =>
      if b.Allocated then
        let inserted := reorderInsert b pkt (seq pkt)
        some (.code inserted.1, inserted.2)
      else none
  | .drain maxPkts =>
      if maxPkts = 0 ∨ b.Allocated then
        let drained := reorderDrain b maxPkts
        some (.packets drained.1, drained.2)
      else none

/-- The answers to the calls on a new buffer, in order. -/
def answers (seq : α → UInt64) (n : Nat) (calls : List (Call α)) : Option (List (Answer α)) :=
  (traceOption (answer seq) (reorderCreate n) calls).map Prod.fst

theorem answer_translate (seq : α → UInt64) (c : UInt64) (b : ReorderBuffer α) (call : Call α) :
    answer (fun p => seq p + c) (b.translate c) call =
      (answer seq b call).map fun first => (first.1, first.2.translate c) := by
  cases call with
  | insert pkt =>
      simp only [answer, ReorderBuffer.translate_allocated, reorderInsert_translate]
      split <;> rfl
  | drain maxPkts =>
      simp only [answer, ReorderBuffer.translate_allocated, reorderDrain_translate]
      split <;> rfl

/-- A call is undefined exactly if it touches a ring that is not allocated. -/
theorem answer_isSome_iff (seq : α → UInt64) (b : ReorderBuffer α) (call : Call α) :
    (answer seq b call).isSome = true ↔ b.Allocated ∨ call = .drain 0 := by
  cases call with
  | insert pkt =>
      by_cases allocated : b.Allocated
      · simp [answer, allocated]
      · simp [answer, allocated]
  | drain maxPkts =>
      by_cases touches : maxPkts = 0 ∨ b.Allocated
      · simp [answer, touches, or_comm.mp touches]
      · simp [answer, not_or.mp touches]

theorem answer_layout {seq : α → UInt64} {b : ReorderBuffer α} {call : Call α}
    {given : Answer α × ReorderBuffer α} (called : answer seq b call = some given) :
    SameLayout b given.2 := by
  cases call with
  | insert pkt =>
      simp only [answer, Option.ite_none_right_eq_some, Option.some.injEq] at called
      obtain ⟨_, rfl⟩ := called
      exact reorderInsert_layout b pkt (seq pkt)
  | drain maxPkts =>
      simp only [answer, Option.ite_none_right_eq_some, Option.some.injEq] at called
      obtain ⟨_, rfl⟩ := called
      exact reorderDrain_layout b maxPkts

theorem trace_isSome_iff {seq : α → UInt64} (calls : List (Call α)) (b : ReorderBuffer α) :
    (traceOption (answer seq) b calls).isSome = true ↔
      b.Allocated ∨ ∀ call ∈ calls, call = .drain 0 := by
  induction calls generalizing b with
  | nil => simp [traceOption]
  | cons call rest ih =>
      rw [List.forall_mem_cons, or_and_left, ← answer_isSome_iff seq]
      cases called : answer seq b call with
      | none => simp [traceOption, called]
      | some given =>
          have same := answer_layout called
          have layout : given.2.Allocated ↔ b.Allocated := by
            rw [ReorderBuffer.Allocated, same.memsize, same.size]
            rfl
          rw [traceOption, called, Option.bind_some, Option.isSome_map, ih, layout]
          simp

/-- All calls have answers exactly if the program allocates both rings, or no call touches
    one. -/
theorem answers_isSome_iff (seq : α → UInt64) {n : Nat} (small : n < 2 ^ 32)
    (calls : List (Call α)) : (answers seq n calls).isSome = true ↔
      72 + 2 * n * 8 < 2 ^ 32 ∨ ∀ call ∈ calls, call = .drain 0 := by
  have allocated : (reorderCreate n : ReorderBuffer α).Allocated ↔ 72 + 2 * n * 8 < 2 ^ 32 := by
    simp only [reorderCreate, reorderInit, lt_irrefl, if_false, ReorderBuffer.Allocated]
    exact le_reorderBufsize_iff small
  rw [answers, Option.isSome_map, trace_isSome_iff, allocated]

theorem answers_translate (seq : α → UInt64) (n : Nat) (c : UInt64) (calls : List (Call α)) :
    answers (fun p => seq p + c) n calls = answers seq n calls := by
  have fresh : (reorderCreate n : ReorderBuffer α).translate c = reorderCreate n := by
    apply ReorderBuffer.translate_fresh
    simp only [reorderCreate, reorderInit, lt_irrefl, if_false]
  have carried := traceOption_map (answer_translate seq c) calls (reorderCreate n)
  rw [fresh] at carried
  simp only [answers, carried, Option.map_map, Function.comp_def]

/-- The same calls under numbers larger by `c`, modulo `2 ^ 64`, all have answers, and the
    same ones, exactly if the size of both rings in bytes fits the `unsigned int` it is
    computed in, or no call touches a ring. -/
theorem wraparound_transparent_iff (seq : α → UInt64) {n : Nat} (_ : 0 < n)
    (small : n < 2 ^ 32) (c : UInt64) (calls : List (Call α)) :
    (∃ given, answers seq n calls = some given ∧ answers (fun p => seq p + c) n calls = some given) ↔
      72 + 2 * n * 8 < 2 ^ 32 ∨ ∀ call ∈ calls, call = .drain 0 := by
  simp only [answers_translate, and_self, ← Option.isSome_iff_exists]
  exact answers_isSome_iff seq small calls

/-- The numbers of two packets are moved to either side of the wrap. -/
theorem wraparound_transparent_four :
    UInt64.ofNat 10 + 0xFFFFFFFFFFFFFFF5 = 0xFFFFFFFFFFFFFFFF ∧
      UInt64.ofNat 11 + 0xFFFFFFFFFFFFFFF5 = 0 ∧
      ∃ given, answers UInt64.ofNat 4 [.insert 10, .insert 11, .insert 16, .drain 3] = some given ∧
        answers (fun p => UInt64.ofNat p + 0xFFFFFFFFFFFFFFF5) 4
          [.insert 10, .insert 11, .insert 16, .drain 3] = some given :=
  ⟨by decide, by decide, (wraparound_transparent_iff _ (by decide) (by decide) _ _).mpr (.inl (by decide))⟩

/-- With `2 ^ 28` slots the first insertion stores outside the allocation, and neither run
    has an answer. -/
theorem wraparound_unanswered :
    reorderBufsize (2 ^ 28) = 72 ∧ answers UInt64.ofNat (2 ^ 28) [.insert 10] = none ∧
      answers (fun p => UInt64.ofNat p + 1) (2 ^ 28) [.insert 10] = none := by
  have unanswered : ¬ (answers UInt64.ofNat (2 ^ 28) [.insert 10]).isSome = true := by
    rw [answers_isSome_iff _ (by decide)]
    simp
  rw [answers_translate]
  exact ⟨by decide, by simpa using unanswered, by simpa using unanswered⟩

end Mlvpn.Reorder
