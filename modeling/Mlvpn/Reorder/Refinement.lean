import Mlvpn.Library.Machine
import Mlvpn.Reorder.Span

/-! # The reorder buffer refines the window

Under the discipline of its caller, a drain of everything after each insertion,
the two rings of a power-of-two size behave as the abstract window.  The ready
ring cannot fill up on the way: it starts empty, the slot under the head of the
order ring is empty too, and so at most `n - 1` packets are ever moved.
-/

namespace Mlvpn.Reorder

open Library.MaskedRing Library.Machine

variable {α : Type*} {n : Nat}

/-- A span that has released everything below `next` out of a window which
    started at `start` with the packets `held`. -/
structure Flushed (held : Nat → Option α) (start : Nat) (a : Span α) : Prop where
  low : start ≤ a.next
  ready : a.ready = between held start a.next
  rest : ∀ x, a.next ≤ x → a.held x = held x

namespace Flushed

variable {held : Nat → Option α} {start : Nat} {a : Span α}

/-- An empty first slot leaves room for every packet released so far. -/
theorem ready_length (h : Flushed held start a) (empty : held start = none) (above : start < a.next) :
    a.ready.length + 1 ≤ a.next - start := by
  have first : between held start (start + 1) = [] := by
    rw [between_succ held (le_refl _), between_self, empty]
    rfl
  have shorter : a.ready = between held (start + 1) a.next := by
    rw [h.ready, ← between_append held (Nat.le_succ start) above, first, List.nil_append]
  have bound := between_length_le held (start + 1) a.next
  rw [shorter]
  omega

theorem skip (h : Flushed held start a) (blocked : held a.next = none) :
    a.skip = { a with next := a.next + 1 } ∧ Flushed held start a.skip := by
  have same : a.skip = { a with next := a.next + 1 } := by
    rw [Span.skip, h.rest a.next (le_refl _), if_pos blocked]
  refine ⟨same, ?_⟩
  rw [same]
  refine ⟨Nat.le_succ_of_le h.low, ?_, fun x high => h.rest x (Nat.le_of_succ_le high)⟩
  simp only [h.ready, between_succ held h.low, blocked, Option.toList_none, List.append_nil]

theorem take (h : Flushed held start a) {p : α} (found : held a.next = some p) :
    Flushed held start { a.clear with ready := a.ready ++ [p] } where
  low := Nat.le_succ_of_le h.low
  ready := by
    simp only [Span.clear, h.ready, between_succ held h.low, found, Option.toList_some]
  rest := by
    intro x high
    have different : x ≠ a.next := by
      simp only [Span.clear] at high
      omega
    simp only [Span.clear, Function.update_of_ne different]
    exact h.rest x (by simp only [Span.clear] at high; omega)

/-- A run is moved as a whole, up to the first number not held. -/
theorem moveRun (empty : held start = none) (above : ∀ x, start + n ≤ x → held x = none)
    (fuel : Nat) (h : Flushed held start a) (enough : start + n ≤ a.next + fuel) :
    Flushed held start (a.moveRun n fuel) ∧ a.next ≤ (a.moveRun n fuel).next ∧
      held (a.moveRun n fuel).next = none ∧
      ∀ x, a.next ≤ x → x < (a.moveRun n fuel).next → held x ≠ none := by
  induction fuel generalizing a with
  | zero =>
      exact ⟨h, le_refl _, above _ enough, fun x low high => absurd high (Nat.not_lt.mpr low)⟩
  | succ fuel ih =>
      have read := h.rest a.next (le_refl _)
      cases found : held a.next with
      | none =>
          rw [found] at read
          simp only [Span.moveRun, read]
          exact ⟨h, le_refl _, found, fun x low high => absurd high (Nat.not_lt.mpr low)⟩
      | some p =>
          rw [found] at read
          have inside : a.next < start + n := by
            by_contra outside
            rw [above a.next (by omega)] at found
            cases found
          have beyond : start < a.next := by
            rcases Nat.lt_or_eq_of_le h.low with less | same
            · exact less
            · rw [← same, empty] at found
              cases found
          have room : ¬ a.ready.length + 1 = n := by
            have := h.ready_length empty beyond
            omega
          simp only [Span.moveRun, read, room, if_false]
          obtain ⟨flushed, low, free, filled⟩ := ih (h.take found) (by
            simp only [Span.clear]
            omega)
          refine ⟨flushed, le_trans (Nat.le_succ _) low, free, ?_⟩
          intro x from_ to_
          rcases Nat.lt_or_eq_of_le from_ with less | same
          · exact filled x less to_
          · rw [← same, found]
            exact Option.some_ne_none p

/-- The overflow path stops at the first number, from the required one on, that
    is not held. -/
theorem fill {needed : Nat} (two : 2 ≤ n) (fits : needed ≤ n) (empty : held start = none)
    (above : ∀ x, start + n ≤ x → held x = none) (fuel : Nat) (h : Flushed held start a)
    (free : held a.next = none) (high : a.next ≤ start + n)
    (filled : ∀ x, start + needed ≤ x → x < a.next → held x ≠ none)
    (enough : start + needed ≤ a.next + fuel) :
    Flushed held start (a.fill n start needed fuel) ∧
      start + needed ≤ (a.fill n start needed fuel).next ∧
      (a.fill n start needed fuel).next ≤ start + n ∧
      ∀ x, start + needed ≤ x → x < (a.fill n start needed fuel).next → held x ≠ none := by
  induction fuel generalizing a with
  | zero => exact ⟨h, enough, high, filled⟩
  | succ fuel ih =>
      rw [Span.fill]
      have low := h.low
      by_cases more : a.next - start < needed ∧ ¬ a.ready.length + 1 = n
      · rw [if_pos more]
        obtain ⟨same, skipped⟩ := h.skip free
        have nextEq : a.skip.next = a.next + 1 := by rw [same]
        obtain ⟨moved, onward, freeAgain, run⟩ := moveRun empty above n skipped (by omega)
        refine ih moved freeAgain ?_ ?_ (by omega)
        · by_contra outside
          have reached := run (start + n) (by omega) (by omega)
          exact reached (above _ (le_refl _))
        · intro x low' high'
          exact run x (by omega) high'
      · rw [if_neg more]
        refine ⟨h, ?_, high, filled⟩
        by_contra short
        have full : a.ready.length + 1 = n := by
          by_contra notFull
          exact more ⟨by omega, notFull⟩
        rcases Nat.lt_or_eq_of_le h.low with less | same
        · have := h.ready_length empty less
          omega
        · rw [h.ready, ← same, between_self, List.length_nil] at full
          omega

end Flushed

theorem OrderHolds.congr {c : CirBuffer α} {next : Nat} {held other : Nat → Option α}
    (h : OrderHolds n c next held) (agree : ∀ x, next ≤ x → other x = held x) :
    OrderHolds n c next other where
  size := h.size
  mask := h.mask
  headLt := h.headLt
  slots := fun i inside => by rw [h.slots i inside, agree _ (Nat.le_add_right _ _)]
  above := fun x high => by rw [agree x (by omega), h.above x high]

/-- The whole buffer read as a span. -/
structure BufferHolds (n : Nat) (b : ReorderBuffer α) (a : Span α) : Prop where
  order : OrderHolds n b.orderBuf a.next a.held
  ready : ReadyHolds n b.readyBuf a.ready
  seqn : b.minSeqn = UInt64.ofNat a.next

theorem drainReady_holds (power : n.isPowerOfTwo) (wanted : Nat) {c : CirBuffer α}
    {items : List α} (h : ReadyHolds n c items) :
    (drainReady wanted c).1 = (items.take wanted).map some ∧
      ReadyHolds n (drainReady wanted c).2 (items.drop wanted) := by
  have period : IsPeriod c.mask n := by
    rw [h.mask]
    exact isPeriod_of_isPowerOfTwo power
  obtain ⟨output, tail, same, holds⟩ := drainReady_spec wanted period h.holds
  rw [same]
  exact ⟨output, h.mask, holds⟩

/-- `m` ends the run of held numbers from `start` on, or is `wanted` of them away. -/
structure EndsRun (held : Nat → Option α) (start wanted m : Nat) : Prop where
  low : start ≤ m
  stop : held m = none ∨ m = start + wanted
  full : ∀ x, start ≤ x → x < m → held x ≠ none

theorem EndsRun.here {held : Nat → Option α} {start wanted : Nat}
    (stop : held start = none ∨ start = start + wanted) : EndsRun held start wanted start :=
  ⟨le_refl _, stop, fun _ low high => absurd high (Nat.not_lt.mpr low)⟩

/-- One packet more at the lower end. -/
theorem EndsRun.cons {held other : Nat → Option α} {start wanted m : Nat} {p : α}
    (found : held start = some p) (agree : ∀ x, start + 1 ≤ x → held x = other x)
    (h : EndsRun other (start + 1) wanted m) :
    EndsRun held start (wanted + 1) m ∧
      between held start m = p :: between other (start + 1) m := by
  have onward := h.low
  refine ⟨⟨by omega, ?_, ?_⟩, ?_⟩
  · rcases h.stop with free | reached
    · exact .inl ((agree m onward).trans free)
    · exact .inr (by omega)
  · intro x from_ to_
    rcases Nat.lt_or_eq_of_le from_ with less | same
    · rw [agree x less]
      exact h.full x less to_
    · rw [← same, found]
      exact Option.some_ne_none p
  · have tail : between held (start + 1) m = between other (start + 1) m :=
      between_congr (fun x from_ _ => agree x from_)
    rw [← between_append held (Nat.le_succ _) onward, between_succ held (le_refl _), between_self,
      found, tail]
    rfl

/-- The order ring is drained from its lower end, up to the first number that
    is missing or to the number of packets asked for. -/
theorem drainOrder_holds (power : n.isPowerOfTwo) (wanted : Nat) {b : ReorderBuffer α}
    {a : Span α} (h : BufferHolds n b a) :
    ∃ m, EndsRun a.held a.next wanted m ∧
      (drainOrder wanted b).1 = (between a.held a.next m).map some ∧
      (drainOrder wanted b).2.isInitialized = b.isInitialized ∧
      BufferHolds n (drainOrder wanted b).2 { a with next := m } := by
  induction wanted generalizing b a with
  | zero =>
      refine ⟨a.next, .here (.inr rfl), ?_, rfl, h⟩
      rw [between_self]
      rfl
  | succ wanted ih =>
      have read := h.order.head_eq
      cases found : a.held a.next with
      | none =>
          rw [found] at read
          simp only [drainOrder, read]
          exact ⟨a.next, .here (.inl found), by rw [between_self]; rfl, trivial, h⟩
      | some p =>
          rw [found] at read
          let later : ReorderBuffer α :=
            { b with
              orderBuf := (b.orderBuf.write b.orderBuf.head none).advance
              minSeqn := b.minSeqn + 1 }
          have cleared : BufferHolds n later a.clear := by
            refine ⟨h.order.clear power, h.ready, ?_⟩
            simp only [later, Span.clear, h.seqn, UInt64.ofNat_add]
            rfl
          have agree : ∀ x, a.next + 1 ≤ x → a.held x = a.clear.held x := by
            intro x high
            simp only [Span.clear, Function.update_of_ne (by omega : x ≠ a.next)]
          obtain ⟨m, run, output, initialized, holds⟩ := ih cleared
          obtain ⟨longer, items⟩ := run.cons found agree
          have step : drainOrder (wanted + 1) b =
              (some p :: (drainOrder wanted later).1, (drainOrder wanted later).2) := by
            simp only [drainOrder, read, later]
          rw [step]
          refine ⟨m, longer, ?_, initialized, holds.order.congr ?_, holds.ready, holds.seqn⟩
          · rw [output, items]
            rfl
          · intro x high
            exact agree x (le_trans run.low high)

/-- What an accepted insertion leaves behind: a span that has released the
    packets below its lower end and holds the new packet with the others. -/
structure Inserted (w : Window α n) (x : Nat) (pkt : α) (a : Span α) : Prop where
  low : max w.next (x + 1 - n) ≤ a.next
  high : a.next ≤ x
  ready : a.ready = between (w.add x pkt) w.next a.next
  rest : ∀ y, a.next ≤ y → a.held y = w.add x pkt y
  filled : ∀ y, max w.next (x + 1 - n) ≤ y → y < a.next → w.add x pkt y ≠ none

/-- The span of a window whose ready queue has been drained. -/
def Window.toSpan (w : Window α n) : Span α := { next := w.next, held := w.held, ready := [] }

theorem Window.held_next (w : Window α n) : w.held w.next = none := by
  by_contra found
  have := (w.bounded _ found).1
  omega

theorem Window.held_above (w : Window α n) (x : Nat) (high : w.next + n ≤ x) : w.held x = none := by
  by_contra found
  have := (w.bounded _ found).2
  omega

theorem storeAt_holds (power : n.isPowerOfTwo) {b : ReorderBuffer α} {a : Span α}
    (h : BufferHolds n b a) {offset : Nat} (inside : offset < n) (pkt : α) :
    BufferHolds n (storeAt b offset pkt)
      { a with held := Function.update a.held (a.next + offset) (some pkt) } := by
  refine ⟨?_, h.ready, h.seqn⟩
  simp only [storeAt, h.order.mask, and_mask_of_isPowerOfTwo power]
  exact h.order.write inside (some pkt)

/-- Advancing the window brings a sequence number closer by as much. -/
theorem distance_advanced {seq : UInt64} {m adv : Nat}
    (within : adv ≤ (seq - UInt64.ofNat m).toNat) :
    (seq - UInt64.ofNat (m + adv)).toNat = (seq - UInt64.ofNat m).toNat - adv := by
  have seqLt := seq.toNat_lt
  rw [UInt64.toNat_sub, UInt64.toNat_ofNat'] at within ⊢
  rw [UInt64.toNat_sub, UInt64.toNat_ofNat']
  omega

theorem insert_inside (power : n.isPowerOfTwo) {b : ReorderBuffer α} {w : Window α n}
    (ready : b.isInitialized = true) (h : BufferHolds n b w.toSpan) {seq : UInt64}
    (near : w.distance seq < n) (pkt : α) :
    (reorderInsert b pkt seq).1 = 0 ∧ (reorderInsert b pkt seq).2.isInitialized = true ∧
      ∃ a, BufferHolds n (reorderInsert b pkt seq).2 a ∧
        Inserted w (w.next + w.distance seq) pkt a := by
  have seqn : b.minSeqn = UInt64.ofNat w.next := h.seqn
  have near' : (seq - UInt64.ofNat w.next).toNat < n := near
  simp only [reorderInsert, reorderBegin, ready, if_true, seqn, h.order.size, near']
  refine ⟨trivial, ready, _, storeAt_holds power h near' pkt, ?_⟩
  have lower : max w.next (w.next + w.distance seq + 1 - n) = w.next := by omega
  refine ⟨by simp only [lower, Window.toSpan, le_refl], Nat.le_add_right _ _, ?_, fun _ _ => rfl, ?_⟩
  · simp only [Window.toSpan, between_self]
  · intro y from_ to_
    simp only [lower, Window.toSpan] at from_ to_
    omega

/-- `mlvpn_reorder_fill_overflow` fills the span that the buffer holds. -/
theorem fillOverflow_holds (power : n.isPowerOfTwo) {b : ReorderBuffer α} {a : Span α}
    (h : BufferHolds n b a) (needed : Nat) :
    BufferHolds n (reorderFillOverflow b needed).2 (a.fill n a.next needed needed) ∧
      (a.fill n a.next needed needed).next = a.next + (reorderFillOverflow b needed).1 := by
  let moving : Moving α := { orderBuf := b.orderBuf, readyBuf := b.readyBuf, adv := 0 }
  have begun : MovingHolds n a.next moving a := ⟨h.order, h.ready, rfl⟩
  have simulated := fillLoop_holds power needed needed begun
  refine ⟨⟨simulated.order, simulated.ready, ?_⟩, simulated.adv⟩
  rw [simulated.adv, UInt64.ofNat_add, ← h.seqn]
  rfl

/-- `mlvpn_reorder_fill_overflow` makes the room it is asked for, and goes on to
    the first number that is not held. -/
theorem fillOverflow_flushes (power : n.isPowerOfTwo) (two : 2 ≤ n) {b : ReorderBuffer α}
    {w : Window α n} (h : BufferHolds n b w.toSpan) (needed : Nat) (fits : needed ≤ n) :
    ∃ a, BufferHolds n (reorderFillOverflow b needed).2 a ∧ Flushed w.held w.next a ∧
      a.next = w.next + (reorderFillOverflow b needed).1 ∧ w.next + needed ≤ a.next ∧
      a.next ≤ w.next + n ∧ ∀ x, w.next + needed ≤ x → x < a.next → w.held x ≠ none := by
  obtain ⟨simulated, adv⟩ := fillOverflow_holds power h needed
  have nothing : Flushed w.held w.next w.toSpan :=
    ⟨le_refl _, (between_self _ _).symm, fun _ _ => rfl⟩
  obtain ⟨flushed, reached, bounded, filled⟩ := nothing.fill two fits w.held_next w.held_above needed
    w.held_next (by simp only [Window.toSpan]; omega)
    (fun x low high => by simp only [Window.toSpan] at high; omega)
    (by simp only [Window.toSpan]; omega)
  exact ⟨_, simulated, flushed, adv, reached, bounded, filled⟩

/-- A packet above a flushed span is inserted, if what was passed on the way down
    from the top of its window was held. -/
theorem Flushed.inserted {w : Window α n} {a : Span α} {x : Nat} (h : Flushed w.held w.next a)
    (low : max w.next (x + 1 - n) ≤ a.next) (high : a.next ≤ x) (pkt : α)
    (filled : ∀ y, max w.next (x + 1 - n) ≤ y → y < a.next → w.held y ≠ none) :
    Inserted w x pkt { a with held := Function.update a.held x (some pkt) } := by
  have unchanged : ∀ y, y < a.next → w.add x pkt y = w.held y := by
    intro y below
    rw [Window.add, Function.update_of_ne (by omega)]
  refine ⟨low, high, ?_, ?_, ?_⟩
  · rw [h.ready]
    exact between_congr (fun y _ below => (unchanged y below).symm)
  · intro y above
    by_cases same : y = x
    · simp only [same, Window.add, Function.update_self]
    · simp only [Window.add, Function.update_of_ne same]
      exact h.rest y above
  · intro y from_ to_
    rw [unchanged y to_]
    exact filled y from_ to_

theorem insert_overflow (power : n.isPowerOfTwo) (two : 2 ≤ n) (small : n ≤ 2 ^ 30)
    {b : ReorderBuffer α} {w : Window α n} (ready : b.isInitialized = true)
    (h : BufferHolds n b w.toSpan) {seq : UInt64} (far : n ≤ w.distance seq)
    (near : w.distance seq < 2 * n) (pkt : α) :
    (reorderInsert b pkt seq).1 = 0 ∧ (reorderInsert b pkt seq).2.isInitialized = true ∧
      ∃ a, BufferHolds n (reorderInsert b pkt seq).2 a ∧
        Inserted w (w.next + w.distance seq) pkt a := by
  have offset : (seq - b.minSeqn).toNat = w.distance seq := by rw [h.seqn]; rfl
  have advanced (adv : Nat) (within : adv ≤ w.distance seq) :
      (seq - UInt64.ofNat (w.next + adv)).toNat = w.distance seq - adv := distance_advanced within
  generalize w.distance seq = d at far near offset advanced
  obtain ⟨a, after, flushed, adv, reached, bounded, filled⟩ :=
    fillOverflow_flushes power two h (d + 1 - n) (by omega)
  have remaining := advanced _ (by omega : (reorderFillOverflow b (d + 1 - n)).1 ≤ d)
  rw [← adv, ← after.seqn] at remaining
  have result : reorderInsert b pkt seq =
      (0, storeAt (reorderFillOverflow b (d + 1 - n)).2
        (d - (reorderFillOverflow b (d + 1 - n)).1) pkt) := by
    have notInside : ¬ d < n := by omega
    have overflow : d < 2 * n % 2 ^ 32 := by omega
    have notShort : ¬ (reorderFillOverflow b (d + 1 - n)).1 < d + 1 - n := by omega
    simp only [reorderInsert, reorderBegin, ready, if_true, offset, h.order.size, notInside,
      if_false, overflow, notShort, remaining]
  have inside : d - (reorderFillOverflow b (d + 1 - n)).1 < n := by omega
  have stored := storeAt_holds power after inside pkt
  have number : a.next + (d - (reorderFillOverflow b (d + 1 - n)).1) = w.next + d := by omega
  rw [number] at stored
  rw [result]
  exact ⟨rfl, ready, _, stored, flushed.inserted (by omega) (by omega) pkt
    fun y from_ to_ => filled y (by omega) to_⟩

theorem Window.add_below (w : Window α n) {x y : Nat} {pkt : α} (high : w.next ≤ x)
    (below : y < w.next) : w.add x pkt y = none := by
  by_contra found
  rcases w.add_bounded found with same | ⟨above, _⟩ <;> omega

/-- The packets numbered below `m` are those from the lower end of the window on. -/
theorem Window.released_eq (w : Window α n) {x m : Nat} {pkt : α} (high : w.next ≤ x)
    (low : w.next ≤ m) :
    (List.range m).filterMap (w.add x pkt) = between (w.add x pkt) w.next m := by
  have nothing : between (w.add x pkt) 0 w.next = [] := by
    apply List.filterMap_eq_nil_iff.mpr
    intro y member
    exact w.add_below high (by have := List.mem_range'_1.mp member; omega)
  have all := between_append (w.add x pkt) (Nat.zero_le w.next) low
  rw [nothing, List.nil_append] at all
  rw [all, between, List.range_eq_range', Nat.sub_zero]

/-- The window expects the number at which the run above its span ends. -/
theorem Inserted.expected_eq {w : Window α n} {x wanted m : Nat} {pkt : α} {a : Span α}
    (h : Inserted w x pkt a) (run : EndsRun a.held a.next wanted m) (free : a.held m = none) :
    w.expected x pkt = m := by
  have low := h.low
  have onward := run.low
  apply w.expected_eq (by omega)
  · rw [← h.rest m onward]
    exact free
  · intro y from_ to_
    by_cases below : y < a.next
    · exact h.filled y from_ below
    · rw [← h.rest y (Nat.le_of_not_lt below)]
      exact run.full y (Nat.le_of_not_lt below) to_

theorem reorderDrain_inserted (power : n.isPowerOfTwo) {b : ReorderBuffer α} {a : Span α}
    {w : Window α n} {x maxPkts : Nat} {pkt : α} (h : BufferHolds n b a)
    (inserted : Inserted w x pkt a) (wanted : 2 * n ≤ maxPkts) :
    (reorderDrain b maxPkts).1 =
        ((List.range (w.expected x pkt)).filterMap (w.add x pkt)).map some ∧
      (reorderDrain b maxPkts).2.isInitialized = b.isInitialized ∧
      BufferHolds n (reorderDrain b maxPkts).2 (w.advance x pkt).toSpan := by
  have short := h.ready.holds.short
  have low := inserted.low
  have high := inserted.high
  obtain ⟨fromReady, emptied⟩ := drainReady_holds power maxPkts h.ready
  rw [List.take_of_length_le (by omega)] at fromReady
  rw [List.drop_eq_nil_of_le (by omega)] at emptied
  let b' : ReorderBuffer α := { b with readyBuf := (drainReady maxPkts b.readyBuf).2 }
  have holds : BufferHolds n b' { a with ready := [] } := ⟨h.order, emptied, h.seqn⟩
  obtain ⟨m, run, output, initialized, drained⟩ :=
    drainOrder_holds power (maxPkts - (drainReady maxPkts b.readyBuf).1.length) holds
  have onward : a.next ≤ m := run.low
  -- a run as long as the request would pass the top of the window
  have free : a.held m = none := by
    rcases run.stop with free | reached
    · exact free
    · by_contra _
      simp only [fromReady, List.length_map] at reached
      exact run.full (a.next + n) (Nat.le_add_right _ _) (by omega) (h.order.above _ (le_refl _))
  have expected := inserted.expected_eq run free
  have tail : between a.held a.next m = between (w.add x pkt) a.next m :=
    between_congr (fun y from_ _ => inserted.rest y from_)
  refine ⟨?_, initialized, ?_⟩
  · have both : (reorderDrain b maxPkts).1 =
        a.ready.map some ++ (between a.held a.next m).map some := by
      simp only [reorderDrain]
      rw [output, fromReady]
    rw [both, ← List.map_append, tail, inserted.ready,
      between_append (w.add x pkt) (by omega) onward, expected,
      w.released_eq (by omega) (by omega)]
  · refine ⟨?_, drained.ready, ?_⟩
    · have order := drained.order
      simp only [Window.toSpan, Window.advance, expected]
      refine order.congr ?_
      intro y from_
      rw [if_neg (Nat.not_lt.mpr from_)]
      exact (inserted.rest y (le_trans onward from_)).symm
    · simp only [Window.toSpan, Window.advance, expected]
      exact drained.seqn

theorem reorderDrain_idle (power : n.isPowerOfTwo) {b : ReorderBuffer α} {w : Window α n}
    (h : BufferHolds n b w.toSpan) (maxPkts : Nat) :
    (reorderDrain b maxPkts).1 = [] ∧
      (reorderDrain b maxPkts).2.isInitialized = b.isInitialized ∧
      BufferHolds n (reorderDrain b maxPkts).2 w.toSpan := by
  obtain ⟨fromReady, emptied⟩ := drainReady_holds power maxPkts h.ready
  simp only [Window.toSpan, List.take_nil, List.map_nil, List.drop_nil] at fromReady emptied
  let b' : ReorderBuffer α := { b with readyBuf := (drainReady maxPkts b.readyBuf).2 }
  have holds : BufferHolds n b' w.toSpan := ⟨h.order, emptied, h.seqn⟩
  obtain ⟨m, ⟨onward, _, run⟩, output, initialized, drained⟩ :=
    drainOrder_holds power (maxPkts - (drainReady maxPkts b.readyBuf).1.length) holds
  have stayed : m = w.next := by
    by_contra moved
    have onward' : w.next ≤ m := onward
    exact run w.next (le_refl _) (by omega) w.held_next
  subst stayed
  refine ⟨?_, initialized, drained⟩
  simp only [reorderDrain]
  rw [output, fromReady]
  simp only [Window.toSpan, between_self, List.map_nil, List.append_nil]

/-- A buffer that has not seen a packet is empty at any starting number. -/
def Represents (n : Nat) (b : ReorderBuffer α) : Option (Window α n) → Prop
  | none =>
      b.isInitialized = false ∧ (∀ next, OrderHolds n b.orderBuf next (fun _ => none)) ∧
        ReadyHolds n b.readyBuf []
  | some w => b.isInitialized = true ∧ BufferHolds n b w.toSpan

theorem reorderCreate_represents (power : n.isPowerOfTwo) (small : n ≤ 2 ^ 31) :
    Represents n (reorderCreate n : ReorderBuffer α) none := by
  have positive : 0 < n := Nat.pos_of_isPowerOfTwo power
  have mask : (n + 2 ^ 32 - 1) % 2 ^ 32 = n - 1 := by omega
  simp only [reorderCreate, reorderInit, lt_irrefl, if_false, CirBuffer.zeroed, mask]
  refine ⟨rfl, fun next => ⟨rfl, rfl, positive, fun _ _ => rfl, fun _ _ => rfl⟩, rfl, ?_⟩
  exact Holds.empty _ positive

theorem reorderBegin_represents {b : ReorderBuffer α} {state : Option (Window α n)} (seq : UInt64)
    (h : Represents n b state) :
    Represents n (reorderBegin b seq) (some (state.getD (Window.start seq))) := by
  cases state with
  | none =>
      obtain ⟨fresh, order, ready⟩ := h
      simp only [reorderBegin, fresh, Bool.false_eq_true, if_false]
      exact ⟨rfl, order _, ready, UInt64.ofNat_toNat.symm⟩
  | some w =>
      simp only [reorderBegin, h.1, if_true]
      exact h

theorem reorderBegin_begin (b : ReorderBuffer α) (seq : UInt64) :
    reorderBegin (reorderBegin b seq) seq = reorderBegin b seq := by
  cases initialized : b.isInitialized <;> simp [reorderBegin, initialized]

theorem reorderInsert_begin (b : ReorderBuffer α) (pkt : α) (seq : UInt64) :
    reorderInsert b pkt seq = reorderInsert (reorderBegin b seq) pkt seq := by
  simp only [reorderInsert, reorderBegin_begin]

/-- There is nothing to drain before the first packet. -/
theorem Represents.drain_untouched {b : ReorderBuffer α} (h : Represents n b none)
    (maxPkts : Nat) : reorderDrain b maxPkts = ([], b) := by
  obtain ⟨_, order, ready⟩ := h
  have free : b.orderBuf.pkts b.orderBuf.head = none := (order 0).head_eq
  have stopped : b.readyBuf.tail = b.readyBuf.head := ready.holds.eq_iff_nil.mpr rfl
  have fromReady : drainReady maxPkts b.readyBuf = ([], b.readyBuf) := by
    cases maxPkts with
    | zero => rfl
    | succ wanted => rw [drainReady, if_pos stopped]
  simp only [reorderDrain, fromReady, List.length_nil, Nat.sub_zero, List.nil_append]
  cases maxPkts with
  | zero => rfl
  | succ wanted => simp only [drainOrder, free]

/-- One packet as the receive path offers it: an insertion, and a drain of at
    most `maxPkts`. -/
structure Offer (α : Type*) where
  pkt : α
  seq : UInt64
  maxPkts : Nat

/-- The insertion is undefined (`none`) when the order ring is not inside the
    allocation: `order_slot_outside`. -/
def offer (b : ReorderBuffer α) (o : Offer α) :
    Option ((Int × List (Option α)) × ReorderBuffer α) :=
  if b.Allocated then
    let inserted := reorderInsert b o.pkt o.seq
    let drained := reorderDrain inserted.2 o.maxPkts
    some ((inserted.1, drained.1), drained.2)
  else none

/-- The window's answer to an offer. -/
def Window.offered (state : Option (Window α n)) (o : Offer α) :
    (Int × List α) × Option (Window α n) :=
  Window.accept state o.pkt o.seq

/-- The window's answer as the pointers the drain hands back. -/
def pointers (answer : Int × List α) : Int × List (Option α) := (answer.1, answer.2.map some)

theorem insert_drain_simulates (power : n.isPowerOfTwo) (two : 2 ≤ n) (small : n ≤ 2 ^ 30)
    {b : ReorderBuffer α} {state : Option (Window α n)} (o : Offer α)
    (h : Represents n b state) (wanted : 2 * n ≤ o.maxPkts) :
    let inserted := reorderInsert b o.pkt o.seq
    let drained := reorderDrain inserted.2 o.maxPkts
    (inserted.1, drained.1) = pointers (Window.offered state o).1 ∧
      Represents n drained.2 (Window.offered state o).2 := by
  have begun := reorderBegin_represents o.seq h
  rw [reorderInsert_begin]
  generalize reorderBegin b o.seq = started at begun ⊢
  simp only [Window.offered, Window.accept]
  generalize state.getD (Window.start o.seq) = w at begun ⊢
  obtain ⟨initialized, holds⟩ := begun
  by_cases stale : 2 * n ≤ w.distance o.seq
  · have product : 2 * n % 2 ^ 32 = 2 * n := Nat.mod_eq_of_lt (by omega)
    have refused : reorderInsert started o.pkt o.seq = (-2, started) := by
      have offset : (o.seq - started.minSeqn).toNat = w.distance o.seq := by rw [holds.seqn]; rfl
      have notInside : ¬ w.distance o.seq < n := by omega
      have notNear : ¬ w.distance o.seq < 2 * n % 2 ^ 32 := by omega
      simp only [reorderInsert, reorderBegin, initialized, if_true, offset, holds.order.size,
        notInside, if_false, notNear]
    obtain ⟨nothing, kept, same⟩ := reorderDrain_idle power holds o.maxPkts
    simp only [stale, if_true, refused, nothing]
    exact ⟨rfl, kept.trans initialized, same⟩
  · have accepted : (reorderInsert started o.pkt o.seq).1 = 0 ∧
        (reorderInsert started o.pkt o.seq).2.isInitialized = true ∧
        ∃ a, BufferHolds n (reorderInsert started o.pkt o.seq).2 a ∧
          Inserted w (w.next + w.distance o.seq) o.pkt a := by
      by_cases inside : w.distance o.seq < n
      · exact insert_inside power initialized holds inside o.pkt
      · exact insert_overflow power two small initialized holds (by omega) (by omega) o.pkt
    obtain ⟨zero, kept, a, after, inserted⟩ := accepted
    obtain ⟨output, keptAgain, advanced⟩ := reorderDrain_inserted power after inserted wanted
    simp only [stale, if_false, zero, output]
    exact ⟨rfl, keptAgain.trans kept, advanced⟩

theorem Represents.size {b : ReorderBuffer α} {state : Option (Window α n)}
    (h : Represents n b state) : b.orderBuf.size = n := by
  cases state with
  | none => exact (h.2.1 0).size
  | some w => exact h.2.order.size

/-- One offer to a buffer that fits its allocation. -/
theorem offer_simulates (power : n.isPowerOfTwo) (two : 2 ≤ n) (fits : 72 + 2 * n * 8 < 2 ^ 32)
    {b : ReorderBuffer α} {state : Option (Window α n)} (o : Offer α)
    (h : Represents n b state ∧ b.memsize = reorderBufsize n) (wanted : 2 * n ≤ o.maxPkts) :
    ∃ b', offer b o = some (pointers (Window.offered state o).1, b') ∧
      Represents n b' (Window.offered state o).2 ∧ b'.memsize = reorderBufsize n := by
  obtain ⟨represents, memsize⟩ := h
  have allocated : b.Allocated := by
    rw [ReorderBuffer.Allocated, represents.size, memsize]
    exact (le_reorderBufsize_iff (by omega)).mpr fits
  obtain ⟨same, after⟩ := insert_drain_simulates power two (by omega) o represents wanted
  refine ⟨_, by simp only [offer, allocated, if_true, same], after, ?_⟩
  rw [(reorderDrain_layout _ _).memsize, (reorderInsert_layout _ _ _).memsize, memsize]

/-- Run on every sequence of offers, the buffer gives the answers of the
    abstract window and ends in the state it represents. -/
def RefinesWindow (α : Type*) (n : Nat) : Prop :=
  ∀ offers : List (Offer α), (∀ o ∈ offers, 2 * n ≤ o.maxPkts) →
    ∃ b, traceOption offer (reorderCreate n) offers =
        some ((trace Window.offered (none : Option (Window α n)) offers).1.map pointers, b) ∧
      Represents n b (trace Window.offered none offers).2

theorem refinesWindow_of_fits {k : Nat} (two : 1 ≤ k) (fits : k < 28) :
    RefinesWindow α (2 ^ k) := by
  intro offers wanted
  have power : (2 ^ k).isPowerOfTwo := ⟨k, rfl⟩
  have atLeast : 2 ≤ 2 ^ k := by
    calc 2 = 2 ^ 1 := rfl
      _ ≤ 2 ^ k := Nat.pow_le_pow_right (by omega) two
  have atMost : 2 ^ k ≤ 2 ^ 27 := Nat.pow_le_pow_right (by omega) (by omega)
  have created : Represents (2 ^ k) (reorderCreate (2 ^ k) : ReorderBuffer α) none :=
    reorderCreate_represents power (by omega)
  have memsize : (reorderCreate (2 ^ k) : ReorderBuffer α).memsize = reorderBufsize (2 ^ k) := by
    simp only [reorderCreate, reorderInit, lt_irrefl, if_false]
  obtain ⟨b, run, represents, _⟩ := trace_simulates
    (R := fun b state => Represents (2 ^ k) b state ∧ b.memsize = reorderBufsize (2 ^ k))
    (fun _ _ o related ok => offer_simulates power atLeast (by omega) o related ok)
    offers ⟨created, memsize⟩ wanted
  exact ⟨b, run, represents⟩

/-- From `2 ^ 28` on, the allocation wraps and the first insertion misses it. -/
theorem offer_create_none {k : Nat} (large : 28 ≤ k) (small : k ≤ 30) (o : Offer α) :
    offer (reorderCreate (2 ^ k)) o = none := by
  have atLeast : 2 ^ 28 ≤ 2 ^ k := Nat.pow_le_pow_right (by omega) large
  have atMost : 2 ^ k ≤ 2 ^ 30 := Nat.pow_le_pow_right (by omega) small
  have cut : ¬ (reorderCreate (2 ^ k) : ReorderBuffer α).Allocated := by
    simp only [ReorderBuffer.Allocated, reorderCreate, reorderInit, lt_irrefl, if_false,
      CirBuffer.zeroed]
    rw [le_reorderBufsize_iff (by omega)]
    omega
  rw [offer, if_neg cut]

/-- Among the sizes whose doubled window fits 32 bits, the buffer refines the
    abstract window exactly when its allocation does not wrap. -/
theorem reorder_refines_window_iff [Inhabited α] {k : Nat} (two : 1 ≤ k) (small : k ≤ 30) :
    RefinesWindow α (2 ^ k) ↔ k < 28 := by
  constructor
  · intro refines
    by_contra large
    obtain ⟨b, run, _⟩ := refines [⟨default, 0, 2 * 2 ^ k⟩] (by simp)
    rw [traceOption, offer_create_none (by omega) small] at run
    cases run
  · exact refinesWindow_of_fits two

/-- Four slots: a gap, an overflow that skips it, and a packet that comes too late. -/
def lateOffers : List (Offer Char) :=
  [⟨'a', 10, 8⟩, ⟨'c', 12, 8⟩, ⟨'f', 15, 8⟩, ⟨'b', 11, 8⟩]

theorem reorder_refines_window_late :
    (traceOption offer (reorderCreate (2 ^ 2)) lateOffers).map Prod.fst =
        some [(0, [some 'a']), (0, []), (0, [some 'c']), (-2, [])] ∧
      RefinesWindow Char (2 ^ 2) :=
  ⟨by decide, (reorder_refines_window_iff (by decide) (by decide)).mpr (by decide)⟩

/-- `2 ^ 28` slots need `72 + 2 ^ 32` bytes and get 72: one packet is enough. -/
theorem reorder_wraps_allocation :
    (reorderCreate (2 ^ 28) : ReorderBuffer Char).memsize = 72 ∧
      traceOption offer (reorderCreate (2 ^ 28)) [⟨'a', 10, 2 * 2 ^ 28⟩] = none ∧
      ¬ RefinesWindow Char (2 ^ 28) := by
  have missed : traceOption offer (reorderCreate (2 ^ 28)) [⟨'a', 10, 2 * 2 ^ 28⟩] = none := by
    rw [traceOption, offer_create_none (by decide) (by decide)]
    rfl
  refine ⟨by decide, missed, fun refines => ?_⟩
  obtain ⟨b, run, _⟩ := refines [⟨'a', 10, 2 * 2 ^ 28⟩] (by simp)
  rw [missed] at run
  cases run

end Mlvpn.Reorder
