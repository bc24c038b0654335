import Mlvpn.Reorder.Refinement

/-! # The ledger of the reorder buffer

`Mlvpn.Reorder.Refinement` drains the buffer after every insertion.  In general
the calls come in any order and a drain may ask for any number of packets, so
the ready ring fills up and an overflow can drop a packet.

A ledger gives every number, drained or not, the packet that stands for it.
What has been drained and what is in the ready ring are, in this order, the
entries of the ledger below the lower end of the window (`Recorded`), and what
the order ring holds are its entries from there on.  A call leaves the ledger
as it is, adds the inserted packet to it, or erases the one that an overflow
drops (`Kept`).

An overflow drops a packet exactly if the free places of the ready ring run out
within a run of occupied slots that starts no later than the window has to
advance (`ReorderBuffer.Overruns`).
-/

namespace Mlvpn.Reorder

open Library.MaskedRing

variable {α : Type*} {n : Nat}

/-- The packets released since `first`, with those in the ready queue, are the
    entries of the ledger up to the window, and the window holds the others. -/
structure Recorded (ledger : Nat → Option α) (first : Nat) (out : List α) (a : Span α) : Prop where
  low : first ≤ a.next
  released : out ++ a.ready = between ledger first a.next
  rest : ∀ x, a.next ≤ x → a.held x = ledger x

/-- The packets of a stretch have moved from the window to the ready queue. -/
structure Pushed (a a' : Span α) : Prop where
  onward : a.next ≤ a'.next
  ready : a'.ready = a.ready ++ between a.held a.next a'.next
  rest : ∀ x, a'.next ≤ x → a'.held x = a.held x

/-- The packets below `x` have moved to the ready queue, and that of `x` is gone. -/
structure Lost (a : Span α) (x : Nat) (a' : Span α) : Prop where
  onward : a.next ≤ x
  present : a.held x ≠ none
  next : a'.next = x + 1
  ready : a'.ready = a.ready ++ between a.held a.next x
  rest : ∀ y, x + 1 ≤ y → a'.held y = a.held y

theorem Pushed.refl (a : Span α) : Pushed a a :=
  ⟨le_refl _, by rw [between_self, List.append_nil], fun _ _ => rfl⟩

/-- Two stretches, one after the other, are one. -/
theorem Pushed.ready_append {a b : Span α} {x : Nat} {more : List α} (pushed : Pushed a b)
    (onward : b.next ≤ x) (ready : more = b.ready ++ between b.held b.next x) :
    more = a.ready ++ between a.held a.next x := by
  have upper : between b.held b.next x = between a.held b.next x :=
    between_congr fun y low _ => pushed.rest y low
  rw [ready, pushed.ready, upper, List.append_assoc, between_append a.held pushed.onward onward]

theorem Pushed.trans {a b c : Span α} (first : Pushed a b) (second : Pushed b c) : Pushed a c where
  onward := le_trans first.onward second.onward
  ready := first.ready_append second.onward second.ready
  rest := fun x high => (second.rest x high).trans (first.rest x (le_trans second.onward high))

theorem Pushed.lost {a b c : Span α} {x : Nat} (first : Pushed a b) (second : Lost b x c) :
    Lost a x c where
  onward := le_trans first.onward second.onward
  present := by
    rw [← first.rest x second.onward]
    exact second.present
  next := second.next
  ready := first.ready_append second.onward second.ready
  rest := fun y high =>
    (second.rest y high).trans (first.rest y (le_trans second.onward (by omega)))

theorem Span.clear_rest (a : Span α) (x : Nat) (high : a.next + 1 ≤ x) : a.clear.held x = a.held x :=
  Function.update_of_ne (by omega) _ _

theorem Span.push_pushed {a : Span α} {p : α} (found : a.held a.next = some p) :
    Pushed a { a.clear with ready := a.ready ++ [p] } where
  onward := Nat.le_succ _
  ready := by
    simp only [Span.clear, between_succ a.held (le_refl _), between_self, found, List.nil_append,
      Option.toList_some]
  rest := a.clear_rest

theorem Span.clear_lost {a : Span α} (present : a.held a.next ≠ none) : Lost a a.next a.clear :=
  ⟨le_refl _, present, rfl, by rw [between_self, List.append_nil]; rfl, a.clear_rest⟩

theorem Span.skip_next (a : Span α) : a.skip.ready = a.ready ∧ a.skip.next ≤ a.next + 1 ∧
    (a.held a.next = none → a.skip.next = a.next + 1) := by
  rw [Span.skip]
  split
  next => exact ⟨rfl, le_refl _, fun _ => rfl⟩
  next present => exact ⟨rfl, Nat.le_succ _, fun gap => absurd gap present⟩

theorem Span.skip_pushed (a : Span α) : Pushed a a.skip := by
  rw [Span.skip]
  split
  next blocked =>
    refine ⟨Nat.le_succ _, ?_, fun _ _ => rfl⟩
    simp only [between_succ a.held (le_refl _), between_self, blocked, Option.toList_none, List.append_nil]
  next => exact .refl a

namespace Recorded

variable {ledger : Nat → Option α} {first : Nat} {out : List α} {a : Span α}

/-- The packets from the lower end on are pushed to the ready queue. -/
theorem pushed {a' : Span α} (h : Recorded ledger first out a) (pushed : Pushed a a') :
    Recorded ledger first out a' where
  low := le_trans h.low pushed.onward
  released := by
    have upper : between a.held a.next a'.next = between ledger a.next a'.next :=
      between_congr fun x low _ => h.rest x low
    rw [pushed.ready, ← List.append_assoc, h.released, upper, between_append ledger h.low pushed.onward]
  rest := fun x high => (pushed.rest x high).trans (h.rest x (le_trans pushed.onward high))

/-- A packet is lost on the way, and with it its entry. -/
theorem lost {a' : Span α} {x : Nat} (h : Recorded ledger first out a) (lost : Lost a x a') :
    Recorded (Function.update ledger x none) first out a' := by
  have below : between (Function.update ledger x none) first x = between ledger first x :=
    between_congr fun y _ high => Function.update_of_ne (by omega) _ _
  have upper : between a.held a.next x = between ledger a.next x :=
    between_congr fun y low _ => h.rest y low
  refine ⟨?_, ?_, fun y high => ?_⟩
  · rw [lost.next]
    exact le_trans h.low (le_trans lost.onward (Nat.le_succ x))
  · rw [lost.next, lost.ready, ← List.append_assoc, h.released, upper, between_append ledger h.low lost.onward,
      between_succ _ (le_trans h.low lost.onward), below, Function.update_self]
    exact (List.append_nil _).symm
  · rw [lost.next] at high
    rw [lost.rest y high, Function.update_of_ne (by omega)]
    exact h.rest y (le_trans lost.onward (by omega))

/-- A packet is stored at or above the lower end. -/
theorem store (h : Recorded ledger first out a) {x : Nat} (high : a.next ≤ x) (pkt : α) :
    Recorded (Function.update ledger x (some pkt)) first out
      { a with held := Function.update a.held x (some pkt) } where
  low := h.low
  released := by
    rw [h.released]
    apply between_congr
    intro y _ below
    exact (Function.update_of_ne (by omega) _ _).symm
  rest := by
    intro y above
    by_cases same : y = x
    · simp only [same, Function.update_self]
    · simp only [Function.update_of_ne same]
      exact h.rest y above

/-- Part of the ready queue is drained. -/
theorem drainReady (h : Recorded ledger first out a) (wanted : Nat) :
    Recorded ledger first (out ++ a.ready.take wanted)
      { a with ready := a.ready.drop wanted } where
  low := h.low
  released := by rw [List.append_assoc, List.take_append_drop, h.released]
  rest := h.rest

/-- Once the ready queue is empty, the window is drained up to `m`. -/
theorem drainOrder (h : Recorded ledger first out a) (empty : a.ready = []) {m : Nat}
    (onward : a.next ≤ m) :
    Recorded ledger first (out ++ between a.held a.next m) { a with next := m } where
  low := le_trans h.low onward
  released := by
    have upper : between a.held a.next m = between ledger a.next m :=
      between_congr (fun x low _ => h.rest x low)
    have lower := h.released
    rw [empty, List.append_nil] at lower
    simp only [empty, List.append_nil]
    rw [upper, lower, between_append ledger h.low onward]
  rest := fun x high => h.rest x (le_trans onward high)

end Recorded

/-- What holds of all numbers in ascending order holds of the packets between. -/
theorem between_pairwise {held : Nat → Option α} {first last : Nat} {R : α → α → Prop}
    (ascending : ∀ x y p q, first ≤ x → x < y → y < last → held x = some p → held y = some q →
      R p q) : (between held first last).Pairwise R := by
  rw [between, List.pairwise_filterMap]
  apply List.Pairwise.imp_of_mem _ List.pairwise_lt_range'
  intro x y from_ to_ less p foundX q foundY
  have low := (List.mem_range'_1.mp from_).1
  have high := (List.mem_range'_1.mp to_).2
  exact ascending x y p q low less (by omega) foundX foundY

/-- An entry is erased exactly if a packet is dropped. -/
def Kept (dropped : Prop) (ledger ledger' : Nat → Option α) : Prop :=
  (¬ dropped ∧ ledger' = ledger) ∨
    (dropped ∧ ∃ x p, ledger x = some p ∧ ledger' = Function.update ledger x none)

theorem Kept.sub {dropped : Prop} {ledger ledger' : Nat → Option α}
    (h : Kept dropped ledger ledger') {x : Nat} {p : α} (found : ledger' x = some p) :
    ledger x = some p := by
  rcases h with ⟨_, rfl⟩ | ⟨_, y, _, _, rfl⟩
  · exact found
  · by_cases same : x = y
    · rw [same, Function.update_self] at found
      cases found
    · rwa [Function.update_of_ne same] at found

/-- The inner loop of `mlvpn_reorder_fill_overflow` moves the packets up to the next gap,
    or, where the queue is full at `x`, loses the packet of `x`. -/
theorem Span.moveRun_cases (fuel : Nat) {a : Span α} (room : a.ready.length + 1 ≤ n)
    (enough : n ≤ a.ready.length + fuel) :
    (Pushed a (a.moveRun n fuel) ∧ a.held (a.moveRun n fuel).next = none ∧
        (a.moveRun n fuel).ready.length + 1 ≤ n) ∨
      ∃ x, Lost a x (a.moveRun n fuel) ∧ (a.moveRun n fuel).ready.length + 1 = n ∧
        ∀ z, a.next ≤ z → z ≤ x → a.held z ≠ none := by
  induction fuel generalizing a with
  | zero => omega
  | succ fuel ih =>
      cases found : a.held a.next with
      | none =>
          have same : a.moveRun n (fuel + 1) = a := by simp only [Span.moveRun, found]
          rw [same]
          exact .inl ⟨.refl a, found, room⟩
      | some p =>
          simp only [Span.moveRun, found]
          have present : a.held a.next ≠ none := by
            rw [found]
            exact Option.some_ne_none p
          split
          next full =>
            refine .inr ⟨a.next, a.clear_lost present, full, fun z low high => ?_⟩
            rwa [le_antisymm high low]
          next more =>
            have pushed := a.push_pushed found
            have length : (a.ready ++ [p]).length = a.ready.length + 1 := List.length_append
            rcases ih (a := { a.clear with ready := a.ready ++ [p] }) (by simp only [length]; omega)
              (by simp only [length]; omega) with ⟨moved, gap, last⟩ | ⟨x, lost, full, run⟩
            · exact .inl ⟨pushed.trans moved, (pushed.rest _ moved.onward).symm.trans gap, last⟩
            · refine .inr ⟨x, pushed.lost lost, full, fun z low high => ?_⟩
              rcases Nat.eq_or_lt_of_le low with rfl | above
              · exact present
              · rw [← pushed.rest z above]
                exact run z above high

/-- The places of the queue run out at `x`, within a run of packets that starts at or
    below `limit`. -/
def Span.Overruns (n limit : Nat) (a : Span α) : Prop :=
  ∃ x y, a.next ≤ y ∧ y < x ∧ y ≤ limit ∧ (between a.held a.next x).length + a.ready.length + 1 = n ∧
    ∀ z, y ≤ z → z ≤ x → a.held z ≠ none

theorem between_length_append (held : Nat → Option α) {x y z : Nat} (low : x ≤ y) (high : y ≤ z) :
    (between held x z).length = (between held x y).length + (between held y z).length := by
  rw [← between_append held low high, List.length_append]

theorem between_length_pos {held : Nat → Option α} {x y z : Nat} (low : x ≤ y) (high : y < z)
    (present : held y ≠ none) : 0 < (between held x z).length := by
  obtain ⟨p, found⟩ := Option.ne_none_iff_exists'.mp present
  rw [between_length_append held (Nat.le_succ_of_le low) high, between_succ held low, found,
    List.length_append]
  simp

/-- A full queue, or a gap at the end of the way, and nothing more is lost. -/
theorem Span.not_overruns {limit : Nat} {a : Span α} (done : limit ≤ a.next ∨ a.ready.length + 1 = n)
    (begun : a.held a.next = none ∨ a.next < limit) : ¬ a.Overruns n limit := by
  rintro ⟨x, y, low, less, within, full, run⟩
  have some_ := between_length_pos low less (run y (le_refl y) less.le)
  rcases done with reached | already
  · obtain rfl : y = a.next := by omega
    rcases begun with gap | short
    · exact run _ (le_refl _) less.le gap
    · omega
  · omega

/-- What is moved up to a gap does not count. -/
theorem Pushed.overruns_iff {limit : Nat} {a b : Span α} (pushed : Pushed a b)
    (gap : a.held b.next = none) (room : b.ready.length + 1 ≤ n) :
    a.Overruns n limit ↔ b.Overruns n limit := by
  have onward := pushed.onward
  have moved : b.ready.length = a.ready.length + (between a.held a.next b.next).length := by
    rw [pushed.ready, List.length_append]
  have counts {x : Nat} (above : b.next ≤ x) : (between a.held a.next x).length + a.ready.length =
      (between b.held b.next x).length + b.ready.length := by
    have upper : between b.held b.next x = between a.held b.next x :=
      between_congr fun y low _ => pushed.rest y low
    rw [between_length_append a.held onward above, moved, upper]
    omega
  constructor
  · rintro ⟨x, y, low, less, within, full, run⟩
    have above : b.next < y := by
      by_contra under
      -- the gap is not in the run, so the run ends below it
      have short : x < b.next := by
        by_contra long
        exact run b.next (by omega) (by omega) gap
      have more := between_length_pos (le_refl x) short (run x less.le (le_refl x))
      have split := between_length_append a.held (le_trans low less.le) short.le
      omega
    refine ⟨x, y, above.le, less, within, by rw [← counts (by omega)]; exact full, fun z low high => ?_⟩
    rw [pushed.rest z (by omega)]
    exact run z low high
  · rintro ⟨x, y, low, less, within, full, run⟩
    refine ⟨x, y, le_trans onward low, less, within, by rw [counts (by omega)]; exact full,
      fun z above high => ?_⟩
    rw [← pushed.rest z (le_trans low above)]
    exact run z above high

/-- The outer loop loses at most one packet: after that the queue is full and the loop
    ends.  It begins a turn at the lower end of the window or at a gap. -/
theorem Span.fill_cases {start needed limit : Nat} (limit_ : limit = start + needed) (fuel : Nat)
    {a : Span α} (low : start ≤ a.next) (room : a.ready.length + 1 ≤ n)
    (enough : limit ≤ a.next + fuel) (begun : a.held a.next = none ∨ a.next < limit) :
    (¬ a.Overruns n limit ∧ Pushed a (a.fill n start needed fuel)) ∨
      (a.Overruns n limit ∧ ∃ x, Lost a x (a.fill n start needed fuel)) := by
  induction fuel generalizing a with
  | zero => exact .inl ⟨Span.not_overruns (.inl enough) begun, .refl a⟩
  | succ fuel ih =>
      rw [Span.fill]
      split
      next more =>
        have skipped := a.skip_pushed
        obtain ⟨same, short, past⟩ := a.skip_next
        rcases Span.moveRun_cases n (a := a.skip) (by rw [same]; exact room) (Nat.le_add_left _ _) with
          ⟨moved, gap, last⟩ | ⟨x, lost, full, run⟩
        · have pushed := skipped.trans moved
          have there : a.held (a.skip.moveRun n n).next = none :=
            (skipped.rest _ moved.onward).symm.trans gap
          have now : (a.skip.moveRun n n).held (a.skip.moveRun n n).next = none :=
            (pushed.rest _ (le_refl _)).trans there
          have step : a.next < (a.skip.moveRun n n).next := by
            have next := moved.onward
            refine Nat.lt_of_le_of_ne pushed.onward fun here => ?_
            have := past (by rwa [here])
            omega
          rw [pushed.overruns_iff there last]
          rcases ih (by omega) last (by omega) (.inl now) with ⟨spared, onward⟩ | ⟨dropped, x, lost⟩
          · exact .inl ⟨spared, pushed.trans onward⟩
          · exact .inr ⟨dropped, x, pushed.lost lost⟩
        · have stopped : (a.skip.moveRun n n).fill n start needed fuel = a.skip.moveRun n n := by
            cases fuel with
            | zero => rfl
            | succ fuel => rw [Span.fill, if_neg fun going => going.2 full]
          have gone := skipped.lost lost
          rw [stopped]
          refine .inr ⟨⟨x, a.skip.next, skipped.onward, ?_, by omega, ?_, fun z low high => ?_⟩, x, gone⟩
          · refine Nat.lt_of_le_of_ne lost.onward fun here => more.2 ?_
            rw [lost.ready, ← here, between_self, List.append_nil, same] at full
            exact full
          · rw [gone.ready, List.length_append] at full
            omega
          · rw [← skipped.rest z low]
            exact run z low high
      next last =>
        refine .inl ⟨Span.not_overruns ?_ begun, .refl a⟩
        rcases Nat.lt_or_ge (a.next - start) needed with going | reached
        · exact .inr (not_not.mp fun roomy => last ⟨going, roomy⟩)
        · exact .inl (by omega)

/-- Nothing is moved from beyond the top of the window. -/
theorem Span.moveRun_bounded {top : Nat} (fuel : Nat) {a : Span α} (low : a.next ≤ top)
    (above : ∀ x, top ≤ x → a.held x = none) :
    a.next ≤ (a.moveRun n fuel).next ∧ (a.moveRun n fuel).next ≤ top ∧
      ∀ x, top ≤ x → (a.moveRun n fuel).held x = none := by
  induction fuel generalizing a with
  | zero => exact ⟨le_refl _, low, above⟩
  | succ fuel ih =>
      cases found : a.held a.next with
      | none =>
          simp only [Span.moveRun, found]
          exact ⟨le_refl _, low, above⟩
      | some p =>
          have inside : a.next < top := by
            by_contra outside
            rw [above a.next (by omega)] at found
            cases found
          have cleared : ∀ x, top ≤ x → a.clear.held x = none := by
            intro x high
            simp only [Span.clear, Function.update_of_ne (by omega : x ≠ a.next)]
            exact above x high
          simp only [Span.moveRun, found]
          split
          · exact ⟨Nat.le_succ _, inside, cleared⟩
          · obtain ⟨onward, bounded, empty⟩ := ih (a := { a.clear with ready := a.ready ++ [p] })
              inside cleared
            exact ⟨le_trans (Nat.le_succ _) onward, bounded, empty⟩

theorem Span.fill_bounded {start needed : Nat} (fits : needed ≤ n) (fuel : Nat) {a : Span α}
    (begun : start ≤ a.next) (low : a.next ≤ start + n)
    (above : ∀ x, start + n ≤ x → a.held x = none) :
    a.next ≤ (a.fill n start needed fuel).next ∧ (a.fill n start needed fuel).next ≤ start + n := by
  induction fuel generalizing a with
  | zero => exact ⟨le_refl _, low⟩
  | succ fuel ih =>
      rw [Span.fill]
      split
      · next more =>
          have skipped : a.next ≤ a.skip.next ∧ a.skip.next ≤ start + n ∧ a.skip.held = a.held := by
            rw [Span.skip]
            split
            · exact ⟨Nat.le_succ _, by simp only; omega, rfl⟩
            · exact ⟨le_refl _, low, rfl⟩
          obtain ⟨onward, bounded, same⟩ := skipped
          obtain ⟨onward', bounded', empty⟩ :=
            Span.moveRun_bounded (n := n) n bounded (by rw [same]; exact above)
          obtain ⟨later, last⟩ := ih (by omega) bounded' empty
          exact ⟨by omega, last⟩
      · exact ⟨le_refl _, low⟩

/-- An overflow moves the window by at most its own width. -/
theorem fillOverflow_recorded (power : n.isPowerOfTwo) {b : ReorderBuffer α} {a : Span α}
    (h : BufferHolds n b a) {ledger : Nat → Option α} {first : Nat} {out : List α}
    (recorded : Recorded ledger first out a) {needed : Nat} (positive : 0 < needed)
    (fits : needed ≤ n) :
    ∃ ledger' a', Kept (a.Overruns n (a.next + needed)) ledger ledger' ∧
      BufferHolds n (reorderFillOverflow b needed).2 a' ∧ Recorded ledger' first out a' ∧
      a'.next = a.next + (reorderFillOverflow b needed).1 ∧ a'.next ≤ a.next + n := by
  obtain ⟨simulated, adv⟩ := fillOverflow_holds power h needed
  obtain ⟨_, bounded⟩ := Span.fill_bounded fits needed (le_refl a.next) (Nat.le_add_right _ _)
    h.order.above
  rcases Span.fill_cases (a := a) rfl needed (le_refl a.next) h.ready.holds.short (le_refl _)
    (.inr (by omega)) with ⟨spared, pushed⟩ | ⟨dropped, x, lost⟩
  · exact ⟨ledger, _, .inl ⟨spared, rfl⟩, simulated, recorded.pushed pushed, adv, bounded⟩
  · obtain ⟨p, found⟩ := Option.ne_none_iff_exists'.mp lost.present
    have entry : ledger x = some p := (recorded.rest x lost.onward).symm.trans found
    exact ⟨_, _, .inr ⟨dropped, x, p, entry, rfl⟩, simulated, recorded.lost lost, adv, bounded⟩

/-- The slots from the tail of a ring up to its head. -/
def CirBuffer.live (c : CirBuffer α) : Nat := (c.head + (c.mask + 1) - c.tail) &&& c.mask

theorem ReadyHolds.live_eq (power : n.isPowerOfTwo) {c : CirBuffer α} {items : List α}
    (h : ReadyHolds n c items) : c.live = items.length := by
  have positive : 0 < n := Nat.pos_of_isPowerOfTwo power
  have short := h.holds.short
  have tailLt := h.holds.tailLt
  rw [CirBuffer.live, h.mask, and_mask_of_isPowerOfTwo power, Nat.sub_add_cancel positive]
  rcases h.holds.head_cases with ⟨here, _⟩ | ⟨wrapped, _⟩
  · have same : c.head + n - c.tail = items.length + n := by omega
    rw [same, Nat.add_mod_right, Nat.mod_eq_of_lt short]
  · have same : c.head + n - c.tail = items.length := by omega
    rw [same, Nat.mod_eq_of_lt short]

/-- The slot of the order ring at this offset from the head has a packet. -/
def ReorderBuffer.occupied (b : ReorderBuffer α) (offset : Nat) : Bool :=
  (b.orderBuf.pkts ((b.orderBuf.head + offset) &&& b.orderBuf.mask)).isSome

/-- The packets below the slot at `last`, with those in the ready ring, fill the ready ring,
    and that slot is in a run of occupied slots that goes on from a lower one, which is among
    those that an advance by `needed` passes or ends at. -/
def ReorderBuffer.Overruns (b : ReorderBuffer α) (needed : Nat) : Prop :=
  ∃ last < b.orderBuf.size, ∃ first < last, first ≤ needed ∧
    (List.range last).countP b.occupied + b.readyBuf.live = b.readyBuf.mask ∧
    ∀ offset ≤ last, first ≤ offset → b.occupied offset

instance (b : ReorderBuffer α) (needed : Nat) : Decidable (b.Overruns needed) :=
  inferInstanceAs (Decidable (∃ _ < _, ∃ _ < _, _ ∧ _ ∧ ∀ _ ≤ _, _))

namespace BufferHolds

variable {b : ReorderBuffer α} {a : Span α}

theorem occupied_eq (power : n.isPowerOfTwo) (h : BufferHolds n b a) {offset : Nat}
    (inside : offset < n) : b.occupied offset = (a.held (a.next + offset)).isSome := by
  rw [ReorderBuffer.occupied, h.order.mask, and_mask_of_isPowerOfTwo power, h.order.slots offset inside]

theorem between_length (power : n.isPowerOfTwo) (h : BufferHolds n b a) {last : Nat}
    (inside : last ≤ n) :
    (between a.held a.next (a.next + last)).length = (List.range last).countP b.occupied := by
  rw [between, List.length_filterMap_eq_countP, Nat.add_sub_cancel_left, List.range'_eq_map_range,
    List.countP_map]
  apply List.countP_congr
  intro offset member
  rw [h.occupied_eq power (lt_of_lt_of_le (List.mem_range.mp member) inside)]
  rfl

theorem overruns_iff (power : n.isPowerOfTwo) (h : BufferHolds n b a) (needed : Nat) :
    b.Overruns needed ↔ a.Overruns n (a.next + needed) := by
  have positive : 0 < n := Nat.pos_of_isPowerOfTwo power
  have present {offset : Nat} (inside : offset < n) :
      b.occupied offset ↔ a.held (a.next + offset) ≠ none := by
    rw [h.occupied_eq power inside, Option.isSome_iff_ne_none]
  rw [ReorderBuffer.Overruns, h.ready.live_eq power, h.ready.mask, h.order.size]
  constructor
  · rintro ⟨last, inside, first, less, within, full, run⟩
    rw [← h.between_length power inside.le] at full
    refine ⟨a.next + last, a.next + first, by omega, by omega, by omega, by omega, fun z low high => ?_⟩
    obtain ⟨offset, rfl⟩ := Nat.exists_eq_add_of_le (le_trans (Nat.le_add_right _ _) low)
    exact (present (by omega)).mp (run offset (by omega) (by omega))
  · rintro ⟨x, y, low, less, within, full, run⟩
    obtain ⟨first, rfl⟩ := Nat.exists_eq_add_of_le low
    obtain ⟨last, rfl⟩ := Nat.exists_eq_add_of_le (le_trans low less.le)
    have inside : last < n := by
      by_contra beyond
      exact run _ less.le (le_refl _) (h.order.above _ (by omega))
    rw [h.between_length power inside.le] at full
    refine ⟨last, inside, first, by omega, by omega, by omega, fun offset high above => ?_⟩
    exact (present (by omega)).mpr (run _ (by omega) (by omega))

end BufferHolds

/-- The insertion of this number overflows the window, and the overflow finds too few free
    places in the ready ring. -/
def ReorderBuffer.Overflows (b : ReorderBuffer α) (seq : UInt64) : Prop :=
  b.isInitialized = true ∧ b.orderBuf.size ≤ (seq - b.minSeqn).toNat ∧
    (seq - b.minSeqn).toNat < 2 * b.orderBuf.size % 2 ^ 32 ∧
    b.Overruns ((seq - b.minSeqn).toNat + 1 - b.orderBuf.size)

instance (b : ReorderBuffer α) (seq : UInt64) : Decidable (b.Overflows seq) :=
  inferInstanceAs (Decidable (_ ∧ _ ∧ _ ∧ _))

/-- The number that a window starting at `next` gives a sequence number. -/
def numberOf (next : Nat) (seq : UInt64) : Nat := next + (seq - UInt64.ofNat next).toNat

theorem ofNat_numberOf (next : Nat) (seq : UInt64) : UInt64.ofNat (numberOf next seq) = seq := by
  rw [numberOf, UInt64.ofNat_add, UInt64.ofNat_toNat, UInt64.add_comm, UInt64.sub_add_cancel]

/-- The ledger after an insertion with this result. -/
def entered (result : Int) (ledger : Nat → Option α) (x : Nat) (pkt : α) : Nat → Option α :=
  if result = 0 then Function.update ledger x (some pkt) else ledger

/-- An insertion beyond the window, by the offset of its number. -/
theorem insert_beyond_recorded (power : n.isPowerOfTwo) {b : ReorderBuffer α} {a : Span α}
    (ready : b.isInitialized = true) (h : BufferHolds n b a) {ledger : Nat → Option α}
    {first : Nat} {out : List α} (recorded : Recorded ledger first out a) (pkt : α)
    {seq : UInt64} {d : Nat} (offset : (seq - UInt64.ofNat a.next).toNat = d) (beyond : ¬ d < n)
    (near : d < 2 * n % 2 ^ 32) :
    ∃ ledger' a', Kept (b.Overflows seq) ledger ledger' ∧
      (reorderInsert b pkt seq).2.isInitialized = true ∧
      BufferHolds n (reorderInsert b pkt seq).2 a' ∧
      Recorded (entered (reorderInsert b pkt seq).1 ledger' (a.next + d) pkt) first out a' ∧
      a.next ≤ a'.next ∧ a'.next ≤ a.next + n := by
  have counted : (seq - b.minSeqn).toNat = d := by rw [h.seqn, offset]
  have fits : d + 1 - n ≤ n := by
    have := Nat.mod_le (2 * n) (2 ^ 32)
    omega
  obtain ⟨ledger', a', kept, after, moved, adv, bounded⟩ :=
    fillOverflow_recorded power h recorded (by omega) fits
  have drops : b.Overflows seq ↔ a.Overruns n (a.next + (d + 1 - n)) := by
    rw [ReorderBuffer.Overflows, counted, h.order.size, h.overruns_iff power]
    simp only [ready, not_lt.mp beyond, near, true_and]
  rw [← propext drops] at kept
  by_cases short : (reorderFillOverflow b (d + 1 - n)).1 < d + 1 - n
  · have result : reorderInsert b pkt seq = (-1, (reorderFillOverflow b (d + 1 - n)).2) := by
      simp only [reorderInsert, reorderBegin, ready, if_true, counted, h.order.size, beyond, if_false,
        near, short]
    rw [result]
    exact ⟨ledger', a', kept, ready, after, moved, by omega, bounded⟩
  · have remaining : (seq - UInt64.ofNat (a.next + (reorderFillOverflow b (d + 1 - n)).1)).toNat =
        d - (reorderFillOverflow b (d + 1 - n)).1 := by
      rw [distance_advanced (by omega), offset]
    rw [← adv, ← after.seqn] at remaining
    have result : reorderInsert b pkt seq =
        (0, storeAt (reorderFillOverflow b (d + 1 - n)).2
          (d - (reorderFillOverflow b (d + 1 - n)).1) pkt) := by
      simp only [reorderInsert, reorderBegin, ready, if_true, counted, h.order.size, beyond, if_false,
        near, short, remaining]
    have stored := storeAt_holds power after
      (by omega : d - (reorderFillOverflow b (d + 1 - n)).1 < n) pkt
    have same : a'.next + (d - (reorderFillOverflow b (d + 1 - n)).1) = a.next + d := by omega
    rw [same] at stored
    rw [result]
    exact ⟨ledger', _, kept, ready, stored, moved.store (by omega) pkt,
      by simp only; omega, bounded⟩

theorem insert_recorded (power : n.isPowerOfTwo) {b : ReorderBuffer α} {a : Span α}
    (ready : b.isInitialized = true) (h : BufferHolds n b a) {ledger : Nat → Option α}
    {first : Nat} {out : List α} (recorded : Recorded ledger first out a) (pkt : α)
    (seq : UInt64) :
    ∃ ledger' a', Kept (b.Overflows seq) ledger ledger' ∧
      (reorderInsert b pkt seq).2.isInitialized = true ∧
      BufferHolds n (reorderInsert b pkt seq).2 a' ∧
      Recorded (entered (reorderInsert b pkt seq).1 ledger' (numberOf a.next seq) pkt) first out a' ∧
      a.next ≤ a'.next ∧ a'.next ≤ a.next + n := by
  obtain ⟨d, offset⟩ : ∃ d, (seq - UInt64.ofNat a.next).toNat = d := ⟨_, rfl⟩
  have counted : (seq - b.minSeqn).toNat = d := by rw [h.seqn, offset]
  rw [numberOf, offset]
  by_cases inside : d < n
  · have result : reorderInsert b pkt seq = (0, storeAt b d pkt) := by
      simp only [reorderInsert, reorderBegin, ready, if_true, counted, h.order.size, inside]
    have calm : ¬ b.Overflows seq := by
      simp only [ReorderBuffer.Overflows, counted, h.order.size, not_le.mpr inside, false_and, and_false,
        not_false_eq_true]
    rw [result]
    exact ⟨ledger, _, .inl ⟨calm, rfl⟩, ready, storeAt_holds power h inside pkt,
      recorded.store (Nat.le_add_right _ _) pkt, le_refl _, Nat.le_add_right _ _⟩
  · by_cases near : d < 2 * n % 2 ^ 32
    · exact insert_beyond_recorded power ready h recorded pkt offset inside near
    · have result : reorderInsert b pkt seq = (-2, b) := by
        simp only [reorderInsert, reorderBegin, ready, if_true, counted, h.order.size, inside,
          if_false, near]
      have calm : ¬ b.Overflows seq := by
        simp only [ReorderBuffer.Overflows, counted, h.order.size, near, false_and, and_false,
          not_false_eq_true]
      rw [result]
      exact ⟨ledger, a, .inl ⟨calm, rfl⟩, ready, h, recorded, le_refl _, Nat.le_add_right _ _⟩

/-- A drain hands out the oldest packets of the ledger that are not out yet. -/
theorem drain_recorded (power : n.isPowerOfTwo) {b : ReorderBuffer α} {a : Span α}
    (h : BufferHolds n b a) {ledger : Nat → Option α} {first : Nat} {out : List α}
    (recorded : Recorded ledger first out a) (maxPkts : Nat) :
    ∃ items a', (reorderDrain b maxPkts).1 = items.map some ∧
      (reorderDrain b maxPkts).2.isInitialized = b.isInitialized ∧
      BufferHolds n (reorderDrain b maxPkts).2 a' ∧ Recorded ledger first (out ++ items) a' ∧
      a.next ≤ a'.next ∧ a'.next ≤ a.next + n := by
  obtain ⟨fromReady, rest⟩ := drainReady_holds power maxPkts h.ready
  have taken := recorded.drainReady maxPkts
  let b' : ReorderBuffer α := { b with readyBuf := (drainReady maxPkts b.readyBuf).2 }
  have holds : BufferHolds n b' { a with ready := a.ready.drop maxPkts } := ⟨h.order, rest, h.seqn⟩
  by_cases enough : maxPkts ≤ a.ready.length
  · have nothing : maxPkts - (drainReady maxPkts b.readyBuf).1.length = 0 := by
      rw [fromReady, List.length_map, List.length_take]
      omega
    have result : reorderDrain b maxPkts = ((a.ready.take maxPkts).map some, b') := by
      simp only [reorderDrain]
      rw [nothing, fromReady, drainOrder, List.append_nil]
    rw [result]
    exact ⟨_, _, rfl, rfl, holds, taken, le_refl _, Nat.le_add_right _ _⟩
  · have emptied : a.ready.drop maxPkts = [] := List.drop_eq_nil_of_le (by omega)
    obtain ⟨m, run, output, initialized, drained⟩ :=
      drainOrder_holds power (maxPkts - (drainReady maxPkts b.readyBuf).1.length) holds
    have onward : a.next ≤ m := run.low
    have bounded : m ≤ a.next + n := by
      by_contra beyond
      exact run.full (a.next + n) (Nat.le_add_right _ _) (by omega) (h.order.above _ (le_refl _))
    refine ⟨a.ready.take maxPkts ++ between a.held a.next m, _, ?_, initialized, drained, ?_,
      onward, bounded⟩
    · simp only [reorderDrain]
      rw [output, fromReady, List.map_append]
    · rw [← List.append_assoc]
      exact taken.drainOrder emptied onward

end Mlvpn.Reorder
