import Mlvpn.Reorder.Interleaving

/-! # Conservation of packets

An insertion that returns 0 takes charge of its packet: it is drained once or
can still be drained.  An overflow breaks this when it pushes a run of
consecutive packets into a ready ring that fills up on the way: the packet
written last is above the head of the ring and is never read again.
-/

namespace Mlvpn.Reorder

open Library.MaskedRing Library.Machine

variable {α : Type*} {n : Nat}

/-- A drain can still return the packet: it is in a slot of the order ring or in
    the live part of the ready ring. -/
def ReorderBuffer.Retrievable (b : ReorderBuffer α) (p : α) : Prop :=
  (∃ i < b.orderBuf.size, b.orderBuf.pkts i = some p) ∨
    ∃ j < b.readyBuf.live, b.readyBuf.pkts ((b.readyBuf.tail + j) &&& b.readyBuf.mask) = some p

instance [DecidableEq α] (b : ReorderBuffer α) (p : α) : Decidable (b.Retrievable p) :=
  inferInstanceAs (Decidable (_ ∨ _))

/-- Every packet whose insertion returned 0 has been drained exactly once, or
    has not been drained and can still be. -/
def Session.Conserved [DecidableEq α] (s : Session α) : Prop :=
  ∀ p, (p, 0) ∈ s.inserted →
    (s.drained.count (some p) = 1 ∧ ¬ s.buffer.Retrievable p) ∨
      (s.drained.count (some p) = 0 ∧ s.buffer.Retrievable p)

theorem OrderHolds.exists_slot_iff {c : CirBuffer α} {next : Nat} {held : Nat → Option α}
    (h : OrderHolds n c next held) {p : α} :
    (∃ i < c.size, c.pkts i = some p) ↔ ∃ x, next ≤ x ∧ held x = some p := by
  have headLt := h.headLt
  rw [h.size]
  constructor
  · rintro ⟨i, inside, found⟩
    have slot : (c.head + (i + n - c.head) % n) % n = i := by
      rw [Nat.add_mod_mod, Nat.add_sub_cancel' (by omega), Nat.add_mod_right,
        Nat.mod_eq_of_lt inside]
    refine ⟨next + (i + n - c.head) % n, Nat.le_add_right _ _, ?_⟩
    rw [← h.slots _ (Nat.mod_lt _ (by omega)), slot, found]
  · rintro ⟨x, low, found⟩
    have inside : x < next + n := by
      by_contra outside
      rw [h.above x (by omega)] at found
      cases found
    refine ⟨(c.head + (x - next)) % n, Nat.mod_lt _ (by omega), ?_⟩
    rw [h.slots _ (by omega), Nat.add_sub_cancel' low, found]

theorem ReadyHolds.exists_live_iff (power : n.isPowerOfTwo) {c : CirBuffer α} {items : List α}
    (h : ReadyHolds n c items) {p : α} :
    (∃ j < c.live, c.pkts ((c.tail + j) &&& c.mask) = some p) ↔ p ∈ items := by
  rw [h.live_eq power, List.mem_iff_getElem]
  constructor
  · rintro ⟨j, inside, found⟩
    rw [h.mask, and_mask_of_isPowerOfTwo power, h.holds.stored j inside] at found
    exact ⟨j, inside, Option.some.inj found⟩
  · rintro ⟨j, inside, found⟩
    refine ⟨j, inside, ?_⟩
    rw [h.mask, and_mask_of_isPowerOfTwo power, h.holds.stored j inside, found]

theorem mem_between {held : Nat → Option α} {first last : Nat} {p : α} :
    p ∈ between held first last ↔ ∃ x, first ≤ x ∧ x < last ∧ held x = some p := by
  rw [between, List.mem_filterMap]
  constructor
  · rintro ⟨x, member, found⟩
    obtain ⟨low, high⟩ := List.mem_range'_1.mp member
    exact ⟨x, low, by omega, found⟩
  · rintro ⟨x, low, high, found⟩
    exact ⟨x, List.mem_range'_1.mpr ⟨low, by omega⟩, found⟩

/-- No packet has two entries in the ledger. -/
def Single (ledger : Nat → Option α) : Prop :=
  ∀ x y p, ledger x = some p → ledger y = some p → x = y

namespace Tracks

variable {seq : α → UInt64} {s : Session α} {ledger : Nat → Option α} {first : Nat}
  {out : List α} {a : Span α} {p : α}

/-- A retrievable packet has an entry from the window on, or is in the ready queue. -/
theorem retrievable_iff (power : n.isPowerOfTwo) (h : Tracks seq n s ledger first out a) :
    s.buffer.Retrievable p ↔ (∃ x, a.next ≤ x ∧ ledger x = some p) ∨ p ∈ a.ready := by
  have order : (∃ x, a.next ≤ x ∧ a.held x = some p) ↔ ∃ x, a.next ≤ x ∧ ledger x = some p := by
    apply exists_congr
    intro x
    apply and_congr_right
    intro low
    rw [h.recorded.rest x low]
  rw [ReorderBuffer.Retrievable, h.holds.order.exists_slot_iff,
    h.holds.ready.exists_live_iff power, order]

theorem released_nodup (h : Tracks seq n s ledger first out a) (single : Single ledger) :
    (out ++ a.ready).Nodup := by
  rw [h.recorded.released]
  apply between_pairwise
  intro x y p q _ less _ foundX foundY same
  have := single x y p foundX (same ▸ foundY)
  omega

theorem mem_released_iff (h : Tracks seq n s ledger first out a) :
    p ∈ out ++ a.ready ↔ ∃ x, x < a.next ∧ ledger x = some p := by
  rw [h.recorded.released, mem_between]
  apply exists_congr
  intro x
  constructor
  · rintro ⟨_, high, found⟩
    exact ⟨high, found⟩
  · rintro ⟨high, found⟩
    refine ⟨?_, high, found⟩
    by_contra under
    rw [h.below x (by omega)] at found
    cases found

theorem count_drained [DecidableEq α] (h : Tracks seq n s ledger first out a) (p : α) :
    s.drained.count (some p) = out.count p := by
  rw [h.drained]
  exact List.count_map_of_injective out some (Option.some_injective α) p

/-- A packet with an entry is drained once or retrievable, and not both. -/
theorem accounted [DecidableEq α] (power : n.isPowerOfTwo)
    (h : Tracks seq n s ledger first out a) (single : Single ledger) {x : Nat}
    (entry : ledger x = some p) :
    (s.drained.count (some p) = 1 ∧ ¬ s.buffer.Retrievable p) ∨
      (s.drained.count (some p) = 0 ∧ s.buffer.Retrievable p) := by
  rw [h.count_drained, h.retrievable_iff power]
  have nodup := h.released_nodup single
  by_cases held : a.next ≤ x
  · have outside : p ∉ out ++ a.ready := by
      rw [h.mem_released_iff]
      rintro ⟨y, high, found⟩
      have := single x y p entry found
      omega
    refine .inr ⟨List.count_eq_zero.mpr ?_, .inl ⟨x, held, entry⟩⟩
    exact fun member => outside (List.mem_append_left _ member)
  · have inside : p ∈ out ++ a.ready := h.mem_released_iff.mpr ⟨x, by omega, entry⟩
    obtain ⟨outNodup, _, disjoint⟩ := List.nodup_append.mp nodup
    rcases List.mem_append.mp inside with drained | ready
    · refine .inl ⟨List.count_eq_one_of_mem outNodup drained, ?_⟩
      rintro (⟨y, low, found⟩ | ready)
      · have := single x y p entry found
        omega
      · exact disjoint p drained p ready rfl
    · refine .inr ⟨List.count_eq_zero.mpr ?_, .inr ready⟩
      exact fun drained => disjoint p drained p ready rfl

/-- A packet that has been drained or is retrievable has an entry. -/
theorem exists_entry [DecidableEq α] (power : n.isPowerOfTwo)
    (h : Tracks seq n s ledger first out a)
    (present : s.drained.count (some p) = 1 ∨ s.buffer.Retrievable p) :
    ∃ x, ledger x = some p := by
  rw [h.count_drained, h.retrievable_iff power] at present
  have released : p ∈ out ++ a.ready → ∃ x, ledger x = some p := by
    intro member
    obtain ⟨x, _, found⟩ := h.mem_released_iff.mp member
    exact ⟨x, found⟩
  rcases present with drained | ⟨x, _, found⟩ | ready
  · apply released
    apply List.mem_append_left
    exact List.count_pos_iff.mp (by omega)
  · exact ⟨x, found⟩
  · exact released (List.mem_append_right _ ready)

end Tracks

/-- The ledger has one entry for a packet, and only for packets taken in charge. -/
structure Accounts (seq : α → UInt64) (n : Nat) (s : Session α) (ledger : Nat → Option α) :
    Prop where
  tracked : Tracked seq n s ledger
  single : Single ledger
  known : ∀ x p, ledger x = some p → (p, 0) ∈ s.inserted

/-- Conservation, read from the ledger. -/
theorem Accounts.conserved_iff [DecidableEq α] {seq : α → UInt64} {s : Session α}
    {ledger : Nat → Option α} (power : n.isPowerOfTwo) (h : Accounts seq n s ledger) :
    s.Conserved ↔ ∀ p, (p, 0) ∈ s.inserted → ∃ x, ledger x = some p := by
  rcases h.tracked with ⟨untouched, _⟩ | ⟨_, out, a, tracks⟩
  · simp only [Session.Conserved, untouched.inserted, List.not_mem_nil, false_implies,
      implies_true]
  · apply forall₂_congr
    intro p _
    constructor
    · rintro (⟨drained, _⟩ | ⟨_, retrievable⟩)
      · exact tracks.exists_entry power (.inl drained)
      · exact tracks.exists_entry power (.inr retrievable)
    · rintro ⟨x, entry⟩
      exact tracks.accounted power h.single entry

/-- The insertion is of a number that no earlier insertion had. -/
def Fresh (seq : α → UInt64) (s : Session α) (pkt : α) : Prop :=
  ∀ entry ∈ s.inserted, seq entry.1 ≠ seq pkt

theorem entered_eq_some_iff {result : Int} {ledger : Nat → Option α} {x y : Nat} {pkt p : α}
    (free : result = 0 → ledger x = none) :
    entered result ledger x pkt y = some p ↔
      ledger y = some p ∨ (result = 0 ∧ y = x ∧ p = pkt) := by
  rw [entered]
  split
  · next zero =>
      by_cases here : y = x
      · simp only [here, Function.update_self, Option.some.injEq, free zero, reduceCtorEq, zero,
          true_and, false_or, eq_comm]
      · simp only [Function.update_of_ne here, here, false_and, and_false, or_false]
  · next failed => simp only [failed, false_and, or_false]

/-- A new packet has no entry, and neither has its number. -/
theorem Accounts.fresh_entry {seq : α → UInt64} {s : Session α} {ledger : Nat → Option α} {pkt : α}
    (h : Accounts seq n s ledger) (fresh : Fresh seq s pkt) :
    (∀ y p, ledger y = some p → UInt64.ofNat y ≠ seq pkt) ∧ ∀ y, ledger y ≠ some pkt := by
  constructor
  · intro y p found same
    refine fresh _ (h.known y p found) ?_
    rw [← same]
    rcases h.tracked with ⟨_, rfl⟩ | ⟨_, _, _, tracks⟩
    · cases found
    · exact tracks.numbered y p found
  · intro y found
    exact fresh _ (h.known y pkt found) rfl

theorem Single.entered {ledger : Nat → Option α} {result : Int} {x : Nat} {pkt : α}
    (single : Single ledger) (free : ledger x = none) (another : ∀ y, ledger y ≠ some pkt) :
    Single (entered result ledger x pkt) := by
  intro y z p foundY foundZ
  rcases (entered_eq_some_iff fun _ => free).mp foundY with old | ⟨_, rfl, rfl⟩
  · rcases (entered_eq_some_iff fun _ => free).mp foundZ with old' | ⟨_, _, rfl⟩
    · exact single y z p old old'
    · exact absurd old (another y)
  · rcases (entered_eq_some_iff fun _ => free).mp foundZ with old' | ⟨_, rfl, _⟩
    · exact absurd old' (another z)
    · rfl

/-- Every packet taken in charge has an entry after an insertion, unless one was dropped. -/
theorem entered_all_iff {inserted : List (α × Int)} {ledger ledger' : Nat → Option α} {dropped : Prop}
    {result : Int} {x : Nat} {pkt : α} (single : Single ledger) (kept : Kept dropped ledger ledger')
    (known : ∀ y p, ledger y = some p → (p, 0) ∈ inserted)
    (all : ∀ p, (p, 0) ∈ inserted → ∃ y, ledger y = some p) (free : ledger' x = none)
    (another : ∀ y, ledger y ≠ some pkt) :
    (∀ p, (p, 0) ∈ inserted ++ [(pkt, result)] → ∃ y, entered result ledger' x pkt y = some p) ↔
      ¬ dropped := by
  have entries (y : Nat) (p : α) : entered result ledger' x pkt y = some p ↔
      ledger' y = some p ∨ (result = 0 ∧ y = x ∧ p = pkt) := entered_eq_some_iff fun _ => free
  rcases kept with ⟨spared, rfl⟩ | ⟨lost, y, q, found, rfl⟩
  · refine iff_of_true (fun p member => ?_) spared
    rcases List.mem_append.mp member with earlier | last
    · obtain ⟨y, found⟩ := all p earlier
      exact ⟨y, (entries y p).mpr (.inl found)⟩
    · obtain ⟨rfl, zero⟩ := Prod.mk.inj (List.mem_singleton.mp last)
      exact ⟨x, (entries x p).mpr (.inr ⟨zero.symm, rfl, rfl⟩)⟩
  · refine iff_of_false (fun every => ?_) (not_not.mpr lost)
    obtain ⟨z, found'⟩ := every q (List.mem_append_left _ (known y q found))
    rcases (entries z q).mp found' with old | ⟨_, _, rfl⟩
    · obtain rfl : z = y := single z y q (Kept.sub (.inr ⟨lost, y, q, found, rfl⟩) old) found
      rw [Function.update_self] at old
      cases old
    · exact another y found

/-- An insertion keeps the accounts, and conservation unless it drops a packet. -/
theorem Accounts.insert [DecidableEq α] {seq : α → UInt64} {s s' : Session α}
    {ledger : Nat → Option α} {pkt : α} (power : n.isPowerOfTwo) (small : n ≤ 2 ^ 31)
    (h : Accounts seq n s ledger) (fresh : Fresh seq s pkt) (conserved : s.Conserved)
    (called : s.call seq (.insert pkt) = some s') :
    (∃ ledger', Accounts seq n s' ledger') ∧
      (s'.Conserved ↔ ¬ s.buffer.Overflows (seq pkt)) := by
  obtain ⟨ledger', x, kept, number, tracked⟩ := h.tracked.insert power small called
  obtain ⟨numbered, another⟩ := h.fresh_entry fresh
  have inserted : s'.inserted =
      s.inserted ++ [(pkt, (reorderInsert s.buffer pkt (seq pkt)).1)] := by
    simp only [Session.call, Option.ite_none_right_eq_some, Option.some.injEq] at called
    obtain ⟨_, rfl⟩ := called
    rfl
  have free : ledger' x = none := by
    cases entry : ledger' x with
    | none => rfl
    | some p => exact absurd number (numbered x p (kept.sub entry))
  have single : Single ledger' := fun y z p foundY foundZ =>
    h.single y z p (kept.sub foundY) (kept.sub foundZ)
  have accounts : Accounts seq n s'
      (entered (reorderInsert s.buffer pkt (seq pkt)).1 ledger' x pkt) := by
    refine ⟨tracked, single.entered free fun y found => another y (kept.sub found), ?_⟩
    intro y p found
    rw [inserted]
    rcases (entered_eq_some_iff fun _ => free).mp found with old | ⟨zero, _, rfl⟩
    · exact List.mem_append_left _ (h.known y p (kept.sub old))
    · rw [zero]
      exact List.mem_append_right _ List.mem_cons_self
  refine ⟨⟨_, accounts⟩, ?_⟩
  rw [accounts.conserved_iff power, inserted]
  exact entered_all_iff h.single kept h.known ((h.conserved_iff power).mp conserved) free another

theorem Accounts.drain [DecidableEq α] {seq : α → UInt64} {s s' : Session α}
    {ledger : Nat → Option α} {maxPkts : Nat} (power : n.isPowerOfTwo) (small : n ≤ 2 ^ 31)
    (h : Accounts seq n s ledger) (conserved : s.Conserved)
    (called : s.call seq (.drain maxPkts) = some s') :
    Accounts seq n s' ledger ∧ s'.Conserved := by
  have tracked := h.tracked.drain power small called
  have inserted : s'.inserted = s.inserted := by
    simp only [Session.call, Option.ite_none_right_eq_some, Option.some.injEq] at called
    obtain ⟨_, rfl⟩ := called
    rfl
  have accounts : Accounts seq n s' ledger := by
    refine ⟨tracked, h.single, ?_⟩
    intro x p found
    rw [inserted]
    exact h.known x p found
  refine ⟨accounts, (accounts.conserved_iff power).mpr ?_⟩
  rw [inserted]
  exact (h.conserved_iff power).mp conserved

/-- What a call needs: it stays inside the allocation, and if it is an insertion that
    overflows the window, no run of occupied slots is too long for the ready ring. -/
def Session.Spares (seq : α → UInt64) (s : Session α) : Call α → Prop
  | .insert pkt => s.buffer.Allocated ∧ ¬ s.buffer.Overflows (seq pkt)
  | .drain maxPkts => maxPkts = 0 ∨ s.buffer.Allocated

instance (seq : α → UInt64) (s : Session α) (c : Call α) : Decidable (s.Spares seq c) :=
  match c with
  | .insert _ => inferInstanceAs (Decidable (_ ∧ _))
  | .drain _ => inferInstanceAs (Decidable (_ ∨ _))

/-- The packet that a call inserts. -/
def Call.packet? : Call α → Option α
  | .insert pkt => some pkt
  | .drain _ => none

/-- One call: it is defined and conserves the packets exactly if it spares them. -/
theorem Accounts.step [DecidableEq α] {seq : α → UInt64} {s : Session α}
    {ledger : Nat → Option α} {c : Call α} (power : n.isPowerOfTwo) (small : n ≤ 2 ^ 31)
    (h : Accounts seq n s ledger) (conserved : s.Conserved)
    (fresh : ∀ pkt ∈ c.packet?, Fresh seq s pkt) :
    (s.Spares seq c → ∃ s', s.call seq c = some s') ∧
      ∀ s', s.call seq c = some s' →
        (∃ ledger', Accounts seq n s' ledger') ∧ (s'.Conserved ↔ s.Spares seq c) ∧
          s'.inserted.map (fun entry => seq entry.1) =
            s.inserted.map (fun entry => seq entry.1) ++ c.packet?.toList.map seq := by
  cases c with
  | insert pkt =>
      constructor
      · rintro ⟨allocated, _⟩
        simp only [Session.call, allocated, if_true, Option.some.injEq, exists_eq']
      · intro s' called
        obtain ⟨accounts, iff⟩ := h.insert power small (fresh pkt rfl) conserved called
        simp only [Session.call, Option.ite_none_right_eq_some, Option.some.injEq] at called
        obtain ⟨allocated, rfl⟩ := called
        refine ⟨accounts, ?_, ?_⟩
        · simp only [iff, Session.Spares, allocated, true_and]
        · simp only [List.map_append, Call.packet?, Option.toList_some, List.map_cons,
            List.map_nil]
  | drain maxPkts =>
      constructor
      · intro spared
        simp only [Session.Spares] at spared
        simp only [Session.call, spared, if_true, Option.some.injEq, exists_eq']
      · intro s' called
        obtain ⟨accounts, conserved'⟩ := h.drain power small conserved called
        simp only [Session.call, Option.ite_none_right_eq_some, Option.some.injEq] at called
        obtain ⟨spared, rfl⟩ := called
        refine ⟨⟨ledger, accounts⟩, ⟨fun _ => spared, fun _ => conserved'⟩, ?_⟩
        simp only [Call.packet?, Option.toList_none, List.map_nil, List.append_nil]

theorem filterMap_packet_cons (c : Call α) (rest : List (Call α)) :
    (c :: rest).filterMap Call.packet? = c.packet?.toList ++ rest.filterMap Call.packet? := by
  cases c <;> rfl

/-- The session has accounts, and all insertions to come have numbers of their own. -/
def Prospect (seq : α → UInt64) (n : Nat) (s : Session α) (calls : List (Call α)) : Prop :=
  (∃ ledger, Accounts seq n s ledger) ∧
    (s.inserted.map (fun entry => seq entry.1) ++ (calls.filterMap Call.packet?).map seq).Nodup

theorem Prospect.step [DecidableEq α] {seq : α → UInt64} {s : Session α} {c : Call α}
    {rest : List (Call α)} (power : n.isPowerOfTwo) (small : n ≤ 2 ^ 31)
    (h : Prospect seq n s (c :: rest)) (conserved : s.Conserved) :
    (s.Spares seq c → ∃ s', s.call seq c = some s') ∧
      ∀ s', s.call seq c = some s' →
        Prospect seq n s' rest ∧ (s'.Conserved ↔ s.Spares seq c) := by
  obtain ⟨⟨ledger, accounts⟩, distinct⟩ := h
  rw [filterMap_packet_cons, List.map_append, ← List.append_assoc] at distinct
  have fresh : ∀ pkt ∈ c.packet?, Fresh seq s pkt := by
    intro pkt member entry earlier same
    have apart := (List.nodup_append.mp (List.nodup_append.mp distinct).1).2.2
    refine apart _ (List.mem_map_of_mem earlier) (seq pkt) ?_ same
    exact List.mem_map_of_mem (Option.mem_toList.mpr member)
  obtain ⟨defined, stepped⟩ := accounts.step power small conserved fresh
  refine ⟨defined, ?_⟩
  intro s' called
  obtain ⟨accounts', iff, inserted⟩ := stepped s' called
  exact ⟨⟨accounts', inserted ▸ distinct⟩, iff⟩

/-- For a buffer of a power-of-two size and insertions with distinct numbers,
    in any order with drains: every packet taken in charge stays accounted for
    exactly if no insertion finds a run of packets in its way that the free places of the
    ready ring are too few for. -/
theorem reorder_conserves_iff [DecidableEq α] {k : Nat} (small : k ≤ 31) (seq : α → UInt64)
    (calls : List (Call α)) (distinct : ((calls.filterMap Call.packet?).map seq).Nodup) :
    ((∃ t, run (Session.call seq) (Session.start (2 ^ k)) calls = some t) ∧
        Always (Session.call seq) Session.Conserved (Session.start (2 ^ k)) calls) ↔
      Meets (Session.call seq) (Session.Spares seq) (Session.start (2 ^ k)) calls := by
  have power : (2 ^ k).isPowerOfTwo := ⟨k, rfl⟩
  have atMost : 2 ^ k ≤ 2 ^ 31 := Nat.pow_le_pow_right (by omega) small
  have accounts : Accounts seq (2 ^ k) (Session.start (2 ^ k)) fun _ => none := by
    refine ⟨.inl ⟨start_untouched power atMost, rfl⟩, ?_, ?_⟩
    · intro x y p found
      cases found
    · intro x p found
      cases found
  have conserved : (Session.start (2 ^ k) : Session α).Conserved := by
    intro p member
    cases member
  exact run_always_iff_meets
    (fun s c rest prospect holds => Prospect.step power atMost prospect holds)
    calls ⟨⟨_, accounts⟩, distinct⟩ conserved

/-- Four slots: two packets are pushed out of the window and one gap is skipped. -/
theorem reorder_conserves_roomy :
    (run (Session.call UInt64.ofNat) (Session.start (2 ^ 2))
        [.insert 10, .insert 11, .insert 13, .insert 15, .drain 1]).map Session.drained =
        some [some 10] ∧
      Always (Session.call UInt64.ofNat) Session.Conserved (Session.start (2 ^ 2))
        [.insert 10, .insert 11, .insert 13, .insert 15, .drain 1] :=
  ⟨by decide, ((reorder_conserves_iff (by decide) UInt64.ofNat _ (by decide)).mpr (by decide)).2⟩

/-- Two slots and three packets without a drain: all three insertions return 0,
    and the second packet is gone. -/
theorem reorder_drops_packet :
    ∃ s, run (Session.call UInt64.ofNat) (Session.start (2 ^ 1))
        [.insert 10, .insert 11, .insert 12] = some s ∧
      s.inserted = [(10, 0), (11, 0), (12, 0)] ∧ s.drained = [] ∧
      ¬ s.buffer.Retrievable 11 ∧ ¬ s.Conserved := by
  have gone : ∃ s, run (Session.call UInt64.ofNat) (Session.start (2 ^ 1))
        [.insert 10, .insert 11, .insert 12] = some s ∧
      s.inserted = [(10, 0), (11, 0), (12, 0)] ∧ s.drained = [] ∧
      ¬ s.buffer.Retrievable 11 :=
    ⟨_, rfl, by decide, rfl, by decide⟩
  obtain ⟨s, reached, inserted, drained, missing⟩ := gone
  refine ⟨s, reached, inserted, drained, missing, fun conserved => ?_⟩
  rcases conserved 11 (by rw [inserted]; decide) with ⟨once, _⟩ | ⟨_, retrievable⟩
  · rw [drained] at once
    cases once
  · exact missing retrievable

end Mlvpn.Reorder
