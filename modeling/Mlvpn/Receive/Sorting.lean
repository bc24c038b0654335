import Mlvpn.Receive.Pending
import Mlvpn.Receive.Pool
import Mlvpn.Reorder.Refinement

/-! # Packets out of order

What the reorder buffer is there for: packets that the links have put out of
order leave for the device in the order of their numbers.  The pool, the rings
and the window of `Reorder.Window` are followed together: the pool holds
exactly what the window holds, and everything below the window has left.
-/

namespace Mlvpn

namespace Reorder

variable {α β : Type*} {n : Nat}

/-- A packet stored in a free place. -/
theorem between_update_perm {held : Nat → Option α} {a b x : Nat} (low : a ≤ x) (high : x < b)
    (free : held x = none) (pkt : α) :
    (between (Function.update held x (some pkt)) a b).Perm (pkt :: between held a b) := by
  have below : between (Function.update held x (some pkt)) a x = between held a x :=
    between_congr fun y _ under => Function.update_of_ne (by omega) _ _
  have above : between (Function.update held x (some pkt)) (x + 1) b = between held (x + 1) b :=
    between_congr fun y past _ => Function.update_of_ne (by omega) _ _
  rw [← between_append _ (by omega : a ≤ x + 1) high, ← between_append held (by omega : a ≤ x + 1) high,
    between_succ _ low, between_succ _ low, below, above, free, Function.update_self]
  simp only [Option.toList_some, Option.toList_none, List.append_nil, List.append_assoc,
    List.singleton_append]
  exact List.perm_middle

/-- A stretch without gaps, read in order. -/
theorem between_map_eq {held : Nat → Option α} {value : α → β} {pkts : Nat → β} {first a b : Nat}
    (low : a ≤ b)
    (full : ∀ x, a ≤ x → x < b → (held (first + x)).map value = some (pkts x)) :
    (between held (first + a) (first + b)).map value = (List.range' a (b - a)).map pkts := by
  induction b, low using Nat.le_induction with
  | base => simp only [between_self, Nat.sub_self, List.range'_zero, List.map_nil]
  | succ b low ih =>
      obtain ⟨pkt, found, same⟩ := Option.map_eq_some_iff.mp (full b low (Nat.lt_succ_self b))
      have width : b + 1 - a = (b - a) + 1 := by omega
      have last : a + 1 * (b - a) = b := by omega
      rw [← Nat.add_assoc, between_succ _ (Nat.add_le_add_left low first), List.map_append,
        ih fun x past under => full x past (by omega), found, width, List.range'_concat, last]
      simp only [Option.toList_some, List.map_cons, List.map_nil, List.map_append, same]

namespace Window

/-- Everything below the expected number is there. -/
theorem expected_filled (w : Window α n) {x y : Nat} (pkt : α) (low : max w.next (x + 1 - n) ≤ y)
    (below : y < w.expected x pkt) : w.add x pkt y ≠ none := fun free =>
  Nat.find_min (w.add_free x pkt) below ⟨low, free⟩

/-- A packet inside the window leaves the window where it was, or moves it on
    to at most its upper end. -/
theorem expected_le (w : Window α n) {x : Nat} (pkt : α) (near : x < w.next + n) :
    w.expected x pkt ≤ w.next + n := by
  by_contra beyond
  have filled := w.expected_filled pkt (x := x) (y := w.next + n) (by omega) (by omega)
  rcases w.add_bounded filled with same | ⟨_, under⟩ <;> omega

/-- What the window holds with one more packet is what it lets go and what it
    holds afterwards. -/
theorem between_advance (w : Window α n) {x : Nat} (pkt : α) (near : x < w.next + n) :
    between (w.add x pkt) w.next (w.next + n) =
      between (w.add x pkt) w.next (w.expected x pkt) ++
        between (w.advance x pkt).held (w.expected x pkt) (w.expected x pkt + n) := by
  have low := (w.expected_spec x pkt).1
  have high := w.expected_le pkt near
  have kept : between (w.advance x pkt).held (w.expected x pkt) (w.expected x pkt + n) =
      between (w.add x pkt) (w.expected x pkt) (w.expected x pkt + n) :=
    between_congr fun y past _ => if_neg (by omega)
  have beyond : between (w.add x pkt) (w.next + n) (w.expected x pkt + n) = [] := by
    apply List.filterMap_eq_nil_iff.mpr
    intro y member
    have past := (List.mem_range'_1.mp member).1
    by_contra found
    rcases w.add_bounded found with same | ⟨_, under⟩ <;> omega
  rw [kept, ← between_append _ high (by omega), beyond, List.append_nil,
    between_append _ (by omega) high]

theorem accept_inside {state : Option (Window α n)} {w : Window α n} {seq : UInt64} {x : Nat}
    (pkt : α) (current : state.getD (start seq) = w) (place : w.next + w.distance seq = x)
    (near : x < w.next + n) :
    accept state pkt seq =
      ((0, between (w.add x pkt) w.next (w.expected x pkt)), some (w.advance x pkt)) := by
  subst place
  have inside : ¬ 2 * n ≤ w.distance seq := by omega
  have low := (w.expected_spec (w.next + w.distance seq) pkt).1
  simp only [accept, current, inside, if_false]
  rw [w.released_eq (Nat.le_add_right _ _) (by omega)]

end Window

end Reorder

namespace Receive

open Reorder Library Library.Machine

variable {s s' : Receive} {pkts : Nat → Pkt} {n m : Nat} {first : UInt64} {seen : List Nat}

/-- The packet in an entry of the pool. -/
def entryPkt (s : Receive) (entry : Nat) : Pkt := (s.freebuf.mem entry).pkt

/-- The packets numbered below `m` have been injected in order, `m` is missing,
    and those of the others that have arrived wait in the window and the pool. -/
structure Holds (pkts : Nat → Pkt) (first : UInt64) (seen : List Nat) (s : Receive)
    (w : Window Nat n) (m : Nat) : Prop where
  next : w.next = first.toNat + m
  used : s.freebuf.usedHead.Perm (between w.held w.next (w.next + n))
  held : ∀ x, m ≤ x →
    (w.held (first.toNat + x)).map s.entryPkt = if x ∈ seen then some (pkts x) else none
  filled : ∀ x, x < m → x ∈ seen
  injected : s.injected.map (·.pkt) = (List.range m).map pkts

theorem Holds.missing {w : Window Nat n} (holds : Holds pkts first seen s w m) : m ∉ seen := by
  intro member
  have here := holds.held m le_rfl
  rw [← holds.next, w.held_next, if_pos member] at here
  cases here

/-- The pool has an entry for one more packet. -/
theorem Holds.room {w : Window Nat n} (holds : Holds pkts first seen s w m) (positive : 0 < n) :
    s.freebuf.usedHead.length < n := by
  have width := between_length_le w.held (w.next + 1) (w.next + n)
  have skipped : between w.held w.next (w.next + n) = between w.held (w.next + 1) (w.next + n) := by
    rw [← between_append w.held (Nat.le_succ w.next) (by omega), between_succ _ le_rfl, between_self,
      w.held_next]
    rfl
  rw [holds.used.length_eq, skipped]
  omega

theorem Holds.mem_used {w : Window Nat n} (holds : Holds pkts first seen s w m) {entry y : Nat}
    (found : w.held y = some entry) : entry ∈ s.freebuf.usedHead := by
  have inside := w.bounded y (by rw [found]; exact Option.some_ne_none _)
  refine holds.used.mem_iff.mpr (List.mem_filterMap.mpr ⟨y, ?_, found⟩)
  exact List.mem_range'_1.mpr ⟨by omega, by omega⟩

/-- The window with one more packet, whose entry is new to the pool. -/
theorem Holds.add {w : Window Nat n} (holds : Holds pkts first seen s w m) {entry x : Nat}
    (unused : entry ∉ s.freebuf.usedHead) (r : Reception) (same : r.pkt = pkts x) {y : Nat}
    (high : m ≤ y) :
    (w.add (first.toNat + x) entry (first.toNat + y)).map
        (fun e => (Function.update s.freebuf.mem entry r e).pkt) =
      if y ∈ x :: seen then some (pkts y) else none := by
  by_cases here : y = x
  · subst here
    simp only [Window.add, Function.update_self, Option.map_some, same, List.mem_cons_self, if_true]
  · have other : first.toNat + y ≠ first.toNat + x := by omega
    have kept : (w.held (first.toNat + y)).map
        (fun e => (Function.update s.freebuf.mem entry r e).pkt) =
        (w.held (first.toNat + y)).map s.entryPkt := by
      apply Option.map_congr
      intro e found
      have different : e ≠ entry := fun equal => unused (equal ▸ holds.mem_used found)
      simp only [entryPkt, Function.update_of_ne different]
    rw [Window.add, Function.update_of_ne other, kept, holds.held y high]
    simp only [List.mem_cons, here, false_or]

theorem Holds.used_add {w : Window Nat n} (holds : Holds pkts first seen s w m) (entry : Nat) {x : Nat}
    (fresh : x ∉ seen) (low : m ≤ x) (near : x < m + n) :
    (s.freebuf.usedHead ++ [entry]).Perm
      (between (w.add (first.toNat + x) entry) w.next (w.next + n)) := by
  have next := holds.next
  have vacant : w.held (first.toNat + x) = none := by
    have here := holds.held x low
    rwa [if_neg fresh, Option.map_eq_none_iff] at here
  calc (s.freebuf.usedHead ++ [entry]).Perm (entry :: s.freebuf.usedHead) :=
        List.perm_append_singleton _ _
    _ |>.Perm (entry :: between w.held w.next (w.next + n)) := holds.used.cons entry
    _ |>.Perm (between (w.add (first.toNat + x) entry) w.next (w.next + n)) :=
        (between_update_perm (by omega) (by omega) vacant entry).symm

/-- The packets that the window lets go are injected, and the others wait on. -/
theorem Holds.settle {w : Window Nat n} (holds : Holds pkts first seen s w m) {entry x : Nat}
    (unused : entry ∉ s.freebuf.usedHead) {r : Reception} (same : r.pkt = pkts x) (fresh : x ∉ seen)
    (low : m ≤ x) (near : x < m + n) {s₁ s' : Receive}
    (injects : Injects s₁ s' (between (w.add (first.toNat + x) entry) w.next
      (w.expected (first.toNat + x) entry)))
    (mem : s₁.freebuf.mem = Function.update s.freebuf.mem entry r)
    (used : s₁.freebuf.usedHead = s.freebuf.usedHead ++ [entry])
    (injected : s₁.injected = s.injected) :
    ∃ m', Holds pkts first (x :: seen) s' (w.advance (first.toNat + x) entry) m' := by
  have next := holds.next
  have place : w.next ≤ first.toNat + x := by omega
  have inside : first.toNat + x < w.next + n := by omega
  obtain ⟨lower, free⟩ := w.expected_spec (first.toNat + x) entry
  obtain ⟨m', expected⟩ : ∃ m', w.expected (first.toNat + x) entry = first.toNat + m' :=
    ⟨_, (Nat.add_sub_cancel' (by omega)).symm⟩
  have added : ∀ y, m ≤ y → (w.add (first.toNat + x) entry (first.toNat + y)).map s₁.entryPkt =
      if y ∈ x :: seen then some (pkts y) else none := by
    intro y high
    have here := holds.add unused r same high
    rwa [← mem] at here
  have filled : ∀ y, m ≤ y → y < m' → y ∈ x :: seen := by
    intro y high under
    by_contra absent
    have here := added y high
    rw [if_neg absent, Option.map_eq_none_iff] at here
    exact w.expected_filled entry (x := first.toNat + x) (by omega) (by omega) here
  refine ⟨m', expected, ?_, ?_, ?_, ?_⟩
  · have before := holds.used_add entry fresh low near
    rw [← used, w.between_advance entry inside] at before
    exact (List.perm_append_left_iff _).mp (injects.used.symm.trans before)
  · intro y high
    have stays : (w.advance (first.toNat + x) entry).held (first.toNat + y) =
        w.add (first.toNat + x) entry (first.toNat + y) := if_neg (by omega)
    have later : s'.entryPkt = s₁.entryPkt := by
      funext e
      simp only [entryPkt, injects.mem]
    rw [stays, later]
    exact added y (by omega)
  · intro y under
    by_cases old : y < m
    · exact List.mem_cons_of_mem x (holds.filled y old)
    · exact filled y (by omega) under
  · have out : (between (w.add (first.toNat + x) entry) w.next
        (w.expected (first.toNat + x) entry)).map s₁.entryPkt =
        (List.range' m (m' - m)).map pkts := by
      rw [next, expected]
      refine between_map_eq (by omega) fun y past under => ?_
      rw [added y past, if_pos (filled y past under)]
    have range : List.range m' = List.range m ++ List.range' m (m' - m) := by
      have joined := List.range'_append_1 (s := 0) (m := m) (n := m' - m)
      rw [Nat.zero_add, Nat.add_sub_cancel' (by omega)] at joined
      rw [List.range_eq_range', List.range_eq_range', joined]
    rw [injects.injected, List.map_append, injected, holds.injected, List.map_map, range,
      List.map_append, ← out]
    rfl

theorem Holds.free {w : Window Nat n} (holds : Holds pkts first seen s w m) (owned : Owned s)
    (entries : s.freebuf.size = 512) (positive : 0 < n) (small : n ≤ 512) :
    ∃ entry freebuf, freebufferGet s.freebuf = some (entry, freebuf) := by
  cases got : freebufferGet s.freebuf with
  | none =>
      have lengths := owned.pool.shared.length_eq
      have room := holds.room positive
      rw [freebufferGet_eq_none_iff.mp got, List.nil_append, List.length_range, entries] at lengths
      omega
  | some result => exact ⟨result.1, result.2, rfl⟩

theorem Holds.distance_eq {w : Window Nat n} (holds : Holds pkts first seen s w m) {x : Nat}
    (low : m ≤ x) (near : x < m + 2 ^ 64) : w.distance (first + UInt64.ofNat x) = x - m := by
  have bound := first.toNat_lt
  rw [Window.distance, holds.next, UInt64.toNat_sub, UInt64.toNat_add, UInt64.toNat_ofNat',
    UInt64.toNat_ofNat']
  omega

/-- The receive path while numbered packets arrive; before the first one, the
    window is the one it will start. -/
structure Sorting (pkts : Nat → Pkt) (n : Nat) (first : UInt64) (seen : List Nat) (s : Receive) :
    Prop where
  owned : Owned s
  entries : s.freebuf.size = 512
  window : ∃ b state m, s.reorderBuffer = some b ∧ Represents n b state ∧
    (state = none → seen = []) ∧ Holds pkts first seen s (state.getD (.start first)) m

theorem Holds.congr {w : Window Nat n} (holds : Holds pkts first seen s w m)
    (freebuf : s'.freebuf = s.freebuf) (injected : s'.injected = s.injected) :
    Holds pkts first seen s' w m where
  next := holds.next
  used := by
    rw [freebuf]
    exact holds.used
  held := by
    intro x high
    have same : s'.entryPkt = s.entryPkt := by
      funext entry
      simp only [entryPkt, freebuf]
    rw [same]
    exact holds.held x high
  filled := holds.filled
  injected := by
    rw [injected]
    exact holds.injected

/-- A packet that the reorder buffer takes, and the drain after it. -/
theorem recvEntry_injects {b : ReorderBuffer Nat} {entry : Nat} {r : Reception} {out : List Nat}
    (allocated : b.Allocated) (accepted : (reorderInsert b entry r.pkt.seq).1 = 0)
    (output : (reorderDrain (reorderInsert b entry r.pkt.seq).2 1024).1 = out.map some)
    (pool : s.freebuf.Wf) (queued : Queued s.sbuf s.ioWrite) (distinct : out.Nodup)
    (inUse : ∀ p ∈ out, p ∈ s.freebuf.usedHead) :
    ∃ s₁ result, recvEntry s b entry r = some result ∧
      Injects { s with
        reorderBuffer := some (reorderDrain (reorderInsert b entry r.pkt.seq).2 1024).2 } s₁ out ∧
      result.2.freebuf = s₁.freebuf ∧ result.2.injected = s₁.injected ∧
      result.2.reorderBuffer = s₁.reorderBuffer := by
  obtain ⟨s₁, done, injects⟩ := injectDrained_injects
    (s := { s with
      reorderBuffer := some (reorderDrain (reorderInsert b entry r.pkt.seq).2 1024).2 })
    out pool queued distinct inUse
  have called : recvEntry s b entry r = some (restartIfUsed (out.length, stopIfUnused s₁)) := by
    simp only [recvEntry, allocated, if_true, accepted, reorderDrainOrdered, output, done,
      Option.map_some, List.length_map]
    simp
  refine ⟨s₁, _, called, injects, ?_, ?_, ?_⟩ <;>
  · simp only [restartIfUsed, stopIfUnused]
    split_ifs <;> rfl

/-- A packet arrives that is new, and is not `n` or more above a missing one. -/
theorem Sorting.recv (sorting : Sorting pkts n first seen s) (power : n.isPowerOfTwo) (two : 2 ≤ n)
    (small : n ≤ 512) (reorder : ∀ x, (pkts x).reorder = true)
    (seq : ∀ x, (pkts x).seq = first + UInt64.ofNat x) {x : Nat} (begins : seen = [] → x = 0)
    (fresh : x ∉ seen) (near : ∀ y, y + n ≤ x → y ∈ seen) (tun : Nat) :
    ∃ s', s.step (.recv tun (pkts x)) = some s' ∧ Sorting pkts n first (x :: seen) s' := by
  obtain ⟨owned, entries, b, state, m, buffer, represents, untouched, holds⟩ := sorting
  have low : m ≤ x := by
    by_contra below
    exact fresh (holds.filled x (by omega))
  have inside : x < m + n := by
    by_contra beyond
    exact holds.missing (near m (by omega))
  obtain ⟨entry, freebuf, got⟩ := holds.free owned entries (by omega) small
  obtain ⟨pool, unused, used, mem⟩ := owned.pool.get got
  have current : state.getD (.start (pkts x).seq) = state.getD (.start first) := by
    cases state with
    | none => simp [seq, begins (untouched rfl)]
    | some w => rfl
  generalize state.getD (.start first) = w at current holds
  have place : w.next + w.distance (pkts x).seq = first.toNat + x := by
    rw [holds.next, seq, holds.distance_eq low (by omega)]
    omega
  have answered := Window.accept_inside entry current place (by rw [holds.next]; omega)
  obtain ⟨answer, after⟩ := insert_drain_simulates power two (by omega)
    ⟨entry, (pkts x).seq, 1024⟩ represents (by dsimp only; omega)
  simp only [Window.offered, answered, pointers, Prod.mk.injEq] at answer after
  obtain ⟨accepted, output⟩ := answer
  have waiting := holds.used_add entry fresh low inside
  rw [w.between_advance entry (by rw [holds.next]; omega), ← used] at waiting
  have distinct := waiting.nodup_iff.mp pool.nodup.of_append_right
  obtain ⟨r, arrival⟩ : ∃ r, r = s.arrival tun (pkts x) := ⟨_, rfl⟩
  have same : r.pkt = pkts x := congrArg Reception.pkt arrival
  rw [← same] at accepted output after
  obtain ⟨s₁, result, called, injects, sameFreebuf, sameInjected, sameBuffer⟩ :=
    recvEntry_injects (s := { s with received := s.received ++ [r], freebuf := freebuf.store entry r })
      (owned.lends b buffer).1 accepted output (pool.store entry r) owned.queued
      distinct.of_append_left (fun p member => waiting.mem_iff.mpr (List.mem_append_left _ member))
  have done : recvData s tun (pkts x) = some result := by
    simp only [recvData, buffer, reorder x, if_true, got, ← arrival]
    exact called
  obtain ⟨k, s', again, owned', _⟩ := recvData_accounts owned tun (pkts x)
  rw [done] at again
  cases again
  have stored : (freebuf.store entry r).mem = Function.update s.freebuf.mem entry r := by
    rw [Freebuffer.store, mem]
  obtain ⟨m', settled⟩ := holds.settle unused same fresh low inside injects stored used rfl
  refine ⟨s', by simp only [step, done, Option.map_some], owned', ?_, ?_⟩
  · rw [(recvData_kept done).entries]
    exact entries
  · refine ⟨_, _, m', sameBuffer.trans injects.buffer, after, (fun none => by cases none), ?_⟩
    exact settled.congr sameFreebuf sameInjected

/-- The packet an event brings. -/
def Event.packet? : Event → Option Pkt
  | .recv _ pkt => some pkt
  | _ => none

/-- Neither a timeout nor a change of status nor a new size empties the buffer. -/
def Event.Steady : Event → Prop
  | .recv _ _ | .adjust _ | .tuntapWrite => True
  | _ => False

/-- Each number arrives once, and after all those that lie `n` or more below it. -/
def Near (n : Nat) (seen : List Nat) : List Nat → Prop
  | [] => True
  | x :: rest => x ∉ seen ∧ (∀ y, y < x + 1 - n → y ∈ seen) ∧ Near n (x :: seen) rest

instance decidableNear (n : Nat) : (seen numbers : List Nat) → Decidable (Near n seen numbers)
  | _, [] => isTrue trivial
  | seen, x :: rest =>
      have := decidableNear n (x :: seen) rest
      inferInstanceAs (Decidable (_ ∧ _ ∧ _))

theorem Sorting.aside (sorting : Sorting pkts n first seen s) (owned : Owned s')
    (freebuf : s'.freebuf = s.freebuf) (injected : s'.injected = s.injected)
    (buffer : s'.reorderBuffer = s.reorderBuffer) : Sorting pkts n first seen s' := by
  obtain ⟨_, entries, b, state, m, found, represents, untouched, holds⟩ := sorting
  exact ⟨owned, by rw [freebuf, entries], b, state, m, buffer.trans found, represents, untouched,
    holds.congr freebuf injected⟩

/-- An event that brings no packet changes nothing about those that wait. -/
theorem Sorting.other (sorting : Sorting pkts n first seen s) {e : Event} (steady : e.Steady)
    (none : e.packet? = none) : ∃ s', s.step e = some s' ∧ Sorting pkts n first seen s' := by
  cases e with
  | recv tun pkt => cases none
  | adjust period =>
      exact ⟨_, rfl, sorting.aside { sorting.owned with idle := sorting.owned.idle } rfl rfl rfl⟩
  | tuntapWrite =>
      obtain ⟨s', done, owned, _⟩ := tuntapWrite_owned sorting.owned
      obtain ⟨sbuf, ioWrite, rfl⟩ := tuntapWrite_cases done
      exact ⟨_, done, sorting.aside owned rfl rfl rfl⟩
  | timeout | statusChange | reload => exact steady.elim

theorem Sorting.run (power : n.isPowerOfTwo) (two : 2 ≤ n) (small : n ≤ 512)
    (reorder : ∀ x, (pkts x).reorder = true) (seq : ∀ x, (pkts x).seq = first + UInt64.ofNat x)
    (events : List Event) (steady : ∀ e ∈ events, e.Steady) {numbers : List Nat}
    (sorting : Sorting pkts n first seen s)
    (arrivals : events.filterMap Event.packet? = numbers.map pkts)
    (begins : seen = [] → ∀ x ∈ numbers.head?, x = 0) (near : Near n seen numbers) :
    ∃ t, Machine.run step s events = some t ∧ Sorting pkts n first (numbers.reverse ++ seen) t := by
  induction events generalizing s seen numbers with
  | nil =>
      obtain rfl : numbers = [] := List.map_eq_nil_iff.mp arrivals.symm
      exact ⟨s, rfl, sorting⟩
  | cons e rest ih =>
      have later : ∀ e ∈ rest, e.Steady := fun e member => steady e (List.mem_cons_of_mem _ member)
      cases brings : e.packet? with
      | none =>
          rw [List.filterMap_cons_none brings] at arrivals
          obtain ⟨s₁, done, sorting⟩ := sorting.other (steady e List.mem_cons_self) brings
          obtain ⟨t, reached, sorted⟩ := ih later sorting arrivals begins near
          exact ⟨t, run_cons_eq_some.mpr ⟨s₁, done, reached⟩, sorted⟩
      | some pkt =>
          rw [List.filterMap_cons_some brings] at arrivals
          cases numbers with
          | nil => cases arrivals
          | cons x numbers =>
              obtain ⟨rfl, onward⟩ := List.cons.inj arrivals
              obtain ⟨fresh, below, near⟩ := near
              obtain ⟨tun, rfl⟩ : ∃ tun, e = .recv tun (pkts x) := by
                cases e <;> cases brings
                exact ⟨_, rfl⟩
              obtain ⟨s₁, done, sorting⟩ := sorting.recv power two small reorder seq
                (fun empty => begins empty x rfl) fresh (fun y under => below y (by omega)) tun
              obtain ⟨t, reached, sorted⟩ := ih later sorting onward (fun empty => by cases empty) near
              refine ⟨t, run_cons_eq_some.mpr ⟨s₁, done, reached⟩, ?_⟩
              rw [List.reverse_cons, List.append_assoc, List.singleton_append]
              exact sorted

theorem reordering_owned {size : UInt32} (fits : Fits size) (period : ℚ) :
    Owned (reordering size period) := by
  obtain ⟨loaded, _⟩ := configReorderBufferSize_owned owned_init fits
  exact { loaded with idle := fun none => ⟨(loaded.idle none).1, rfl⟩ }

/-- Before the first packet. -/
theorem reordering_sorting {size : UInt32} (period : ℚ) (power : size.toNat.isPowerOfTwo)
    (small : size.toNat ≤ 512) (pkts : Nat → Pkt) (first : UInt64) :
    Sorting pkts size.toNat first [] (reordering size period) := by
  have positive : 0 < size.toNat := Nat.pos_of_isPowerOfTwo power
  have fits : Fits size := by
    rw [Fits]
    omega
  have created : (reordering size period).reorderBuffer = some (reorderCreate size.toNat) := by
    have differs : size ≠ 0 := by
      rintro rfl
      exact absurd positive (by decide)
    have above : size > 0 := positive
    simp [reordering, configReorderBufferSize, init, differs, above]
  have pool : (reordering size period).freebuf = init.freebuf ∧
      (reordering size period).injected = [] := by
    simp only [reordering, configReorderBufferSize]
    split_ifs <;> exact ⟨rfl, rfl⟩
  refine ⟨reordering_owned fits period, by rw [pool.1]; rfl, _, none, 0, created,
    reorderCreate_represents power (by omega), fun _ => rfl, ?_⟩
  refine ⟨rfl, ?_, fun x _ => rfl, fun x below => absurd below (Nat.not_lt_zero x), ?_⟩
  · rw [pool.1]
    have nothing : between (Window.start first : Window Nat size.toNat).held first.toNat
        (first.toNat + size.toNat) = [] := List.filterMap_eq_nil_iff.mpr fun _ _ => rfl
    exact nothing ▸ .nil
  · rw [pool.2]
    rfl

/-- Packets numbered from 0 on, to be reordered, arrive over any tunnels with
    the first one first and none of them `size` or more ahead of a missing one:
    whatever else their order is, the packets before the first missing one have
    gone to the device, each once and in the order of their numbers. -/
theorem displaced_in_order {size : UInt32} {k : Nat} (window : size.toNat = 2 ^ k) (two : 1 ≤ k)
    (small : k ≤ 9) (period : ℚ) {first : UInt64} {pkts : Nat → Pkt}
    (reorder : ∀ x, (pkts x).reorder = true) (seq : ∀ x, (pkts x).seq = first + UInt64.ofNat x)
    {events : List Event} (steady : ∀ e ∈ events, e.Steady) {numbers : List Nat}
    (arrivals : events.filterMap Event.packet? = (0 :: numbers).map pkts)
    (near : Near size.toNat [0] numbers) :
    ∃ t m, run step (reordering size period) events = some t ∧
      m ∉ 0 :: numbers ∧ (∀ x, x < m → x ∈ 0 :: numbers) ∧
      t.injected.map (·.pkt) = (List.range m).map pkts := by
  have power : size.toNat.isPowerOfTwo := ⟨k, window⟩
  have atLeast : 2 ^ 1 ≤ 2 ^ k := Nat.pow_le_pow_right (by omega) two
  have atMost : 2 ^ k ≤ 2 ^ 9 := Nat.pow_le_pow_right (by omega) small
  have starts : Near size.toNat [] (0 :: numbers) := ⟨List.not_mem_nil, fun y below => by omega, near⟩
  obtain ⟨t, reached, sorted⟩ := Sorting.run power (by omega) (by omega) reorder seq events steady
    (reordering_sorting period power (by omega) pkts first) arrivals
    (fun _ x head => (Option.some.inj head).symm) starts
  obtain ⟨_, _, b, state, m, _, _, _, holds⟩ := sorted
  have same : ∀ x, x ∈ (0 :: numbers).reverse ++ [] ↔ x ∈ 0 :: numbers := fun x => by
    rw [List.append_nil, List.mem_reverse]
  exact ⟨t, m, reached, fun member => holds.missing ((same m).mpr member),
    fun x below => (same x).mp (holds.filled x below), holds.injected⟩

/-- Packets numbered across the end of the 64-bit numbers. -/
def wrapping (x : Nat) : Pkt :=
  { Pkt.zero with type := .data, reorder := true, seq := 18446744073709551614 + UInt64.ofNat x }

/-- Two tunnels, one of them slower. -/
def overtaken : List Event :=
  [.recv 0 (wrapping 0), .recv 1 (wrapping 2), .tuntapWrite, .recv 1 (wrapping 3),
    .recv 0 (wrapping 1)]

theorem overtaken_in_order :
    ∃ t, run step (reordering 4 1) overtaken = some t ∧
      t.injected.map (·.pkt) = [wrapping 0, wrapping 1, wrapping 2, wrapping 3] := by
  have window : (4 : UInt32).toNat = 2 ^ 2 := rfl
  have seq : ∀ x, (wrapping x).seq = 18446744073709551614 + UInt64.ofNat x := fun _ => rfl
  have steady : ∀ e ∈ overtaken, e.Steady := by simp [overtaken, Event.Steady]
  have arrivals : overtaken.filterMap Event.packet? = (0 :: [2, 3, 1]).map wrapping := rfl
  obtain ⟨t, m, reached, missing, filled, injected⟩ := displaced_in_order window (by decide)
    (by decide) 1 (fun _ => rfl) seq steady arrivals (by decide)
  have complete : m = 4 := by
    have upper : ¬ 4 < m := fun above => absurd (filled 4 above) (by decide)
    have different : m ≠ 0 ∧ m ≠ 2 ∧ m ≠ 3 ∧ m ≠ 1 := by simpa using missing
    omega
  subst complete
  exact ⟨t, reached, injected⟩

end Receive

end Mlvpn
