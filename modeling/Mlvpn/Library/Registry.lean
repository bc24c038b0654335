import Mathlib.Data.List.Nodup

/-! # Lists of records that are found by a key

`get` is the first record of a key; `revise` changes the records of a key, and
`List.filter` on the key takes records out.  Where the keys are distinct, the
list is a finite map.
-/

namespace Mlvpn.Library.Registry

variable {α β ν : Type} [DecidableEq ν] {key : α → ν} {l : List α} {k k' : ν}

def get (key : α → ν) (l : List α) (k : ν) : Option α := l.find? fun a => key a = k

def revise (key : α → ν) (l : List α) (k : ν) (f : α → α) : List α :=
  l.map fun a => if key a = k then f a else a

theorem get_cons (a : α) : get key (a :: l) k = if key a = k then some a else get key l k := by
  unfold get
  rw [List.find?_cons]
  split
  next found => rw [if_pos (of_decide_eq_true found)]
  next other => rw [if_neg (of_decide_eq_false other)]

theorem get_eq_none_iff : get key l k = none ↔ k ∉ l.map key := by
  unfold get
  simp only [List.find?_eq_none, decide_eq_true_eq, List.mem_map, not_exists, not_and]

theorem mem_of_get {a : α} (found : get key l k = some a) : a ∈ l ∧ key a = k :=
  ⟨List.mem_of_find?_eq_some found, of_decide_eq_true (List.find?_some found :)⟩

/-- A record is found by its key if no other has it. -/
theorem get_of_mem {a : α} (distinct : (l.map key).Nodup) (member : a ∈ l) :
    get key l (key a) = some a := by
  cases found : get key l (key a) with
  | none => exact absurd (List.mem_map_of_mem member) (get_eq_none_iff.mp found)
  | some b =>
      obtain ⟨there, same⟩ := mem_of_get found
      rw [List.inj_on_of_nodup_map distinct there member same]

/-- A view of the records that keeps their keys. -/
theorem get_map {key' : β → ν} {view : α → β} (kept : ∀ a, key' (view a) = key a) :
    get key' (l.map view) k = (get key l k).map view := by
  unfold get
  rw [List.find?_map]
  simp only [Function.comp_def, kept]

theorem map_key_revise {f : α → α} (kept : ∀ a, key (f a) = key a) :
    (revise key l k f).map key = l.map key := by
  unfold revise
  rw [List.map_map]
  apply List.map_congr_left
  intro a _
  rw [Function.comp_apply]
  split
  next => exact kept a
  next => rfl

theorem get_revise {f : α → α} (kept : ∀ a, key (f a) = key a) :
    get key (revise key l k f) k' = if k' = k then (get key l k).map f else get key l k' := by
  unfold revise
  rw [get_map fun a => by split; exacts [kept a, rfl]]
  cases found : get key l k' with
  | none =>
      split
      next here =>
        rw [← here, found]
        rfl
      next => rfl
  | some a =>
      have name := (mem_of_get found).2
      split
      next here =>
        rw [← here, found, Option.map_some, if_pos name, Option.map_some]
      next other => rw [Option.map_some, if_neg fun same => other (name.symm.trans same)]

/-- Where the keys are distinct, a change of one record is a change by its key. -/
theorem set_eq_revise {a : α} {i : Nat} (distinct : (l.map key).Nodup) (found : l[i]? = some a)
    (f : α → α) : l.set i (f a) = revise key l (key a) f := by
  apply List.ext_getElem?
  intro m
  unfold revise
  rw [List.getElem?_map, List.getElem?_set]
  by_cases here : i = m
  · subst here
    obtain ⟨inside, _⟩ := List.getElem?_eq_some_iff.mp found
    rw [if_pos rfl, if_pos inside, found, Option.map_some, if_pos rfl]
  · rw [if_neg here]
    cases other : l[m]? with
    | none => rfl
    | some b =>
        have apart : key b ≠ key a := by
          intro same
          apply here
          have first : (l.map key)[i]? = some (key a) := by rw [List.getElem?_map, found, Option.map_some]
          have second : (l.map key)[m]? = some (key a) := by
            rw [List.getElem?_map, other, Option.map_some, same]
          have inside := (List.getElem?_eq_some_iff.mp first).1
          exact (List.getElem?_inj inside distinct).mp (first.trans second.symm)
        rw [Option.map_some, if_neg apart]

/-- Records are taken out by their keys. -/
theorem get_filter {p : ν → Bool} :
    get key (l.filter fun a => p (key a)) k = if p k then get key l k else none := by
  induction l with
  | nil =>
      split <;> rfl
  | cons a rest ih =>
      rw [List.filter_cons]
      split
      next kept =>
        rw [get_cons, get_cons, ih]
        split
        next here => rw [← here, kept, if_pos rfl]
        next => rfl
      next dropped =>
        rw [ih, get_cons]
        split
        next allowed => rw [if_neg fun here : key a = k => dropped (here ▸ allowed)]
        next => rfl

/-- Where the keys are distinct, the first record of a key is the only one. -/
theorem eraseP_eq_filter (distinct : (l.map key).Nodup) :
    l.eraseP (fun a => key a = k) = l.filter fun a => key a ≠ k := by
  induction l with
  | nil => rfl
  | cons a rest ih =>
      rw [List.map_cons, List.nodup_cons] at distinct
      by_cases here : key a = k
      · have kept : rest.filter (fun a => key a ≠ k) = rest := by
          rw [List.filter_eq_self]
          intro b member
          exact decide_eq_true fun same => distinct.1 ((here.trans same.symm) ▸ List.mem_map_of_mem member)
        simp only [List.eraseP_cons, List.filter_cons, here, ne_eq, not_true, decide_true, decide_false,
          Bool.false_eq_true, if_false]
        exact kept.symm
      · simp only [List.eraseP_cons, List.filter_cons, here, ne_eq, not_false_eq_true, decide_true,
          decide_false, if_true]
        exact congrArg (a :: ·) (ih distinct.2)

end Mlvpn.Library.Registry
