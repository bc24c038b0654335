import Mathlib.Data.List.Nodup
import Mathlib.Data.List.Perm.Basic
import Mathlib.Logic.Function.Basic

/-! # The pool of packet entries

`buffer.c`: a fixed set of entries, each on the free list or on the used list.
An entry is named by its index; `mem` is its packet.  `freebufferFree` aborts
the process when the entry is not in use, which is `none` here.
-/

namespace Mlvpn

structure Freebuffer (β : Type*) where
  size : Nat
  used : Nat
  freeHead : List Nat
  usedHead : List Nat
  mem : Nat → β

variable {β : Type*}

/-- `mlvpn_freebuffer_init`: entries are inserted at the head, one by one. -/
def freebufferInit (blank : β) (size : Nat) : Freebuffer β :=
  { size := size
    used := 0
    freeHead := (List.range size).foldl (fun free entry => entry :: free) []
    usedHead := []
    mem := fun _ => blank }

/-- `mlvpn_freebuffer_reset`. -/
def freebufferReset (fb : Freebuffer β) : Freebuffer β :=
  { fb with
    used := 0
    freeHead := fb.usedHead.foldl (fun free entry => entry :: free) fb.freeHead
    usedHead := [] }

/-- `mlvpn_freebuffer_get`: the entry taken, unless none is free. -/
def freebufferGet (fb : Freebuffer β) : Option (Nat × Freebuffer β) :=
  match fb.freeHead with
  | [] => none
  | entry :: rest =>
      some (entry,
        { fb with freeHead := rest, usedHead := fb.usedHead ++ [entry], used := fb.used + 1 })

/-- `mlvpn_freebuffer_drain_used`: the oldest used entry, given back. -/
def freebufferDrainUsed (fb : Freebuffer β) : Option (Nat × Freebuffer β) :=
  match fb.usedHead with
  | [] => none
  | entry :: rest =>
      some (entry,
        { fb with usedHead := rest, freeHead := entry :: fb.freeHead, used := fb.used - 1 })

/-- `mlvpn_freebuffer_free`. -/
def freebufferFree (fb : Freebuffer β) (entry : Nat) : Option (Freebuffer β) :=
  if entry ∈ fb.usedHead then
    some
      { fb with
        usedHead := fb.usedHead.erase entry
        freeHead := entry :: fb.freeHead
        used := fb.used - 1 }
  else none

/-- Copy a packet into an entry. -/
def Freebuffer.store (fb : Freebuffer β) (entry : Nat) (value : β) : Freebuffer β :=
  { fb with mem := Function.update fb.mem entry value }

namespace Freebuffer

/-- The two lists share out the entries of the pool, and `used` counts. -/
structure Wf (fb : Freebuffer β) : Prop where
  shared : (fb.freeHead ++ fb.usedHead).Perm (List.range fb.size)
  count : fb.used = fb.usedHead.length

variable {fb fb' : Freebuffer β} {entry : Nat}

theorem foldl_cons_eq (entries free : List Nat) :
    entries.foldl (fun free entry => entry :: free) free = entries.reverse ++ free := by
  induction entries generalizing free with
  | nil => rfl
  | cons entry rest ih =>
      rw [List.foldl_cons, ih, List.reverse_cons, List.append_assoc, List.singleton_append]

theorem wf_init (blank : β) (size : Nat) : (freebufferInit blank size).Wf where
  shared := by
    simp only [freebufferInit, foldl_cons_eq, List.append_nil]
    exact List.reverse_perm _
  count := rfl

theorem Wf.nodup (wf : fb.Wf) : (fb.freeHead ++ fb.usedHead).Nodup :=
  wf.shared.nodup_iff.mpr List.nodup_range

/-- No entry is both free and used. -/
theorem Wf.disjoint (wf : fb.Wf) {entry : Nat} (free : entry ∈ fb.freeHead) :
    entry ∉ fb.usedHead :=
  fun used => List.disjoint_of_nodup_append wf.nodup free used

theorem Wf.get (wf : fb.Wf) (got : freebufferGet fb = some (entry, fb')) :
    fb'.Wf ∧ entry ∉ fb.usedHead ∧ fb'.usedHead = fb.usedHead ++ [entry] ∧ fb'.mem = fb.mem := by
  cases free : fb.freeHead with
  | nil =>
      rw [freebufferGet, free] at got
      cases got
  | cons head rest =>
      simp only [freebufferGet, free, Option.some.injEq, Prod.mk.injEq] at got
      obtain ⟨rfl, rfl⟩ := got
      refine ⟨⟨?_, ?_⟩, wf.disjoint (by rw [free]; exact List.mem_cons_self), rfl, rfl⟩
      · have shared := wf.shared
        rw [free] at shared
        refine List.Perm.trans ?_ shared
        simpa using (List.perm_append_singleton head (rest ++ fb.usedHead))
      · simp only [wf.count, List.length_append, List.length_singleton]

theorem Wf.drainUsed (wf : fb.Wf) (drained : freebufferDrainUsed fb = some (entry, fb')) :
    fb'.Wf ∧ fb.usedHead = entry :: fb'.usedHead ∧ fb'.mem = fb.mem := by
  cases used : fb.usedHead with
  | nil =>
      rw [freebufferDrainUsed, used] at drained
      cases drained
  | cons head rest =>
      simp only [freebufferDrainUsed, used, Option.some.injEq, Prod.mk.injEq] at drained
      obtain ⟨rfl, rfl⟩ := drained
      refine ⟨⟨?_, ?_⟩, rfl, rfl⟩
      · have shared := wf.shared
        rw [used] at shared
        exact List.perm_middle.symm.trans shared
      · simp only [wf.count, used, List.length_cons, Nat.add_sub_cancel]

/-- An entry in use can be freed: the process does not abort. -/
theorem Wf.free (wf : fb.Wf) (inUse : entry ∈ fb.usedHead) :
    ∃ fb', freebufferFree fb entry = some fb' ∧ fb'.Wf ∧
      fb'.usedHead = fb.usedHead.erase entry ∧ fb'.mem = fb.mem := by
  refine ⟨_, if_pos inUse, ⟨?_, ?_⟩, rfl, rfl⟩
  · have moved : (entry :: fb.usedHead.erase entry).Perm fb.usedHead :=
      (List.perm_cons_erase inUse).symm
    have around : (entry :: fb.freeHead ++ fb.usedHead.erase entry).Perm
        (fb.freeHead ++ (entry :: fb.usedHead.erase entry)) := by
      rw [List.cons_append]
      exact List.perm_middle.symm
    exact around.trans ((moved.append_left fb.freeHead).trans wf.shared)
  · simp only [wf.count, List.length_erase_of_mem inUse]

theorem get_size (got : freebufferGet fb = some (entry, fb')) : fb'.size = fb.size := by
  unfold freebufferGet at got
  split at got
  next => cases got
  next =>
    cases got
    rfl

theorem drainUsed_size (drained : freebufferDrainUsed fb = some (entry, fb')) :
    fb'.size = fb.size := by
  unfold freebufferDrainUsed at drained
  split at drained
  next => cases drained
  next =>
    cases drained
    rfl

theorem free_size (freed : freebufferFree fb entry = some fb') : fb'.size = fb.size := by
  unfold freebufferFree at freed
  split at freed
  next =>
    cases freed
    rfl
  next => cases freed

theorem Wf.reset_of_nil (wf : fb.Wf) (empty : fb.usedHead = []) : freebufferReset fb = fb := by
  have count := wf.count
  cases fb
  simp_all [freebufferReset]

theorem Wf.store (wf : fb.Wf) (entry : Nat) (value : β) : (fb.store entry value).Wf :=
  ⟨wf.shared, wf.count⟩

end Freebuffer

end Mlvpn
