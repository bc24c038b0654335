import Mathlib.Data.List.Nodup
import Mathlib.Data.List.Perm.Basic

/-! # Ledgers

What a component has received, what it has delivered, and what it holds.  A
ledger is balanced when every item received is delivered once or held once, and
covered when none is missing.
-/

namespace Mlvpn.Library

structure Ledger (ρ : Type*) where
  received : List ρ
  delivered : List ρ
  held : List ρ

namespace Ledger

variable {ρ : Type*} {l l' : Ledger ρ} {r : ρ}

/-- An item delivered as it comes. -/
def pass (l : Ledger ρ) (r : ρ) : Ledger ρ :=
  { l with received := l.received ++ [r], delivered := l.delivered ++ [r] }

/-- An item held. -/
def keep (l : Ledger ρ) (r : ρ) : Ledger ρ :=
  { l with received := l.received ++ [r], held := l.held ++ [r] }

/-- An item delivered as it comes, and held all the same. -/
def passAndKeep (l : Ledger ρ) (r : ρ) : Ledger ρ :=
  { received := l.received ++ [r], delivered := l.delivered ++ [r], held := l.held ++ [r] }

/-- Some of the held items are delivered. -/
structure Releases (l l' : Ledger ρ) (out : List ρ) : Prop where
  received : l'.received = l.received
  delivered : l'.delivered = l.delivered ++ out
  held : l.held.Perm (out ++ l'.held)

def Balanced (l : Ledger ρ) : Prop := (l.delivered ++ l.held).Perm l.received

def Covered (l : Ledger ρ) : Prop := ∀ r ∈ l.received, r ∈ l.delivered ∨ r ∈ l.held

theorem Releases.refl (l : Ledger ρ) : l.Releases l [] := ⟨rfl, (List.append_nil _).symm, .refl _⟩

theorem Balanced.pass (h : l.Balanced) (r : ρ) : (l.pass r).Balanced := by
  have moved : (l.delivered ++ [r] ++ l.held).Perm (l.delivered ++ l.held ++ [r]) := by
    rw [List.append_assoc, List.append_assoc]
    exact List.perm_append_comm.append_left _
  exact moved.trans (h.append_right [r])

theorem Balanced.keep (h : l.Balanced) (r : ρ) : (l.keep r).Balanced := by
  rw [Balanced, Ledger.keep, ← List.append_assoc]
  exact h.append_right [r]

theorem Balanced.releases (h : l.Balanced) {out : List ρ} (released : l.Releases l' out) :
    l'.Balanced := by
  rw [Balanced, released.received, released.delivered, List.append_assoc]
  exact (released.held.symm.append_left l.delivered).trans h

/-- No item is delivered twice, and none is both delivered and held. -/
theorem Balanced.nodup (h : l.Balanced) (distinct : l.received.Nodup) : l.delivered.Nodup :=
  (h.nodup_iff.mpr distinct).of_append_left

theorem Covered.pass (h : l.Covered) (r : ρ) : (l.pass r).Covered := by
  intro x member
  rcases List.mem_append.mp member with old | new
  · exact (h x old).imp_left (List.mem_append_left _)
  · exact .inl (List.mem_append_right _ new)

theorem Covered.keep (h : l.Covered) (r : ρ) : (l.keep r).Covered := by
  intro x member
  rcases List.mem_append.mp member with old | new
  · exact (h x old).imp_right (List.mem_append_left _)
  · exact .inr (List.mem_append_right _ new)

theorem Covered.passAndKeep (h : l.Covered) (r : ρ) : (l.passAndKeep r).Covered := by
  intro x member
  rcases List.mem_append.mp member with old | new
  · exact (h x old).imp (List.mem_append_left _) (List.mem_append_left _)
  · exact .inl (List.mem_append_right _ new)

theorem Covered.releases (h : l.Covered) {out : List ρ} (released : l.Releases l' out) :
    l'.Covered := by
  intro x member
  rw [released.received] at member
  rw [released.delivered]
  rcases h x member with delivered | held
  · exact .inl (List.mem_append_left _ delivered)
  · rcases List.mem_append.mp (released.held.mem_iff.mp held) with out | kept
    · exact .inl (List.mem_append_right _ out)
    · exact .inr kept

/-- An item that was delivered and held comes out twice. -/
theorem passAndKeep_twice {out : List ρ} (released : (l.passAndKeep r).Releases l' out)
    (all : l'.held = []) : ¬ l'.delivered.Nodup := by
  intro distinct
  have member : r ∈ out := by
    have held := released.held
    rw [all, List.append_nil] at held
    exact held.mem_iff.mp (List.mem_append_right _ (List.mem_singleton_self r))
  rw [released.delivered] at distinct
  exact List.disjoint_of_nodup_append distinct
    (List.mem_append_right _ (List.mem_singleton_self r)) member

end Ledger

end Mlvpn.Library
