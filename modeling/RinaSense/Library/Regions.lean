import Mathlib.Algebra.BigOperators.Group.List.Basic
import Mathlib.Algebra.GroupWithZero.Nat
import Mathlib.Tactic.Common

/-!
# Regions of a block

Parts of a block by where they start and how long they are. Parts which lie one behind the other
have no byte in common, and they are inside the block if the last one ends in it.
-/

namespace RinaSense.Library.Regions

structure Region where
  start : ℕ
  length : ℕ
deriving DecidableEq, Repr

def Region.stop (r : Region) : ℕ := r.start + r.length

def Region.Has (r : Region) (i : ℕ) : Prop := r.start ≤ i ∧ i < r.stop

def Region.Apart (r r' : Region) : Prop := ∀ i, r.Has i → ¬ r'.Has i

/-- Parts of a block of `size` bytes of which no two share a byte. -/
structure Packed (size : ℕ) (rs : List Region) : Prop where
  apart : rs.Pairwise Region.Apart
  inside : ∀ r ∈ rs, r.stop ≤ size

variable {size o n : ℕ} {r r' : Region} {rs rs' : List Region} {ns ns' : List ℕ}

theorem Region.apart_of_le (h : r.stop ≤ r'.start) : r.Apart r' := fun _ hi hi' =>
  Nat.lt_irrefl _ (Nat.lt_of_lt_of_le hi.2 (Nat.le_trans h hi'.1))

/-- Fewer parts are apart too. -/
theorem Packed.sublist (h : Packed size rs') (hsub : rs.Sublist rs') : Packed size rs where
  apart := h.apart.sublist hsub
  inside r hr := h.inside r (hsub.subset hr)

/-- Parts of these lengths one behind the other, from `o` on. -/
def consecutive : ℕ → List ℕ → List Region
  | _, [] => []
  | o, n :: ns => ⟨o, n⟩ :: consecutive (o + n) ns

theorem consecutive_append (o : ℕ) (ns ns' : List ℕ) :
    consecutive o (ns ++ ns') = consecutive o ns ++ consecutive (o + ns.sum) ns' := by
  induction ns generalizing o with
  | nil => rfl
  | cons n ns ih => simp [consecutive, ih, Nat.add_assoc]

theorem consecutive_lengths (o : ℕ) (ns : List ℕ) : (consecutive o ns).map Region.length = ns := by
  induction ns generalizing o with
  | nil => rfl
  | cons n ns ih => rw [consecutive, List.map_cons, ih]

theorem start_le_of_mem (hr : r ∈ consecutive o ns) : o ≤ r.start := by
  induction ns generalizing o with
  | nil => cases hr
  | cons n ns ih =>
    rcases List.mem_cons.mp hr with rfl | hr
    · exact Nat.le_refl o
    · exact Nat.le_trans (Nat.le_add_right o n) (ih hr)

theorem stop_le_of_mem (hr : r ∈ consecutive o ns) : r.stop ≤ o + ns.sum := by
  induction ns generalizing o with
  | nil => cases hr
  | cons n ns ih =>
    rw [List.sum_cons, ← Nat.add_assoc]
    rcases List.mem_cons.mp hr with rfl | hr
    · exact Nat.le_add_right _ _
    · exact ih hr

theorem consecutive_apart : (consecutive o ns).Pairwise Region.Apart := by
  induction ns generalizing o with
  | nil => exact .nil
  | cons n ns ih => exact .cons (fun r hr => Region.apart_of_le (start_le_of_mem hr)) ih

/-- Parts one behind the other are packed into a block which has room for them. -/
theorem consecutive_packed (h : o + ns.sum ≤ size) : Packed size (consecutive o ns) where
  apart := consecutive_apart
  inside _ hr := Nat.le_trans (stop_le_of_mem hr) h

end RinaSense.Library.Regions
