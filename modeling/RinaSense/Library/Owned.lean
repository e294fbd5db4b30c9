import Mathlib.Data.List.Perm.Basic
import Mathlib.Logic.Function.Basic
import Mathlib.Tactic.Common

/-!
# Owned cells

A memory of cells which a program has filled beside the cells that were there before. The
program owns the cells of a list: it can fill further ones, change them and give them back.
When it owns none any more the memory is as before.
-/

namespace RinaSense.Library.Owned

variable {κ α : Type*} {f g : κ → Option α} {l l' : List (κ × α)} {k : κ} {a a' : α}

/-- The memory `g` is `f` with the cells of the list. -/
structure Owns (f g : κ → Option α) (l : List (κ × α)) : Prop where
  distinct : (l.map Prod.fst).Nodup
  cells : ∀ p ∈ l, f p.1 = none ∧ g p.1 = some p.2
  others : ∀ k, k ∉ l.map Prod.fst → g k = f k

theorem owns_nil (f : κ → Option α) : Owns f f [] where
  distinct := List.nodup_nil
  cells := by simp
  others _ _ := rfl

theorem Owns.perm (h : Owns f g l) (hp : l.Perm l') : Owns f g l' where
  distinct := (hp.map Prod.fst).nodup_iff.mp h.distinct
  cells p hp' := h.cells p (hp.mem_iff.mpr hp')
  others k hk := h.others k fun hk' => hk ((hp.map Prod.fst).mem_iff.mp hk')

theorem Owns.cell (h : Owns f g ((k, a) :: l)) : g k = some a := (h.cells (k, a) (by simp)).2

/-- Nothing has changed exactly if nothing is owned. -/
theorem Owns.eq_iff (h : Owns f g l) : g = f ↔ l = [] := by
  constructor
  · rintro rfl
    rw [List.eq_nil_iff_forall_not_mem]
    intro p hp
    obtain ⟨hnone, hsome⟩ := h.cells p hp
    rw [hnone] at hsome
    cases hsome
  · rintro rfl
    funext k
    exact h.others k (by simp)

variable [DecidableEq κ]

theorem Owns.fill (h : Owns f g l) (hk : g k = none) (a : α) :
    Owns f (Function.update g k (some a)) ((k, a) :: l) := by
  have hout : k ∉ l.map Prod.fst := by
    intro hmem
    obtain ⟨p, hp, rfl⟩ := List.mem_map.mp hmem
    rw [(h.cells p hp).2] at hk
    cases hk
  refine ⟨List.nodup_cons.mpr ⟨hout, h.distinct⟩, fun p hp => ?_, fun k' hk' => ?_⟩
  · rcases List.mem_cons.mp hp with rfl | hp
    · exact ⟨(h.others _ hout).symm.trans hk, Function.update_self _ _ _⟩
    · have hne : p.1 ≠ k := fun heq => hout (List.mem_map.mpr ⟨p, hp, heq⟩)
      rw [Function.update_of_ne hne]
      exact h.cells p hp
  · rw [List.map_cons, List.mem_cons, not_or] at hk'
    rw [Function.update_of_ne hk'.1]
    exact h.others k' hk'.2

theorem Owns.change (h : Owns f g ((k, a) :: l)) (a' : α) :
    Owns f (Function.update g k (some a')) ((k, a') :: l) := by
  obtain ⟨hout, hl⟩ := List.nodup_cons.mp h.distinct
  refine ⟨h.distinct, fun p hp => ?_, fun k' hk' => ?_⟩
  · rcases List.mem_cons.mp hp with rfl | hp
    · exact ⟨(h.cells (k, a) (by simp)).1, Function.update_self _ _ _⟩
    · have hne : p.1 ≠ k := fun heq => hout (List.mem_map.mpr ⟨p, hp, heq⟩)
      rw [Function.update_of_ne hne]
      exact h.cells p (List.mem_cons_of_mem _ hp)
  · rw [List.map_cons, List.mem_cons, not_or] at hk'
    rw [Function.update_of_ne hk'.1]
    exact h.others k' (by simpa [not_or] using hk')

theorem Owns.release (h : Owns f g ((k, a) :: l)) : Owns f (Function.update g k none) l := by
  obtain ⟨hout, hl⟩ := List.nodup_cons.mp h.distinct
  refine ⟨hl, fun p hp => ?_, fun k' hk' => ?_⟩
  · have hne : p.1 ≠ k := fun heq => hout (List.mem_map.mpr ⟨p, hp, heq⟩)
    rw [Function.update_of_ne hne]
    exact h.cells p (List.mem_cons_of_mem _ hp)
  · by_cases hkk : k' = k
    · subst hkk
      rw [Function.update_self]
      exact (h.cells (k', a) (by simp)).1.symm
    · rw [Function.update_of_ne hkk]
      refine h.others k' fun hmem => ?_
      rw [List.map_cons, List.mem_cons] at hmem
      exact hmem.elim hkk hk'

end RinaSense.Library.Owned
