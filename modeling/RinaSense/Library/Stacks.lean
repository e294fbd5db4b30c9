import Mathlib.Algebra.BigOperators.Group.Finset.Basic
import Mathlib.Data.Fintype.Basic
import Mathlib.Logic.Function.Basic
import Mathlib.Tactic.Common

/-!
# Stacks of several owners

Cells of one store which are linked into a stack for every owner. A cell holds the key of the
next one, and no cell is in two stacks or twice in one, so that what an owner puts on its stack
or takes off it leaves the other stacks as they are.
-/

namespace RinaSense.Library.Stacks

variable {ι κ β : Type*}

/-- The cells on the way from `p` on, the last of which leads nowhere. -/
def Linked (next : β → Option κ) (cells : κ → Option β) : Option κ → List (κ × β) → Prop
  | p, [] => p = none
  | p, (k, b) :: l => p = some k ∧ cells k = some b ∧ Linked next cells (next b) l

def keys (l : List (κ × β)) : List κ := l.map Prod.fst

@[simp] theorem keys_nil : keys ([] : List (κ × β)) = [] := rfl

@[simp] theorem keys_cons (p : κ × β) (l : List (κ × β)) : keys (p :: l) = p.1 :: keys l := rfl

@[simp] theorem keys_length (l : List (κ × β)) : (keys l).length = l.length := by simp [keys]

/-- Every owner has a stack of its own. -/
structure Held (next : β → Option κ) (cells : κ → Option β) (top : ι → Option κ)
    (stack : ι → List (κ × β)) : Prop where
  linked : ∀ i, Linked next cells (top i) (stack i)
  distinct : ∀ i, (keys (stack i)).Nodup
  apart : ∀ i j k, k ∈ keys (stack i) → k ∈ keys (stack j) → i = j

variable {next : β → Option κ} {cells cells' : κ → Option β} {top : ι → Option κ}
  {stack : ι → List (κ × β)} {p : Option κ} {k : κ} {b : β} {l : List (κ × β)} {i : ι}

theorem held_empty (next : β → Option κ) (cells : κ → Option β) :
    Held next cells (fun _ : ι => none) fun _ => [] where
  linked _ := rfl
  distinct _ := List.nodup_nil
  apart _ _ _ hk := absurd hk List.not_mem_nil

/-- A way goes on through the same cells. -/
theorem Linked.congr (h : Linked next cells p l) (hsame : ∀ k ∈ keys l, cells' k = cells k) :
    Linked next cells' p l := by
  induction l generalizing p with
  | nil => exact h
  | cons c l ih =>
    obtain ⟨k, b⟩ := c
    obtain ⟨hp, hcell, hrest⟩ := h
    refine ⟨hp, (hsame k List.mem_cons_self).trans hcell, ih hrest fun k' hk' => ?_⟩
    exact hsame k' (List.mem_cons_of_mem k hk')

/-- The way from a key is the only one. -/
theorem Linked.head (h : Linked next cells (some k) l) :
    ∃ b l', l = (k, b) :: l' ∧ cells k = some b ∧ Linked next cells (next b) l' := by
  cases l with
  | nil => cases h
  | cons c l' =>
    obtain ⟨k', b⟩ := c
    obtain ⟨hp, hcell, hrest⟩ := h
    cases hp
    exact ⟨b, l', rfl, hcell, hrest⟩

variable [DecidableEq ι] [DecidableEq κ]

/-- A new cell goes on top of a stack. -/
theorem Held.push (h : Held next cells top stack) (hnew : ∀ j, k ∉ keys (stack j))
    (hnext : next b = top i) :
    Held next (Function.update cells k (some b)) (Function.update top i (some k))
      (Function.update stack i ((k, b) :: stack i)) := by
  have hsame : ∀ j, ∀ k' ∈ keys (stack j), Function.update cells k (some b) k' = cells k' := by
    intro j k' hk'
    have hne : k' ≠ k := by
      rintro rfl
      exact hnew j hk'
    exact Function.update_of_ne hne _ _
  refine ⟨fun j => ?_, fun j => ?_, fun j j' k' hj hj' => ?_⟩
  · by_cases hj : j = i
    · subst hj
      rw [Function.update_self, Function.update_self]
      refine ⟨rfl, Function.update_self _ _ _, ?_⟩
      rw [hnext]
      exact (h.linked j).congr (hsame j)
    · rw [Function.update_of_ne hj, Function.update_of_ne hj]
      exact (h.linked j).congr (hsame j)
  · by_cases hj : j = i
    · subst hj
      rw [Function.update_self]
      exact List.nodup_cons.mpr ⟨hnew j, h.distinct j⟩
    · rw [Function.update_of_ne hj]
      exact h.distinct j
  · have hold : ∀ j, k' ∈ keys (Function.update stack i ((k, b) :: stack i) j) →
        k' = k ∧ j = i ∨ k' ∈ keys (stack j) := by
      intro j hmem
      by_cases hji : j = i
      · subst hji
        rw [Function.update_self, keys_cons, List.mem_cons] at hmem
        exact hmem.imp (fun heq => ⟨heq, rfl⟩) id
      · rw [Function.update_of_ne hji] at hmem
        exact Or.inr hmem
    rcases hold j hj with ⟨hk, hji⟩ | hj
    · rcases hold j' hj' with ⟨-, hji'⟩ | hj'
      · exact hji.trans hji'.symm
      · exact absurd (hk ▸ hj') (hnew j')
    · rcases hold j' hj' with ⟨hk, -⟩ | hj'
      · exact absurd (hk ▸ hj) (hnew j)
      · exact h.apart j j' k' hj hj'

/-- The first cell of a stack is taken off and is gone. -/
theorem Held.pop (h : Held next cells top stack) (hi : stack i = (k, b) :: l) :
    Held next (Function.update cells k none) (Function.update top i (next b))
      (Function.update stack i l) := by
  have hmem : k ∈ keys (stack i) := by simp [hi]
  have hfirst := h.linked i
  have hdist := h.distinct i
  rw [hi] at hfirst hdist
  obtain ⟨hout, hrest⟩ := List.nodup_cons.mp hdist
  have hsame : ∀ k', k' ≠ k → Function.update cells k none k' = cells k' :=
    fun k' hne => Function.update_of_ne hne _ _
  have hsub : ∀ j k', k' ∈ keys (Function.update stack i l j) → k' ∈ keys (stack j) := by
    intro j k' hk'
    by_cases hj : j = i
    · subst hj
      rw [Function.update_self] at hk'
      rw [hi]
      exact List.mem_cons_of_mem k hk'
    · rwa [Function.update_of_ne hj] at hk'
  refine ⟨fun j => ?_, fun j => ?_, fun j j' k' hj hj' => ?_⟩
  · by_cases hj : j = i
    · subst hj
      rw [Function.update_self, Function.update_self]
      exact hfirst.2.2.congr fun k' hk' => hsame k' fun heq => hout (heq ▸ hk')
    · rw [Function.update_of_ne hj, Function.update_of_ne hj]
      exact (h.linked j).congr fun k' hk' => hsame k' fun heq =>
        hj (h.apart j i k' hk' (heq ▸ hmem))
  · by_cases hj : j = i
    · subst hj
      rw [Function.update_self]
      exact hrest
    · rw [Function.update_of_ne hj]
      exact h.distinct j
  · exact h.apart j j' k' (hsub j k' hj) (hsub j' k' hj')

/-- The record in the first cell is another one, with the same next cell. -/
theorem Held.change {c : β} (h : Held next cells top stack) (hi : stack i = (k, b) :: l)
    (hnext : next c = next b) :
    Held next (Function.update cells k (some c)) top
      (Function.update stack i ((k, c) :: l)) := by
  have htop := h.linked i
  rw [hi] at htop
  have hout : ∀ j, k ∉ keys (Function.update stack i l j) := by
    intro j hmem
    by_cases hj : j = i
    · subst hj
      rw [Function.update_self] at hmem
      have hdist := h.distinct j
      rw [hi] at hdist
      exact (List.nodup_cons.mp hdist).1 hmem
    · rw [Function.update_of_ne hj] at hmem
      exact hj (h.apart j i k hmem (by simp [hi]))
  have hpop := (h.pop hi).push (b := c) hout (by rw [Function.update_self, hnext])
  rw [Function.update_idem, Function.update_idem, Function.update_idem, Function.update_self]
    at hpop
  rwa [← htop.1, Function.update_eq_self] at hpop

omit [DecidableEq κ] in
/-- The keys of the stacks when there is one cell more. -/
theorem exists_mem_push {k' : κ} :
    (∃ j, k' ∈ keys (Function.update stack i ((k, b) :: stack i) j)) ↔
      k' = k ∨ ∃ j, k' ∈ keys (stack j) := by
  constructor
  · rintro ⟨j, hj⟩
    by_cases hji : j = i
    · subst hji
      rw [Function.update_self, keys_cons, List.mem_cons] at hj
      exact hj.imp id fun hmem => ⟨j, hmem⟩
    · rw [Function.update_of_ne hji] at hj
      exact Or.inr ⟨j, hj⟩
  · rintro (rfl | ⟨j, hj⟩)
    · exact ⟨i, by simp⟩
    · by_cases hji : j = i
      · subst hji
        exact ⟨j, by simp [hj]⟩
      · exact ⟨j, by rwa [Function.update_of_ne hji]⟩

omit [DecidableEq κ] in
/-- The keys of the stacks when there is one cell less. -/
theorem Held.exists_mem_pop (h : Held next cells top stack) (hi : stack i = (k, b) :: l)
    {k' : κ} : (∃ j, k' ∈ keys (Function.update stack i l j)) ↔
      k' ≠ k ∧ ∃ j, k' ∈ keys (stack j) := by
  have hdist := h.distinct i
  rw [hi] at hdist
  have hout := (List.nodup_cons.mp hdist).1
  constructor
  · rintro ⟨j, hj⟩
    by_cases hji : j = i
    · subst hji
      rw [Function.update_self] at hj
      exact ⟨fun heq => hout (heq ▸ hj), j, by simp [hi, hj]⟩
    · rw [Function.update_of_ne hji] at hj
      exact ⟨fun heq => hji (h.apart j i k (heq ▸ hj) (by simp [hi])), j, hj⟩
  · rintro ⟨hne, j, hj⟩
    by_cases hji : j = i
    · subst hji
      rw [hi, keys_cons, List.mem_cons] at hj
      exact ⟨j, by simpa using hj.resolve_left hne⟩
    · exact ⟨j, by rwa [Function.update_of_ne hji]⟩

omit [DecidableEq ι] in
/-- A list of all the cells which are in a stack is as long as the stacks together. -/
theorem Held.length_eq_sum [Fintype ι] (h : Held next cells top stack) {all : List κ}
    (hall : all.Nodup) (hmem : ∀ k, k ∈ all ↔ ∃ i, k ∈ keys (stack i)) :
    all.length = ∑ i, (stack i).length := by
  have hunion : all.toFinset = Finset.univ.biUnion fun i => (keys (stack i)).toFinset := by
    ext k
    simp [hmem]
  have hcard := Finset.card_biUnion (s := Finset.univ) (t := fun i => (keys (stack i)).toFinset)
    fun i _ j _ hij => by
      rw [Function.onFun, Finset.disjoint_left]
      intro k hi hj
      exact hij (h.apart i j k (List.mem_toFinset.mp hi) (List.mem_toFinset.mp hj))
  rw [← List.toFinset_card_of_nodup hall, hunion, hcard]
  refine Finset.sum_congr rfl fun i _ => ?_
  rw [List.toFinset_card_of_nodup (h.distinct i), keys_length]

end RinaSense.Library.Stacks
