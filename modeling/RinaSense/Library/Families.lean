import Mathlib.Data.List.Nodup
import Mathlib.Logic.Function.Basic

/-!
# Families which are changed member by member

Commands come in one sequence, and each is for one member of a family or for none. What becomes
of a member depends on its own commands alone: the sequence takes a family to another if and only
if, for each member, the commands which are for it take it to what it is in the other.
-/

namespace RinaSense.Library.Families

variable {ι C X : Type*} {γ : ι → Type*} [DecidableEq ι]

/-- The commands take one state to another, one after the other. -/
inductive Takes (R : C → X → X → Prop) : List C → X → X → Prop
  | nil (x : X) : Takes R [] x x
  | cons {c : C} {cs : List C} {x y z : X} (hstep : R c x y) (hrest : Takes R cs y z) :
    Takes R (c :: cs) x z

/-- A command changes the member it is for. -/
def Changes (key : C → Option ι) (R : ∀ i, C → γ i → γ i → Prop) (c : C) (d d' : ∀ i, γ i) :
    Prop :=
  match key c with
  | none => d' = d
  | some i => ∃ y, R i c (d i) y ∧ d' = Function.update d i y

/-- The commands which are for a member. -/
def commands (key : C → Option ι) (i : ι) (cs : List C) : List C :=
  cs.filter fun c => key c = some i

variable {key : C → Option ι} {R : ∀ i, C → γ i → γ i → Prop} {S : C → X → X → Prop} {c : C}
  {cs cs' : List C} {d d' : ∀ i, γ i} {i : ι} {x y z : X}

@[simp] theorem takes_nil_iff : Takes S [] x y ↔ y = x := by
  constructor
  · intro h
    cases h
    rfl
  · rintro rfl
    exact .nil y

theorem takes_cons_iff : Takes S (c :: cs) x z ↔ ∃ y, S c x y ∧ Takes S cs y z := by
  constructor
  · intro h
    cases h with
    | cons hstep hrest => exact ⟨_, hstep, hrest⟩
  · rintro ⟨y, hstep, hrest⟩
    exact .cons hstep hrest

theorem changes_none (hkey : key c = none) : Changes key R c d d' ↔ d' = d := by
  simp [Changes, hkey]

theorem changes_some (hkey : key c = some i) :
    Changes key R c d d' ↔ ∃ y, R i c (d i) y ∧ d' = Function.update d i y := by
  simp [Changes, hkey]

theorem commands_cons_self (hkey : key c = some i) :
    commands key i (c :: cs) = c :: commands key i cs := by
  simp [commands, hkey]

theorem commands_cons_ne (hkey : key c ≠ some i) :
    commands key i (c :: cs) = commands key i cs := by
  simp [commands, hkey]

@[simp] theorem commands_append :
    commands key i (cs ++ cs') = commands key i cs ++ commands key i cs' :=
  List.filter_append ..

/-- The members are independent of each other. -/
theorem takes_iff : Takes (Changes key R) cs d d' ↔
    ∀ i, Takes (R i) (commands key i cs) (d i) (d' i) := by
  induction cs generalizing d with
  | nil => simp [commands, funext_iff]
  | cons c cs ih =>
    rw [takes_cons_iff]
    cases hkey : key c with
    | none =>
      have hother : ∀ i, commands key i (c :: cs) = commands key i cs := by
        intro i
        exact commands_cons_ne (by simp [hkey])
      simp only [changes_none hkey, exists_eq_left, ih, hother]
    | some j =>
      simp only [changes_some hkey, ih]
      constructor
      · rintro ⟨_, ⟨y, hstep, rfl⟩, hrest⟩ i
        have hi := hrest i
        by_cases hij : i = j
        · subst hij
          rw [Function.update_self] at hi
          rw [commands_cons_self hkey]
          exact .cons hstep hi
        · rw [Function.update_of_ne hij] at hi
          rwa [commands_cons_ne (by simp [hkey, Ne.symm hij])]
      · intro h
        have hj := h j
        rw [commands_cons_self hkey] at hj
        obtain ⟨y, hstep, hrest⟩ := takes_cons_iff.mp hj
        refine ⟨_, ⟨y, hstep, rfl⟩, fun i => ?_⟩
        by_cases hij : i = j
        · subst hij
          rwa [Function.update_self]
        · have hi := h i
          rw [commands_cons_ne (by simp [hkey, Ne.symm hij])] at hi
          rwa [Function.update_of_ne hij]

/-- The commands for the members, one member after the other. -/
theorem commands_flatMap {is : List ι} {own : ι → List C} (hnodup : is.Nodup)
    (hown : ∀ i ∈ is, ∀ c ∈ own i, key c = some i) :
    commands key i (is.flatMap own) = if i ∈ is then own i else [] := by
  induction is with
  | nil => rfl
  | cons j is ih =>
    obtain ⟨hj, hnodup⟩ := List.nodup_cons.mp hnodup
    have hrest := ih hnodup fun i hi => hown i (List.mem_cons_of_mem j hi)
    have hkeys : ∀ c ∈ own j, key c = some j := hown j List.mem_cons_self
    rw [List.flatMap_cons, commands_append, hrest]
    by_cases hij : i = j
    · subst hij
      have hall : commands key i (own i) = own i :=
        List.filter_eq_self.mpr fun c hc => decide_eq_true (hkeys c hc)
      rw [hall, if_neg hj, List.append_nil, if_pos List.mem_cons_self]
    · have hnone : commands key i (own j) = [] := by
        refine List.filter_eq_nil_iff.mpr fun c hc => ?_
        simp [hkeys c hc, Ne.symm hij]
      rw [hnone, List.nil_append]
      simp [hij]

end RinaSense.Library.Families
