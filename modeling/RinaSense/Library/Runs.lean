import Mathlib.Tactic.Common

/-!
# Runs of a transition system

A system steps by a function of its input, which may be partial: a step that is not
enabled ends the run. A guard restricts a run to steps taken from states which satisfy
a condition on the state before and the input.
-/

namespace RinaSense.Library.Runs

variable {σ ι : Type*}

/-- Every input of the run meets the guard in the state in which it is taken. -/
def Guarded (step : σ → ι → σ) (guard : σ → ι → Prop) : σ → List ι → Prop
  | _, [] => True
  | s, i :: is => guard s i ∧ Guarded step guard (step s i) is

instance Guarded.decidable (step : σ → ι → σ) (guard : σ → ι → Prop)
    [∀ s i, Decidable (guard s i)] : ∀ s is, Decidable (Guarded step guard s is)
  | _, [] => .isTrue trivial
  | s, i :: is =>
    have := Guarded.decidable step guard (step s i) is
    inferInstanceAs (Decidable (guard s i ∧ Guarded step guard (step s i) is))

@[simp] theorem guarded_nil (step : σ → ι → σ) (guard : σ → ι → Prop) (s : σ) :
    Guarded step guard s [] := trivial

@[simp] theorem guarded_cons (step : σ → ι → σ) (guard : σ → ι → Prop) (s : σ) (i : ι)
    (is : List ι) :
    Guarded step guard s (i :: is) ↔ guard s i ∧ Guarded step guard (step s i) is := Iff.rfl

/-- A property preserved by every guarded step holds after a guarded run. -/
theorem foldl_invariant {step : σ → ι → σ} {guard : σ → ι → Prop} {inv : σ → Prop}
    (hstep : ∀ s i, inv s → guard s i → inv (step s i)) {s : σ} {is : List ι}
    (hs : inv s) (hg : Guarded step guard s is) : inv (is.foldl step s) := by
  induction is generalizing s with
  | nil => exact hs
  | cons i is ih => exact ih (hstep s i hs hg.1) hg.2

/-- A run of steps which may be disabled, each of which meets the guard. -/
def GuardedSteps (step : σ → ι → Option σ) (guard : σ → ι → Prop) : σ → List ι → Prop
  | _, [] => True
  | s, i :: is =>
    guard s i ∧
      match step s i with
      | none => True
      | some s' => GuardedSteps step guard s' is

instance GuardedSteps.decidable (step : σ → ι → Option σ) (guard : σ → ι → Prop)
    [∀ s i, Decidable (guard s i)] : ∀ s is, Decidable (GuardedSteps step guard s is)
  | _, [] => .isTrue trivial
  | s, i :: is =>
    match hs : step s i with
    | none => decidable_of_iff (guard s i) (by simp [GuardedSteps, hs])
    | some s' =>
      have := GuardedSteps.decidable step guard s' is
      decidable_of_iff (guard s i ∧ GuardedSteps step guard s' is) (by simp [GuardedSteps, hs])

/-- A property preserved by every guarded step holds in the state a guarded run reaches. -/
theorem foldlM_invariant {step : σ → ι → Option σ} {guard : σ → ι → Prop} {I : σ → Prop}
    (hstep : ∀ s i s', I s → guard s i → step s i = some s' → I s') {s s' : σ}
    {is : List ι} (hs : I s) (hg : GuardedSteps step guard s is)
    (hrun : is.foldlM step s = some s') : I s' := by
  induction is generalizing s with
  | nil =>
    cases hrun
    exact hs
  | cons i is ih =>
    rw [List.foldlM_cons] at hrun
    cases hi : step s i with
    | none => simp [hi] at hrun
    | some t =>
      simp only [GuardedSteps, hi] at hg
      simp only [hi, Option.bind_eq_bind, Option.bind_some] at hrun
      exact ih (hstep s i t hs hg.1 hi) hg.2 hrun

/-- Guarded steps which go through and preserve a property make a run which goes through. -/
theorem foldlM_returns {step : σ → ι → Option σ} {guard : σ → ι → Prop} {I : σ → Prop}
    (hstep : ∀ s i, I s → guard s i → ∃ s', step s i = some s' ∧ I s') {s : σ} {is : List ι}
    (hs : I s) (hg : GuardedSteps step guard s is) :
    ∃ s', is.foldlM step s = some s' ∧ I s' := by
  induction is generalizing s with
  | nil => exact ⟨s, rfl, hs⟩
  | cons i is ih =>
    obtain ⟨t, ht, hinv⟩ := hstep s i hs hg.1
    have hrest : GuardedSteps step guard t is := by simpa only [ht] using hg.2
    obtain ⟨s', hrun, hs'⟩ := ih hinv hrest
    refine ⟨s', ?_, hs'⟩
    rw [List.foldlM_cons, ht]
    exact hrun

theorem guardedSteps_true (step : σ → ι → Option σ) (s : σ) (is : List ι) :
    GuardedSteps step (fun _ _ => True) s is := by
  induction is generalizing s with
  | nil => exact trivial
  | cons i is ih =>
    refine ⟨trivial, ?_⟩
    cases step s i with
    | none => exact trivial
    | some s' => exact ih s'

/-- Two guards which agree in every state of a run that meets the second one. -/
theorem guardedSteps_congr {step : σ → ι → Option σ} {guard guard' : σ → ι → Prop}
    (inv : σ → Prop) (hiff : ∀ s i, inv s → (guard s i ↔ guard' s i))
    (hstep : ∀ s i s', inv s → guard' s i → step s i = some s' → inv s') {s : σ} {is : List ι}
    (hs : inv s) : GuardedSteps step guard s is ↔ GuardedSteps step guard' s is := by
  induction is generalizing s with
  | nil => exact Iff.rfl
  | cons i is ih =>
    rw [GuardedSteps, GuardedSteps, hiff s i hs]
    apply and_congr_right
    intro hg
    cases hi : step s i with
    | none => exact Iff.rfl
    | some s' => exact ih (hstep s i s' hs hg hi)

/-- Runs are put one behind the other. -/
theorem guardedSteps_append {step : σ → ι → Option σ} {guard : σ → ι → Prop} {s t : σ}
    {is js : List ι} (hs : GuardedSteps step guard s is) (hrun : is.foldlM step s = some t)
    (ht : GuardedSteps step guard t js) : GuardedSteps step guard s (is ++ js) := by
  induction is generalizing s with
  | nil =>
    cases hrun
    exact ht
  | cons i is ih =>
    rw [List.foldlM_cons] at hrun
    refine ⟨hs.1, ?_⟩
    cases hi : step s i with
    | none => trivial
    | some u =>
      simp only [GuardedSteps, hi] at hs
      simp only [hi, Option.bind_eq_bind, Option.bind_some] at hrun
      exact ih hs.2 hrun

/-- The second part of a guarded run is a guarded run. -/
theorem GuardedSteps.of_append {step : σ → ι → Option σ} {guard : σ → ι → Prop} {s t : σ}
    {is js : List ι} (h : GuardedSteps step guard s (is ++ js))
    (hrun : is.foldlM step s = some t) : GuardedSteps step guard t js := by
  induction is generalizing s with
  | nil =>
    cases hrun
    exact h
  | cons i is ih =>
    rw [List.foldlM_cons] at hrun
    rw [List.cons_append, GuardedSteps] at h
    cases hi : step s i with
    | none => simp [hi] at hrun
    | some u =>
      simp only [hi] at h
      simp only [hi, Option.bind_eq_bind, Option.bind_some] at hrun
      exact ih h.2 hrun

/-- The steps of a run, each with the run which leads to it. -/
theorem guardedSteps_iff_forall {step : σ → ι → Option σ} {guard : σ → ι → Prop} {s : σ}
    {is : List ι} :
    GuardedSteps step guard s is ↔
      ∀ js i, js ++ [i] <+: is → ∀ t, js.foldlM step s = some t → guard t i := by
  induction is generalizing s with
  | nil =>
    refine iff_of_true trivial fun js i hjs => ?_
    simp at hjs
  | cons i is ih =>
    rw [GuardedSteps]
    constructor
    · rintro ⟨hg, hrest⟩ js i' hjs t ht
      cases js with
      | nil =>
        cases ht
        obtain ⟨rfl, -⟩ := List.cons_prefix_cons.mp hjs
        exact hg
      | cons j js =>
        obtain ⟨rfl, hjs'⟩ := List.cons_prefix_cons.mp hjs
        rw [List.foldlM_cons] at ht
        cases hj : step s j with
        | none => simp [hj] at ht
        | some u =>
          simp only [hj, Option.bind_eq_bind, Option.bind_some] at ht hrest
          exact ih.mp hrest js i' hjs' t ht
    · intro h
      refine ⟨h [] i (by simp) s rfl, ?_⟩
      cases hi : step s i with
      | none => trivial
      | some u =>
        refine ih.mpr fun js i' hjs t ht => h (i :: js) i' ?_ t ?_
        · exact List.cons_prefix_cons.mpr ⟨rfl, hjs⟩
        · rw [List.foldlM_cons, hi]
          exact ht

theorem GuardedSteps.of_prefix {step : σ → ι → Option σ} {guard : σ → ι → Prop} {s : σ}
    {is js : List ι} (h : GuardedSteps step guard s is) (hjs : js <+: is) :
    GuardedSteps step guard s js :=
  guardedSteps_iff_forall.mpr fun ks i hks =>
    guardedSteps_iff_forall.mp h ks i (hks.trans hjs)

/-- A property preserved by every step holds in the state a run reaches. -/
theorem foldlM_preserves {step : σ → ι → Option σ} {inv : σ → Prop}
    (hstep : ∀ s i s', inv s → step s i = some s' → inv s') {s s' : σ} {is : List ι}
    (hs : inv s) (hrun : is.foldlM step s = some s') : inv s' :=
  foldlM_invariant (fun s i s' hi _ => hstep s i s' hi) hs (guardedSteps_true step s is) hrun

/-- The states which a run passes through, its first and its last included. -/
def Throughout (step : σ → ι → Option σ) (prop : σ → Prop) (s : σ) (is : List ι) : Prop :=
  ∀ js, js <+: is → ∀ t, js.foldlM step s = some t → prop t

theorem throughout_cons {step : σ → ι → Option σ} {prop : σ → Prop} {s t : σ} {i : ι}
    {is : List ι} (hi : step s i = some t) :
    Throughout step prop s (i :: is) ↔ prop s ∧ Throughout step prop t is := by
  constructor
  · intro h
    refine ⟨h [] (List.nil_prefix) s rfl, fun js hjs u hu => ?_⟩
    refine h (i :: js) (List.cons_prefix_cons.mpr ⟨rfl, hjs⟩) u ?_
    rw [List.foldlM_cons, hi]
    exact hu
  · rintro ⟨hs, h⟩ js hjs u hu
    cases js with
    | nil =>
      cases hu
      exact hs
    | cons j js =>
      obtain ⟨rfl, hjs'⟩ := List.cons_prefix_cons.mp hjs
      rw [List.foldlM_cons, hi] at hu
      exact h js hjs' u hu

/-- A property which a step keeps exactly when it meets the guard holds throughout a run
exactly when every step of the run meets the guard. -/
theorem throughout_iff {step : σ → ι → Option σ} {guard : σ → ι → Prop} {inv prop : σ → Prop}
    (hinv : ∀ s i s', inv s → step s i = some s' → inv s')
    (hstep : ∀ s i s', inv s → prop s → step s i = some s' → (prop s' ↔ guard s i))
    {s t : σ} {is : List ι} (hi : inv s) (hp : prop s) (hrun : is.foldlM step s = some t) :
    Throughout step prop s is ↔ GuardedSteps step guard s is := by
  induction is generalizing s with
  | nil =>
    refine iff_of_true (fun js hjs u hu => ?_) trivial
    rw [List.prefix_nil.mp hjs] at hu
    cases hu
    exact hp
  | cons i is ih =>
    rw [List.foldlM_cons] at hrun
    cases hs : step s i with
    | none => simp [hs] at hrun
    | some s' =>
      simp only [hs, Option.bind_eq_bind, Option.bind_some] at hrun
      have hiff := hstep s i s' hi hp hs
      simp only [throughout_cons hs, GuardedSteps, hs]
      constructor
      · intro h
        have hp' : prop s' := h.2 [] List.nil_prefix s' rfl
        exact ⟨hiff.mp hp', (ih (hinv s i s' hi hs) hp' hrun).mp h.2⟩
      · intro h
        have hp' := hiff.mpr h.1
        exact ⟨hp, (ih (hinv s i s' hi hs) hp' hrun).mpr h.2⟩

end RinaSense.Library.Runs
