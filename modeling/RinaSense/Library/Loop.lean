import Mathlib.Tactic.Common

/-!
# Loops without a bound

The body of a loop either ends it with a result or hands the next round its state. A loop
whose rounds make a variant smaller ends, and one whose rounds keep an invariant and go on
does not.
-/

namespace RinaSense.Library.Loop

variable {σ β : Type*}

/-- The result of a loop which ends within `fuel` rounds. -/
def rounds (body : σ → β ⊕ σ) : ℕ → σ → Option β
  | 0, _ => none
  | fuel + 1, s =>
    match body s with
    | .inl b => some b
    | .inr s' => rounds body fuel s'

/-- The loop ends. -/
def Ends (body : σ → β ⊕ σ) (s : σ) : Prop := ∃ fuel, (rounds body fuel s).isSome

variable {body : σ → β ⊕ σ} {I : σ → Prop}

theorem rounds_done {s : σ} {b : β} (hb : body s = .inl b) (fuel : ℕ) :
    rounds body (fuel + 1) s = some b := by
  rw [rounds, hb]

theorem rounds_next {s s' : σ} (hs : body s = .inr s') (fuel : ℕ) :
    rounds body (fuel + 1) s = rounds body fuel s' := by
  rw [rounds, hs]

/-- What holds of the result of every round that ends the loop holds of the result of the
loop. -/
theorem rounds_result {Q : β → Prop} (hend : ∀ s b, I s → body s = .inl b → Q b)
    (hnext : ∀ s s', I s → body s = .inr s' → I s') {fuel : ℕ} {s : σ} {b : β} (hs : I s)
    (hb : rounds body fuel s = some b) : Q b := by
  induction fuel generalizing s with
  | zero => cases hb
  | succ fuel ih =>
    cases hbody : body s with
    | inl b' =>
      rw [rounds_done hbody, Option.some.injEq] at hb
      subst hb
      exact hend s b' hs hbody
    | inr s' =>
      rw [rounds_next hbody] at hb
      exact ih (hnext s s' hs hbody) hb

/-- A loop with a variant ends. -/
theorem ends_of_variant (variant : σ → ℕ)
    (hnext : ∀ s s', I s → body s = .inr s' → I s' ∧ variant s' < variant s) {s : σ}
    (hs : I s) : Ends body s := by
  induction hv : variant s using Nat.strongRecOn generalizing s with
  | ind v ih =>
    cases hbody : body s with
    | inl b => exact ⟨1, by rw [rounds_done hbody]; rfl⟩
    | inr s' =>
      obtain ⟨hinv, hlt⟩ := hnext s s' hs hbody
      obtain ⟨fuel, hfuel⟩ := ih (variant s') (hv ▸ hlt) hinv rfl
      exact ⟨fuel + 1, by rw [rounds_next hbody]; exact hfuel⟩

/-- A loop whose rounds all go on does not end. -/
theorem not_ends (hnext : ∀ s, I s → ∃ s', body s = .inr s' ∧ I s') {s : σ} (hs : I s) :
    ¬ Ends body s := by
  rintro ⟨fuel, hfuel⟩
  induction fuel generalizing s with
  | zero => cases hfuel
  | succ fuel ih =>
    obtain ⟨s', hbody, hinv⟩ := hnext s hs
    rw [rounds_next hbody] at hfuel
    exact ih hinv hfuel

end RinaSense.Library.Loop
