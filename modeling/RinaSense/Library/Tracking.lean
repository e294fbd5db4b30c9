import Mathlib.Tactic.Common

/-!
# Computations side by side

A computation in detail tracks another one when both end with the same error or with related
results. The rules compose along the steps of both.
-/

namespace RinaSense.Library.Tracking

universe u v

variable {ε : Type u} {α β γ δ : Type v} {R : α → β → Prop} {S : γ → δ → Prop}

/-- Both computations fail with the same error, or their results are related. -/
def Tracks (R : α → β → Prop) : Except ε α → Except ε β → Prop
  | .error e, .error e' => e = e'
  | .ok a, .ok b => R a b
  | .error _, .ok _ => False
  | .ok _, .error _ => False

theorem tracks_refl (x : Except ε α) : Tracks Eq x x := by
  cases x with
  | error e => exact Eq.refl e
  | ok a => exact Eq.refl a

theorem Tracks.mono {R' : α → β → Prop} {x : Except ε α} {y : Except ε β} (hx : Tracks R x y)
    (hr : ∀ a b, R a b → R' a b) : Tracks R' x y := by
  cases x with
  | error e =>
    cases y with
    | error e' => exact hx
    | ok b => exact hx.elim
  | ok a =>
    cases y with
    | error e' => exact hx.elim
    | ok b => exact hr a b hx

/-- One step on either side and then the rest of both. -/
theorem Tracks.bind {x : Except ε α} {y : Except ε β} {f : α → Except ε γ} {g : β → Except ε δ}
    (hx : Tracks R x y) (hf : ∀ a b, R a b → Tracks S (f a) (g b)) :
    Tracks S (x >>= f) (y >>= g) := by
  cases x with
  | error e =>
    cases y with
    | error e' => exact hx
    | ok b => exact hx.elim
  | ok a =>
    cases y with
    | error e' => exact hx.elim
    | ok b => exact hf a b hx

theorem Tracks.of_ok {x : Except ε α} {y : Except ε β} {a : α} (hx : Tracks R x y)
    (ha : x = .ok a) : ∃ b, y = .ok b ∧ R a b := by
  subst ha
  cases y with
  | error e => exact hx.elim
  | ok b => exact ⟨b, rfl, hx⟩

theorem Tracks.of_error {x : Except ε α} {y : Except ε β} {e : ε} (hx : Tracks R x y)
    (he : x = .error e) : y = .error e := by
  subst he
  cases y with
  | error e' => exact congrArg Except.error hx.symm
  | ok b => exact hx.elim

end RinaSense.Library.Tracking
