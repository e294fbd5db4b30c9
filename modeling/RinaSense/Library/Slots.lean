import Mathlib.Data.Fin.Tuple.Basic
import Mathlib.Logic.Function.Basic

/-!
# Tables of slots

A table has a fixed number of slots, each empty or with an entry. A new entry goes to the first
empty slot, and an entry is looked up by its key, which is read when it is compared. The entries
do not have to have different keys; the one in front is found.
-/

namespace RinaSense.Library.Slots

variable {n : ℕ} {α κ : Type*} [DecidableEq κ]

def firstFree (t : Fin n → Option α) : Option (Fin n) := Fin.find? fun x => (t x).isNone

/-- The first entry with the key. -/
def lookup (key : α → κ) (t : Fin n → Option α) (k : κ) : Option α :=
  Fin.findSome? fun x => (t x).filter fun a => key a = k

variable {t : Fin n → Option α} {key key' : α → κ} {x : Fin n} {a b : α} {k : κ}

/-! ### Empty slots -/

theorem firstFree_empty (h : firstFree t = some x) : t x = none := by
  simpa using Fin.eq_true_of_find?_eq_some h

theorem firstFree_eq_none : firstFree t = none ↔ ∀ x, (t x).isSome := by
  simp [firstFree, Option.isSome_iff_ne_none]

/-! ### Looking up -/

theorem lookup_eq_some :
    lookup key t k = some a ↔
      ∃ x, t x = some a ∧ key a = k ∧ ∀ y < x, ∀ b, t y = some b → key b ≠ k := by
  simp only [lookup, Fin.findSome?_eq_some_iff, Option.filter_eq_some_iff,
    Option.filter_eq_none_iff, decide_eq_true_eq, and_assoc]

theorem lookup_eq_none : lookup key t k = none ↔ ∀ x a, t x = some a → key a ≠ k := by
  simp only [lookup, Fin.findSome?_eq_none_iff, Option.filter_eq_none_iff, decide_eq_true_eq]

theorem lookup_key (h : lookup key t k = some a) : key a = k := by
  obtain ⟨x, -, hk, -⟩ := lookup_eq_some.mp h
  exact hk

theorem lookup_mem (h : lookup key t k = some a) : ∃ x, t x = some a := by
  obtain ⟨x, hx, -⟩ := lookup_eq_some.mp h
  exact ⟨x, hx⟩

/-- An entry with the key is found, perhaps another one in front of it. -/
theorem lookup_isSome (key : α → κ) (h : t x = some a) : ∃ b, lookup key t (key a) = some b := by
  cases hl : lookup key t (key a) with
  | some b => exact ⟨b, rfl⟩
  | none => exact absurd rfl (lookup_eq_none.mp hl x a h)

/-- Only the keys of the entries matter. -/
theorem lookup_congr (h : ∀ x a, t x = some a → key a = key' a) :
    lookup key t k = lookup key' t k := by
  unfold lookup
  congr 1
  funext x
  cases hx : t x with
  | none => rfl
  | some a => simp [Option.filter, h x a hx]

/-! ### A new entry -/

section Update

variable (hx : t x = none)

include hx

theorem lookup_update_of_ne (hk : key a ≠ k) :
    lookup key (Function.update t x (some a)) k = lookup key t k := by
  unfold lookup
  congr 1
  funext y
  by_cases hy : y = x
  · subst hy
    simp [hx, Option.filter, hk]
  · rw [Function.update_of_ne hy]

/-- Under its own key the new entry is found, or an entry which was found before. -/
theorem lookup_update_self (key : α → κ) (a : α) :
    lookup key (Function.update t x (some a)) (key a) = some a ∨
      ∃ b, lookup key t (key a) = some b ∧
        lookup key (Function.update t x (some a)) (key a) = some b := by
  obtain ⟨b, hb⟩ := lookup_isSome key (Function.update_self x (some a) t)
  obtain ⟨y, hy, hkey, hfirst⟩ := lookup_eq_some.mp hb
  by_cases hyx : y = x
  · subst hyx
    rw [Function.update_self] at hy
    cases hy
    exact .inl hb
  · rw [Function.update_of_ne hyx] at hy
    refine .inr ⟨b, lookup_eq_some.mpr ⟨y, hy, hkey, fun z hz c hc => ?_⟩, hb⟩
    have hzx : z ≠ x := by
      rintro rfl
      rw [hx] at hc
      cases hc
    refine hfirst z hz c ?_
    rw [Function.update_of_ne hzx]
    exact hc

/-- The new entry is found, and what was found before still is, exactly when no other entry was
found under its key. -/
theorem lookup_update_iff (key : α → κ) (a : α) :
    (lookup key (Function.update t x (some a)) (key a) = some a ∧
      ∀ b, lookup key t (key b) = some b →
        lookup key (Function.update t x (some a)) (key b) = some b) ↔
      ∀ b, lookup key t (key a) = some b → b = a := by
  constructor
  · rintro ⟨hself, hold⟩ b hb
    have hkey := lookup_key hb
    rw [← hkey] at hb
    have hb' := hold b hb
    rw [hkey, hself] at hb'
    exact (Option.some.inj hb').symm
  · intro h
    have hself : lookup key (Function.update t x (some a)) (key a) = some a := by
      rcases lookup_update_self hx key a with hself | ⟨b, hb, hb'⟩
      · exact hself
      · rwa [h b hb] at hb'
    refine ⟨hself, fun b hb => ?_⟩
    by_cases hk : key a = key b
    · rw [← hk] at hb ⊢
      rw [h b hb]
      exact hself
    · rw [lookup_update_of_ne hx hk]
      exact hb

end Update

/-! ### Tables of different keys -/

/-- Every entry is found under its key. -/
def Found (key : α → κ) (t : Fin n → Option α) : Prop :=
  ∀ x a, t x = some a → lookup key t (key a) = some a

/-- Every entry is still found after the addition of one exactly when its key was not that of
another entry. -/
theorem found_update_iff (h : Found key t) (hx : t x = none) :
    Found key (Function.update t x (some a)) ↔ ∀ b, lookup key t (key a) = some b → b = a := by
  rw [← lookup_update_iff hx]
  constructor
  · refine fun hf => ⟨hf x a (Function.update_self ..), fun b hb => ?_⟩
    obtain ⟨y, hy⟩ := lookup_mem hb
    have hyx : y ≠ x := by
      rintro rfl
      rw [hx] at hy
      cases hy
    exact hf y b (by rwa [Function.update_of_ne hyx])
  · rintro ⟨hself, hold⟩ y b hy
    by_cases hyx : y = x
    · subst hyx
      rw [Function.update_self] at hy
      cases hy
      exact hself
    · rw [Function.update_of_ne hyx] at hy
      exact hold b (h y b hy)

end RinaSense.Library.Slots
