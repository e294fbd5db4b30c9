import Mathlib.Algebra.BigOperators.Group.List.Basic
import Mathlib.Algebra.GroupWithZero.Nat
import Mathlib.Tactic.Common

/-!
# Arrays of slots

Items of one size lie one behind the other. An item is found at the multiple of the size, and it is
deleted by moving those behind it over it.
-/

namespace RinaSense.Library.Arrays

variable {α : Type*} {z : ℕ} {xs ys : List (List α)}

/-- The items have the size of a slot. -/
def Fit (z : ℕ) (xs : List (List α)) : Prop := ∀ x ∈ xs, x.length = z

theorem fit_nil : Fit z ([] : List (List α)) := fun _ hx => absurd hx List.not_mem_nil

theorem Fit.concat (h : Fit z xs) {x : List α} (hx : x.length = z) : Fit z (xs ++ [x]) := by
  intro y hy
  rcases List.mem_append.mp hy with hy | hy
  · exact h y hy
  · rw [List.mem_singleton.mp hy, hx]

theorem Fit.eraseIdx (h : Fit z xs) (i : ℕ) : Fit z (xs.eraseIdx i) :=
  fun x hx => h x (List.mem_of_mem_eraseIdx hx)

theorem Fit.lengths (h : Fit z xs) : xs.map List.length = List.replicate xs.length z := by
  have hall : ∀ k ∈ xs.map List.length, k = z := by
    intro k hk
    obtain ⟨x, hx, rfl⟩ := List.mem_map.mp hk
    exact h x hx
  rw [List.eq_replicate_of_mem hall, List.length_map]

theorem Fit.length_flatten (h : Fit z xs) : xs.flatten.length = xs.length * z := by
  rw [List.length_flatten, h.lengths, List.sum_replicate, Nat.nsmul_eq_mul]

theorem Fit.front (h : Fit z xs) {i : ℕ} (hi : i ≤ xs.length) :
    ((xs.map List.length).take i).sum = i * z := by
  rw [h.lengths, List.take_replicate, Nat.min_eq_left hi, List.sum_replicate, Nat.nsmul_eq_mul]

theorem Fit.take_flatten (h : Fit z xs) {i : ℕ} (hi : i ≤ xs.length) :
    xs.flatten.take (i * z) = (xs.take i).flatten := by
  rw [← h.front hi, List.take_sum_flatten]

theorem Fit.drop_flatten (h : Fit z xs) {i : ℕ} (hi : i ≤ xs.length) :
    xs.flatten.drop (i * z) = (xs.drop i).flatten := by
  rw [← h.front hi, List.drop_sum_flatten]

/-- The bytes in front of a slot. -/
theorem Fit.le_length (h : Fit z xs) {i : ℕ} (hi : i ≤ xs.length) : i * z ≤ xs.flatten.length := by
  rw [h.length_flatten]
  exact Nat.mul_le_mul_right z hi

/-- An item is in its slot. -/
theorem Fit.slot (h : Fit z xs) (rest : List α) {i : ℕ} (hi : i < xs.length) :
    ((xs.flatten ++ rest).drop (i * z)).take z = xs[i] := by
  rw [List.drop_append_of_le_length (h.le_length (Nat.le_of_lt hi)), h.drop_flatten (Nat.le_of_lt hi),
    List.drop_eq_getElem_cons hi, List.flatten_cons, List.append_assoc,
    List.take_left' (h _ (List.getElem_mem hi))]

/-- The items behind one which is deleted are moved over it. -/
theorem Fit.moved (h : Fit z xs) (rest : List α) {i : ℕ} (hi : i < xs.length) :
    ∃ rest', (xs.flatten ++ rest).take (i * z) ++
      ((xs.flatten ++ rest).drop ((i + 1) * z)).take (xs.length * z) =
        (xs.eraseIdx i).flatten ++ rest' := by
  have hbehind : (xs.drop (i + 1)).flatten.length ≤ xs.length * z := by
    have hfit : Fit z (xs.drop (i + 1)) := fun x hx => h x (List.mem_of_mem_drop hx)
    rw [hfit.length_flatten, List.length_drop]
    exact Nat.mul_le_mul_right z (Nat.sub_le _ _)
  refine ⟨rest.take (xs.length * z - (xs.drop (i + 1)).flatten.length), ?_⟩
  rw [List.take_append_of_le_length (h.le_length (Nat.le_of_lt hi)), h.take_flatten (Nat.le_of_lt hi),
    List.drop_append_of_le_length (h.le_length hi), h.drop_flatten hi, List.take_append,
    List.take_of_length_le hbehind, List.eraseIdx_eq_take_drop_succ, List.flatten_append,
    List.append_assoc]

end RinaSense.Library.Arrays
