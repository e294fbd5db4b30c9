import RinaSense.Rib.Calls

/-!
# The run of invoke ids

The counter behind `get_next_invoke_id` over any number of calls. The call which resets the
counter gives out `1` without counting it, so that the call after it gives out `1` again.
-/

namespace RinaSense.Rib

/-- The counter after a number of calls. -/
def counterAfter : ℕ → ℤ
  | 0 => 1
  | n + 1 => (get_next_invoke_id (counterAfter n)).2

/-- The id given out by a call, the calls being numbered from zero. -/
def invokeIdOf (n : ℕ) : ℤ := (get_next_invoke_id (counterAfter n)).1

/-- In a run of `n` calls no id is zero, and two ids given out fewer than `INT_MAX - 1` calls
apart differ. -/
structure UsableKeys (n : ℕ) : Prop where
  ne_zero : ∀ i < n, invokeIdOf i ≠ 0
  distinct : ∀ i j, i < j → j < n → (j : ℤ) - i < INT_MAX - 1 → invokeIdOf i ≠ invokeIdOf j

/-- One call, as long as the counter stays within its range. -/
theorem get_next_invoke_id_eq {id : ℤ} (hpos : 0 < id) (hle : id ≤ INT_MAX) :
    get_next_invoke_id id = if id = INT_MAX then (1, 1) else (id, id + 1) := by
  unfold get_next_invoke_id
  by_cases hmax : id = INT_MAX
  · rw [hmax, Int.emod_self, if_pos rfl, if_pos rfl]
  · have hlt : id < INT_MAX := lt_of_le_of_ne hle hmax
    rw [Int.emod_eq_of_lt hpos.le hlt, if_neg hpos.ne', if_neg hmax]

theorem emod_INT_MAX_range (n : ℤ) : 0 ≤ n % INT_MAX ∧ n % INT_MAX < INT_MAX :=
  ⟨Int.emod_nonneg _ (by decide), Int.emod_lt_of_pos _ (by decide)⟩

/-- The counter goes through `1, …, INT_MAX` and starts again. -/
theorem counterAfter_eq (n : ℕ) : counterAfter n = (n : ℤ) % INT_MAX + 1 := by
  induction n with
  | zero => rfl
  | succ n ih =>
    have hrange := emod_INT_MAX_range n
    rw [counterAfter, ih, get_next_invoke_id_eq (by omega) (by omega)]
    unfold INT_MAX at *
    split_ifs with hmax
    · push_cast
      omega
    · push_cast
      omega

theorem invokeIdOf_eq (n : ℕ) :
    invokeIdOf n =
      if (n : ℤ) % INT_MAX = INT_MAX - 1 then 1 else (n : ℤ) % INT_MAX + 1 := by
  have hrange := emod_INT_MAX_range n
  rw [invokeIdOf, counterAfter_eq, get_next_invoke_id_eq (by omega) (by omega)]
  by_cases hmax : (n : ℤ) % INT_MAX = INT_MAX - 1
  · rw [if_pos (by omega), if_pos hmax]
  · rw [if_neg (by omega), if_neg hmax]

/-- The only two calls so close together which give out the same id are the one which resets
the counter and the one after it. -/
theorem invokeIdOf_eq_iff {i j : ℕ} (hij : i < j) (hclose : (j : ℤ) - i < INT_MAX - 1) :
    invokeIdOf i = invokeIdOf j ↔ (i : ℤ) % INT_MAX = INT_MAX - 1 ∧ j = i + 1 := by
  rw [invokeIdOf_eq, invokeIdOf_eq]
  unfold INT_MAX at *
  split_ifs <;> omega

/-- No id of any run is zero. -/
theorem invokeIdOf_ne_zero (n : ℕ) : invokeIdOf n ≠ 0 :=
  get_next_invoke_id_ne_zero _

/-- The call which resets the counter and the call after it both give out `1`. -/
theorem invokeIdOf_reset : invokeIdOf 2147483646 = invokeIdOf 2147483647 :=
  (invokeIdOf_eq_iff (by omega) (by decide)).mpr ⟨by decide, rfl⟩

/-- Ids are usable as keys in exactly the runs of at most `INT_MAX` calls. -/
theorem usableKeys_iff (n : ℕ) : UsableKeys n ↔ (n : ℤ) ≤ INT_MAX := by
  constructor
  · intro h
    by_contra hlong
    have hn : 2147483647 < n := by
      unfold INT_MAX at hlong
      omega
    exact h.distinct 2147483646 2147483647 (by omega) hn (by decide) invokeIdOf_reset
  · intro hle
    refine ⟨fun i _ => invokeIdOf_ne_zero i, fun i j hij hj hclose heq => ?_⟩
    obtain ⟨hreset, rfl⟩ := (invokeIdOf_eq_iff hij hclose).mp heq
    unfold INT_MAX at *
    omega

/-- One call more than `INT_MAX`: the last two give out the same id. -/
theorem not_usableKeys_after_reset : ¬ UsableKeys (2 ^ 31) := fun h =>
  h.distinct 2147483646 2147483647 (by omega) (by decide) (by decide) invokeIdOf_reset

end RinaSense.Rib
