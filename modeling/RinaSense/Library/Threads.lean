import Mathlib.Algebra.BigOperators.Group.Finset.Basic
import Mathlib.Algebra.Order.BigOperators.Group.Finset
import Mathlib.Data.Fintype.Basic

/-!
# Threads and their phases

A system of threads maps every thread to the phase it is in. What the threads hold of a
shared resource is the sum of what each holds in its phase, and a step of one thread
changes the sum by what the step of that thread changes.
-/

namespace RinaSense.Library.Threads

variable {T P : Type*} [Fintype T]

/-- What all the threads hold, when a thread in the phase `p` holds `w p`. -/
def tally (w : P → ℕ) (phase : T → P) : ℕ := ∑ t, w (phase t)

theorem tally_update [DecidableEq T] (w : P → ℕ) (phase : T → P) (t : T) (p : P) :
    tally w (Function.update phase t p) + w (phase t) = tally w phase + w p := by
  have hrest : ∑ u ∈ Finset.univ.erase t, w (Function.update phase t p u) =
      ∑ u ∈ Finset.univ.erase t, w (phase u) := by
    refine Finset.sum_congr rfl fun u hu => ?_
    rw [Function.update_of_ne (Finset.ne_of_mem_erase hu)]
  have hnew := Finset.add_sum_erase Finset.univ (fun u => w (Function.update phase t p u))
    (Finset.mem_univ t)
  have hold := Finset.add_sum_erase Finset.univ (fun u => w (phase u)) (Finset.mem_univ t)
  rw [hrest, Function.update_self] at hnew
  unfold tally
  omega

/-- No thread holds more than all of them. -/
theorem le_tally (w : P → ℕ) (phase : T → P) (t : T) : w (phase t) ≤ tally w phase :=
  Finset.single_le_sum (fun u _ => Nat.zero_le (w (phase u))) (Finset.mem_univ t)

theorem tally_start {w : P → ℕ} {p : P} (hp : w p = 0) : tally w (fun _ : T => p) = 0 := by
  simp [tally, hp]

/-! ### What threads put out -/

section Output

variable {α : Type*}

/-- What threads put out in the order of a schedule, in which a thread that has nothing left is
passed over. -/
def interleave (out : ℕ → List α) : List ℕ → List α
  | [] => []
  | k :: ks =>
    match out k with
    | [] => interleave out ks
    | a :: as => a :: interleave (Function.update out k as) ks

theorem mem_interleave {out : ℕ → List α} {ks : List ℕ} {a : α} (h : a ∈ interleave out ks) :
    ∃ k, a ∈ out k := by
  induction ks generalizing out with
  | nil => cases h
  | cons k ks ih =>
    unfold interleave at h
    cases hk : out k with
    | nil =>
      rw [hk] at h
      exact ih h
    | cons b bs =>
      rw [hk] at h
      rcases List.mem_cons.mp h with rfl | h
      · exact ⟨k, by rw [hk]; exact List.mem_cons_self ..⟩
      · obtain ⟨j, hj⟩ := ih h
        by_cases hjk : j = k
        · subst hjk
          rw [Function.update_self] at hj
          exact ⟨j, by rw [hk]; exact List.mem_cons_of_mem _ hj⟩
        · rw [Function.update_of_ne hjk] at hj
          exact ⟨j, hj⟩

/-- A thread which is alone puts out all it has. -/
theorem interleave_alone (out : ℕ → List α) (k : ℕ) :
    interleave out (List.replicate (out k).length k) = out k := by
  induction hout : out k generalizing out with
  | nil => rfl
  | cons a as ih =>
    have hrest := ih (Function.update out k as) (Function.update_self ..)
    simp only [List.length_cons, List.replicate_succ, interleave, hout, hrest]

end Output

end RinaSense.Library.Threads
