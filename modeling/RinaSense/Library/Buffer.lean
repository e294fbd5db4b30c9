import Mathlib.Data.List.DropRight
import RinaSense.Library.Memory

/-!
# Buffers and filler

Reads and writes of a buffer which a computation owns, each of which succeeds exactly
when it stays inside the buffer, and strings which are filled up with a filler value at
their end.
-/

namespace RinaSense.Library.Memory

/-- The `n` bytes from position `o` on. -/
def slice (b : Bytes) (o n : ℕ) : Option Bytes :=
  if o + n ≤ b.length then some ((b.drop o).take n) else none

/-- The buffer after `bs` was written at position `o`. -/
def patch (b : Bytes) (o : ℕ) (bs : Bytes) : Option Bytes :=
  if o + bs.length ≤ b.length then some (splice b o bs) else none

theorem slice_eq_some {b bs : Bytes} {o n : ℕ} :
    slice b o n = some bs ↔ o + n ≤ b.length ∧ (b.drop o).take n = bs := by
  simp [slice]

theorem slice_middle (pre bs post : Bytes) {o n : ℕ} (ho : o = pre.length)
    (hn : n = bs.length) : slice (pre ++ (bs ++ post)) o n = some bs := by
  subst ho hn
  simp [slice_eq_some]

theorem slice_length {b bs : Bytes} {o n : ℕ} (h : slice b o n = some bs) :
    bs.length = n := by
  rw [slice_eq_some] at h
  rw [← h.2, List.length_take, List.length_drop]
  omega

theorem patch_eq_some {b bs : Bytes} {o : ℕ} (h : o + bs.length ≤ b.length) :
    patch b o bs = some (splice b o bs) := if_pos h

theorem patch_eq_none {b bs : Bytes} {o : ℕ} (h : ¬ o + bs.length ≤ b.length) :
    patch b o bs = none := if_neg h

theorem patch_middle (pre : Bytes) {old : Bytes} (post bs : Bytes) {o : ℕ} (ho : o = pre.length)
    (h : bs.length = old.length) :
    patch (pre ++ (old ++ post)) o bs = some (pre ++ (bs ++ post)) := by
  subst ho
  rw [patch_eq_some (by simp [h]), splice_middle h]

/-- Two writes one behind the other are a single write. -/
theorem splice_splice {b xs : Bytes} {o : ℕ} (ys : Bytes) (h : o + xs.length ≤ b.length) :
    splice (splice b o xs) (o + xs.length) ys = splice b o (xs ++ ys) := by
  have hpre : (b.take o ++ xs).length = o + xs.length := by
    rw [List.length_append, List.length_take]
    omega
  have htake : (b.take o ++ xs ++ b.drop (o + xs.length)).take (o + xs.length) =
      b.take o ++ xs := List.take_left' hpre
  have hdrop : (b.take o ++ xs ++ b.drop (o + xs.length)).drop (o + xs.length + ys.length) =
      b.drop (o + (xs ++ ys).length) := by
    rw [← List.drop_drop, List.drop_left' hpre, List.drop_drop, List.length_append,
      Nat.add_assoc]
  rw [splice, splice, htake, hdrop, splice, List.append_assoc, List.append_assoc,
    List.append_assoc, List.append_assoc]

end RinaSense.Library.Memory

namespace RinaSense.Library.Filler

variable {α : Type*} [DecidableEq α]

/-- What stands before the first filler. -/
def cut (f : α) (xs : List α) : List α := xs.takeWhile (· ≠ f)

/-- The list without the fillers at its end. -/
def strip (f : α) (xs : List α) : List α := xs.rdropWhile (· = f)

/-- The list filled up to the length `n`. -/
def pad (f : α) (n : ℕ) (xs : List α) : List α := xs ++ List.replicate (n - xs.length) f

omit [DecidableEq α] in
theorem pad_length {f : α} {n : ℕ} {xs : List α} (h : xs.length ≤ n) :
    (pad f n xs).length = n := by
  rw [pad, List.length_append, List.length_replicate]
  omega

theorem cut_cons (f x : α) (xs : List α) :
    cut f (x :: xs) = if x = f then [] else x :: cut f xs := by
  by_cases hx : x = f <;> simp [cut, hx]

theorem not_mem_cut (f : α) (xs : List α) : f ∉ cut f xs := by
  intro h
  simpa using List.mem_takeWhile_imp h

theorem cut_of_not_mem {f : α} {xs : List α} (h : f ∉ xs) : cut f xs = xs := by
  rw [cut, List.takeWhile_eq_self_iff]
  intro x hx
  simpa using fun hxf : x = f => h (hxf ▸ hx)

@[simp] theorem cut_cut (f : α) (xs : List α) : cut f (cut f xs) = cut f xs :=
  cut_of_not_mem (not_mem_cut f xs)

theorem cut_append_of_not_mem {f : α} {xs : List α} (h : f ∉ xs) (ys : List α) :
    cut f (xs ++ ys) = xs ++ cut f ys := by
  rw [cut, List.takeWhile_append_of_pos, cut]
  intro x hx
  simpa using fun hxf : x = f => h (hxf ▸ hx)

/-- Behind a filler nothing counts. -/
theorem cut_append_of_mem {f : α} {xs : List α} (h : f ∈ xs) (ys : List α) :
    cut f (xs ++ ys) = cut f xs := by
  induction xs with
  | nil => simp at h
  | cons x xs ih =>
    by_cases hx : x = f
    · simp [cut_cons, hx]
    · have hmem : f ∈ xs := by simpa [Ne.symm hx] using h
      simp [cut_cons, hx, ih hmem]

@[simp] theorem cut_replicate (f : α) (n : ℕ) : cut f (List.replicate n f) = [] := by
  cases n <;> simp [cut, List.replicate_succ]

theorem cut_append_replicate (f : α) (xs : List α) (n : ℕ) :
    cut f (xs ++ List.replicate n f) = cut f xs := by
  by_cases h : f ∈ xs
  · exact cut_append_of_mem h _
  · rw [cut_append_of_not_mem h, cut_replicate, List.append_nil, cut_of_not_mem h]

@[simp] theorem cut_pad (f : α) (n : ℕ) (xs : List α) : cut f (pad f n xs) = cut f xs :=
  cut_append_replicate f xs _

theorem strip_of_not_mem {f : α} {xs : List α} (h : f ∉ xs) : strip f xs = xs := by
  rw [strip, List.rdropWhile_eq_self_iff]
  intro hne hlast
  exact h (of_decide_eq_true hlast ▸ List.getLast_mem hne)

/-- Fillers at the end do not count. -/
@[simp] theorem cut_strip (f : α) (xs : List α) : cut f (strip f xs) = cut f xs := by
  induction xs using List.reverseRecOn with
  | nil => simp [strip]
  | append_singleton xs x ih =>
    by_cases hx : x = f
    · have hstrip : strip f (xs ++ [x]) = strip f xs := by simp [strip, hx]
      have hone := cut_append_replicate f xs 1
      rw [hstrip, ih, hx, ← hone, List.replicate_one]
    · simp [strip, hx]

theorem strip_eq_nil_iff {f : α} {xs : List α} : strip f xs = [] ↔ ∀ x ∈ xs, x = f := by
  simp [strip, List.rdropWhile_eq_nil_iff]

/-- Only fillers are removed from the end. -/
theorem strip_append_replicate (f : α) (xs : List α) :
    ∃ n, strip f xs ++ List.replicate n f = xs := by
  have htail : xs.rtakeWhile (· = f) = List.replicate (xs.rtakeWhile (· = f)).length f := by
    refine List.eq_replicate_of_mem fun x hx => ?_
    simpa using List.mem_rtakeWhile_imp hx
  refine ⟨(xs.rtakeWhile (· = f)).length, ?_⟩
  rw [← htail]
  exact List.rdropWhile_append_rtakeWhile

/-- Both ends of the filler agree when all of it is at the end. -/
theorem strip_eq_cut_iff {f : α} {xs : List α} :
    strip f xs = cut f xs ↔ ∃ ys n, f ∉ ys ∧ xs = ys ++ List.replicate n f := by
  constructor
  · intro h
    obtain ⟨n, hn⟩ := strip_append_replicate f xs
    exact ⟨cut f xs, n, not_mem_cut f xs, by rw [← h, hn]⟩
  · rintro ⟨ys, n, hys, rfl⟩
    rw [cut_append_replicate, cut_of_not_mem hys]
    induction n with
    | zero => rw [List.replicate_zero, List.append_nil, strip_of_not_mem hys]
    | succ n ih =>
      have hlast : strip f (ys ++ List.replicate n f ++ [f]) = strip f (ys ++ List.replicate n f) :=
        List.rdropWhile_concat_pos _ _ _ (by simp)
      rw [List.replicate_succ', ← List.append_assoc, hlast, ih]

theorem cut_ne_nil {f : α} {x : α} {xs : List α} (h : x ≠ f) : cut f (x :: xs) ≠ [] := by
  simp [cut_cons, h]

end RinaSense.Library.Filler
