import Mathlib.Data.List.Infix
import Mathlib.Tactic.Common

/-!
# Draining into a device

A device answers a write with an error or with the number of elements which it has taken. The
writer goes on behind what was taken until nothing is left.
-/

namespace RinaSense.Library.Drain

variable {α : Type}

/-- What a device answers to a write of so many elements: an error, or how many it takes. -/
abbrev Answer := ℕ → Option ℕ

/-- A device takes at most what it is offered. -/
def Answer.taken (a : Answer) (n : ℕ) : Option ℕ := (a n).map (min n)

/-- The device takes a write as a whole, or turns it down. -/
def Answer.Settles (a : Answer) (n : ℕ) : Prop := a.taken n = none ∨ a.taken n = some n

instance (a : Answer) (n : ℕ) : Decidable (a.Settles n) := inferInstanceAs (Decidable (_ ∨ _))

/-- Each write offers what is left. The result says whether all was taken, with what each write
took; there is none if the device stops answering. -/
def drain : List Answer → List α → Option (Bool × List (List α))
  | [], _ => none
  | a :: as, xs =>
    match a.taken xs.length with
    | none => some (false, [])
    | some k =>
      if k < xs.length then
        (drain as (xs.drop k)).map fun out => (out.1, xs.take k :: out.2)
      else some (true, [xs.take k])

variable {a : Answer} {as : List Answer} {xs : List α} {n k : ℕ} {ok : Bool}
  {pieces : List (List α)}

theorem Answer.taken_le (h : a.taken n = some k) : k ≤ n := by
  rw [Answer.taken, Option.map_eq_some_iff] at h
  obtain ⟨m, -, rfl⟩ := h
  exact Nat.min_le_left n m

theorem drain_error (h : a.taken xs.length = none) : drain (a :: as) xs = some (false, []) := by
  rw [drain, h]

theorem drain_short (h : a.taken xs.length = some k) (hk : k < xs.length) :
    drain (a :: as) xs = (drain as (xs.drop k)).map fun out => (out.1, xs.take k :: out.2) := by
  rw [drain, h]
  exact if_pos hk

theorem drain_whole (h : a.taken xs.length = some xs.length) :
    drain (a :: as) xs = some (true, [xs]) := by
  rw [drain, h]
  simp

/-- The cases of a first write. -/
theorem taken_cases (a : Answer) (n : ℕ) :
    a.taken n = none ∨ (∃ k < n, a.taken n = some k) ∨ a.taken n = some n := by
  cases h : a.taken n with
  | none => exact Or.inl rfl
  | some k =>
    rcases Nat.lt_or_eq_of_le (Answer.taken_le h) with hlt | rfl
    · exact Or.inr (Or.inl ⟨k, hlt, rfl⟩)
    · exact Or.inr (Or.inr rfl)

/-- The pieces are the beginning, and all of it exactly if there was no error. -/
theorem drain_pieces (h : drain as xs = some (ok, pieces)) :
    pieces.flatten <+: xs ∧ (ok = true ↔ pieces ≠ [] ∧ pieces.flatten = xs) := by
  induction as generalizing xs ok pieces with
  | nil => cases h
  | cons a as ih =>
    rcases taken_cases a xs.length with hnone | ⟨k, hk, hshort⟩ | hwhole
    · rw [drain_error hnone] at h
      cases h
      exact ⟨List.nil_prefix, by simp⟩
    · rw [drain_short hshort hk, Option.map_eq_some_iff] at h
      obtain ⟨⟨ok', rest⟩, hrest, heq⟩ := h
      cases heq
      obtain ⟨hbegin, hall⟩ := ih hrest
      have hdrop : xs.drop k ≠ [] := fun hnil => by
        have := congrArg List.length hnil
        rw [List.length_drop, List.length_nil] at this
        omega
      have hjoin : xs.take k ++ rest.flatten = xs ↔ rest.flatten = xs.drop k := by
        refine ⟨fun heq => ?_, fun heq => by rw [heq, List.take_append_drop]⟩
        exact List.append_cancel_left (heq.trans (List.take_append_drop k xs).symm)
      refine ⟨?_, ?_⟩
      · obtain ⟨behind, hbehind⟩ := hbegin
        exact ⟨behind, by
          rw [List.flatten_cons, List.append_assoc, hbehind, List.take_append_drop]⟩
      · rw [hall, List.flatten_cons, hjoin]
        constructor
        · rintro ⟨-, hrest⟩
          exact ⟨List.cons_ne_nil _ _, hrest⟩
        · rintro ⟨-, hrest⟩
          refine ⟨fun hnil => hdrop ?_, hrest⟩
          rw [← hrest, hnil]
          rfl
    · rw [drain_whole hwhole] at h
      cases h
      simp

/-- A device which settles each write at some time comes to an end. -/
theorem drain_ends (h : ∃ a ∈ as, ∀ n, a.Settles n) (xs : List α) :
    ∃ out, drain as xs = some out := by
  induction as generalizing xs with
  | nil =>
    obtain ⟨a, ha, -⟩ := h
    cases ha
  | cons a as ih =>
    rcases taken_cases a xs.length with hnone | ⟨k, hk, hshort⟩ | hwhole
    · exact ⟨_, drain_error hnone⟩
    · have hmore : ∃ a' ∈ as, ∀ n, Answer.Settles a' n := by
        obtain ⟨a', ha', hsettles⟩ := h
        rcases List.mem_cons.mp ha' with rfl | hmem
        · rcases hsettles xs.length with hno | hall
          · rw [hno] at hshort
            cases hshort
          · rw [hall] at hshort
            exact absurd (Option.some.inj hshort) (Nat.ne_of_gt hk)
        · exact ⟨a', hmem, hsettles⟩
      obtain ⟨out, hout⟩ := ih hmore (xs.drop k)
      exact ⟨_, by rw [drain_short hshort hk, hout]; rfl⟩
    · exact ⟨_, drain_whole hwhole⟩

/-- One piece goes to the device exactly if its first write is taken as a whole. -/
theorem drain_single : drain (a :: as) xs = some (true, [xs]) ↔
    a.taken xs.length = some xs.length := by
  refine ⟨fun h => ?_, drain_whole⟩
  rcases taken_cases a xs.length with hnone | ⟨k, hk, hshort⟩ | hwhole
  · rw [drain_error hnone] at h
    cases h
  · rw [drain_short hshort hk, Option.map_eq_some_iff] at h
    obtain ⟨⟨ok', rest⟩, -, heq⟩ := h
    have hhead := (List.cons.inj (Prod.mk.inj heq).2).1
    have := congrArg List.length hhead
    rw [List.length_take] at this
    omega
  · exact hwhole

end RinaSense.Library.Drain
