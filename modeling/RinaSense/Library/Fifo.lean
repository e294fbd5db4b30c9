import Mathlib.Tactic.Common

/-!
# Bounded first-in first-out queues

A queue of at most `n` items. An item is pushed unless the queue is full and popped, in the order
of the pushes, unless it is empty.
-/

namespace RinaSense.Library.Bounded

variable {α β : Type*} {n : ℕ}

structure Fifo (α : Type*) (n : ℕ) where
  items : List α
  fits : items.length ≤ n

def Fifo.empty : Fifo α n := ⟨[], Nat.zero_le n⟩

def Fifo.push (q : Fifo α n) (x : α) : Option (Fifo α n) :=
  if h : q.items.length < n then
    some ⟨q.items ++ [x], by simpa using Nat.succ_le_of_lt h⟩
  else none

def Fifo.pop (q : Fifo α n) : Option (α × Fifo α n) :=
  match h : q.items with
  | [] => none
  | x :: rest => some (x, ⟨rest, Nat.le_of_succ_le (by simpa [h] using q.fits)⟩)

variable {q : Fifo α n}

theorem Fifo.push_of_lt (h : q.items.length < n) (x : α) :
    ∃ q', q.push x = some q' ∧ q'.items = q.items ++ [x] :=
  ⟨_, dif_pos h, rfl⟩

theorem Fifo.push_full (h : q.items.length = n) (x : α) : q.push x = none :=
  dif_neg (Nat.not_lt.mpr (Nat.le_of_eq h.symm))

theorem Fifo.pop_empty (h : q.items = []) : q.pop = none := by
  unfold Fifo.pop
  split
  · rfl
  · rename_i hcons
    rw [h] at hcons
    cases hcons

theorem Fifo.pop_cons {x : α} {rest : List α} (h : q.items = x :: rest) :
    ∃ q', q.pop = some (x, q') ∧ q'.items = rest := by
  unfold Fifo.pop
  split
  · rename_i hnil
    rw [h] at hnil
    cases hnil
  · rename_i y tail hcons
    rw [h] at hcons
    cases hcons
    exact ⟨_, rfl, rfl⟩

end RinaSense.Library.Bounded
