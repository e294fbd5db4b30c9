import Mathlib.Tactic.Common

/-!
# Platform of the build

The Linux port maps `RsAssert` to `assert`, which `NDEBUG` removes, and the resource
pools give their requests to the heap when the program runs under Valgrind. Steps
which the C program cannot take without undefined behaviour or an abort are traps.
-/

namespace RinaSense.Common

/-- How a computation of the program can end without returning. -/
inductive Trap
  | assertion
  | nullPointer
  | outOfBounds
  | uninitialised
  | abort
  | endless
deriving DecidableEq, Repr

/-- A computation of the program which returns a value or ends in a trap. -/
abbrev Exec (α : Type) := Except Trap α

/-- The build and run settings on which the code branches. -/
structure Platform where
  ndebug : Bool
  valgrind : Bool
deriving DecidableEq, Repr

def rsAssert (pf : Platform) (b : Bool) : Exec Unit :=
  if pf.ndebug || b then .ok () else .error .assertion

@[simp] theorem rsAssert_true (pf : Platform) : rsAssert pf true = .ok () := by
  simp [rsAssert]

/-- A pointer which is dereferenced. -/
def deref {α : Type} : Option α → Exec α
  | none => .error .nullPointer
  | some a => .ok a

@[simp] theorem deref_some {α : Type} (a : α) : deref (some a) = .ok a := rfl

@[simp] theorem deref_none {α : Type} : deref (none : Option α) = .error .nullPointer := rfl

theorem deref_eq_ok {α : Type} {o : Option α} {a : α} : deref o = .ok a ↔ o = some a := by
  cases o with
  | none => simp
  | some b => simp

/-- An access which must lie inside an allocated object. -/
def inBounds {α : Type} : Option α → Exec α
  | none => .error .outOfBounds
  | some a => .ok a

@[simp] theorem inBounds_some {α : Type} (a : α) : inBounds (some a) = .ok a := rfl

@[simp] theorem inBounds_none {α : Type} :
    inBounds (none : Option α) = .error .outOfBounds := rfl

theorem inBounds_eq_ok {α : Type} {o : Option α} {a : α} : inBounds o = .ok a ↔ o = some a := by
  cases o with
  | none => simp
  | some b => simp

@[simp] theorem Exec.ok_bind {α β : Type} (a : α) (f : α → Exec β) :
    ((Except.ok a : Exec α) >>= f) = f a := rfl

@[simp] theorem Exec.error_bind {α β : Type} (t : Trap) (f : α → Exec β) :
    ((Except.error t : Exec α) >>= f) = .error t := rfl

/-- A pointer which is only set when the step that should set it succeeds. -/
def initialised {α : Type} : Option α → Exec α
  | none => .error .uninitialised
  | some a => .ok a

@[simp] theorem initialised_some {α : Type} (a : α) : initialised (some a) = .ok a := rfl

theorem initialised_eq_ok {α : Type} {o : Option α} {a : α} :
    initialised o = .ok a ↔ o = some a := by
  cases o with
  | none => simp [initialised]
  | some b => simp

theorem Exec.bind_eq_ok {α β : Type} {x : Exec α} {f : α → Exec β} {b : β} :
    (x >>= f) = .ok b ↔ ∃ a, x = .ok a ∧ f a = .ok b := by
  cases x with
  | error t => simp
  | ok a => simp

theorem Exec.toOption_map_eq_some {α β : Type} {x : Exec α} {g : α → β} {b : β}
    (hx : x.toOption.map g = some b) : ∃ a, x = .ok a ∧ g a = b := by
  cases x with
  | error t => cases hx
  | ok a => exact ⟨a, rfl, Option.some.inj hx⟩

end RinaSense.Common
