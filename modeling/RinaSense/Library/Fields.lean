import Mathlib.Logic.Function.Basic
import Mathlib.Tactic.Common

/-!
# Computations which read the fields of a structure

What is read next may depend on what was read before. The structure lies in memory with any
contents and is filled in by assignments. A computation which reads only fields that were
assigned has the same result whatever the memory contained before.
-/

namespace RinaSense.Library.Fields

inductive Reads (φ : Type) (val : φ → Type) (α : Type)
  | done (a : α)
  | read (f : φ) (k : val f → Reads φ val α)

variable {φ : Type} {val : φ → Type} {α β : Type}

def Reads.bind : Reads φ val α → (α → Reads φ val β) → Reads φ val β
  | .done a, g => g a
  | .read f k, g => .read f fun v => (k v).bind g

instance : Monad (Reads φ val) where
  pure := .done
  bind := .bind

/-- The value of a field. -/
def get (f : φ) : Reads φ val (val f) := .read f .done

variable {m m' : ∀ f, val f} {x : Reads φ val α} {g : α → Reads φ val β}

def Reads.run (m : ∀ f, val f) : Reads φ val α → α
  | .done a => a
  | .read f k => (k (m f)).run m

/-- The fields which are read, in their order. -/
def Reads.fields (m : ∀ f, val f) : Reads φ val α → List φ
  | .done _ => []
  | .read f k => f :: (k (m f)).fields m

@[simp] theorem run_pure (m : ∀ f, val f) (a : α) : (pure a : Reads φ val α).run m = a := rfl

@[simp] theorem fields_pure (m : ∀ f, val f) (a : α) :
    (pure a : Reads φ val α).fields m = [] := rfl

@[simp] theorem run_get (m : ∀ f, val f) (f : φ) : (get f : Reads φ val (val f)).run m = m f := rfl

@[simp] theorem fields_get (m : ∀ f, val f) (f : φ) :
    (get f : Reads φ val (val f)).fields m = [f] := rfl

@[simp] theorem run_bind (m : ∀ f, val f) (x : Reads φ val α) (g : α → Reads φ val β) :
    (x >>= g).run m = (g (x.run m)).run m := by
  induction x with
  | done a => rfl
  | read f k ih => exact ih (m f)

@[simp] theorem fields_bind (m : ∀ f, val f) (x : Reads φ val α) (g : α → Reads φ val β) :
    (x >>= g).fields m = x.fields m ++ (g (x.run m)).fields m := by
  induction x with
  | done a => rfl
  | read f k ih => exact congrArg (f :: ·) (ih (m f))

/-- Memories which agree on what is read cannot be told apart. -/
theorem Reads.congr (h : ∀ f ∈ x.fields m, m f = m' f) :
    x.run m' = x.run m ∧ x.fields m' = x.fields m := by
  induction x with
  | done a => exact ⟨rfl, rfl⟩
  | read f k ih =>
    have hf : m f = m' f := h f (List.mem_cons_self ..)
    have hk := ih (m f) fun f' hf' => h f' (List.mem_cons_of_mem _ hf')
    constructor
    · change (k (m' f)).run m' = (k (m f)).run m
      rw [← hf, hk.1]
    · change f :: (k (m' f)).fields m' = f :: (k (m f)).fields m
      rw [← hf, hk.2]

/-! ### Reading within a set of fields -/

/-- Only fields with a property are read. -/
def Within (P : φ → Prop) (m : ∀ f, val f) (x : Reads φ val α) : Prop := ∀ f ∈ x.fields m, P f

theorem within_pure (P : φ → Prop) (a : α) : Within P m (pure a) := by
  simp [Within]

theorem within_get {P : φ → Prop} {f : φ} (h : P f) : Within P m (get f) := by
  simpa [Within] using h

theorem Within.bind {P : φ → Prop} (hx : Within P m x) (hg : Within P m (g (x.run m))) :
    Within P m (x >>= g) := by
  intro f hf
  rw [fields_bind] at hf
  exact (List.mem_append.mp hf).elim (hx f) (hg f)

/-! ### Structures which are filled in -/

variable [DecidableEq φ]

/-- The memory after assignments to some fields. -/
def assign (m : ∀ f, val f) : List (Σ f, val f) → ∀ f, val f
  | [] => m
  | ⟨f, v⟩ :: as => assign (Function.update m f v) as

/-- The fields which are assigned. -/
def written (as : List (Σ f, val f)) : List φ := as.map Sigma.fst

theorem assign_of_notMem {as : List (Σ f, val f)} {f : φ} (hf : f ∉ written as)
    (m : ∀ f, val f) : assign m as f = m f := by
  induction as generalizing m with
  | nil => rfl
  | cons a as ih =>
    rw [written, List.map_cons, List.mem_cons, not_or] at hf
    exact (ih hf.2 _).trans (Function.update_of_ne hf.1 _ _)

/-- An assigned field does not depend on the memory. -/
theorem assign_eq {as : List (Σ f, val f)} {f : φ} (hf : f ∈ written as) (m m' : ∀ f, val f) :
    assign m as f = assign m' as f := by
  induction as generalizing m m' with
  | nil => cases hf
  | cons a as ih =>
    by_cases hrest : f ∈ written as
    · exact ih hrest _ _
    · obtain rfl : f = a.1 := (List.mem_cons.mp hf).resolve_right hrest
      have hlast (m : ∀ f, val f) : assign (Function.update m a.1 a.2) as a.1 = a.2 := by
        rw [assign_of_notMem hrest, Function.update_self]
      exact (hlast m).trans (hlast m').symm

/-- A computation which keeps to the assigned fields does not see the memory. -/
theorem Within.congr {as : List (Σ f, val f)} (h : Within (· ∈ written as) (assign m as) x)
    (m' : ∀ f, val f) :
    x.run (assign m' as) = x.run (assign m as) ∧
      x.fields (assign m' as) = x.fields (assign m as) :=
  Reads.congr fun f hf => assign_eq (h f hf) m m'

end RinaSense.Library.Fields
