import Mathlib.Data.List.Basic
import Mathlib.Tactic.Common

/-!
# Lifetimes

A trace says which things are made, used and released. A thing is looked after if nothing
happens to it, or if it is made, then used any number of times, and then released. Traces in
which different things occur can be put one behind the other.
-/

namespace RinaSense.Library.Lifetimes

inductive Action
  | make
  | use
  | release
deriving DecidableEq, Repr

/-- What may still happen to a thing which was made. -/
inductive Held : List Action → Prop
  | release : Held [.release]
  | use {as : List Action} (h : Held as) : Held (.use :: as)

inductive Lifetime : List Action → Prop
  | nothing : Lifetime []
  | made {as : List Action} (h : Held as) : Lifetime (.make :: as)

structure Entry (κ : Type*) where
  key : κ
  action : Action
deriving DecidableEq, Repr

variable {κ : Type*} [DecidableEq κ] {es es' pre post : List (Entry κ)} {k : κ} {a : Action}

/-- What happens to one of the things. -/
def actions (k : κ) (es : List (Entry κ)) : List Action :=
  (es.filter fun e => e.key = k).map Entry.action

/-- Everything is looked after. -/
def Settled (es : List (Entry κ)) : Prop := ∀ k, Lifetime (actions k es)

theorem settled_nil : Settled ([] : List (Entry κ)) := fun _ => .nothing

@[simp] theorem actions_append (k : κ) (es es' : List (Entry κ)) :
    actions k (es ++ es') = actions k es ++ actions k es' := by
  simp [actions]

@[simp] theorem actions_cons_self (k : κ) (a : Action) (es : List (Entry κ)) :
    actions k (⟨k, a⟩ :: es) = a :: actions k es := by
  simp [actions]

theorem mem_actions : a ∈ actions k es ↔ ⟨k, a⟩ ∈ es := by
  simp only [actions, List.mem_map, List.mem_filter, decide_eq_true_eq]
  constructor
  · rintro ⟨⟨_, _⟩, ⟨he, rfl⟩, rfl⟩
    exact he
  · exact fun he => ⟨⟨k, a⟩, ⟨he, rfl⟩, rfl⟩

theorem actions_eq_nil (h : ∀ e ∈ es, e.key ≠ k) : actions k es = [] := by
  rw [List.eq_nil_iff_forall_not_mem]
  exact fun a ha => h ⟨k, a⟩ (mem_actions.mp ha) rfl

theorem count_actions (k : κ) (a : Action) (es : List (Entry κ)) :
    (actions k es).count a = es.count ⟨k, a⟩ := by
  induction es with
  | nil => rfl
  | cons e es ih =>
    obtain ⟨k', a'⟩ := e
    by_cases hk : k' = k
    · subst hk
      rw [actions_cons_self, List.count_cons, List.count_cons, ih]
      simp
    · have hskip : actions k (⟨k', a'⟩ :: es) = actions k es := by simp [actions, hk]
      rw [hskip, ih, List.count_cons_of_ne]
      rintro ⟨⟩
      exact hk rfl

/-- Traces about different things. -/
theorem Settled.append (h : Settled es) (h' : Settled es')
    (hdiff : ∀ e ∈ es, ∀ e' ∈ es', e.key ≠ e'.key) : Settled (es ++ es') := by
  intro k
  rw [actions_append]
  by_cases hk : ∃ e ∈ es, e.key = k
  · obtain ⟨e, he, rfl⟩ := hk
    have hnone : actions e.key es' = [] :=
      actions_eq_nil fun e' he' => (hdiff e he e' he').symm
    rw [hnone, List.append_nil]
    exact h e.key
  · have hnone : actions k es = [] := actions_eq_nil fun e he hek => hk ⟨e, he, hek⟩
    rw [hnone, List.nil_append]
    exact h' k

/-! ### What a lifetime says -/

theorem Held.count_release {as : List Action} (h : Held as) : as.count .release = 1 := by
  induction h with
  | release => rfl
  | use h ih => rwa [List.count_cons_of_ne (by decide)]

/-- A release is the last that happens. -/
theorem Held.not_released {as bs : List Action} (h : Held (as ++ a :: bs)) : .release ∉ as := by
  induction as with
  | nil => exact List.not_mem_nil
  | cons b as ih =>
    rw [List.cons_append] at h
    generalize hrest : as ++ a :: bs = rest at h
    cases h with
    | release => simp at hrest
    | use h =>
      subst hrest
      have hnot := ih h
      simp [hnot]

/-- What is made is released once. -/
theorem Settled.released (h : Settled es) (hk : ⟨k, .make⟩ ∈ es) :
    es.count ⟨k, .release⟩ = 1 := by
  have hmade := mem_actions.mpr hk
  have hlife := h k
  rw [← count_actions]
  generalize actions k es = as at hmade hlife ⊢
  cases hlife with
  | nothing => cases hmade
  | made hheld => rw [List.count_cons_of_ne (by decide), hheld.count_release]

/-- What is used or released was made, and was not released before. -/
theorem Settled.live (h : Settled (pre ++ ⟨k, a⟩ :: post)) (ha : a ≠ .make) :
    ⟨k, .make⟩ ∈ pre ∧ ⟨k, .release⟩ ∉ pre := by
  have hk := h k
  rw [actions_append, actions_cons_self] at hk
  rw [← mem_actions, ← mem_actions]
  generalize actions k pre = as at hk ⊢
  cases as with
  | nil =>
    cases hk
    exact absurd rfl ha
  | cons b as =>
    cases hk with
    | made hheld => simp [hheld.not_released]

/-! ### One behind the other -/

/-- There is an `x` in front of every `y`. -/
def Follows {ε : Type*} (x y : ε) (es : List ε) : Prop :=
  ∀ pre post, es = pre ++ y :: post → x ∈ pre

theorem follows_of_notMem {ε : Type*} {x y : ε} {es : List ε} (h : y ∉ es) : Follows x y es := by
  rintro pre post rfl
  exact absurd (List.mem_append_right pre (List.mem_cons_self ..)) h

theorem follows_cons {ε : Type*} {x y : ε} (hne : x ≠ y) (es : List ε) : Follows x y (x :: es) := by
  intro pre post heq
  cases pre with
  | nil => exact absurd (List.cons.inj heq).1 hne
  | cons z pre =>
    rw [List.cons_append] at heq
    rw [(List.cons.inj heq).1]
    exact List.mem_cons_self ..

theorem Follows.append {ε : Type*} {x y : ε} {es es' : List ε} (h : Follows x y es)
    (h' : Follows x y es') : Follows x y (es ++ es') := by
  intro pre post heq
  rcases List.append_eq_append_iff.mp heq with ⟨as, hpre, hes'⟩ | ⟨bs, hes, hpost⟩
  · rw [hpre]
    exact List.mem_append_right _ (h' as post hes')
  · cases bs with
    | nil =>
      exact absurd (h' [] post hpost.symm) List.not_mem_nil
    | cons b bs =>
      rw [List.cons_append] at hpost
      cases hpost
      exact h pre bs hes

end RinaSense.Library.Lifetimes
