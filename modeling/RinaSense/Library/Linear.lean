import Mathlib.Data.List.Basic
import Mathlib.Logic.Function.Basic

/-!
# Operations which take effect at an instant

Threads operate on one object, and an observer sees when their operations are called and what
they return. The operations are linearizable if each of them can be given an instant between its
call and its return such that the object, which goes through the operations in the order of these
instants, one after the other, gives what the operations return.
-/

namespace RinaSense.Library.Linear

variable {T O R σ : Type*}

/-- What an observer sees. -/
inductive Event (T O R : Type*)
  | call (t : T) (op : O)
  | ret (t : T) (res : R)
deriving DecidableEq, Repr

/-- A thread is between two operations, or before or after the instant of one. -/
inductive Stage (O R : Type*)
  | outside
  | pending (op : O)
  | done (res : R)
deriving DecidableEq, Repr

/-- Something which is seen, or the instant of an operation. -/
inductive Mark (T O R : Type*)
  | seen (e : Event T O R)
  | instant (t : T) (op : O) (res : R)

/-- The threads and the object. -/
structure Config (T O R σ : Type*) where
  stage : T → Stage O R
  object : σ

def Config.start (object : σ) : Config T O R σ where
  stage := fun _ => .outside
  object := object

def Config.setStage [DecidableEq T] (c : Config T O R σ) (t : T) (stage : Stage O R) :
    Config T O R σ :=
  { c with stage := Function.update c.stage t stage }

@[simp] theorem Config.setStage_object [DecidableEq T] (c : Config T O R σ) (t : T)
    (stage : Stage O R) : (c.setStage t stage).object = c.object := rfl

section Marks

variable [DecidableEq T]

/-- A mark takes a thread from its stage to the next, and an instant the object with it. -/
inductive Moves (spec : σ → O → R → σ → Prop) (c : Config T O R σ) :
    Mark T O R → Config T O R σ → Prop
  | call {t : T} {op : O} (hstage : c.stage t = .outside) :
    Moves spec c (.seen (.call t op)) (c.setStage t (.pending op))
  | instant {t : T} {op : O} {res : R} {x : σ} (hstage : c.stage t = .pending op)
    (hspec : spec c.object op res x) :
    Moves spec c (.instant t op res) { c.setStage t (.done res) with object := x }
  | ret {t : T} {res : R} (hstage : c.stage t = .done res) :
    Moves spec c (.seen (.ret t res)) (c.setStage t .outside)

inductive Marked (spec : σ → O → R → σ → Prop) :
    Config T O R σ → List (Mark T O R) → Config T O R σ → Prop
  | nil (c : Config T O R σ) : Marked spec c [] c
  | cons {c c₁ c' : Config T O R σ} {m : Mark T O R} {ms : List (Mark T O R)}
    (hmove : Moves spec c m c₁) (hrest : Marked spec c₁ ms c') : Marked spec c (m :: ms) c'

def Mark.event : Mark T O R → Option (Event T O R)
  | .seen e => some e
  | .instant _ _ _ => none

def observed (ms : List (Mark T O R)) : List (Event T O R) := ms.filterMap Mark.event

/-- What is seen between two configurations has instants. -/
def Linearizes (spec : σ → O → R → σ → Prop) (c : Config T O R σ) (h : List (Event T O R))
    (c' : Config T O R σ) : Prop :=
  ∃ ms, observed ms = h ∧ Marked spec c ms c'

variable {spec : σ → O → R → σ → Prop} {c c₁ c' : Config T O R σ} {ms ms' : List (Mark T O R)}
  {h h' : List (Event T O R)} {t : T}

theorem Marked.append (hms : Marked spec c ms c₁) (hms' : Marked spec c₁ ms' c') :
    Marked spec c (ms ++ ms') c' := by
  induction hms with
  | nil => exact hms'
  | cons hmove _ ih => exact .cons hmove (ih hms')

theorem Linearizes.refl (c : Config T O R σ) : Linearizes spec c [] c := ⟨[], rfl, .nil c⟩

theorem Linearizes.trans (hc : Linearizes spec c h c₁) (hc' : Linearizes spec c₁ h' c') :
    Linearizes spec c (h ++ h') c' := by
  obtain ⟨ms, rfl, hms⟩ := hc
  obtain ⟨ms', rfl, hms'⟩ := hc'
  exact ⟨ms ++ ms', List.filterMap_append, hms.append hms'⟩

theorem Moves.linearizes {m : Mark T O R} (hmove : Moves spec c m c') :
    Linearizes spec c m.event.toList c' := by
  refine ⟨[m], ?_, .cons hmove (.nil c')⟩
  cases m <;> rfl

/-! ### The instants of the threads -/

def Mark.answer (t : T) : Mark T O R → Option R
  | .instant u _ res => if u = t then some res else none
  | .seen _ => none

def Event.result (t : T) : Event T O R → Option R
  | .ret u res => if u = t then some res else none
  | .call _ _ => none

/-- The instants of a thread, by their results. -/
def answers (t : T) (ms : List (Mark T O R)) : List R := ms.filterMap (Mark.answer t)

/-- What the operations of a thread return. -/
def returns (t : T) (h : List (Event T O R)) : List R := h.filterMap (Event.result t)

/-- A result which is not returned so far. -/
def Stage.unreturned : Stage O R → Option R
  | .done res => some res
  | _ => none

theorem unreturned_setStage (c : Config T O R σ) (t u : T) (stage : Stage O R) :
    ((c.setStage u stage).stage t).unreturned =
      if t = u then stage.unreturned else (c.stage t).unreturned := by
  by_cases htu : t = u
  · simp [Config.setStage, htu]
  · simp [Config.setStage, htu]

theorem Moves.answers {m : Mark T O R} (hmove : Moves spec c m c') (t : T) :
    (c.stage t).unreturned.toList ++ (m.answer t).toList =
      (m.event.bind (Event.result t)).toList ++ (c'.stage t).unreturned.toList := by
  cases hmove with
  | @call u op hstage =>
    rw [unreturned_setStage]
    by_cases htu : t = u
    · simp [htu, hstage, Mark.answer, Mark.event, Event.result, Stage.unreturned]
    · simp [htu, Mark.answer, Mark.event, Event.result]
  | @instant u op res x hstage hspec =>
    change _ = _ ++ ((c.setStage u (.done res)).stage t).unreturned.toList
    rw [unreturned_setStage]
    by_cases htu : t = u
    · simp [htu, hstage, Mark.answer, Mark.event, Stage.unreturned]
    · simp [htu, Ne.symm htu, Mark.answer, Mark.event]
  | @ret u res hstage =>
    rw [unreturned_setStage]
    by_cases htu : t = u
    · simp [htu, hstage, Mark.answer, Mark.event, Event.result, Stage.unreturned]
    · simp [htu, Ne.symm htu, Mark.answer, Mark.event, Event.result]

theorem filterMap_cons_toList {α β : Type*} (f : α → Option β) (a : α) (l : List α) :
    (a :: l).filterMap f = (f a).toList ++ l.filterMap f := by
  cases h : f a <;> simp [h]

theorem toList_filterMap {α β : Type*} (f : α → Option β) (o : Option α) :
    o.toList.filterMap f = (o.bind f).toList := by
  cases o with
  | none => rfl
  | some a => cases h : f a <;> simp [h]

theorem answers_cons (t : T) (m : Mark T O R) (ms : List (Mark T O R)) :
    answers t (m :: ms) = (m.answer t).toList ++ answers t ms :=
  filterMap_cons_toList _ m ms

theorem returns_observed_cons (t : T) (m : Mark T O R) (ms : List (Mark T O R)) :
    returns t (observed (m :: ms)) =
      (m.event.bind (Event.result t)).toList ++ returns t (observed ms) := by
  rw [returns, observed, filterMap_cons_toList, List.filterMap_append, toList_filterMap]
  rfl

/-- A thread returns what its instants gave, in their order. -/
theorem Marked.answers (hms : Marked spec c ms c') (t : T) :
    (c.stage t).unreturned.toList ++ Linear.answers t ms =
      returns t (observed ms) ++ (c'.stage t).unreturned.toList := by
  induction hms with
  | nil c => simp [Linear.answers, returns, observed]
  | @cons c c₁ c' m ms hmove _ ih =>
    calc (c.stage t).unreturned.toList ++ Linear.answers t (m :: ms)
        = (c.stage t).unreturned.toList ++ (m.answer t).toList ++ Linear.answers t ms := by
          rw [answers_cons, List.append_assoc]
      _ = (m.event.bind (Event.result t)).toList ++
          ((c₁.stage t).unreturned.toList ++ Linear.answers t ms) := by
          rw [hmove.answers t, List.append_assoc]
      _ = returns t (observed (m :: ms)) ++ (c'.stage t).unreturned.toList := by
          rw [ih, returns_observed_cons, List.append_assoc]

/-- An operation which has its instant was called. -/
theorem Marked.called {P : T → O → Prop} (hms : Marked spec c ms c')
    (hc : ∀ t op, c.stage t = .pending op → P t op)
    (hseen : ∀ t op, .call t op ∈ observed ms → P t op) :
    ∀ t op res, .instant t op res ∈ ms → P t op := by
  induction hms with
  | nil => simp
  | @cons c c₁ c' m ms hmove _ ih =>
    have hrest : ∀ t op, .call t op ∈ observed ms → P t op := by
      intro t op hmem
      apply hseen
      obtain ⟨m', hm', he⟩ := List.mem_filterMap.mp hmem
      exact List.mem_filterMap.mpr ⟨m', List.mem_cons_of_mem m hm', he⟩
    have hnext : ∀ t op, c₁.stage t = .pending op → P t op := by
      intro t op hstage
      cases hmove with
      | @call u op' hout =>
        by_cases htu : t = u
        · subst htu
          simp only [Config.setStage, Function.update_self, Stage.pending.injEq] at hstage
          subst hstage
          exact hseen t op' (by simp [observed, Mark.event])
        · simp only [Config.setStage, Function.update_of_ne htu] at hstage
          exact hc t op hstage
      | @instant u op' res x hpending =>
        by_cases htu : t = u
        · subst htu
          simp [Config.setStage] at hstage
        · simp only [Config.setStage, Function.update_of_ne htu] at hstage
          exact hc t op hstage
      | @ret u res hdone =>
        by_cases htu : t = u
        · subst htu
          simp [Config.setStage] at hstage
        · simp only [Config.setStage, Function.update_of_ne htu] at hstage
          exact hc t op hstage
    intro t op res hmem
    rcases List.mem_cons.mp hmem with rfl | hmem
    · cases hmove with
      | instant hpending => exact hc t op hpending
    · exact ih hnext hrest t op res hmem

end Marks

/-! ### Systems -/

section Systems

variable {S A : Type*} [DecidableEq T] {spec : σ → O → R → σ → Prop}

/-- What is seen of a run. -/
def history (step : S → A → Option S) (events : S → A → S → List (Event T O R)) :
    S → List A → List (Event T O R)
  | _, [] => []
  | s, a :: as =>
    match step s a with
    | none => []
    | some s' => events s a s' ++ history step events s' as

/-- If what is seen of each step has instants, then so has what is seen of a run. -/
theorem linearizes_run {step : S → A → Option S} {events : S → A → S → List (Event T O R)}
    {config : S → Config T O R σ} {inv : S → Prop}
    (hinv : ∀ s a s', inv s → step s a = some s' → inv s')
    (hstep : ∀ s a s', inv s → step s a = some s' →
      Linearizes spec (config s) (events s a s') (config s'))
    {s s' : S} {as : List A} (hs : inv s) (hrun : as.foldlM step s = some s') :
    Linearizes spec (config s) (history step events s as) (config s') := by
  induction as generalizing s with
  | nil =>
    cases hrun
    exact .refl _
  | cons a as ih =>
    rw [List.foldlM_cons] at hrun
    obtain ⟨s₁, hfirst, hrest⟩ := Option.bind_eq_some_iff.mp hrun
    simp only [history, hfirst]
    exact (hstep s a s₁ hs hfirst).trans (ih (hinv s a s₁ hs hfirst) hrest)

end Systems

end RinaSense.Library.Linear
