import RinaSense.Common.ArrayListItems
import RinaSense.Library.Runs

/-!
# Array lists as lists

A list is used by adds, gets, removals and counts. It answers as the list of its items does, as
long as it is not asked for an item when it is empty, a removal does not move more than the array
has, and a full list of the heap grows.
-/

namespace RinaSense.Common.ArrayLists

open Library.Memory Library.Runs

variable (pf : Platform) {z : ℕ}

/-! ### One add -/

/-- An add which reports an error leaves the list as it was. Otherwise the item is the last one,
and it is inside the array. -/
def AddsAtomically (pxLst : ArrayList) (h : Heap) (xs : List Bytes)
    (pvItem : ItemBuf pxLst.unItemSz.toNat) : Prop :=
  match xArrayListAdd pf pxLst h pvItem with
  | .error _ => False
  | .ok (xStatus, pxLst', h') =>
    if ERR_CHK xStatus then pxLst' = pxLst ∧ Contains pxLst' h' xs
    else Contains pxLst' h' (xs ++ [pxLst.item pvItem]) ∧
      (xs.length + 1) * pxLst.unItemSz.toNat ≤ pxLst'.allocated

variable {pf} {pxLst : ArrayList} {h : Heap} {xs : List Bytes}

theorem ERR_CHK_OOM : ERR_CHK ERR_OOM = true := rfl

theorem ERR_CHK_SUCCESS : ERR_CHK SUCCESS = false := rfl

/-- A list without an array has no items to read. -/
theorem not_contains_lost (hlost : pxLst.pvArray = none) : ¬ Contains pxLst h xs := by
  intro hc
  have hitems := hc.items
  rw [hlost] at hitems
  cases hitems

/-- An add to a list with its items, whichever bytes its capacity gives, is atomic exactly when
there is room for the item, or memory for it, or a pool which turns the request down. -/
theorem addsAtomically_iff (hl : Holds pf pxLst h xs) (pvItem : ItemBuf pxLst.unItemSz.toNat) :
    AddsAtomically pf pxLst h xs pvItem ↔ CanAdd pf pxLst h := by
  constructor
  · intro hadds
    by_contra hno
    unfold AddsAtomically at hadds
    rcases hl.add_fails hno pvItem with ⟨t, hadd⟩ | ⟨h', hadd⟩ | ⟨pxLst', h', hadd, hzero⟩
    · rw [hadd] at hadds
      exact hadds
    · simp only [hadd, ERR_CHK_OOM, if_true] at hadds
      exact not_contains_lost rfl hadds.2
    · simp only [hadd, ERR_CHK_SUCCESS, Bool.false_eq_true, if_false] at hadds
      have hcount := hadds.1.count
      rw [unArrayListCount, hzero, List.length_append, List.length_singleton] at hcount
      exact Nat.succ_ne_zero _ hcount.symm
  · intro hcan
    unfold AddsAtomically
    rcases hl.add hcan pvItem with ⟨h', hadd, hl'⟩ | ⟨pxLst', h', hadd, hl', hsize⟩
    · simp only [hadd, ERR_CHK_OOM, if_true]
      exact ⟨trivial, hl'.contains⟩
    · simp only [hadd, ERR_CHK_SUCCESS, Bool.false_eq_true, if_false]
      refine ⟨hl'.contains, ?_⟩
      have hall := hl'.le_allocated
      rw [hl'.unFreeIdx, List.length_append, List.length_singleton, hsize] at hall
      exact hall

/-- A heap which meets the first `n` requests. -/
def heapOf (n : ℕ) : Heap where
  mem _ := none
  netbufs _ := none
  rsrcs _ := none
  pools _ := none
  brk := 0
  calls := 0
  mallocOk k := k < n
  junk _ _ := 0

theorem heapOf_supplied (n : ℕ) : Supplied (heapOf n) none := fun _ hpp => absurd hpp (by simp)

def fourBytes (b : UInt8) : ItemBuf (4 : UInt64).toNat := ⟨[b, 0, 0, 0], Nat.le_refl 4⟩

/-- The first of the integers. -/
theorem addsAtomically_integer : ∃ pxLst h,
    xArrayListInit ⟨true, false⟩ (heapOf 1) 4 10 none = .ok (some pxLst, h) ∧
      ∃ item : ItemBuf pxLst.unItemSz.toNat, AddsAtomically ⟨true, false⟩ pxLst h [] item :=
  ⟨_, _, rfl, fourBytes 1, (addsAtomically_iff (xArrayListInit_holds (heapOf_supplied 1) rfl).1
    (fourBytes 1)).mpr ⟨by decide, by decide⟩⟩

/-- The second of two items is refused memory, and the first one is lost. -/
theorem refused_growth_loses : ∃ pxLst h,
    xArrayListInit ⟨true, false⟩ (heapOf 1) 4 1 none = .ok (some pxLst, h) ∧
      ∃ pxLst' h', xArrayListAdd ⟨true, false⟩ pxLst h (fourBytes 1) = .ok (SUCCESS, pxLst', h') ∧
        ∃ item : ItemBuf pxLst'.unItemSz.toNat,
          ¬ AddsAtomically ⟨true, false⟩ pxLst' h' [[1, 0, 0, 0]] item := by
  refine ⟨_, _, rfl, _, _, rfl, fourBytes 2, fun hadds => ?_⟩
  exact not_contains_lost rfl hadds.2

/-! ### Runs -/

/-- A call with the item its caller has, or with the index. -/
inductive Op (z : ℕ)
  | add (pvItem : ItemBuf z)
  | get (unIdx : UInt64)
  | remove (unIdx : UInt64)
  | count

inductive Answer
  | status (xStatus : RsErrT)
  | item (x : Option Bytes)
  | done
  | number (n : ℕ)
deriving DecidableEq, Repr

/-- The list with its heap, and the items it is to have. -/
abbrev State := (ArrayList × Heap) × List Bytes

variable (pf)

/-- The caller reads the item which a pointer leads to. -/
def call (st : ArrayList × Heap) : Op z → Exec (Answer × ArrayList × Heap)
  | .add pvItem => do
    let (xStatus, st) ← xArrayListAdd pf st.1 st.2 pvItem
    return (.status xStatus, st)
  | .get unIdx => do
    match ← pvArrayListGet st.1 unIdx with
    | none => return (.item none, st)
    | some p =>
      let bs ← st.2.read (some p) 0 z
      return (.item (some bs), st)
  | .remove unIdx => do
    let st ← vArrayListRemove st.1 st.2 unIdx
    return (.done, st)
  | .count => .ok (.number (unArrayListCount st.1).toNat, st)

/-- The same operation on a plain list. -/
def Op.onList (xs : List Bytes) : Op z → Answer × List Bytes
  | .add pvItem => (.status SUCCESS, xs ++ [pvItem.val.take z])
  | .get unIdx => (.item xs[unIdx.toNat]?, xs)
  | .remove unIdx => (.done, xs.eraseIdx unIdx.toNat)
  | .count => (.number xs.length, xs)

/-- The call answers as a plain list does and has its items, or it is an add which reports that
memory ran out and leaves the list as it was. -/
def Conforms (st : State) (op : Op z) : Prop :=
  match call pf st.1 op with
  | .error _ => False
  | .ok (answer, pxLst, h) =>
    answer = (op.onList st.2).1 ∧ Contains pxLst h (op.onList st.2).2 ∨
      answer = .status ERR_OOM ∧ pxLst = st.1.1 ∧ Contains pxLst h st.2

def step (st : State) (op : Op z) : Option State :=
  match call pf st.1 op with
  | .error _ => none
  | .ok (answer, st') => some (st', if answer = .status ERR_OOM then st.2 else (op.onList st.2).2)

/-- What each call asks of the list. -/
def Meets (st : State) : Op z → Prop
  | .add _ => CanAdd pf st.1.1 st.1.2
  | .get _ => st.1.1.unFreeIdx ≠ 0
  | .remove unIdx => st.1.1.unFreeIdx ≠ 0 ∧
      (unIdx.toNat + 1 < st.1.1.unFreeIdx.toNat →
        (unIdx.toNat + 1 + st.1.1.unFreeIdx.toNat) * z ≤ st.1.1.allocated)
  | .count => True

/-- The list has the items it is to have, of the size `z`. -/
structure InStep (z : ℕ) (st : State) : Prop where
  holds : Holds pf st.1.1 st.1.2 st.2
  unItemSz : st.1.1.unItemSz.toNat = z

variable {pf} {st : State}

theorem Op.answer_ne (op : Op z) : (op.onList xs).1 ≠ .status ERR_OOM := by
  cases op <;> simp [Op.onList, SUCCESS, ERR_OOM, MK_ERR, EC_BASE, MK_CAT]

/-- A call which meets what is asked of it answers as the plain list, or reports that memory ran
out. -/
theorem InStep.outcome (hi : InStep pf z st) {op : Op z} (hm : Meets pf st op) :
    ∃ answer pxLst h, call pf st.1 op = .ok (answer, pxLst, h) ∧ pxLst.unItemSz.toNat = z ∧
      (answer = (op.onList st.2).1 ∧ Holds pf pxLst h (op.onList st.2).2 ∨
        answer = .status ERR_OOM ∧ pxLst = st.1.1 ∧ Holds pf pxLst h st.2) := by
  obtain ⟨hl, rfl⟩ := hi
  cases op with
  | add pvItem =>
    rcases hl.add hm pvItem with ⟨h', hadd, hl'⟩ | ⟨pxLst', h', hadd, hl', hsize⟩
    · refine ⟨_, _, h', ?_, rfl, Or.inr ⟨rfl, rfl, hl'⟩⟩
      rw [call, hadd]
      rfl
    · refine ⟨_, pxLst', h', ?_, congrArg UInt64.toNat hsize, Or.inl ⟨rfl, hl'⟩⟩
      rw [call, hadd]
      rfl
  | get unIdx =>
    rcases hl.get hm unIdx with ⟨hpast, hget⟩ | ⟨x, p, hx, hget, hread⟩
    · refine ⟨.item none, _, _, ?_, rfl, Or.inl ⟨?_, hl⟩⟩
      · rw [call, hget]
        rfl
      · rw [Op.onList, List.getElem?_eq_none hpast]
    · refine ⟨.item (some x), _, _, ?_, rfl, Or.inl ⟨?_, hl⟩⟩
      · simp only [call, hget, Exec.ok_bind, hread]
        rfl
      · rw [Op.onList, hx]
  | remove unIdx =>
    obtain ⟨pxLst', h', hremove, hl', hsize⟩ := hl.remove hm.1 (hl.unFreeIdx ▸ hm.2)
    refine ⟨_, pxLst', h', ?_, congrArg UInt64.toNat hsize, Or.inl ⟨rfl, hl'⟩⟩
    rw [call, hremove]
    rfl
  | count =>
    refine ⟨_, _, _, rfl, rfl, Or.inl ⟨?_, hl⟩⟩
    rw [unArrayListCount, hl.unFreeIdx]
    rfl

theorem Holds.eq_nil (hl : Holds pf pxLst h xs) (hzero : pxLst.unFreeIdx = 0) : xs = [] := by
  rw [← List.length_eq_zero_iff, ← hl.unFreeIdx, hzero]
  rfl

/-- What an add does when it cannot be made is seen by the caller. -/
theorem Holds.add_not_conforms (hl : Holds pf pxLst h xs) (hno : ¬ CanAdd pf pxLst h)
    (pvItem : ItemBuf pxLst.unItemSz.toNat) :
    ¬ Conforms pf ((pxLst, h), xs) (.add pvItem) := by
  intro hc
  unfold Conforms at hc
  rcases hl.add_fails hno pvItem with ⟨t, hadd⟩ | ⟨h', hadd⟩ | ⟨pxLst', h', hadd, hzero⟩
  · rw [call, hadd] at hc
    exact hc
  · have hcall : call pf (pxLst, h) (.add pvItem) =
        .ok (.status ERR_OOM, { pxLst with pvArray := none }, h') := by
      rw [call, hadd]
      rfl
    rw [hcall] at hc
    rcases hc with hc | hc
    · exact not_contains_lost rfl hc.2
    · exact not_contains_lost rfl hc.2.2
  · have hcall : call pf (pxLst, h) (.add pvItem) = .ok (.status SUCCESS, pxLst', h') := by
      rw [call, hadd]
      rfl
    rw [hcall] at hc
    rcases hc with hc | hc
    · have hcount := hc.2.count
      rw [unArrayListCount, hzero, Op.onList, List.length_append, List.length_singleton] at hcount
      exact Nat.succ_ne_zero _ hcount.symm
    · exact absurd hc.1 (by decide)

/-- An empty list has an item for every index. -/
theorem get_not_conforms (hzero : pxLst.unFreeIdx = 0) (unIdx : UInt64) :
    ¬ Conforms pf ((pxLst, h), []) (.get unIdx : Op z) := by
  intro hc
  unfold Conforms at hc
  cases hget : pvArrayListGet pxLst unIdx with
  | error t =>
    rw [call, hget] at hc
    exact hc
  | ok found =>
    cases found with
    | none => exact get_empty hzero unIdx hget
    | some p =>
      cases hread : h.read (some p) 0 z with
      | error t => simp only [call, hget, Exec.ok_bind, hread, Exec.error_bind] at hc
      | ok bs =>
        simp only [call, hget, Exec.ok_bind, hread] at hc
        rcases hc with ⟨hanswer, -⟩ | ⟨hanswer, -⟩
        · cases hanswer
        · cases hanswer

/-- An empty list from which an item was removed is not empty. -/
theorem remove_not_conforms (hzero : pxLst.unFreeIdx = 0) (unIdx : UInt64) :
    ¬ Conforms pf ((pxLst, h), []) (.remove unIdx : Op z) := by
  intro hc
  unfold Conforms at hc
  cases hremove : vArrayListRemove pxLst h unIdx with
  | error t =>
    rw [call, hremove] at hc
    exact hc
  | ok st' =>
    have hcall : call pf (pxLst, h) (.remove unIdx : Op z) = .ok (.done, st') := by
      rw [call, hremove]
      rfl
    rw [hcall] at hc
    rcases hc with hc | hc
    · have hcount := hc.2.count
      rw [unArrayListCount, remove_empty hzero hremove, Op.onList, List.eraseIdx_nil] at hcount
      exact absurd hcount (by decide)
    · exact absurd hc.1 (by decide)

/-- A call conforms to the plain list exactly when it meets what is asked of it. -/
theorem InStep.conforms_iff (hi : InStep pf z st) (op : Op z) :
    Conforms pf st op ↔ Meets pf st op := by
  constructor
  · obtain ⟨⟨pxLst, h⟩, xs⟩ := st
    obtain ⟨hl, rfl⟩ := hi
    intro hc
    cases op with
    | add pvItem =>
      by_contra hno
      exact hl.add_not_conforms hno pvItem hc
    | get unIdx =>
      intro hzero
      cases hl.eq_nil hzero
      exact get_not_conforms hzero unIdx hc
    | remove unIdx =>
      refine ⟨fun hzero => ?_, fun hidx => Nat.not_lt.mp fun hmoves => ?_⟩
      · cases hl.eq_nil hzero
        exact remove_not_conforms hzero unIdx hc
      · rw [hl.unFreeIdx] at hidx hmoves
        rw [Conforms, call, hl.remove_outOfBounds hidx hmoves] at hc
        exact hc
    | count => exact trivial
  · intro hm
    obtain ⟨answer, pxLst', h', hcall, -, hout⟩ := hi.outcome hm
    unfold Conforms
    rw [hcall]
    exact hout.imp (fun h => ⟨h.1, h.2.contains⟩) (fun h => ⟨h.1, h.2.1, h.2.2.contains⟩)

/-- A call which meets what is asked of it keeps the list in step. -/
theorem InStep.step (hi : InStep pf z st) {op : Op z} (hm : Meets pf st op) {st' : State}
    (hstep : ArrayLists.step pf st op = some st') : InStep pf z st' := by
  obtain ⟨answer, pxLst', h', hcall, hsize, hout⟩ := hi.outcome hm
  rw [ArrayLists.step, hcall] at hstep
  simp only [Option.some.injEq] at hstep
  rcases hout with ⟨rfl, hl'⟩ | ⟨rfl, -, hl'⟩
  · rw [if_neg op.answer_ne] at hstep
    exact hstep ▸ ⟨hl', hsize⟩
  · rw [if_pos rfl] at hstep
    exact hstep ▸ ⟨hl', hsize⟩

/-- From its construction on, a list answers each call of a run as a plain list does exactly when
each call meets what is asked of it. -/
theorem actsAsList_iff {unItemSz unInitialMaxItemCount : UInt64} {xVarPool : Option PoolPtr}
    {h₀ : Heap} (hs : Supplied h₀ xVarPool)
    (hinit : xArrayListInit pf h₀ unItemSz unInitialMaxItemCount xVarPool = .ok (some pxLst, h))
    (ops : List (Op unItemSz.toNat)) :
    GuardedSteps (step pf) (Conforms pf) ((pxLst, h), []) ops ↔
      GuardedSteps (step pf) (Meets pf) ((pxLst, h), []) ops := by
  obtain ⟨hl, hsize⟩ := xArrayListInit_holds hs hinit
  exact guardedSteps_congr (InStep pf unItemSz.toNat) (fun st op hi => hi.conforms_iff op)
    (fun st op st' hi hm hstep => hi.step hm hstep) ⟨hl, congrArg UInt64.toNat hsize⟩

/-- A list of integers which is used within its capacity. -/
theorem actsAsList_integers : ∃ pxLst h,
    xArrayListInit ⟨true, false⟩ (heapOf 1) 4 10 none = .ok (some pxLst, h) ∧
      GuardedSteps (step ⟨true, false⟩) (Conforms ⟨true, false⟩) ((pxLst, h), [])
        [.add (fourBytes 1), .add (fourBytes 2), .remove 0, .get 0, .count] := by
  refine ⟨_, _, rfl, (actsAsList_iff (heapOf_supplied 1) rfl _).mpr ?_⟩
  refine ⟨?_, ?_, ?_, ?_, trivial, trivial⟩
  · exact ⟨by decide, by decide⟩
  · exact ⟨by decide, by decide⟩
  · exact ⟨by decide, fun _ => by decide⟩
  · change (1 : UInt64) ≠ 0
    decide

/-- A new list has an item, whatever the index. -/
theorem new_list_gets : ∃ pxLst h,
    xArrayListInit ⟨true, false⟩ (heapOf 1) 4 10 none = .ok (some pxLst, h) ∧
      ¬ GuardedSteps (step ⟨true, false⟩) (Conforms ⟨true, false⟩) ((pxLst, h), [])
        ([.get 0] : List (Op (4 : UInt64).toNat)) :=
  ⟨_, _, rfl, fun hall => get_not_conforms rfl 0 hall.1⟩

end RinaSense.Common.ArrayLists
