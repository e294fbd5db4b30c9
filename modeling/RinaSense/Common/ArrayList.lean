import RinaSense.Common.Errors
import RinaSense.Common.PoolRuns
import RinaSense.Library.Arrays

/-!
# Array lists

The list of `common/arraylist.c` keeps its items in a block from the heap or from a variable pool.
A full list moves to a block of twice the size.
-/

namespace RinaSense.Common.ArrayLists

open Library.Memory Library.Arrays

structure ArrayList where
  pvArray : Option Ptr
  unMaxItemCount : UInt64
  unItemSz : UInt64
  unFreeIdx : UInt64
  xPool : Option PoolPtr
deriving DecidableEq, Repr

/-! ### The code -/

variable (pf : Platform)

/-- A block from the pool of the list, or from the heap when it has none. -/
def newArray (h : Heap) (xPool : Option PoolPtr) (n : UInt64) : Exec (Option ℕ × Heap) :=
  match xPool with
  | some _ => pxRsrcVarAlloc pf h xPool (some "Array List") n.toNat
  | none => .ok (pvRsMemAlloc h n.toNat)

/-- Without memory there is no list. -/
def xArrayListInit (h : Heap) (unItemSz unInitialMaxItemCount : UInt64)
    (xVarPool : Option PoolPtr) : Exec (Option ArrayList × Heap) := do
  let unTotalInitSz := unItemSz * unInitialMaxItemCount
  let (pvArray, h) ← newArray pf h xVarPool unTotalInitSz
  return (pvArray.map fun a => {
    pvArray := some ⟨a, 0⟩
    unMaxItemCount := unInitialMaxItemCount
    unItemSz := unItemSz
    unFreeIdx := 0
    xPool := xVarPool }, h)

/-- The part of `xArrayListAdd` which resizes a full list. -/
def ArrayList.resize (pxLst : ArrayList) (h : Heap) : Exec (RsErrT × ArrayList × Heap) := do
  let unNewMaxItemCount := pxLst.unMaxItemCount * 2
  let unNewSz := unNewMaxItemCount * pxLst.unItemSz
  match pxLst.xPool with
  | some _ =>
    let (pvNewBuf, h) ← newArray pf h pxLst.xPool unNewSz
    match pvNewBuf with
    | none => return (ERR_SET ERR_OOM, pxLst, h)
    | some a =>
      let bs ← h.read pxLst.pvArray 0 (pxLst.unMaxItemCount * pxLst.unItemSz).toNat
      let h ← h.write (some ⟨a, 0⟩) 0 bs
      let h ← vRsrcFree pf h pxLst.pvArray
      return (SUCCESS, { pxLst with
        pvArray := some ⟨a, 0⟩, unMaxItemCount := unNewMaxItemCount }, h)
  | none =>
    let (pvArray, h) ← pvRsMemRealloc h pxLst.pvArray unNewSz.toNat
    let pxLst := { pxLst with pvArray := pvArray }
    if pvArray.isNone then return (ERR_SET ERR_OOM, pxLst, h)
    else return (SUCCESS, { pxLst with unMaxItemCount := unNewMaxItemCount }, h)

/-- The part of `xArrayListAdd` which copies the item. -/
def ArrayList.store (pxLst : ArrayList) (h : Heap) (pvItem : Bytes) :
    Exec (RsErrT × ArrayList × Heap) := do
  let bs ← memcpyFrom pvItem pxLst.unItemSz.toNat
  let h ← h.write pxLst.pvArray (pxLst.unFreeIdx * pxLst.unItemSz).toNat bs
  return (SUCCESS, { pxLst with unFreeIdx := pxLst.unFreeIdx + 1 }, h)

def xArrayListAdd (pxLst : ArrayList) (h : Heap) (pvItem : Bytes) :
    Exec (RsErrT × ArrayList × Heap) := do
  if pxLst.unFreeIdx = pxLst.unMaxItemCount then
    let (xStatus, pxLst, h) ← pxLst.resize pf h
    if ERR_CHK xStatus then return (xStatus, pxLst, h)
    else pxLst.store h pvItem
  else pxLst.store h pvItem

def vArrayListRemove (pxLst : ArrayList) (h : Heap) (unIdx : UInt64) : Exec (ArrayList × Heap) :=
  if pxLst.unFreeIdx - 1 < unIdx then .ok (pxLst, h)
  else if unIdx = pxLst.unFreeIdx - 1 then
    .ok ({ pxLst with unFreeIdx := pxLst.unFreeIdx - 1 }, h)
  else do
    -- as many bytes are moved as all the items have
    let bs ← h.read pxLst.pvArray ((unIdx + 1) * pxLst.unItemSz).toNat
      (pxLst.unFreeIdx * pxLst.unItemSz).toNat
    let h ← h.write pxLst.pvArray (unIdx * pxLst.unItemSz).toNat bs
    return ({ pxLst with unFreeIdx := pxLst.unFreeIdx - 1 }, h)

def pvArrayListGet (pxLst : ArrayList) (unIdx : UInt64) : Exec (Option Ptr) :=
  if pxLst.unFreeIdx - 1 < unIdx then .ok none
  else do
    let pvArray ← deref pxLst.pvArray
    return some (pvArray.add (unIdx * pxLst.unItemSz).toNat)

def unArrayListCount (pxLst : ArrayList) : UInt64 := pxLst.unFreeIdx

/-! ### The memory of a list -/

/-- A pool without a freelist, whose resources have the sizes which are asked for. -/
structure Variable (pool : RsrcPool) : Prop where
  uxSizeEach : pool.uxSizeEach = 0
  uiIncrement : pool.uiIncrement = 1
  uiFreeOnFree : pool.uiFreeOnFree = true
  pxFreelist : pool.pxFreelist = []

def pxRsrcNewVarPool (h : Heap) (pxPool : Option PoolPtr) (pcName : Option String)
    (uiMaxNumRes : ℕ) : Exec (Option PoolPtr × Heap) :=
  pxRsrcNewPool h pxPool pcName 0 0 1 uiMaxNumRes

theorem pxRsrcNewVarPool_variable {h h' : Heap} {pxPool : Option PoolPtr}
    {pcName : Option String} {uiMaxNumRes : ℕ} {pp : PoolPtr}
    (hnew : pxRsrcNewVarPool h pxPool pcName uiMaxNumRes = .ok (some pp, h')) :
    ∃ pool, h'.pools pp = some pool ∧ Variable pool := by
  unfold pxRsrcNewVarPool pxRsrcNewPool at hnew
  cases pcName with
  | none => cases hnew
  | some pcName =>
    simp only at hnew
    split_ifs at hnew with hfit
    · cases hnew
    · cases pxPool with
      | none => cases hnew
      | some pq =>
        cases hnew
        exact ⟨_, Function.update_self .., rfl, rfl, rfl, rfl⟩

/-- The pool of the list, when it has one, is a variable pool. -/
def Supplied (h : Heap) (xPool : Option PoolPtr) : Prop :=
  ∀ pp, xPool = some pp → ∃ pool, h.pools pp = some pool ∧ Variable pool

/-- A request for `n` bytes comes back with nothing. -/
def Refuses (h : Heap) (xPool : Option PoolPtr) (n : ℕ) : Prop :=
  match xPool with
  | none => h.mallocOk h.calls = false
  | some pp =>
    if pf.valgrind then h.mallocOk h.calls = false
    else ∃ pool, h.pools pp = some pool ∧ rsrcRefused pool (some "Array List") n = true

/-- The blocks, the pools and the memory which is left are as before. -/
structure SameBlocks (h h' : Heap) : Prop where
  mem : h'.mem = h.mem
  rsrcs : h'.rsrcs = h.rsrcs
  pools : h'.pools = h.pools
  brk : h'.brk = h.brk

variable {pf} {h h' : Heap} {xPool : Option PoolPtr}

theorem pvRsMemAlloc_refused (hm : h.mallocOk h.calls = false) (n : ℕ) :
    pvRsMemAlloc h n = (none, h.called) := by
  rw [pvRsMemAlloc, hm, if_neg (by decide)]

/-- A block from the heap. -/
theorem pvRsMemAlloc_gives (hm : h.mallocOk h.calls = true) (n : ℕ) :
    ∃ h', pvRsMemAlloc h n = (some h.brk, h') ∧ Gives h h' n ∧ h'.pools = h.pools :=
  ⟨_, if_pos hm, ⟨⟨_, h.stale_length h.brk n, rfl⟩, fun _ _ => rfl, rfl, rfl⟩, rfl⟩

theorem pxRsrcVarAlloc_valgrind (hv : pf.valgrind = true) (pcRequestor : Option String) (n : ℕ) :
    pxRsrcVarAlloc pf h xPool pcRequestor n = .ok (pvRsMemAlloc h n) := by
  simp [pxRsrcVarAlloc, hv]

section Pool

variable {pp : PoolPtr} {pool : RsrcPool} {n : ℕ} {name : String}

theorem varAlloc_refused (hv : pf.valgrind = false) (hpool : h.pools pp = some pool)
    (hr : rsrcRefused pool (some name) n = true) :
    pxRsrcVarAlloc pf h (some pp) (some name) n = .ok (none, h) := by
  simp [pxRsrcVarAlloc, hv, hpool, hr, pure, Except.pure]

theorem varAlloc_abort (hv : pf.valgrind = false) (hpool : h.pools pp = some pool)
    (hvar : Variable pool) (hr : rsrcRefused pool (some name) n = false)
    (hm : h.mallocOk h.calls = false) :
    pxRsrcVarAlloc pf h (some pp) (some name) n = .error .abort := by
  simp [pxRsrcVarAlloc, hv, hpool, hr, hvar.pxFreelist, hvar.uiIncrement, prviRsrcAdd2Pool, hm,
    bind, Except.bind]

/-- A variable pool grows by one block, which is on its freelist. -/
theorem varPool_grown (hvar : Variable pool) (hm : h.mallocOk h.calls = true) (n : ℕ) :
    ∃ h' pool', prviRsrcAdd2Pool h pp pool 1 n = .ok (1, h', pool') ∧ Gives h h' n ∧
      pool'.uxSizeEach = 0 ∧ pool'.uiIncrement = 1 ∧ pool'.uiFreeOnFree = true ∧
      pool'.pxFreelist = [h.brk] := by
  have hone : (1 : UInt16) ≠ 0 := by decide
  rw [prviRsrcAdd2Pool, if_neg hone, if_pos hm]
  obtain ⟨low, hlow⟩ : ∃ low, low = if pool.uiNumInUse.toNat + pool.uiNumFree.toNat = 0 then
    { pool with uiLowWater := 1 } else pool := ⟨_, rfl⟩
  have hlowvar : Variable low := by
    rw [hlow]
    split
    · exact ⟨hvar.uxSizeEach, hvar.uiIncrement, hvar.uiFreeOnFree, hvar.pxFreelist⟩
    · exact hvar
  have hadd : addResources pp n (UInt16.toNat 1) h.called low =
      prvvFreeResTail { h.called.setBlock h.brk (some (h.stale h.brk n)) with brk := h.brk + 1 }
        pp low h.brk := rfl
  simp only [← hlow, hadd, prvvFreeResTail, hlowvar.uxSizeEach, if_true, hlowvar.pxFreelist]
  refine ⟨_, _, rfl, ⟨⟨_, h.stale_length h.brk n, rfl⟩, fun b hb => ?_, rfl, rfl⟩,
    rfl, hlowvar.uiIncrement, hlowvar.uiFreeOnFree, rfl⟩
  exact Function.update_of_ne hb _ _

/-- A variable pool which does not turn a request down gives a new block. -/
theorem varAlloc_gives (hv : pf.valgrind = false) (hpool : h.pools pp = some pool)
    (hvar : Variable pool) (hr : rsrcRefused pool (some name) n = false)
    (hm : h.mallocOk h.calls = true) :
    ∃ h' pool', pxRsrcVarAlloc pf h (some pp) (some name) n = .ok (some h.brk, h') ∧
      Gives h h' n ∧ h'.rsrcs h.brk = some ⟨pp, some name, false⟩ ∧
      h'.pools pp = some pool' ∧ Variable pool' := by
  obtain ⟨h₁, pool₁, hadd, hgives, hsize, hinc, hff, hfree⟩ := @varPool_grown h pp pool hvar hm n
  have hcode : pxRsrcVarAlloc pf h (some pp) (some name) n =
      takeResource h₁ pp pool₁ (some name) n := by
    simp [pxRsrcVarAlloc, hv, hpool, hr, hvar.pxFreelist, hvar.uiIncrement, hadd]
  obtain ⟨bs, -, hmem⟩ := hgives.mem
  rw [hcode]
  simp only [takeResource, hfree]
  refine ⟨_, _, rfl, ⟨⟨List.replicate n 0, List.length_replicate .., ?_⟩, fun b hb => ?_,
    hgives.brk, hgives.mallocOk⟩, Function.update_self .., Function.update_self ..,
    hsize, hinc, hff, rfl⟩
  · simp [Heap.setBlock, Heap.setRsrc, Heap.setPool, hmem]
  · simp [Heap.setBlock, Heap.setRsrc, Heap.setPool, hb, hgives.rsrcs b hb]

end Pool

/-- What is known of the array of a list in its pool. -/
def LentBy (pf : Platform) (h : Heap) (xPool : Option PoolPtr) (a : ℕ) : Prop :=
  ∀ pp, xPool = some pp → Lent pf h pp a

/-- A request which is turned down changes nothing but the count of the requests. -/
theorem newArray_refused {n : UInt64} (hr : Refuses pf h xPool n.toNat) :
    ∃ h', newArray pf h xPool n = .ok (none, h') ∧ SameBlocks h h' := by
  unfold newArray
  unfold Refuses at hr
  cases xPool with
  | none =>
    simp only at hr ⊢
    rw [pvRsMemAlloc_refused hr]
    exact ⟨_, rfl, rfl, rfl, rfl, rfl⟩
  | some pp =>
    simp only at hr ⊢
    cases hv : pf.valgrind with
    | true =>
      rw [hv, if_pos rfl] at hr
      rw [pxRsrcVarAlloc_valgrind hv, pvRsMemAlloc_refused hr]
      exact ⟨_, rfl, rfl, rfl, rfl, rfl⟩
    | false =>
      rw [hv, if_neg (by decide)] at hr
      obtain ⟨pool, hpool, hr⟩ := hr
      exact ⟨h, varAlloc_refused hv hpool hr, rfl, rfl, rfl, rfl⟩

/-- A request which is not turned down gets a new block. -/
theorem newArray_gives (hs : Supplied h xPool) {n : UInt64} (hr : ¬ Refuses pf h xPool n.toNat)
    (hm : h.mallocOk h.calls = true) :
    ∃ h', newArray pf h xPool n = .ok (some h.brk, h') ∧ Gives h h' n.toNat ∧
      Supplied h' xPool ∧ LentBy pf h' xPool h.brk := by
  unfold newArray
  cases xPool with
  | none =>
    obtain ⟨h', hcode, hgives, -⟩ := pvRsMemAlloc_gives hm n.toNat
    exact ⟨h', congrArg Except.ok hcode, hgives, fun pp hpp => absurd hpp (by simp),
      fun pp hpp => absurd hpp (by simp)⟩
  | some pp =>
    obtain ⟨pool, hpool, hvar⟩ := hs pp rfl
    simp only
    cases hv : pf.valgrind with
    | true =>
      obtain ⟨h', hcode, hgives, hpools⟩ := pvRsMemAlloc_gives hm n.toNat
      refine ⟨h', by rw [pxRsrcVarAlloc_valgrind hv, hcode], hgives, ?_, ?_⟩
      · rintro _ ⟨rfl⟩
        exact ⟨pool, (congrFun hpools pp).trans hpool, hvar⟩
      · rintro _ ⟨rfl⟩ hfalse
        rw [hv] at hfalse
        cases hfalse
    | false =>
      have hr' : rsrcRefused pool (some "Array List") n.toNat = false := by
        refine eq_false_of_ne_true fun hrefused => hr ?_
        unfold Refuses
        simp only [hv, Bool.false_eq_true, if_false]
        exact ⟨pool, hpool, hrefused⟩
      obtain ⟨h', pool', hcode, hgives, hrsrc, hpool', hvar'⟩ :=
        varAlloc_gives hv hpool hvar hr' hm
      refine ⟨h', hcode, hgives, ?_, ?_⟩
      · rintro _ ⟨rfl⟩
        exact ⟨pool', hpool', hvar'⟩
      · rintro _ ⟨rfl⟩ -
        exact ⟨_, hrsrc⟩

/-- A pool which wants a block and gets no memory aborts. -/
theorem newArray_abort (hs : Supplied h xPool) {n : UInt64} (hr : ¬ Refuses pf h xPool n.toNat)
    (hm : h.mallocOk h.calls = false) : newArray pf h xPool n = .error .abort := by
  cases xPool with
  | none => exact absurd hm hr
  | some pp =>
    obtain ⟨pool, hpool, hvar⟩ := hs pp rfl
    unfold Refuses at hr
    cases hv : pf.valgrind with
    | true =>
      simp only [hv, if_true] at hr
      exact absurd hm hr
    | false =>
      simp only [hv, Bool.false_eq_true, if_false] at hr
      refine varAlloc_abort hv hpool hvar (eq_false_of_ne_true fun hrefused => hr ?_) hm
      exact ⟨pool, hpool, hrefused⟩

/-- The array of a list goes back to where it came from. -/
theorem vRsrcFree_array {pp : PoolPtr} (hs : Supplied h (some pp)) {a : ℕ}
    (hlent : Lent pf h pp a) (hmem : (h.mem a).isSome) :
    ∃ h', vRsrcFree pf h (some ⟨a, 0⟩) = .ok h' ∧ Takes h h' a ∧ Supplied h' (some pp) := by
  obtain ⟨pool, hpool, hvar⟩ := hs pp rfl
  cases hv : pf.valgrind with
  | true =>
    refine ⟨h.setBlock a none, ?_, ⟨rfl, fun _ _ => rfl, rfl, rfl⟩, hs⟩
    simp [vRsrcFree, hv, vRsMemFree, hmem]
  | false =>
    obtain ⟨name, hrsrc⟩ := hlent hv
    have hfree : vRsrcFree pf h (some ⟨a, 0⟩) = .ok (((h.setPool pp { pool with
        xActive := pool.xActive.erase a
        uiNumInUse := pool.uiNumInUse - 1 }).setRsrc a none).setBlock a none) := by
      simp [vRsrcFree, hv, hrsrc, hpool, hvar.uiFreeOnFree, pure, Except.pure]
    refine ⟨_, hfree, ⟨rfl, fun b hb => Function.update_of_ne hb _ _, rfl, rfl⟩, ?_⟩
    rintro _ ⟨rfl⟩
    exact ⟨_, Function.update_self .., hvar.uxSizeEach, hvar.uiIncrement, hvar.uiFreeOnFree,
      hvar.pxFreelist⟩

end RinaSense.Common.ArrayLists
