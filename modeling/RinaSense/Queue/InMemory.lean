import RinaSense.Common.PoolRuns
import RinaSense.Common.RsList
import RinaSense.Queue.RsQueue

/-!
# Queues in memory

The queue of `common/queue.c` with its embedded list, its pool and the bytes of its items, as one
thread uses it. It does what the queue with a list of items does.
-/

namespace RinaSense.Queue.InMemory

open Common Common.RsList Library.Memory

/-- The bytes of `struct queueItem` in front of the buffer of the item. -/
def sizeofQueueItem : ℕ := 32

structure RsQueueParams extends Queue.RsQueueParams where
  unItemSz : ℕ
deriving DecidableEq, Repr

/-- A queue with the memory it lives in. A list item has the address of its `struct queueItem`. -/
structure RsQueueMem where
  heap : Heap
  lists : ListMem
  xQueueList : Addr
  xPool : PoolPtr
  xSemItems : ℕ
  xSemPlaces : ℕ
  xParams : RsQueueParams

/-- The pool and the semaphore of the places take an `unsigned int`. No object has so many bytes
that the size of an item leaves its type. -/
def xRsQueueInit (h : Heap) (m : ListMem) (xQueueList : Addr) (pxPool : Option PoolPtr)
    (sQueueName : Option String) (params : RsQueueParams) : Exec (Option RsQueueMem) := do
  let unSz := sizeofQueueItem + params.unItemSz
  let (xPool, heap) ← pxRsrcNewPool h pxPool sQueueName unSz 0 1 (params.unMaxItemCount % 2 ^ 32)
  return xPool.map fun xPool => {
    heap := heap
    lists := vRsListInit m xQueueList
    xQueueList := xQueueList
    xPool := xPool
    xSemItems := 0
    xSemPlaces := if params.bounded then params.unMaxItemCount % 2 ^ 32 else 0
    xParams := params }

variable (pf : Platform)

/-- The part of `prvQueueSendToBack` which follows the wait for a place. -/
def RsQueueMem.enqueue (s : RsQueueMem) (pxItem : Bytes) : Exec (RsErr × RsQueueMem) := do
  let (pxQueueItem, heap) ← pxRsrcAlloc pf s.heap (some s.xPool) (some "prvQueueSendToBack")
  match pxQueueItem with
  | none => return (.ERR_OOM, { s with heap := heap })
  | some a =>
    let bs ← memcpyFrom pxItem s.xParams.unItemSz
    let heap ← heap.write (some ⟨a, 0⟩) sizeofQueueItem bs
    let lists ← vRsListInsertEnd (vRsListInitItem s.lists a (some a)) s.xQueueList a
    let s := { s with heap := heap, lists := lists }
    return (.SUCCESS, if s.xParams.xBlock then { s with xSemItems := s.xSemItems + 1 } else s)

/-- A call which sleeps on a semaphore returns nothing. -/
def prvQueueSendToBack (s : RsQueueMem) (pxItem : Bytes) : Exec (Option (RsErr × RsQueueMem)) :=
  if 0 < s.xParams.unMaxItemCount then
    if s.xParams.xBlock then
      match s.xSemPlaces with
      | 0 => .ok none
      | xSemPlaces + 1 => some <$> { s with xSemPlaces := xSemPlaces }.enqueue pf pxItem
    else if unRsListLength s.lists s.xQueueList = s.xParams.unMaxItemCount then
      .ok (some (.ERR_OVERFLOW, s))
    else some <$> s.enqueue pf pxItem
  else some <$> s.enqueue pf pxItem

/-- The part of `prvQueueReceive` which follows the wait for an item, with the buffer of the
caller. -/
def RsQueueMem.dequeue (s : RsQueueMem) (pxItem : Bytes) : Exec (RsErr × Bytes × RsQueueMem) :=
  match pxRsListGetFirst s.lists s.xQueueList with
  | none => .ok (.ERR_UNDERFLOW, pxItem, s)
  | some pxListItem => do
    let pxQueueItem ← deref (s.lists.pvOwner pxListItem)
    let bs ← s.heap.read (some ⟨pxQueueItem, 0⟩) sizeofQueueItem s.xParams.unItemSz
    let pxItem ← memcpyTo pxItem bs
    let lists ← vRsListRemove s.lists pxListItem
    let s := { s with lists := lists }
    let s := if s.xParams.xBlock then { s with xSemPlaces := s.xSemPlaces + 1 } else s
    let heap ← vRsrcFree pf s.heap (some ⟨pxQueueItem, 0⟩)
    return (.SUCCESS, pxItem, { s with heap := heap })

def prvQueueReceive (s : RsQueueMem) (pxItem : Bytes) :
    Exec (Option (RsErr × Bytes × RsQueueMem)) :=
  if s.xParams.xBlock then
    match s.xSemItems with
    | 0 => .ok none
    | xSemItems + 1 => some <$> { s with xSemItems := xSemItems }.dequeue pf pxItem
  else some <$> s.dequeue pf pxItem

def xRsQueueSendToBack (s : RsQueueMem) (pxItem : Bytes) :
    Exec (Option (RsErr × RsQueueMem)) :=
  if s.xParams.unMaxItemCount ≠ 0 ∧
      unRsListLength s.lists s.xQueueList = s.xParams.unMaxItemCount then
    .ok (some (.ERR_OVERFLOW, s))
  else prvQueueSendToBack pf s pxItem

def xRsQueueReceive (s : RsQueueMem) (pxItem : Bytes) :
    Exec (Option (RsErr × Bytes × RsQueueMem)) :=
  if unRsListLength s.lists s.xQueueList = 0 then .ok (some (.ERR_UNDERFLOW, pxItem, s))
  else prvQueueReceive pf s pxItem

/-! ### The pool -/

/-- The settings of the pool of a queue. -/
def itemArgs (pcName : String) (unItemSz : ℕ) (uiMaxNumRes : UInt16) : PoolArgs where
  pcName := pcName
  xRsrcSize := sizeofQueueItem + unItemSz
  uiInitAlloc := 0
  uiIncrement := 1
  uiMaxNumRes := uiMaxNumRes
  some_resource := by decide
  variable_size := fun _ => by decide

theorem queueItem_ne_zero (unItemSz : ℕ) : sizeofQueueItem + unItemSz ≠ 0 := by
  simp [sizeofQueueItem]

/-- The pool lends `n` items and keeps none. -/
structure Lending (h : Heap) (pp : PoolPtr) (a : PoolArgs) (n : ℕ) (pool : RsrcPool) : Prop where
  pools : h.pools pp = some pool
  configured : Configured a pool
  uiNumInUse : pool.uiNumInUse = .ofNat n
  uiNumFree : pool.uiNumFree = 0
  pxFreelist : pool.pxFreelist = []

section Pool

variable {pf} {h : Heap} {pp : PoolPtr} {n unItemSz : ℕ} {pcName : String} {uiMaxNumRes : UInt16}
  {pool : RsrcPool}

theorem Lending.refused_iff (hl : Lending h pp (itemArgs pcName unItemSz uiMaxNumRes) n pool)
    (name : String) :
    rsrcRefused pool (some name) (sizeofQueueItem + unItemSz) = true ↔
      uiMaxNumRes ≠ 0 ∧ uiMaxNumRes.toNat ≤ n % 65536 := by
  have hsize : pool.uxSizeEach = sizeofQueueItem + unItemSz := hl.configured.uxSizeEach
  have hmax : pool.uiMaxNumRes = uiMaxNumRes := hl.configured.uiMaxNumRes
  simp [rsrcRefused, hsize, hl.uiNumFree, hmax, hl.uiNumInUse, sizeofQueueItem]

/-- A pool at its maximum gives nothing. -/
theorem Lending.refused (hv : pf.valgrind = false)
    (hl : Lending h pp (itemArgs pcName unItemSz uiMaxNumRes) n pool) (hmax : uiMaxNumRes ≠ 0)
    (hfull : uiMaxNumRes.toNat ≤ n % 65536) (name : String) :
    pxRsrcAlloc pf h (some pp) (some name) = .ok (none, h) := by
  have hsize : pool.uxSizeEach = sizeofQueueItem + unItemSz := hl.configured.uxSizeEach
  have hr := (hl.refused_iff name).mpr ⟨hmax, hfull⟩
  simp [pxRsrcAlloc, pxRsrcVarAlloc, hv, hl.pools, hsize, hr, pure, Except.pure]

/-- The pool grows by one block, which is on its freelist. -/
theorem Lending.grown (hl : Lending h pp (itemArgs pcName unItemSz uiMaxNumRes) n pool)
    (hm : h.mallocOk h.calls = true) :
    ∃ h' pool', prviRsrcAdd2Pool h pp pool 1 (sizeofQueueItem + unItemSz) = .ok (1, h', pool') ∧
      Gives h h' (sizeofQueueItem + unItemSz) ∧
      Configured (itemArgs pcName unItemSz uiMaxNumRes) pool' ∧ pool'.uiNumInUse = .ofNat n ∧
      pool'.uiNumFree = 1 ∧ pool'.pxFreelist = [h.brk] := by
  have hone : (1 : UInt16) ≠ 0 := by decide
  rw [prviRsrcAdd2Pool, if_neg hone, if_pos hm]
  obtain ⟨low, hlow⟩ : ∃ low, low = if pool.uiNumInUse.toNat + pool.uiNumFree.toNat = 0 then
    { pool with uiLowWater := 1 } else pool := ⟨_, rfl⟩
  have hsame : Configured (itemArgs pcName unItemSz uiMaxNumRes) low ∧
      low.uiNumInUse = .ofNat n ∧ low.uiNumFree = 0 ∧ low.pxFreelist = [] := by
    rw [hlow]
    split
    · exact ⟨hl.configured.of_same ⟨rfl, rfl, rfl⟩ rfl, hl.uiNumInUse, hl.uiNumFree, hl.pxFreelist⟩
    · exact ⟨hl.configured, hl.uiNumInUse, hl.uiNumFree, hl.pxFreelist⟩
  obtain ⟨hconf, huse, hnum, hfree⟩ := hsame
  have hsize : low.uxSizeEach ≠ 0 := by
    rw [hconf.uxSizeEach]
    exact queueItem_ne_zero unItemSz
  have hadd : addResources pp (sizeofQueueItem + unItemSz) (UInt16.toNat 1) h.called low =
      prvvFreeResTail { h.called.setBlock h.brk (some (h.stale h.brk (sizeofQueueItem + unItemSz)))
        with brk := h.brk + 1 } pp low h.brk := rfl
  simp only [← hlow, hadd, prvvFreeResTail, hsize, if_false, hfree, hnum]
  refine ⟨_, _, rfl, ⟨⟨List.replicate (sizeofQueueItem + unItemSz) 0xff,
    List.length_replicate .., ?_⟩, fun b hb => ?_, rfl, rfl⟩,
    hconf.of_same ⟨rfl, rfl, rfl⟩ rfl, huse, rfl, rfl⟩
  · simp [Heap.setBlock, Heap.setRsrc, Heap.called, hconf.uxSizeEach, itemArgs]
  · simp [Heap.setBlock, Heap.setRsrc, Heap.called, hb]

/-- A pool below its maximum gives a new block, unless memory runs out. -/
theorem Lending.granted (hv : pf.valgrind = false)
    (hl : Lending h pp (itemArgs pcName unItemSz uiMaxNumRes) n pool)
    (hroom : uiMaxNumRes = 0 ∨ n % 65536 < uiMaxNumRes.toNat) (name : String) :
    h.mallocOk h.calls = false ∧ pxRsrcAlloc pf h (some pp) (some name) = .error .abort ∨
      ∃ h' pool', pxRsrcAlloc pf h (some pp) (some name) = .ok (some h.brk, h') ∧
        Gives h h' (sizeofQueueItem + unItemSz) ∧ h'.rsrcs h.brk = some ⟨pp, some name, false⟩ ∧
        Lending h' pp (itemArgs pcName unItemSz uiMaxNumRes) (n + 1) pool' := by
  have hsize : pool.uxSizeEach = sizeofQueueItem + unItemSz := hl.configured.uxSizeEach
  have hinc : pool.uiIncrement = 1 := hl.configured.uiIncrement
  have hr : rsrcRefused pool (some name) (sizeofQueueItem + unItemSz) = false := by
    refine eq_false_of_ne_true fun hrefused => ?_
    obtain ⟨hne, hle⟩ := (hl.refused_iff name).mp hrefused
    exact hroom.elim hne fun hlt => Nat.not_le.mpr hlt hle
  cases hm : h.mallocOk h.calls with
  | false =>
    refine Or.inl ⟨rfl, ?_⟩
    simp [pxRsrcAlloc, pxRsrcVarAlloc, hv, hl.pools, hsize, hr, hl.pxFreelist, hinc,
      prviRsrcAdd2Pool, hm, bind, Except.bind]
  | true =>
    obtain ⟨h₁, pool₁, hadd, hgives, hconf, huse, hnum, hfree⟩ := hl.grown hm
    have hcode : pxRsrcAlloc pf h (some pp) (some name) =
        takeResource h₁ pp pool₁ (some name) (sizeofQueueItem + unItemSz) := by
      simp [pxRsrcAlloc, pxRsrcVarAlloc, hv, hl.pools, hsize, hr, hl.pxFreelist, hinc, hadd]
    obtain ⟨bs, -, hmem⟩ := hgives.mem
    rw [hcode]
    simp only [takeResource, hfree]
    refine Or.inr ⟨_, _, rfl, ⟨⟨List.replicate (sizeofQueueItem + unItemSz) 0,
      List.length_replicate .., ?_⟩, fun b hb => ?_, hgives.brk, hgives.mallocOk⟩,
      Function.update_self .., Function.update_self .., hconf.of_same ⟨rfl, rfl, rfl⟩ rfl,
      ?_, ?_, rfl⟩
    · simp [Heap.setBlock, Heap.setRsrc, Heap.setPool, hmem]
    · simp [Heap.setBlock, Heap.setRsrc, Heap.setPool, hb, hgives.rsrcs b hb]
    · rw [huse, UInt16.ofNat_add]
      rfl
    · rw [hnum]
      rfl

/-- An item goes back to the heap. -/
theorem Lending.free (hv : pf.valgrind = false)
    (hl : Lending h pp (itemArgs pcName unItemSz uiMaxNumRes) (n + 1) pool) {x : ℕ}
    {name : Option String} (hrsrc : h.rsrcs x = some ⟨pp, name, false⟩) :
    ∃ h' pool', vRsrcFree pf h (some ⟨x, 0⟩) = .ok h' ∧ Takes h h' x ∧
      Lending h' pp (itemArgs pcName unItemSz uiMaxNumRes) n pool' := by
  have hff : pool.uiFreeOnFree = true := hl.configured.uiFreeOnFree
  have hfree : vRsrcFree pf h (some ⟨x, 0⟩) = .ok (((h.setPool pp { pool with
      xActive := pool.xActive.erase x
      uiNumInUse := pool.uiNumInUse - 1 }).setRsrc x none).setBlock x none) := by
    simp [vRsrcFree, hv, hrsrc, hl.pools, hff, pure, Except.pure]
  refine ⟨_, _, hfree, ⟨rfl, fun b hb => Function.update_of_ne hb _ _, rfl, rfl⟩,
    Function.update_self .., hl.configured.of_same ⟨rfl, rfl, rfl⟩ rfl, ?_, hl.uiNumFree,
    hl.pxFreelist⟩
  change pool.uiNumInUse - 1 = _
  rw [hl.uiNumInUse, UInt16.ofNat_add]
  simp

/-- The count which the queue keeps is that of the pool. Under Valgrind the pool has no part in
the requests, and nothing caps them. -/
structure Pooled (pf : Platform) (h : Heap) (pp : PoolPtr) (unItemSz : ℕ) (items : ItemPool) :
    Prop where
  lending : ∃ pcName uiMaxNumRes pool,
    (pf.valgrind = false → uiMaxNumRes.toNat = items.uiMaxNumRes) ∧
      Lending h pp (itemArgs pcName unItemSz uiMaxNumRes)
        (if pf.valgrind then 0 else items.uiNumInUse) pool
  uncapped : pf.valgrind = true → items.uiMaxNumRes = 0
  within : items.uiMaxNumRes = 0 ∨ items.uiNumInUse ≤ items.uiMaxNumRes

variable {items : ItemPool}

theorem Pooled.congr {h' : Heap} (hp : Pooled pf h pp unItemSz items)
    (hpools : h'.pools = h.pools) : Pooled pf h' pp unItemSz items where
  lending := by
    obtain ⟨pcName, uiMaxNumRes, pool, hmax, hl⟩ := hp.lending
    exact ⟨pcName, uiMaxNumRes, pool, hmax, (congrFun hpools pp).trans hl.pools, hl.configured,
      hl.uiNumInUse, hl.uiNumFree, hl.pxFreelist⟩
  uncapped := hp.uncapped
  within := hp.within

/-- A request which the count refuses gets nothing. -/
theorem Pooled.refused (hp : Pooled pf h pp unItemSz items) (hnone : items.pxRsrcAlloc = none)
    (name : String) : pxRsrcAlloc pf h (some pp) (some name) = .ok (none, h) := by
  obtain ⟨pcName, uiMaxNumRes, pool, hmax, hl⟩ := hp.lending
  have hfull : ¬ (items.uiMaxNumRes = 0 ∨ items.uiNumInUse < items.uiMaxNumRes) := fun hroom =>
    Option.some_ne_none _ ((ItemPool.pxRsrcAlloc_eq_some.mpr ⟨hroom, rfl⟩).symm.trans hnone)
  obtain ⟨hne, hle⟩ := not_or.mp hfull
  have hv : pf.valgrind = false := eq_false_of_ne_true fun hv => hne (hp.uncapped hv)
  have hwithin := hp.within.resolve_left hne
  rw [hv, if_neg (by decide)] at hl
  have hmax := hmax hv
  have hlt := uiMaxNumRes.toNat_lt
  refine hl.refused hv (fun hzero => hne ?_) (by omega) name
  rw [← hmax, hzero]
  rfl

/-- A request which the count grants gets a new block, unless memory runs out. -/
theorem Pooled.granted (hp : Pooled pf h pp unItemSz items)
    (hm : pf.valgrind = true → h.MemoryAvailable) {items' : ItemPool}
    (hsome : items.pxRsrcAlloc = some items') (name : String) :
    h.mallocOk h.calls = false ∧ pxRsrcAlloc pf h (some pp) (some name) = .error .abort ∨
      ∃ h', pxRsrcAlloc pf h (some pp) (some name) = .ok (some h.brk, h') ∧
        Gives h h' (sizeofQueueItem + unItemSz) ∧ Lent pf h' pp h.brk ∧
        Pooled pf h' pp unItemSz items' := by
  obtain ⟨pcName, uiMaxNumRes, pool, hmax, hl⟩ := hp.lending
  obtain ⟨hroom, rfl⟩ := ItemPool.pxRsrcAlloc_eq_some.mp hsome
  cases hv : pf.valgrind with
  | true =>
    have hcode : pxRsrcAlloc pf h (some pp) (some name) =
        .ok (pvRsMemAlloc h (sizeofQueueItem + unItemSz)) := by
      simp [pxRsrcAlloc, pxRsrcVarAlloc, hv, hl.pools, hl.configured.uxSizeEach, itemArgs]
    have hmalloc : h.mallocOk h.calls = true := hm hv h.calls
    rw [pvRsMemAlloc, if_pos hmalloc] at hcode
    refine Or.inr ⟨_, hcode, ⟨⟨_, h.stale_length h.brk _, rfl⟩, fun b _ => rfl, rfl, rfl⟩,
      fun hfalse => ?_, ⟨pcName, uiMaxNumRes, pool, hmax, ?_⟩, hp.uncapped,
      Or.inl (hp.uncapped hv)⟩
    · rw [hv] at hfalse
      cases hfalse
    · rw [hv, if_pos rfl] at hl ⊢
      exact ⟨hl.pools, hl.configured, hl.uiNumInUse, hl.uiNumFree, hl.pxFreelist⟩
  | false =>
    have hmax := hmax hv
    rw [hv, if_neg (by decide)] at hl
    have hbelow : uiMaxNumRes = 0 ∨ items.uiNumInUse % 65536 < uiMaxNumRes.toNat := by
      rw [← UInt16.toNat_inj, hmax]
      exact hroom.imp_right fun h => Nat.lt_of_le_of_lt (Nat.mod_le _ _) h
    rcases hl.granted hv hbelow name with hno | ⟨h', pool', hcode, hgives, hrsrc, hl'⟩
    · exact Or.inl hno
    · refine Or.inr ⟨h', hcode, hgives, fun _ => ⟨_, hrsrc⟩,
        ⟨pcName, uiMaxNumRes, pool', fun _ => hmax, ?_⟩, hp.uncapped,
        hroom.imp_right Nat.succ_le_of_lt⟩
      rw [hv, if_neg (by decide)]
      exact hl'

/-- An item which is out is taken back. -/
theorem Pooled.free (hp : Pooled pf h pp unItemSz items) (hpos : items.uiNumInUse ≠ 0) {x : ℕ}
    (hlent : Lent pf h pp x) (hmem : (h.mem x).isSome) :
    ∃ h', vRsrcFree pf h (some ⟨x, 0⟩) = .ok h' ∧ Takes h h' x ∧
      Pooled pf h' pp unItemSz items.vRsrcFree := by
  obtain ⟨pcName, uiMaxNumRes, pool, hmax, hl⟩ := hp.lending
  have hwithin : items.uiMaxNumRes = 0 ∨ items.uiNumInUse - 1 ≤ items.uiMaxNumRes :=
    hp.within.imp_right fun h => Nat.le_trans (Nat.sub_le _ _) h
  cases hv : pf.valgrind with
  | true =>
    have hcode : vRsrcFree pf h (some ⟨x, 0⟩) = .ok (h.setBlock x none) := by
      simp [vRsrcFree, hv, vRsMemFree, hmem]
    refine ⟨_, hcode, ⟨rfl, fun _ _ => rfl, rfl, rfl⟩, ⟨pcName, uiMaxNumRes, pool, hmax, ?_⟩,
      hp.uncapped, hwithin⟩
    rw [hv, if_pos rfl] at hl ⊢
    exact ⟨hl.pools, hl.configured, hl.uiNumInUse, hl.uiNumFree, hl.pxFreelist⟩
  | false =>
    obtain ⟨n, hn⟩ := Nat.exists_eq_succ_of_ne_zero hpos
    rw [hv, if_neg (by decide), hn] at hl
    obtain ⟨name, hrsrc⟩ := hlent hv
    obtain ⟨h', pool', hcode, htakes, hl'⟩ := hl.free hv hrsrc
    refine ⟨h', hcode, htakes, ⟨pcName, uiMaxNumRes, pool', hmax, ?_⟩, hp.uncapped, hwithin⟩
    rw [hv, if_neg (by decide), ItemPool.vRsrcFree, hn]
    exact hl'

end Pool

/-! ### The queue -/

/-- A new pool lends nothing. -/
theorem newPool_lending {h h' : Heap} {pxPool : Option PoolPtr} {sQueueName : Option String}
    {pp : PoolPtr} {unItemSz unMaxItemCount : ℕ}
    (hnew : pxRsrcNewPool h pxPool sQueueName (sizeofQueueItem + unItemSz) 0 1 unMaxItemCount =
      .ok (some pp, h')) :
    ∃ pcName pool, unMaxItemCount < 65536 ∧ h'.mallocOk = h.mallocOk ∧ h'.brk = h.brk ∧
      Lending h' pp (itemArgs pcName unItemSz (.ofNat unMaxItemCount)) 0 pool := by
  unfold pxRsrcNewPool at hnew
  cases sQueueName with
  | none => cases hnew
  | some pcName =>
    simp only at hnew
    split_ifs at hnew with hfit hsize
    · cases hnew
    · cases pxPool with
      | none => cases hnew
      | some pq =>
        cases hnew
        have hle := ((or_le_iff 0 1 unMaxItemCount).mp (not_or.mp hfit).1).2.2
        refine ⟨pcName, _, Nat.lt_succ_of_le hle, rfl, rfl, Function.update_self ..,
          ⟨rfl, rfl, rfl, ?_⟩, rfl, rfl, rfl⟩
        simp [RsrcPool.new, PoolArgs.Keeps, itemArgs]

/-- The memory at `a` is the item `bs` behind its header. -/
def RsQueueMem.Holds (s : RsQueueMem) (a : Addr) (bs : Bytes) : Prop :=
  ∃ header, s.heap.mem a = some (header ++ bs) ∧ header.length = sizeofQueueItem ∧
    bs.length = s.xParams.unItemSz

/-- The list of the queue has the items at these addresses. -/
structure Represents (s : RsQueueMem) (q : RsQueue Bytes) (addrs : List Addr) : Prop where
  xParams : q.xParams = s.xParams.toRsQueueParams
  xSemItems : q.xSemItems = s.xSemItems
  xSemPlaces : q.xSemPlaces = s.xSemPlaces
  list : IsList s.lists s.xQueueList addrs
  owner : ∀ a ∈ addrs, s.lists.pvOwner a = some a
  items : List.Forall₂ s.Holds addrs q.xQueueList
  below : ∀ a ∈ s.xQueueList :: addrs, a < s.heap.brk
  lent : ∀ a ∈ addrs, Lent pf s.heap s.xPool a
  pooled : Pooled pf s.heap s.xPool s.xParams.unItemSz q.xPool
  uiNumInUse : q.xPool.uiNumInUse = q.xQueueList.length

variable {pf} {s : RsQueueMem} {q : RsQueue Bytes} {addrs : List Addr} {pxItem : Bytes}

variable (pf) in
/-- A new queue is empty, with the maximum and the places which its parameters give as an
`unsigned int`. -/
theorem xRsQueueInit_represents {h : Heap} {m : ListMem} {xQueueList : Addr}
    {pxPool : Option PoolPtr} {sQueueName : Option String} {params : RsQueueParams}
    (hbelow : xQueueList < h.brk)
    (hinit : xRsQueueInit h m xQueueList pxPool sQueueName params = .ok (some s)) :
    params.unMaxItemCount % 2 ^ 32 < 65536 ∧ s.xParams = params ∧
      s.heap.mallocOk = h.mallocOk ∧
      Represents pf s ⟨[], ⟨if pf.valgrind then 0 else params.unMaxItemCount % 2 ^ 32, 0⟩, 0,
        if params.bounded then params.unMaxItemCount % 2 ^ 32 else 0, params.toRsQueueParams⟩ [] := by
  obtain ⟨⟨xPool, heap⟩, hnew, hs⟩ := Exec.bind_eq_ok.mp hinit
  cases xPool with
  | none => cases hs
  | some pp =>
    cases hs
    obtain ⟨pcName, pool, hfits, hmalloc, hbrk, hlending⟩ := newPool_lending hnew
    have hpooled : Pooled pf heap pp params.unItemSz
        ⟨if pf.valgrind then 0 else params.unMaxItemCount % 2 ^ 32, 0⟩ := by
      refine ⟨⟨pcName, .ofNat (params.unMaxItemCount % 2 ^ 32), pool, fun hv => ?_, ?_⟩,
        fun hv => if_pos hv, Or.inr (Nat.zero_le _)⟩
      · rw [hv, if_neg (by decide)]
        exact UInt16.toNat_ofNat_of_lt' hfits
      · rw [ite_self]
        exact hlending
    refine ⟨hfits, rfl, hmalloc, ⟨rfl, rfl, rfl, vRsListInit_isList m xQueueList, by simp,
      .nil, ?_, by simp, hpooled, rfl⟩⟩
    intro a ha
    rw [List.mem_singleton.mp ha]
    exact hbrk ▸ hbelow

theorem Represents.length (hr : Represents pf s q addrs) :
    unRsListLength s.lists s.xQueueList = q.xQueueList.length :=
  hr.list.length.trans hr.items.length_eq

/-- An item stays where it is in a heap which has its block. -/
theorem RsQueueMem.Holds.congr {s' : RsQueueMem} {a : Addr} {bs : Bytes} (h : s.Holds a bs)
    (hmem : s'.heap.mem a = s.heap.mem a) (hparams : s'.xParams = s.xParams) : s'.Holds a bs := by
  obtain ⟨header, hblk, hheader, hbs⟩ := h
  exact ⟨header, hmem.trans hblk, hheader, hbs.trans (by rw [hparams])⟩

theorem holds_congr {s' : RsQueueMem} {items : List Bytes} (h : List.Forall₂ s.Holds addrs items)
    (hmem : ∀ a ∈ addrs, s'.heap.mem a = s.heap.mem a) (hparams : s'.xParams = s.xParams) :
    List.Forall₂ s'.Holds addrs items :=
  ((List.forall₂_and_left _ _).mpr ⟨hmem, h⟩).imp fun _ _ ⟨hmem, hholds⟩ =>
    hholds.congr hmem hparams

theorem Represents.postItem (hr : Represents pf s q addrs) :
    Represents pf { s with xSemItems := s.xSemItems + 1 } q.postItem addrs :=
  ⟨hr.xParams, congrArg (· + 1) hr.xSemItems, hr.xSemPlaces, hr.list, hr.owner, hr.items, hr.below,
    hr.lent, hr.pooled, hr.uiNumInUse⟩

theorem Represents.not_mem_brk (hr : Represents pf s q addrs) :
    s.heap.brk ∉ s.xQueueList :: addrs := fun hin => Nat.lt_irrefl _ (hr.below _ hin)

/-- A new block which is filled and linked in is the last item. -/
theorem Represents.insert (hr : Represents pf s q addrs) {h : Heap} {lists : ListMem}
    {header bytes : Bytes} {items : ItemPool} {size : ℕ} (hgives : Gives s.heap h size)
    (hblk : h.mem s.heap.brk = some (header ++ bytes)) (hheader : header.length = sizeofQueueItem)
    (hbytes : bytes.length = s.xParams.unItemSz) (hlent : Lent pf h s.xPool s.heap.brk)
    (hpooled : Pooled pf h s.xPool s.xParams.unItemSz items)
    (huse : items.uiNumInUse = q.xPool.uiNumInUse + 1)
    (hlist : IsList lists s.xQueueList (addrs ++ [s.heap.brk]))
    (howner : lists.pvOwner = Function.update s.lists.pvOwner s.heap.brk (some s.heap.brk)) :
    Represents pf { s with heap := h, lists := lists } ({ q with xPool := items }.insert bytes)
      (addrs ++ [s.heap.brk]) := by
  have hkept : ∀ a ∈ addrs, a ≠ s.heap.brk := fun a ha heq =>
    hr.not_mem_brk (heq ▸ List.mem_cons_of_mem _ ha)
  obtain ⟨_, -, hmem⟩ := hgives.mem
  refine ⟨hr.xParams, hr.xSemItems, hr.xSemPlaces, hlist, fun a ha => ?_, ?_, fun a ha => ?_,
    fun a ha => ?_, hpooled, ?_⟩
  · simp only [howner]
    rcases List.mem_append.mp ha with ha | ha
    · rw [Function.update_of_ne (hkept a ha), hr.owner a ha]
    · rw [List.mem_singleton.mp ha, Function.update_self]
  · have hsame : ∀ a ∈ addrs, h.mem a = s.heap.mem a := fun a ha =>
      (congrFun hmem a).trans (Function.update_of_ne (hkept a ha) _ _)
    have hold : List.Forall₂ (RsQueueMem.Holds { s with heap := h, lists := lists }) addrs
        q.xQueueList := holds_congr hr.items hsame rfl
    exact List.rel_append hold (.cons ⟨header, hblk, hheader, hbytes⟩ .nil)
  · simp only [hgives.brk]
    rcases List.mem_cons.mp ha with rfl | ha
    · exact Nat.lt_succ_of_lt (hr.below _ List.mem_cons_self)
    · rcases List.mem_append.mp ha with ha | ha
      · exact Nat.lt_succ_of_lt (hr.below a (List.mem_cons_of_mem _ ha))
      · rw [List.mem_singleton.mp ha]
        exact Nat.lt_succ_self _
  · rcases List.mem_append.mp ha with ha | ha
    · intro hv
      obtain ⟨name, hrsrc⟩ := hr.lent a ha hv
      exact ⟨name, (hgives.rsrcs a (hkept a ha)).trans hrsrc⟩
    · rw [List.mem_singleton.mp ha]
      exact hlent
  · rw [RsQueue.insert_length, ← hr.uiNumInUse]
    exact huse

theorem Represents.enqueue_refused (hr : Represents pf s q addrs)
    (hnone : q.xPool.pxRsrcAlloc = none) : s.enqueue pf pxItem = .ok (.ERR_OOM, s) := by
  rw [RsQueueMem.enqueue, hr.pooled.refused hnone]
  rfl

/-- A send which the pool grants puts its bytes behind the items, unless memory runs out. -/
theorem Represents.enqueue (hr : Represents pf s q addrs)
    (hm : pf.valgrind = true → s.heap.MemoryAvailable)
    (hitem : s.xParams.unItemSz ≤ pxItem.length) (hgranted : q.xPool.pxRsrcAlloc ≠ none) :
    s.heap.mallocOk s.heap.calls = false ∧ s.enqueue pf pxItem = .error .abort ∨
      ∃ s' q' addrs', s.enqueue pf pxItem = .ok (.SUCCESS, s') ∧
        q.enqueue (pxItem.take s.xParams.unItemSz) = .returned .SUCCESS none q' ∧
        Represents pf s' q' addrs' ∧ s'.xParams = s.xParams ∧
        s'.heap.mallocOk = s.heap.mallocOk := by
  obtain ⟨items', hsome⟩ := Option.ne_none_iff_exists'.mp hgranted
  rcases hr.pooled.granted hm hsome "prvQueueSendToBack" with
    ⟨hmalloc, hcode⟩ | ⟨h', hcode, hgives, hlent, hpooled⟩
  · refine Or.inl ⟨hmalloc, ?_⟩
    rw [RsQueueMem.enqueue, hcode]
    rfl
  · obtain ⟨room, hroom, hmem⟩ := hgives.mem
    have hblk : h'.mem s.heap.brk = some (room.take sizeofQueueItem ++
        (room.drop sizeofQueueItem ++ [])) := by
      rw [hmem, Function.update_self, List.append_nil, List.take_append_drop]
    have hheader : (room.take sizeofQueueItem).length = sizeofQueueItem := by
      rw [List.length_take, hroom]
      exact Nat.min_eq_left (Nat.le_add_right _ _)
    have hbytes : (pxItem.take s.xParams.unItemSz).length = s.xParams.unItemSz :=
      List.length_take_of_le hitem
    have hcopy : memcpyFrom pxItem s.xParams.unItemSz = .ok (pxItem.take s.xParams.unItemSz) := by
      rw [memcpyFrom, if_pos hitem, inBounds_some]
    have hwrite := @Heap.write_middle _ _ _ _ _ (pxItem.take s.xParams.unItemSz) 0
      sizeofQueueItem hblk (by rw [hheader, Nat.zero_add])
      (by rw [hbytes, List.length_drop, hroom, Nat.add_sub_cancel_left])
    rw [List.append_nil] at hwrite
    have hout := hr.not_mem_brk
    have howner : (vRsListInitItem s.lists s.heap.brk (some s.heap.brk)).pvOwner s.heap.brk =
        some s.heap.brk := Function.update_self ..
    obtain ⟨lists, hinsert, hlist⟩ := vRsListInsertEnd_isList
      (hr.list.initItem hout (some s.heap.brk)) hout (by simp [howner])
    obtain ⟨-, rfl⟩ := ItemPool.pxRsrcAlloc_eq_some.mp hsome
    have hrep := hr.insert (hgives.fill (by rw [List.length_append, hheader, hbytes]))
      (Heap.setBlock_self ..) hheader hbytes hlent (hpooled.congr rfl) rfl hlist
      (vRsListInsertEnd_owner hinsert)
    have hblock : q.xParams.xBlock = s.xParams.xBlock := by rw [hr.xParams]
    refine Or.inr ?_
    simp only [RsQueueMem.enqueue, RsQueue.enqueue, hsome, hcode, hcopy, hwrite, hinsert,
      Exec.ok_bind, hblock, RsQueue.insert]
    cases s.xParams.xBlock with
    | true => exact ⟨_, _, _, rfl, rfl, hrep.postItem, rfl, hgives.mallocOk⟩
    | false => exact ⟨_, _, _, rfl, rfl, hrep, rfl, hgives.mallocOk⟩

theorem Represents.postPlace (hr : Represents pf s q addrs) :
    Represents pf { s with xSemPlaces := s.xSemPlaces + 1 } q.postPlace addrs :=
  ⟨hr.xParams, hr.xSemItems, congrArg (· + 1) hr.xSemPlaces, hr.list, hr.owner, hr.items, hr.below,
    hr.lent, hr.pooled, hr.uiNumInUse⟩

/-- The other items stay when the first one is unlinked and its block goes. -/
theorem Represents.remove {a : Addr} {bs : Bytes} {rest : List Bytes}
    (hr : Represents pf s q (a :: addrs)) (hitems : q.xQueueList = bs :: rest) {h : Heap}
    {lists : ListMem} (htakes : Takes s.heap h a)
    (hpooled : Pooled pf h s.xPool s.xParams.unItemSz q.xPool.vRsrcFree)
    (hlist : IsList lists s.xQueueList addrs) (howner : lists.pvOwner = s.lists.pvOwner) :
    Represents pf { s with heap := h, lists := lists }
      { q with xQueueList := rest, xPool := q.xPool.vRsrcFree } addrs := by
  have hnodup := (List.nodup_cons.mp hr.list.ring.nodup).2
  have hkept : ∀ b ∈ addrs, b ≠ a := fun b hb heq => (List.nodup_cons.mp hnodup).1 (heq ▸ hb)
  have hrest : List.Forall₂ s.Holds addrs rest := by
    have hall := hr.items
    rw [hitems, List.forall₂_cons] at hall
    exact hall.2
  refine ⟨hr.xParams, hr.xSemItems, hr.xSemPlaces, hlist, fun b hb => ?_, ?_, fun b hb => ?_,
    fun b hb hv => ?_, hpooled, ?_⟩
  · simp only [howner]
    exact hr.owner b (List.mem_cons_of_mem _ hb)
  · exact holds_congr hrest
      (fun b hb => (congrFun htakes.mem b).trans (Function.update_of_ne (hkept b hb) _ _)) rfl
  · simp only [htakes.brk]
    rcases List.mem_cons.mp hb with rfl | hb
    · exact hr.below _ List.mem_cons_self
    · exact hr.below b (List.mem_cons_of_mem _ (List.mem_cons_of_mem _ hb))
  · obtain ⟨name, hrsrc⟩ := hr.lent b (List.mem_cons_of_mem _ hb) hv
    exact ⟨name, (htakes.rsrcs b (hkept b hb)).trans hrsrc⟩
  · change q.xPool.uiNumInUse - 1 = rest.length
    rw [hr.uiNumInUse, hitems, List.length_cons, Nat.add_sub_cancel]

/-- A receive takes the bytes of the first item. -/
theorem Represents.dequeue (hr : Represents pf s q addrs) {bs : Bytes} {rest : List Bytes}
    (hitems : q.xQueueList = bs :: rest) (hitem : s.xParams.unItemSz ≤ pxItem.length) :
    ∃ s' q' addrs',
      s.dequeue pf pxItem = .ok (.SUCCESS, bs ++ pxItem.drop s.xParams.unItemSz, s') ∧
      q.dequeue = .returned .SUCCESS (some bs) q' ∧ Represents pf s' q' addrs' ∧
      s'.xParams = s.xParams ∧ s'.heap.mallocOk = s.heap.mallocOk := by
  have hall := hr.items
  rw [hitems] at hall
  cases hall with
  | @cons a _ addrs _ hholds _ =>
    obtain ⟨header, hblk, hheader, hbs⟩ := hholds
    have hfirst : pxRsListGetFirst s.lists s.xQueueList = some a := pxRsListGetFirst_isList hr.list
    have howner := hr.owner a List.mem_cons_self
    have hread : s.heap.read (some ⟨a, 0⟩) sizeofQueueItem s.xParams.unItemSz = .ok bs := by
      rw [Heap.read_of_block hblk (by simp [hheader, hbs]), Nat.zero_add,
        List.drop_left' hheader, ← hbs, List.take_length]
    have hcopy : memcpyTo pxItem bs = .ok (bs ++ pxItem.drop s.xParams.unItemSz) := by
      rw [memcpyTo, if_pos (hbs ▸ hitem), inBounds_some, splice, ← hbs]
      simp
    obtain ⟨lists, hremove, hlist⟩ := @vRsListRemove_isList _ _ _ [] _ hr.list
    obtain ⟨h, hfree, htakes, hpooled⟩ := hr.pooled.free
      (by rw [hr.uiNumInUse, hitems]; exact Nat.succ_ne_zero _) (hr.lent a List.mem_cons_self)
      (by rw [hblk]; rfl)
    have hrep := hr.remove hitems htakes hpooled hlist (vRsListRemove_owner hremove)
    have hblock : q.xParams.xBlock = s.xParams.xBlock := by rw [hr.xParams]
    have hdequeue : q.dequeue = .returned .SUCCESS (some bs)
        (if s.xParams.xBlock then
          { q with xQueueList := rest, xPool := q.xPool.vRsrcFree }.postPlace
        else { q with xQueueList := rest, xPool := q.xPool.vRsrcFree }) := by
      rw [RsQueue.dequeue, hitems]
      simp only [hblock]
      cases s.xParams.xBlock <;> rfl
    rw [hdequeue]
    simp only [RsQueueMem.dequeue, hfirst, howner, deref_some, Exec.ok_bind, hread, hcopy, hremove]
    cases s.xParams.xBlock with
    | true =>
      simp only [if_true, hfree]
      exact ⟨_, _, _, rfl, rfl, hrep.postPlace, rfl, htakes.mallocOk⟩
    | false =>
      simp only [Bool.false_eq_true, if_false, hfree]
      exact ⟨_, _, _, rfl, rfl, hrep, rfl, htakes.mallocOk⟩

end RinaSense.Queue.InMemory
