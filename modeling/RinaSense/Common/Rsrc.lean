import RinaSense.Common.Heap

/-!
# Resource pools

The allocator of `common/rsrc.c`. A pool keeps the resources it handed out and a
freelist which it grows by its increment when it is empty. A request to a pool has to
name its requestor.
-/

namespace RinaSense.Common

open Library.Memory

variable (pf : Platform)

/-- `eRsrcClearResOnAlloc` is `rsrcCLEAR_ON_BOTH`: a resource on a freelist is all ones. -/
def prvvFreeResTail (h : Heap) (pp : PoolPtr) (pool : RsrcPool) (a : ℕ) :
    Heap × RsrcPool :=
  let h := h.setRsrc a (some ⟨pp, (h.rsrcs a).bind (·.pcResName), true⟩)
  let h := if pool.uxSizeEach = 0 then h
    else h.setBlock a (some (List.replicate pool.uxSizeEach 0xff))
  (h, { pool with pxFreelist := a :: pool.pxFreelist, uiNumFree := pool.uiNumFree + 1 })

/-- The loop which puts `n` new resources on the freelist. -/
def addResources (pp : PoolPtr) (xPayloadLen : ℕ) : ℕ → Heap → RsrcPool → Heap × RsrcPool
  | 0, h, pool => (h, pool)
  | n + 1, h, pool =>
    let a := h.brk
    let h := { h.setBlock a (some (h.stale a xPayloadLen)) with brk := a + 1 }
    let (h, pool) := prvvFreeResTail h pp pool a
    addResources pp xPayloadLen n h pool

/-- One request to `malloc` covers all the resources which are added. There is no
out-of-memory handler, so a refused request aborts. -/
def prviRsrcAdd2Pool (h : Heap) (pp : PoolPtr) (pool : RsrcPool) (uiCount : UInt16)
    (xPayloadLen : ℕ) : Exec (ℕ × Heap × RsrcPool) :=
  if uiCount = 0 then .ok (0, h, pool)
  else if h.mallocOk h.calls then
    let pool := if pool.uiNumInUse.toNat + pool.uiNumFree.toNat = 0 then
      { pool with uiLowWater := uiCount } else pool
    let (h, pool) := addResources pp xPayloadLen uiCount.toNat h.called pool
    .ok (uiCount.toNat, h, pool)
  else .error .abort

/-- A pool without resources. -/
def RsrcPool.new (pcName : String) (xRsrcSize : ℕ)
    (uiInitAlloc uiIncrement uiMaxNumRes : UInt16) : RsrcPool where
  pcName := pcName
  ulTotalAllocs := 0
  uxSizeEach := xRsrcSize
  uiIncrement := uiIncrement
  uiFreeOnFree := xRsrcSize = 0 ∨ (uiIncrement ≤ 1 ∧ uiInitAlloc ≤ 1)
  uiMaxNumRes := uiMaxNumRes
  uiNumInUse := 0
  uiNumFree := 0
  uiLowWater := uiInitAlloc
  uiHiWater := 0
  pxFreelist := []
  xActive := []

/-- A new pool, with the resources it starts with. -/
def prviRsrcInitPool (h : Heap) (pp : PoolPtr) (pcName : String) (xRsrcSize : ℕ)
    (uiInitAlloc uiIncrement uiMaxNumRes : UInt16) : Exec (ℕ × Heap × RsrcPool) :=
  let pool := RsrcPool.new pcName xRsrcSize uiInitAlloc uiIncrement uiMaxNumRes
  if uiInitAlloc ≠ 0 then prviRsrcAdd2Pool h pp pool uiInitAlloc xRsrcSize
  else .ok (0, h, pool)

/-- The requests which a pool turns down before it looks at its freelist. -/
def rsrcRefused (pool : RsrcPool) (pcRequestor : Option String) (xPayloadLen : ℕ) : Bool :=
  pcRequestor.isNone || xPayloadLen == 0 ||
    (pool.uiMaxNumRes != 0 &&
      decide (pool.uiMaxNumRes.toNat ≤ pool.uiNumInUse.toNat + pool.uiNumFree.toNat)) ||
    (pool.uxSizeEach != 0 && xPayloadLen != pool.uxSizeEach)

/-- Handing out the first resource of the freelist, cleared. -/
def takeResource (h : Heap) (pp : PoolPtr) (pool : RsrcPool) (pcRequestor : Option String)
    (xPayloadLen : ℕ) : Exec (Option ℕ × Heap) :=
  match pool.pxFreelist with
  | [] => .error .nullPointer
  | a :: rest =>
    let uiNumFree := pool.uiNumFree - 1
    let uiNumInUse := pool.uiNumInUse + 1
    let pool := { pool with
      pxFreelist := rest
      uiNumFree := uiNumFree
      uiLowWater := if uiNumFree < pool.uiLowWater then uiNumFree else pool.uiLowWater
      ulTotalAllocs := pool.ulTotalAllocs + 1
      xActive := a :: pool.xActive
      uiNumInUse := uiNumInUse
      uiHiWater := if uiNumInUse > pool.uiHiWater then uiNumInUse else pool.uiHiWater }
    let h := (h.setPool pp pool).setRsrc a (some ⟨pp, pcRequestor, false⟩)
    .ok (some a, h.setBlock a (some (List.replicate xPayloadLen 0)))

def pxRsrcVarAlloc (h : Heap) (pxPool : Option PoolPtr) (pcRequestor : Option String)
    (xPayloadLen : ℕ) : Exec (Option ℕ × Heap) :=
  if pf.valgrind then .ok (pvRsMemAlloc h xPayloadLen)
  else
    match pxPool with
    | none => .ok (none, h)
    | some pp => do
      let pool ← inBounds (h.pools pp)
      if rsrcRefused pool pcRequestor xPayloadLen then return (none, h)
      if pool.pxFreelist.isEmpty then
        let (added, h, pool) ← prviRsrcAdd2Pool h pp pool pool.uiIncrement xPayloadLen
        if added = 0 then return (none, h)
        takeResource h pp pool pcRequestor xPayloadLen
      else takeResource h pp pool pcRequestor xPayloadLen

def pxRsrcAlloc (h : Heap) (pxPool : Option PoolPtr) (pcRequestor : Option String) :
    Exec (Option ℕ × Heap) :=
  match pxPool with
  | none => .ok (none, h)
  | some pp => do
    let pool ← inBounds (h.pools pp)
    pxRsrcVarAlloc pf h (some pp) pcRequestor pool.uxSizeEach

/-- A resource goes back to its freelist, or to the heap when its pool keeps none. A
second release aborts. -/
def vRsrcFree (h : Heap) (pvResPayload : Option Ptr) : Exec Heap :=
  match pvResPayload with
  | none => .ok h
  | some p =>
    if pf.valgrind then vRsMemFree h (some p)
    else do
      let a := p.block
      let rsrc ← inBounds (if p.off = 0 then h.rsrcs a else none)
      let pool ← inBounds (h.pools rsrc.pxPool)
      if rsrc.xOnFreelist then .error .abort
      let pool := { pool with
        xActive := pool.xActive.erase a
        uiNumInUse := pool.uiNumInUse - 1 }
      if pool.uiFreeOnFree then
        return ((h.setPool rsrc.pxPool pool).setRsrc a none).setBlock a none
      else
        let (h, pool) := prvvFreeResTail h rsrc.pxPool pool a
        return h.setPool rsrc.pxPool pool

/-- A block of `size` bytes is new, and the other ones are as before. -/
structure Gives (h h' : Heap) (size : ℕ) : Prop where
  mem : ∃ bs : Bytes, bs.length = size ∧ h'.mem = Function.update h.mem h.brk (some bs)
  rsrcs : ∀ b, b ≠ h.brk → h'.rsrcs b = h.rsrcs b
  brk : h'.brk = h.brk + 1
  mallocOk : h'.mallocOk = h.mallocOk

/-- The new block is filled. -/
theorem Gives.fill {h h' : Heap} {size : ℕ} (hg : Gives h h' size) {bs : Bytes}
    (hbs : bs.length = size) : Gives h (h'.setBlock h.brk (some bs)) size where
  mem := by
    obtain ⟨_, -, hmem⟩ := hg.mem
    exact ⟨bs, hbs, by simp [Heap.setBlock, hmem]⟩
  rsrcs := hg.rsrcs
  brk := hg.brk
  mallocOk := hg.mallocOk

/-- The block is gone, and the other ones are as before. -/
structure Takes (h h' : Heap) (x : ℕ) : Prop where
  mem : h'.mem = Function.update h.mem x none
  rsrcs : ∀ b, b ≠ x → h'.rsrcs b = h.rsrcs b
  brk : h'.brk = h.brk
  mallocOk : h'.mallocOk = h.mallocOk

/-- The resource is out of the pool, as far as the pool knows of it. -/
def Lent (pf : Platform) (h : Heap) (pp : PoolPtr) (x : ℕ) : Prop :=
  pf.valgrind = false → ∃ name, h.rsrcs x = some ⟨pp, name, false⟩

/-- Outside Valgrind a request without a requestor gets nothing and changes nothing. -/
theorem pxRsrcVarAlloc_anonymous {h : Heap} {pp : PoolPtr} {pool : RsrcPool}
    (hv : pf.valgrind = false) (hpool : h.pools pp = some pool) (n : ℕ) :
    pxRsrcVarAlloc pf h (some pp) none n = .ok (none, h) := by
  simp [pxRsrcVarAlloc, hv, hpool, rsrcRefused, pure, Except.pure]

theorem pxRsrcAlloc_anonymous {h : Heap} {pp : PoolPtr} {pool : RsrcPool}
    (hv : pf.valgrind = false) (hpool : h.pools pp = some pool) :
    pxRsrcAlloc pf h (some pp) none = .ok (none, h) := by
  simp [pxRsrcAlloc, hpool, pxRsrcVarAlloc_anonymous pf hv hpool]

/-- What no allocation and no release changes in a pool. -/
structure RsrcPool.SameSettings (pool pool' : RsrcPool) : Prop where
  uxSizeEach : pool'.uxSizeEach = pool.uxSizeEach
  uiIncrement : pool'.uiIncrement = pool.uiIncrement
  uiMaxNumRes : pool'.uiMaxNumRes = pool.uiMaxNumRes

theorem RsrcPool.SameSettings.rfl (pool : RsrcPool) : pool.SameSettings pool :=
  ⟨.refl _, .refl _, .refl _⟩

/-- A pool which has no cap, can grow and hands out resources of `n` bytes. -/
structure RsrcPool.Serves (pool : RsrcPool) (n : ℕ) : Prop where
  uiMaxNumRes : pool.uiMaxNumRes = 0
  uiIncrement : pool.uiIncrement ≠ 0
  uxSizeEach : pool.uxSizeEach = 0 ∨ pool.uxSizeEach = n

theorem RsrcPool.Serves.congr {pool pool' : RsrcPool} {n : ℕ} (hp : pool.Serves n)
    (hs : pool.SameSettings pool') : pool'.Serves n where
  uiMaxNumRes := hs.uiMaxNumRes.trans hp.uiMaxNumRes
  uiIncrement := by
    rw [hs.uiIncrement]
    exact hp.uiIncrement
  uxSizeEach := by
    rw [hs.uxSizeEach]
    exact hp.uxSizeEach

/-- Memory answers as before and every pool keeps its settings. -/
structure Heap.SameSupply (h h' : Heap) : Prop where
  mallocOk : h'.mallocOk = h.mallocOk
  pools : ∀ q pool, h.pools q = some pool →
    ∃ pool', h'.pools q = some pool' ∧ pool.SameSettings pool'

theorem Heap.SameSupply.of_pools {h h' : Heap} (hmalloc : h'.mallocOk = h.mallocOk)
    (hpools : h'.pools = h.pools) : h.SameSupply h' where
  mallocOk := hmalloc
  pools q pool hq := ⟨pool, by rw [hpools, hq], .rfl pool⟩

theorem Heap.SameSupply.trans {h h' h'' : Heap} (h1 : h.SameSupply h')
    (h2 : h'.SameSupply h'') : h.SameSupply h'' where
  mallocOk := h2.mallocOk.trans h1.mallocOk
  pools q pool hq := by
    rcases h1.pools q pool hq with ⟨pool', hq', hs⟩
    rcases h2.pools q pool' hq' with ⟨pool'', hq'', hs'⟩
    exact ⟨pool'', hq'', hs'.uxSizeEach.trans hs.uxSizeEach,
      hs'.uiIncrement.trans hs.uiIncrement, hs'.uiMaxNumRes.trans hs.uiMaxNumRes⟩

theorem Heap.SameSupply.memoryAvailable {h h' : Heap} (hs : h.SameSupply h')
    (hm : h.MemoryAvailable) : h'.MemoryAvailable := by
  intro n
  rw [hs.mallocOk]
  exact hm n

theorem Heap.sameSupply_afterCalls (h : Heap) (n : ℕ) : h.SameSupply (h.afterCalls n) :=
  .of_pools rfl rfl

theorem addResources_spec (pp : PoolPtr) (len n : ℕ) (h : Heap) (pool : RsrcPool) :
    let out := addResources pp len n h pool
    out.1.mallocOk = h.mallocOk ∧ out.1.pools = h.pools ∧ pool.SameSettings out.2 ∧
      out.2.pxFreelist.length = n + pool.pxFreelist.length := by
  induction n generalizing h pool with
  | zero => exact ⟨rfl, rfl, .rfl pool, by simp [addResources]⟩
  | succ n ih =>
    have hstep := ih (prvvFreeResTail { h.setBlock h.brk (some (h.stale h.brk len)) with
      brk := h.brk + 1 } pp pool h.brk).1 (prvvFreeResTail { h.setBlock h.brk
        (some (h.stale h.brk len)) with brk := h.brk + 1 } pp pool h.brk).2
    rcases hstep with ⟨hmalloc, hpools, hset, hlen⟩
    have htail : ∀ (g : Heap) (a : ℕ),
        (prvvFreeResTail g pp pool a).1.mallocOk = g.mallocOk ∧
          (prvvFreeResTail g pp pool a).1.pools = g.pools := by
      intro g a
      by_cases hz : pool.uxSizeEach = 0 <;>
        simp [prvvFreeResTail, hz, Heap.setRsrc, Heap.setBlock]
    refine ⟨hmalloc.trans (htail _ _).1, hpools.trans (htail _ _).2,
      ⟨hset.uxSizeEach, hset.uiIncrement, hset.uiMaxNumRes⟩, ?_⟩
    rw [addResources, hlen]
    simp only [prvvFreeResTail, List.length_cons]
    omega

/-- Growing a pool succeeds when memory is available. -/
theorem prviRsrcAdd2Pool_available {h : Heap} (hm : h.MemoryAvailable) (pp : PoolPtr)
    (pool : RsrcPool) {uiCount : UInt16} (hz : uiCount ≠ 0) (len : ℕ) :
    ∃ h' pool', prviRsrcAdd2Pool h pp pool uiCount len = .ok (uiCount.toNat, h', pool') ∧
      h'.mallocOk = h.mallocOk ∧ h'.pools = h.pools ∧ pool.SameSettings pool' ∧
      pool'.pxFreelist ≠ [] := by
  have hcount : uiCount.toNat ≠ 0 := fun h0 => hz (UInt16.toNat_inj.mp h0)
  have hcall : h.mallocOk h.calls = true := hm _
  have hlow : pool.SameSettings (if pool.uiNumInUse.toNat + pool.uiNumFree.toNat = 0 then
      { pool with uiLowWater := uiCount } else pool) := by
    split
    · exact ⟨rfl, rfl, rfl⟩
    · exact .rfl pool
  simp only [prviRsrcAdd2Pool, hz, if_false, hcall, if_true]
  generalize (if pool.uiNumInUse.toNat + pool.uiNumFree.toNat = 0 then
    { pool with uiLowWater := uiCount } else pool) = low at hlow ⊢
  rcases addResources_spec pp len uiCount.toNat h.called low with ⟨hmalloc, hpools, hset, hlen⟩
  refine ⟨_, _, rfl, hmalloc, hpools, ⟨hset.uxSizeEach.trans hlow.uxSizeEach,
    hset.uiIncrement.trans hlow.uiIncrement, hset.uiMaxNumRes.trans hlow.uiMaxNumRes⟩, ?_⟩
  intro hnil
  rw [hnil, List.length_nil] at hlen
  omega

/-- A pool without a cap and with an increment serves its size, or any size if it has
none. -/
theorem RsrcPool.new_serves (name : String) {size n : ℕ} (uiInitAlloc : UInt16)
    {uiIncrement : UInt16} (hinc : uiIncrement ≠ 0) (hsize : size = 0 ∨ size = n) :
    (RsrcPool.new name size uiInitAlloc uiIncrement 0).Serves n :=
  ⟨rfl, hinc, hsize⟩

theorem prviRsrcInitPool_available {h : Heap} (hm : h.MemoryAvailable) (pp : PoolPtr)
    (name : String) (size : ℕ) (uiInitAlloc uiIncrement uiMaxNumRes : UInt16) :
    ∃ added h' pool', prviRsrcInitPool h pp name size uiInitAlloc uiIncrement uiMaxNumRes =
        .ok (added, h', pool') ∧ h'.mallocOk = h.mallocOk ∧ h'.pools = h.pools ∧
      (RsrcPool.new name size uiInitAlloc uiIncrement uiMaxNumRes).SameSettings pool' := by
  by_cases hz : uiInitAlloc = 0
  · exact ⟨0, h, _, by simp [prviRsrcInitPool, hz], rfl, rfl, ⟨rfl, rfl, rfl⟩⟩
  · rcases prviRsrcAdd2Pool_available hm pp
      (RsrcPool.new name size uiInitAlloc uiIncrement uiMaxNumRes) hz size with
      ⟨h', pool', hadd, hmalloc, hpools, hset, -⟩
    exact ⟨uiInitAlloc.toNat, h', pool', by simp [prviRsrcInitPool, hz, hadd], hmalloc, hpools,
      hset⟩

/-- The first resource of a freelist is handed out with zero bytes. -/
theorem takeResource_spec {h : Heap} {pp : PoolPtr} {pool pool₀ : RsrcPool} (name : String)
    (n : ℕ) (hfree : pool.pxFreelist ≠ []) (hpool : h.pools pp = some pool₀)
    (hset : pool₀.SameSettings pool) :
    ∃ a h', takeResource h pp pool (some name) n = .ok (some a, h') ∧
      h'.mem a = some (List.replicate n 0) ∧ h.SameSupply h' := by
  cases hfl : pool.pxFreelist with
  | nil => exact absurd hfl hfree
  | cons a rest =>
    simp only [takeResource, hfl]
    refine ⟨a, _, rfl, Heap.setBlock_self _ _ _, rfl, ?_⟩
    intro q qpool hq
    by_cases hqp : q = pp
    · subst hqp
      rw [hpool, Option.some.injEq] at hq
      subst hq
      exact ⟨_, Function.update_self q _ h.pools, hset.uxSizeEach, hset.uiIncrement,
        hset.uiMaxNumRes⟩
    · exact ⟨qpool, (Function.update_of_ne hqp _ h.pools).trans hq, .rfl _⟩

/-- What a new resource contains. Under Valgrind it comes from the heap as it is. -/
def freshBytes (h : Heap) (n : ℕ) : Bytes :=
  if pf.valgrind then h.stale h.brk n else List.replicate n 0

@[simp] theorem freshBytes_length (h : Heap) (n : ℕ) : (freshBytes pf h n).length = n := by
  by_cases hv : pf.valgrind = true <;> simp [freshBytes, hv]

/-- With memory available a pool which serves the size answers a named request. -/
theorem pxRsrcVarAlloc_serves {h : Heap} {pp : PoolPtr} {pool : RsrcPool} {n : ℕ}
    (hm : h.MemoryAvailable) (hpool : h.pools pp = some pool) (hs : pool.Serves n)
    (hn : n ≠ 0) (name : String) :
    ∃ a h', pxRsrcVarAlloc pf h (some pp) (some name) n = .ok (some a, h') ∧
      h'.mem a = some (freshBytes pf h n) ∧ h.SameSupply h' := by
  have hcall : h.mallocOk h.calls = true := hm _
  by_cases hv : pf.valgrind = true
  · rw [pxRsrcVarAlloc, if_pos hv, pvRsMemAlloc, if_pos hcall, freshBytes, if_pos hv]
    exact ⟨h.brk, _, rfl, Heap.setBlock_self _ _ _, .of_pools rfl rfl⟩
  · have hrefused : rsrcRefused pool (some name) n = false := by
      have hsize : pool.uxSizeEach = 0 ∨ n = pool.uxSizeEach := hs.uxSizeEach.imp id Eq.symm
      rcases hsize with hz | hz
      · simp [rsrcRefused, hn, hs.uiMaxNumRes, hz]
      · simp [rsrcRefused, hs.uiMaxNumRes, ← hz, hn]
    have hinc := hs.uiIncrement
    rw [freshBytes, if_neg hv]
    cases hfl : pool.pxFreelist with
    | cons b rest =>
      have htake := takeResource_spec name n (by simp [hfl]) hpool (.rfl pool)
      simpa [pxRsrcVarAlloc, hv, hpool, hrefused, hfl, pure, Except.pure] using htake
    | nil =>
      rcases prviRsrcAdd2Pool_available hm pp pool hinc n with
        ⟨h₁, pool₁, hadd, hmalloc, hpools, hset, hne⟩
      have hcount : pool.uiIncrement.toNat ≠ 0 := fun h0 => hinc (UInt16.toNat_inj.mp h0)
      have hthere : h₁.pools pp = some pool := by rw [hpools, hpool]
      rcases takeResource_spec name n hne hthere hset with ⟨a, h', htake, hmem, hsupply⟩
      refine ⟨a, h', ?_, hmem, Heap.SameSupply.trans (.of_pools hmalloc hpools) hsupply⟩
      simp [pxRsrcVarAlloc, hv, hpool, hrefused, hfl, hadd, hcount, htake, pure, Except.pure]

end RinaSense.Common
