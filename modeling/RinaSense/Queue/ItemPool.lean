import RinaSense.Common.Rsrc
import RinaSense.Queue.RsQueue

/-!
# The pool of a queue in memory

The count which the queue model keeps of its pool is that of a resource pool in memory
which grows by one resource and frees on release.
-/

namespace RinaSense.Queue

open Common Library.Memory

variable (pf : Platform)

/-- A pool in memory which lends what the count says and keeps no resource. -/
structure Lends (pool : RsrcPool) (items : ItemPool) : Prop where
  uiMaxNumRes : pool.uiMaxNumRes.toNat = items.uiMaxNumRes
  uiNumInUse : pool.uiNumInUse.toNat = items.uiNumInUse
  uiNumFree : pool.uiNumFree = 0
  pxFreelist : pool.pxFreelist = []
  uiIncrement : pool.uiIncrement = 1
  uxSizeEach : pool.uxSizeEach ≠ 0
  uiFreeOnFree : pool.uiFreeOnFree = true

theorem new_lends (name : String) {size : ℕ} (hs : size ≠ 0) (uiMaxNumRes : UInt16) :
    Lends (RsrcPool.new name size 0 1 uiMaxNumRes) ⟨uiMaxNumRes.toNat, 0⟩ where
  uiMaxNumRes := rfl
  uiNumInUse := rfl
  uiNumFree := rfl
  pxFreelist := rfl
  uiIncrement := rfl
  uxSizeEach := hs
  uiFreeOnFree := by simp [RsrcPool.new]

theorem rsrcRefused_iff {pool : RsrcPool} {items : ItemPool} (hl : Lends pool items)
    (name : String) :
    rsrcRefused pool (some name) pool.uxSizeEach = true ↔ items.pxRsrcAlloc = none := by
  have hmax : pool.uiMaxNumRes = 0 ↔ items.uiMaxNumRes = 0 := by
    rw [← hl.uiMaxNumRes, ← UInt16.toNat_inj]
    rfl
  simp [rsrcRefused, ItemPool.pxRsrcAlloc, hl.uxSizeEach, hl.uiNumFree, hl.uiMaxNumRes,
    hl.uiNumInUse, hmax]

/-- A request which the count refuses gets nothing. -/
theorem pxRsrcAlloc_refused {h : Heap} {pp : PoolPtr} {pool : RsrcPool} {items : ItemPool}
    (hv : pf.valgrind = false) (hpool : h.pools pp = some pool) (hl : Lends pool items)
    (hnone : items.pxRsrcAlloc = none) (name : String) :
    pxRsrcAlloc pf h (some pp) (some name) = .ok (none, h) := by
  have hr := (rsrcRefused_iff hl name).mpr hnone
  simp [pxRsrcAlloc, pxRsrcVarAlloc, hv, hpool, hr, pure, Except.pure]

/-- A pool which lends the same but has one resource on its freelist. -/
structure LendsWith (pool : RsrcPool) (items : ItemPool) (a : ℕ) : Prop where
  uiMaxNumRes : pool.uiMaxNumRes.toNat = items.uiMaxNumRes
  uiNumInUse : pool.uiNumInUse.toNat = items.uiNumInUse
  uiNumFree : pool.uiNumFree = 1
  pxFreelist : pool.pxFreelist = [a]
  uiIncrement : pool.uiIncrement = 1
  uxSizeEach : pool.uxSizeEach ≠ 0
  uiFreeOnFree : pool.uiFreeOnFree = true

/-- The pool grows by one resource. -/
theorem prviRsrcAdd2Pool_one {h : Heap} (hm : h.MemoryAvailable) (pp : PoolPtr)
    {pool : RsrcPool} {items : ItemPool} (hl : Lends pool items) (len : ℕ) :
    ∃ h' pool', prviRsrcAdd2Pool h pp pool 1 len = .ok (1, h', pool') ∧
      h'.pools = h.pools ∧ LendsWith pool' items h.brk := by
  have hcall : h.mallocOk h.calls = true := hm _
  have hlow : Lends (if pool.uiNumInUse.toNat + pool.uiNumFree.toNat = 0 then
      { pool with uiLowWater := 1 } else pool) items := by
    split
    · exact ⟨hl.uiMaxNumRes, hl.uiNumInUse, hl.uiNumFree, hl.pxFreelist, hl.uiIncrement,
        hl.uxSizeEach, hl.uiFreeOnFree⟩
    · exact hl
  simp only [prviRsrcAdd2Pool, hcall, if_true, show (1 : UInt16) ≠ 0 by decide, if_false]
  generalize (if pool.uiNumInUse.toNat + pool.uiNumFree.toNat = 0 then
    { pool with uiLowWater := 1 } else pool) = low at hlow ⊢
  refine ⟨_, _, rfl, ?_, ?_⟩
  · change (prvvFreeResTail _ pp low h.brk).1.pools = h.pools
    simp only [prvvFreeResTail, hlow.uxSizeEach, if_false]
    rfl
  · change LendsWith (prvvFreeResTail _ pp low h.brk).2 items h.brk
    refine ⟨hlow.uiMaxNumRes, hlow.uiNumInUse, ?_, ?_, hlow.uiIncrement, hlow.uxSizeEach,
      hlow.uiFreeOnFree⟩
    · simp [prvvFreeResTail, hlow.uiNumFree]
    · simp [prvvFreeResTail, hlow.pxFreelist]

/-- A request which the count grants gets an item, while the count fits its field. -/
theorem pxRsrcAlloc_granted {h : Heap} {pp : PoolPtr} {pool : RsrcPool}
    {items items' : ItemPool} (hv : pf.valgrind = false) (hm : h.MemoryAvailable)
    (hpool : h.pools pp = some pool) (hl : Lends pool items)
    (hsome : items.pxRsrcAlloc = some items') (hfit : items'.uiNumInUse < UInt16.size)
    (name : String) :
    ∃ a h' pool', pxRsrcAlloc pf h (some pp) (some name) = .ok (some a, h') ∧
      h'.pools pp = some pool' ∧ Lends pool' items' := by
  have hr : rsrcRefused pool (some name) pool.uxSizeEach = false := by
    cases hc : rsrcRefused pool (some name) pool.uxSizeEach
    · rfl
    · rw [(rsrcRefused_iff hl name).mp hc] at hsome
      cases hsome
  rcases prviRsrcAdd2Pool_one hm pp hl pool.uxSizeEach with ⟨h₁, pool₁, hadd, -, hl₁⟩
  have htake : pxRsrcAlloc pf h (some pp) (some name) =
      takeResource h₁ pp pool₁ (some name) pool.uxSizeEach := by
    simp [pxRsrcAlloc, pxRsrcVarAlloc, hv, hpool, hr, hl.pxFreelist, hl.uiIncrement, hadd]
  rw [htake]
  simp only [takeResource, hl₁.pxFreelist]
  rw [(ItemPool.pxRsrcAlloc_eq_some.mp hsome).2] at hfit ⊢
  refine ⟨h.brk, _, _, rfl, Function.update_self pp _ h₁.pools, hl₁.uiMaxNumRes, ?_, ?_, rfl,
    hl₁.uiIncrement, hl₁.uxSizeEach, hl₁.uiFreeOnFree⟩
  · rw [UInt16.toNat_add, hl₁.uiNumInUse]
    exact Nat.mod_eq_of_lt hfit
  · rw [hl₁.uiNumFree]
    rfl

/-- The release of an item which is in use. -/
theorem vRsrcFree_lends {h : Heap} {pp : PoolPtr} {pool : RsrcPool} {items : ItemPool}
    (hv : pf.valgrind = false) (hpool : h.pools pp = some pool) (hl : Lends pool items)
    (hpos : 0 < items.uiNumInUse) {a : ℕ} {name : Option String}
    (hrsrc : h.rsrcs a = some ⟨pp, name, false⟩) :
    ∃ h' pool', vRsrcFree pf h (some ⟨a, 0⟩) = .ok h' ∧ h'.pools pp = some pool' ∧
      Lends pool' items.vRsrcFree := by
  have hfree : vRsrcFree pf h (some ⟨a, 0⟩) = .ok (((h.setPool pp { pool with
      xActive := pool.xActive.erase a
      uiNumInUse := pool.uiNumInUse - 1 }).setRsrc a none).setBlock a none) := by
    simp [vRsrcFree, hv, hrsrc, hpool, hl.uiFreeOnFree, pure, Except.pure]
  refine ⟨_, _, hfree, Function.update_self pp _ h.pools, hl.uiMaxNumRes, ?_, hl.uiNumFree,
    hl.pxFreelist, hl.uiIncrement, hl.uxSizeEach, hl.uiFreeOnFree⟩
  have hle : (1 : UInt16) ≤ pool.uiNumInUse := by
    rw [UInt16.le_iff_toNat_le, hl.uiNumInUse]
    exact hpos
  rw [UInt16.toNat_sub_of_le _ _ hle, hl.uiNumInUse]
  rfl

end RinaSense.Queue
