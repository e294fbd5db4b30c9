import RinaSense.Common.Rsrc
import RinaSense.Library.Runs

/-!
# Programs which use a resource pool

A pool from its creation on, through any requests and releases. What it lends and what it keeps
are two lists; a call moves one resource between them or brings in the increment of the pool.
-/

namespace RinaSense.Common

open Library.Memory Library.Runs

/-- Settings which `pxRsrcNewPool` accepts. -/
structure PoolArgs where
  pcName : String
  xRsrcSize : ℕ
  uiInitAlloc : UInt16
  uiIncrement : UInt16
  uiMaxNumRes : UInt16
  some_resource : uiIncrement.toNat + uiInitAlloc.toNat ≠ 0
  variable_size : xRsrcSize = 0 → uiInitAlloc.toNat ≤ 1 ∧ uiIncrement.toNat ≤ 1

/-- The struct of the pool is itself a resource, of the pool of pools, and is given here. -/
def pxRsrcNewPool (h : Heap) (pxPool : Option PoolPtr) (pcName : Option String)
    (xRsrcSize uiInitalloc uiIncrement uiMaxNumRes : ℕ) : Exec (Option PoolPtr × Heap) :=
  match pcName with
  | none => .error .abort
  | some pcName =>
    if 65535 < (uiInitalloc ||| uiIncrement ||| uiMaxNumRes) ∨ uiIncrement + uiInitalloc = 0 then
      .error .abort
    else if xRsrcSize = 0 ∧ (1 < uiInitalloc ∨ 1 < uiIncrement) then .ok (none, h)
    else
      match pxPool with
      | none => .ok (none, h)
      | some pp => do
        let (_, h, pool) ← prviRsrcInitPool h pp pcName xRsrcSize (.ofNat uiInitalloc)
          (.ofNat uiIncrement) (.ofNat uiMaxNumRes)
        return (some pp, h.setPool pp pool)

def PoolArgs.create (a : PoolArgs) (h : Heap) (pp : PoolPtr) : Exec (Option PoolPtr × Heap) :=
  pxRsrcNewPool h (some pp) (some a.pcName) a.xRsrcSize a.uiInitAlloc.toNat a.uiIncrement.toNat
    a.uiMaxNumRes.toNat

/-- The pool keeps the resources which come back. -/
def PoolArgs.Keeps (a : PoolArgs) : Prop := 1 < a.uiIncrement.toNat ∨ 1 < a.uiInitAlloc.toNat

instance (a : PoolArgs) : Decidable a.Keeps :=
  inferInstanceAs (Decidable (1 < a.uiIncrement.toNat ∨ 1 < a.uiInitAlloc.toNat))

inductive PoolOp
  | varAlloc (pcRequestor : Option String) (xPayloadLen : ℕ)
  | alloc (pcRequestor : Option String)
  | free (pvResPayload : Option Ptr)

/-- The heap with the resources which are out, the last one first, and all that ever were. -/
structure PoolState where
  heap : Heap
  lent : List ℕ
  seen : List ℕ

def PoolState.lend (s : PoolState) (out : Option ℕ × Heap) : PoolState :=
  ⟨out.2, out.1.toList ++ s.lent, out.1.toList ++ s.seen⟩

variable (pf : Platform) (pp : PoolPtr)

def PoolState.step (s : PoolState) : PoolOp → Option PoolState
  | .varAlloc pcRequestor xPayloadLen =>
    (pxRsrcVarAlloc pf s.heap (some pp) pcRequestor xPayloadLen).toOption.map s.lend
  | .alloc pcRequestor => (pxRsrcAlloc pf s.heap (some pp) pcRequestor).toOption.map s.lend
  | .free pvResPayload =>
    (vRsrcFree pf s.heap pvResPayload).toOption.map fun h =>
      ⟨h, pvResPayload.elim s.lent fun p => s.lent.erase p.block, s.seen⟩

/-! ### The lists of a pool -/

/-- A pool in the abstract. -/
structure Shelf where
  lent : List ℕ
  free : List ℕ
  seen : List ℕ

def Shelf.total (t : Shelf) : ℕ := t.lent.length + t.free.length

/-- The test of a request against the cap, by counters of 16 bits. -/
def PoolArgs.Admits (a : PoolArgs) (t : Shelf) : Prop :=
  a.uiMaxNumRes = 0 ∨ t.lent.length % 65536 + t.free.length % 65536 < a.uiMaxNumRes.toNat

/-- What a call can do to a pool. -/
inductive Shelf.Move (a : PoolArgs) (t : Shelf) : Shelf → Prop
  | takes {x : ℕ} {rest : List ℕ} : t.free = x :: rest → a.Admits t →
      Move a t ⟨x :: t.lent, rest, x :: t.seen⟩
  | grows {x : ℕ} {rest : List ℕ} : t.free = [] → a.Admits t →
      rest.length + 1 = a.uiIncrement.toNat → Move a t ⟨x :: t.lent, rest, x :: t.seen⟩
  | returns {x : ℕ} : x ∈ t.lent → a.Keeps → Move a t ⟨t.lent.erase x, x :: t.free, t.seen⟩
  | drops {x : ℕ} : x ∈ t.lent → ¬ a.Keeps → Move a t ⟨t.lent.erase x, t.free, t.seen⟩

/-- The pool has the settings it was created with. -/
structure Configured (a : PoolArgs) (pool : RsrcPool) : Prop where
  uxSizeEach : pool.uxSizeEach = a.xRsrcSize
  uiIncrement : pool.uiIncrement = a.uiIncrement
  uiMaxNumRes : pool.uiMaxNumRes = a.uiMaxNumRes
  uiFreeOnFree : pool.uiFreeOnFree = decide (¬ a.Keeps)

/-- The resources of the pool are in its lists by their flags, but for one on its way from one
list to the other, and its counters follow the lengths. -/
structure Stock (h : Heap) (pool : RsrcPool) (out : Option ℕ) : Prop where
  below : ∀ x rsrc, h.rsrcs x = some rsrc → x < h.brk
  active : ∀ x, x ∈ pool.xActive ↔
    out ≠ some x ∧ ∃ name, h.rsrcs x = some ⟨pp, name, false⟩
  free : ∀ x, x ∈ pool.pxFreelist ↔
    out ≠ some x ∧ ∃ name, h.rsrcs x = some ⟨pp, name, true⟩
  active_nodup : pool.xActive.Nodup
  free_nodup : pool.pxFreelist.Nodup
  uiNumInUse : pool.uiNumInUse = .ofNat pool.xActive.length
  uiNumFree : pool.uiNumFree = .ofNat pool.pxFreelist.length

/-- The pool in the heap has the lists. -/
def Stocked (a : PoolArgs) (h : Heap) (lent free : List ℕ) : Prop :=
  ∃ pool, h.pools pp = some pool ∧ Configured a pool ∧ Stock pp h pool none ∧
    pool.xActive = lent ∧ pool.pxFreelist = free

/-- The pool is the one on the shelf. Under Valgrind nothing is ever taken from it. -/
structure Shelved (a : PoolArgs) (s : PoolState) (t : Shelf) : Prop where
  stocked : Stocked pp a s.heap t.lent t.free
  lent : pf.valgrind = false → s.lent = t.lent
  seen : pf.valgrind = false → s.seen = t.seen

/-- No resource of the heap is of the pool. -/
def Heap.Without (h : Heap) : Prop :=
  ∀ x rsrc, h.rsrcs x = some rsrc → x < h.brk ∧ rsrc.pxPool ≠ pp

/-- A program creates the pool and comes to the state. -/
def PoolReached (a : PoolArgs) (s : PoolState) : Prop :=
  ∃ (h h₀ : Heap) (ops : List PoolOp), h.Without pp ∧ a.create h pp = .ok (some pp, h₀) ∧
    ops.foldlM (PoolState.step pf pp) ⟨h₀, [], []⟩ = some s

variable {pf pp} {a : PoolArgs} {h h' : Heap} {pool : RsrcPool} {x : ℕ} {lent free : List ℕ}
  {s s' : PoolState} {t t' : Shelf}

/-! ### Creation -/

theorem or_le_iff (i j k : ℕ) : ¬ 65535 < (i ||| j ||| k) ↔ i ≤ 65535 ∧ j ≤ 65535 ∧ k ≤ 65535 := by
  constructor
  · intro hle
    have hij := Nat.left_le_or (n := i ||| j) (m := k)
    have hi := Nat.left_le_or (n := i) (m := j)
    have hj := Nat.right_le_or (n := i) (m := j)
    have hk := Nat.right_le_or (n := i ||| j) (m := k)
    omega
  · rintro ⟨hi, hj, hk⟩
    have hij : i ||| j < 2 ^ 16 := Nat.or_lt_two_pow (by omega) (by omega)
    have hijk : i ||| j ||| k < 2 ^ 16 := Nat.or_lt_two_pow hij (by omega)
    omega

theorem PoolArgs.create_eq (a : PoolArgs) (h : Heap) (pp : PoolPtr) :
    a.create h pp = (do
      let (_, h, pool) ← prviRsrcInitPool h pp a.pcName a.xRsrcSize a.uiInitAlloc a.uiIncrement
        a.uiMaxNumRes
      return (some pp, h.setPool pp pool)) := by
  have hle : ∀ n : UInt16, n.toNat ≤ 65535 := fun n => Nat.le_of_lt_succ n.toNat_lt
  have hfit := (or_le_iff a.uiInitAlloc.toNat a.uiIncrement.toNat a.uiMaxNumRes.toNat).mpr
    ⟨hle _, hle _, hle _⟩
  have hsize : ¬ (a.xRsrcSize = 0 ∧ (1 < a.uiInitAlloc.toNat ∨ 1 < a.uiIncrement.toNat)) := by
    rintro ⟨hzero, hmore⟩
    have hsingle := a.variable_size hzero
    omega
  rw [PoolArgs.create, pxRsrcNewPool, if_neg (not_or.mpr ⟨hfit, a.some_resource⟩), if_neg hsize]
  simp only [UInt16.ofNat_toNat]

/-- Every pool is created with such settings. -/
theorem pxRsrcNewPool_args {pxPool : Option PoolPtr} {pcName : Option String}
    {xRsrcSize uiInitalloc uiIncrement uiMaxNumRes : ℕ}
    (hnew : pxRsrcNewPool h pxPool pcName xRsrcSize uiInitalloc uiIncrement uiMaxNumRes =
      .ok (some pp, h')) :
    ∃ a : PoolArgs, a.xRsrcSize = xRsrcSize ∧ a.uiInitAlloc.toNat = uiInitalloc ∧
      a.uiIncrement.toNat = uiIncrement ∧ a.uiMaxNumRes.toNat = uiMaxNumRes ∧
      a.create h pp = .ok (some pp, h') := by
  unfold pxRsrcNewPool at hnew
  cases pcName with
  | none => cases hnew
  | some pcName =>
    simp only at hnew
    split_ifs at hnew with hfit hsize
    · cases hnew
    · obtain ⟨hbound, hsome⟩ := not_or.mp hfit
      obtain ⟨hi, hc, hm⟩ := (or_le_iff _ _ _).mp hbound
      have hnat : ∀ n, n ≤ 65535 → (UInt16.ofNat n).toNat = n := fun n hn =>
        UInt16.toNat_ofNat_of_lt' (Nat.lt_succ_of_le hn)
      cases pxPool with
      | none => cases hnew
      | some pq =>
        obtain ⟨out, hinit, hout⟩ := Exec.bind_eq_ok.mp hnew
        cases hout
        refine ⟨⟨pcName, xRsrcSize, .ofNat uiInitalloc, .ofNat uiIncrement, .ofNat uiMaxNumRes, ?_,
          fun hzero => ?_⟩, rfl, hnat _ hi, hnat _ hc, hnat _ hm, ?_⟩
        · rw [hnat _ hi, hnat _ hc]
          exact hsome
        · rw [hnat _ hi, hnat _ hc]
          have hsingle := not_and.mp hsize hzero
          omega
        · rw [PoolArgs.create_eq, hinit]
          rfl

/-! ### What a call does -/

theorem Stock.congr (hs : Stock pp h pool none)
    (hsame : ∀ x name flag, h'.rsrcs x = some ⟨pp, name, flag⟩ ↔ h.rsrcs x = some ⟨pp, name, flag⟩)
    (hbelow : ∀ x rsrc, h'.rsrcs x = some rsrc → x < h'.brk) : Stock pp h' pool none where
  below := hbelow
  active x := by simpa only [hsame] using hs.active x
  free x := by simpa only [hsame] using hs.free x
  active_nodup := hs.active_nodup
  free_nodup := hs.free_nodup
  uiNumInUse := hs.uiNumInUse
  uiNumFree := hs.uiNumFree

theorem Stocked.congr (hs : Stocked pp a h lent free) (hpool : h'.pools pp = h.pools pp)
    (hsame : ∀ x name flag, h'.rsrcs x = some ⟨pp, name, flag⟩ ↔ h.rsrcs x = some ⟨pp, name, flag⟩)
    (hbelow : ∀ x rsrc, h'.rsrcs x = some rsrc → x < h'.brk) : Stocked pp a h' lent free := by
  obtain ⟨pool, hp, hconf, hstock, hlists⟩ := hs
  exact ⟨pool, hpool.trans hp, hconf, hstock.congr hsame hbelow, hlists⟩

/-- The pool of the heap is as it was when only its memory is another one. -/
theorem Stocked.of_memory (hs : Stocked pp a h lent free) (hpools : h'.pools = h.pools)
    (hrsrcs : h'.rsrcs = h.rsrcs) (hbrk : h.brk ≤ h'.brk) : Stocked pp a h' lent free := by
  obtain ⟨pool, -, -, hstock, -⟩ := id hs
  refine hs.congr (by rw [hpools]) (fun x name flag => by rw [hrsrcs]) fun x rsrc hx => ?_
  exact Nat.lt_of_lt_of_le (hstock.below x rsrc (hrsrcs ▸ hx)) hbrk

theorem prvvFreeResTail_heap (h : Heap) (pp : PoolPtr) (pool : RsrcPool) (x : ℕ) :
    (prvvFreeResTail h pp pool x).1.rsrcs =
        Function.update h.rsrcs x (some ⟨pp, (h.rsrcs x).bind (·.pcResName), true⟩) ∧
      (prvvFreeResTail h pp pool x).1.pools = h.pools ∧
      (prvvFreeResTail h pp pool x).1.brk = h.brk ∧
      (prvvFreeResTail h pp pool x).1.mallocOk = h.mallocOk := by
  unfold prvvFreeResTail
  split <;> exact ⟨rfl, rfl, rfl, rfl⟩

/-- The resource which was on its way is on the freelist. -/
theorem Stock.put (hs : Stock pp h pool (some x)) (hx : x < h.brk) :
    Stock pp (prvvFreeResTail h pp pool x).1 (prvvFreeResTail h pp pool x).2 none := by
  obtain ⟨hrsrcs, -, hbrk, -⟩ := prvvFreeResTail_heap h pp pool x
  have hself := Function.update_self x (some (Rsrc.mk pp ((h.rsrcs x).bind (·.pcResName)) true))
    h.rsrcs
  have hother : ∀ y, y ≠ x → (prvvFreeResTail h pp pool x).1.rsrcs y = h.rsrcs y := fun y hy => by
    rw [hrsrcs, Function.update_of_ne hy]
  rw [← hrsrcs] at hself
  have hout : x ∉ pool.pxFreelist := fun hmem => ((hs.free x).mp hmem).1 rfl
  exact {
    below := fun y rsrc hy => by
      rw [hbrk]
      by_cases hyx : y = x
      · exact hyx ▸ hx
      · exact hs.below y rsrc ((hother y hyx).symm.trans hy)
    active := fun y => by
      change y ∈ pool.xActive ↔ _
      rw [hs.active y]
      by_cases hyx : y = x
      · subst hyx
        rw [hself]
        simp
      · rw [hother y hyx]
        simp [Ne.symm hyx]
    free := fun y => by
      change y ∈ x :: pool.pxFreelist ↔ _
      rw [List.mem_cons, hs.free y]
      by_cases hyx : y = x
      · subst hyx
        rw [hself]
        simp
      · rw [hother y hyx]
        simp [hyx, Ne.symm hyx]
    active_nodup := hs.active_nodup
    free_nodup := List.nodup_cons.mpr ⟨hout, hs.free_nodup⟩
    uiNumInUse := hs.uiNumInUse
    uiNumFree := by
      change pool.uiNumFree + 1 = .ofNat (pool.pxFreelist.length + 1)
      rw [hs.uiNumFree, UInt16.ofNat_add]
      rfl }

/-- New resources are at addresses which were never handed out. -/
theorem Stock.add (hs : Stock pp h pool none) (len n : ℕ) :
    Stock pp (addResources pp len n h pool).1 (addResources pp len n h pool).2 none ∧
      (addResources pp len n h pool).2.xActive = pool.xActive ∧
      (addResources pp len n h pool).2.uiFreeOnFree = pool.uiFreeOnFree := by
  induction n generalizing h pool with
  | zero => exact ⟨hs, rfl, rfl⟩
  | succ n ih =>
    obtain ⟨h₁, hh₁⟩ : ∃ h₁, h₁ =
      { h.setBlock h.brk (some (h.stale h.brk len)) with brk := h.brk + 1 } := ⟨_, rfl⟩
    have hrsrcs : h₁.rsrcs = h.rsrcs := by rw [hh₁]; rfl
    have hbrk : h₁.brk = h.brk + 1 := by rw [hh₁]
    have hne : ∀ y name flag, h.rsrcs y = some ⟨pp, name, flag⟩ → some h.brk ≠ some y := by
      intro y name flag hy heq
      exact Nat.ne_of_gt (hs.below y _ hy) (Option.some.inj heq)
    have hstart : Stock pp h₁ pool (some h.brk) := {
      below := fun y rsrc hy => by
        rw [hbrk]
        exact Nat.lt_succ_of_lt (hs.below y rsrc (hrsrcs ▸ hy))
      active := fun y => by
        rw [hs.active y, hrsrcs, and_iff_right (by simp)]
        exact ⟨fun ⟨name, hy⟩ => ⟨hne y name _ hy, name, hy⟩, And.right⟩
      free := fun y => by
        rw [hs.free y, hrsrcs, and_iff_right (by simp)]
        exact ⟨fun ⟨name, hy⟩ => ⟨hne y name _ hy, name, hy⟩, And.right⟩
      active_nodup := hs.active_nodup
      free_nodup := hs.free_nodup
      uiNumInUse := hs.uiNumInUse
      uiNumFree := hs.uiNumFree }
    have hput := hstart.put (by rw [hbrk]; exact Nat.lt_succ_self _)
    rw [addResources, ← hh₁]
    exact ih hput

theorem Configured.of_same {pool' : RsrcPool} (hc : Configured a pool)
    (hs : pool.SameSettings pool') (hf : pool'.uiFreeOnFree = pool.uiFreeOnFree) :
    Configured a pool' where
  uxSizeEach := hs.uxSizeEach.trans hc.uxSizeEach
  uiIncrement := hs.uiIncrement.trans hc.uiIncrement
  uiMaxNumRes := hs.uiMaxNumRes.trans hc.uiMaxNumRes
  uiFreeOnFree := hf.trans hc.uiFreeOnFree

/-- The pool has `uiCount` resources more on its freelist. -/
theorem Stock.grow (hs : Stock pp h pool none) (hc : Configured a pool) {uiCount : UInt16}
    (hcount : uiCount ≠ 0) (hmem : h.mallocOk h.calls = true) (len : ℕ) :
    ∃ h' pool', prviRsrcAdd2Pool h pp pool uiCount len = .ok (uiCount.toNat, h', pool') ∧
      Stock pp h' pool' none ∧ Configured a pool' ∧ pool'.xActive = pool.xActive ∧
      pool'.pxFreelist.length = uiCount.toNat + pool.pxFreelist.length ∧ h'.pools = h.pools ∧
      h'.mallocOk = h.mallocOk := by
  rw [prviRsrcAdd2Pool, if_neg hcount, if_pos hmem]
  obtain ⟨low, hlow⟩ : ∃ low, low = if pool.uiNumInUse.toNat + pool.uiNumFree.toNat = 0 then
    { pool with uiLowWater := uiCount } else pool := ⟨_, rfl⟩
  have hsame : pool.SameSettings low ∧ low.uiFreeOnFree = pool.uiFreeOnFree ∧
      low.xActive = pool.xActive ∧ low.pxFreelist = pool.pxFreelist ∧
      Stock pp h.called low none := by
    have hcalled : Stock pp h.called pool none := hs.congr (fun _ _ _ => Iff.rfl) hs.below
    rw [hlow]
    split
    · exact ⟨⟨rfl, rfl, rfl⟩, rfl, rfl, rfl, hcalled.below, hcalled.active, hcalled.free,
        hcalled.active_nodup, hcalled.free_nodup, hcalled.uiNumInUse, hcalled.uiNumFree⟩
    · exact ⟨.rfl pool, rfl, rfl, rfl, hcalled⟩
  obtain ⟨hset, hfree, hactive, hlist, hstart⟩ := hsame
  obtain ⟨hstock, hactive', hfree'⟩ := hstart.add len uiCount.toNat
  obtain ⟨hmalloc, hpools, hset', hlen⟩ := addResources_spec pp len uiCount.toNat h.called low
  simp only [← hlow]
  exact ⟨_, _, rfl, hstock, (hc.of_same hset hfree).of_same hset' hfree',
    hactive'.trans hactive, hlen.trans (by rw [hlist]), hpools, hmalloc⟩

/-- The first resource of the freelist is handed out. -/
theorem Stock.take {rest : List ℕ} (hs : Stock pp h pool none) (hc : Configured a pool)
    (hfree : pool.pxFreelist = x :: rest) (pcRequestor : Option String) (xPayloadLen : ℕ) :
    ∃ h', takeResource h pp pool pcRequestor xPayloadLen = .ok (some x, h') ∧
      Stocked pp a h' (x :: pool.xActive) rest ∧ h'.mallocOk = h.mallocOk := by
  obtain ⟨hout, hrest⟩ := List.nodup_cons.mp (hfree ▸ hs.free_nodup)
  obtain ⟨-, name, hx⟩ := (hs.free x).mp (by rw [hfree]; exact List.mem_cons_self)
  have hactive : x ∉ pool.xActive := fun hmem => by
    obtain ⟨-, name', hx'⟩ := (hs.active x).mp hmem
    rw [hx] at hx'
    cases hx'
  simp only [takeResource, hfree]
  refine ⟨_, rfl, ⟨_, Function.update_self pp _ h.pools,
    ⟨hc.uxSizeEach, hc.uiIncrement, hc.uiMaxNumRes, hc.uiFreeOnFree⟩,
    ⟨fun y rsrc hy => ?_, fun y => ?_, fun y => ?_, List.nodup_cons.mpr ⟨hactive, hs.active_nodup⟩,
      hrest, ?_, ?_⟩, rfl, rfl⟩, rfl⟩
  · change Function.update h.rsrcs x _ y = _ at hy
    change y < h.brk
    by_cases hyx : y = x
    · exact hyx ▸ hs.below x _ hx
    · rw [Function.update_of_ne hyx] at hy
      exact hs.below y rsrc hy
  · change _ ↔ _ ∧ ∃ name, Function.update h.rsrcs x _ y = _
    rw [List.mem_cons, hs.active y]
    by_cases hyx : y = x
    · subst hyx
      simp
    · simp [hyx]
  · change _ ↔ _ ∧ ∃ name, Function.update h.rsrcs x _ y = _
    by_cases hyx : y = x
    · subst hyx
      simpa using hout
    · have hy := hs.free y
      rw [hfree, List.mem_cons, or_iff_right hyx] at hy
      rw [hy, Function.update_of_ne hyx]
  · change pool.uiNumInUse + 1 = .ofNat (pool.xActive.length + 1)
    rw [hs.uiNumInUse, UInt16.ofNat_add]
    rfl
  · change pool.uiNumFree - 1 = .ofNat rest.length
    rw [hs.uiNumFree, hfree, List.length_cons, UInt16.ofNat_add]
    simp

/-- A request of a named requestor for the size of the pool. -/
def PoolArgs.Fits (a : PoolArgs) (pcRequestor : Option String) (xPayloadLen : ℕ) : Prop :=
  pcRequestor.isSome ∧ xPayloadLen ≠ 0 ∧ (a.xRsrcSize = 0 ∨ xPayloadLen = a.xRsrcSize)

theorem rsrcRefused_eq_false {pcRequestor : Option String} {n : ℕ} (hs : Stock pp h pool none)
    (hc : Configured a pool) (seen : List ℕ) :
    rsrcRefused pool pcRequestor n = false ↔
      a.Fits pcRequestor n ∧ a.Admits ⟨pool.xActive, pool.pxFreelist, seen⟩ := by
  have hnat : ∀ k : ℕ, (UInt16.ofNat k).toNat = k % 65536 := fun k => UInt16.toNat_ofNat'
  simp only [rsrcRefused, PoolArgs.Fits, PoolArgs.Admits, hc.uxSizeEach, hc.uiMaxNumRes,
    hs.uiNumInUse, hs.uiNumFree, hnat, Bool.or_eq_false_iff, Bool.and_eq_false_iff,
    decide_eq_false_iff_not, beq_eq_false_iff_ne, bne_eq_false_iff_eq, Nat.not_le,
    Option.isNone_eq_false_iff, and_assoc]
  constructor
  · rintro ⟨hsome, hn, hcap, hsize⟩
    exact ⟨hsome, hn, hsize, hcap⟩
  · rintro ⟨hsome, hn, hsize, hcap⟩
    exact ⟨hsome, hn, hcap, hsize⟩

section Requests

variable (hv : pf.valgrind = false) (hs : Stocked pp a h t.lent t.free)
  {pcRequestor : Option String} {n : ℕ}

include hv hs in
theorem Stocked.refused (hno : ¬ (a.Fits pcRequestor n ∧ a.Admits t)) :
    pxRsrcVarAlloc pf h (some pp) pcRequestor n = .ok (none, h) := by
  obtain ⟨pool, hpool, hconf, hstock, hactive, hfree⟩ := hs
  have hrefused : rsrcRefused pool pcRequestor n = true := by
    refine eq_true_of_ne_false fun hfalse => hno ?_
    have hboth := (rsrcRefused_eq_false hstock hconf t.seen).mp hfalse
    rwa [hactive, hfree] at hboth
  simp [pxRsrcVarAlloc, hv, hpool, hrefused, pure, Except.pure]

include hv hs in
/-- A request which the pool admits is served from the freelist, or from new memory. -/
theorem Stocked.admitted (hfits : a.Fits pcRequestor n) (hadmits : a.Admits t) :
    (∃ x rest h', t.free = x :: rest ∧
        pxRsrcVarAlloc pf h (some pp) pcRequestor n = .ok (some x, h') ∧
        Stocked pp a h' (x :: t.lent) rest ∧ h'.mallocOk = h.mallocOk) ∨
      t.free = [] ∧
        (a.uiIncrement = 0 ∧ pxRsrcVarAlloc pf h (some pp) pcRequestor n = .ok (none, h) ∨
          h.mallocOk h.calls = false ∧
            pxRsrcVarAlloc pf h (some pp) pcRequestor n = .error .abort ∨
          ∃ x rest h', rest.length + 1 = a.uiIncrement.toNat ∧
            pxRsrcVarAlloc pf h (some pp) pcRequestor n = .ok (some x, h') ∧
            Stocked pp a h' (x :: t.lent) rest ∧ h'.mallocOk = h.mallocOk) := by
  obtain ⟨pool, hpool, hconf, hstock, hactive, hfree⟩ := hs
  have hadmitted : rsrcRefused pool pcRequestor n = false :=
    (rsrcRefused_eq_false hstock hconf t.seen).mpr ⟨hfits, by rwa [hactive, hfree]⟩
  cases hlist : t.free with
  | cons x rest =>
    have hpf : pool.pxFreelist = x :: rest := hfree.trans hlist
    obtain ⟨h', htake, hst, hmalloc⟩ := hstock.take hconf hpf pcRequestor n
    refine Or.inl ⟨x, rest, h', rfl, ?_, hactive ▸ hst, hmalloc⟩
    simp [pxRsrcVarAlloc, hv, hpool, hadmitted, hpf, htake, pure, Except.pure]
  | nil =>
    refine Or.inr ⟨rfl, ?_⟩
    have hpf : pool.pxFreelist = [] := hfree.trans hlist
    by_cases hinc : a.uiIncrement = 0
    · refine Or.inl ⟨hinc, ?_⟩
      simp [pxRsrcVarAlloc, hv, hpool, hadmitted, hpf, hconf.uiIncrement, hinc, prviRsrcAdd2Pool,
        pure, Except.pure]
    · cases hmem : h.mallocOk h.calls with
      | false =>
        refine Or.inr (Or.inl ⟨rfl, ?_⟩)
        simp [pxRsrcVarAlloc, hv, hpool, hadmitted, hpf, hconf.uiIncrement, hinc,
          prviRsrcAdd2Pool, hmem, bind, Except.bind]
      | true =>
        obtain ⟨h₁, pool₁, hadd, hstock₁, hconf₁, hactive₁, hlen, hpools, hmalloc⟩ :=
          hstock.grow hconf hinc hmem n
        have hcount : a.uiIncrement.toNat ≠ 0 := fun h0 => hinc (UInt16.toNat_inj.mp h0)
        rw [hpf, List.length_nil, Nat.add_zero] at hlen
        cases hpf₁ : pool₁.pxFreelist with
        | nil =>
          rw [hpf₁] at hlen
          exact absurd hlen.symm hcount
        | cons x rest =>
          obtain ⟨h', htake, hst, hmalloc'⟩ := hstock₁.take hconf₁ hpf₁ pcRequestor n
          rw [hactive₁, hactive] at hst
          rw [hpf₁] at hlen
          refine Or.inr (Or.inr ⟨x, rest, h', hlen, ?_, hst, hmalloc'.trans hmalloc⟩)
          simp [pxRsrcVarAlloc, hv, hpool, hadmitted, hpf, hconf.uiIncrement, hadd, hcount, htake,
            pure, Except.pure]

end Requests

theorem pxRsrcAlloc_eq (hs : Stocked pp a h lent free) (pcRequestor : Option String) :
    pxRsrcAlloc pf h (some pp) pcRequestor =
      pxRsrcVarAlloc pf h (some pp) pcRequestor a.xRsrcSize := by
  obtain ⟨pool, hpool, hconf, -⟩ := hs
  rw [pxRsrcAlloc, hpool, inBounds_some, Exec.ok_bind, hconf.uxSizeEach]

/-- Under Valgrind requests and releases go to the heap. -/
theorem pvRsMemAlloc_keeps (h : Heap) (n : ℕ) :
    (pvRsMemAlloc h n).2.pools = h.pools ∧ (pvRsMemAlloc h n).2.rsrcs = h.rsrcs ∧
      h.brk ≤ (pvRsMemAlloc h n).2.brk ∧ (pvRsMemAlloc h n).2.mallocOk = h.mallocOk := by
  unfold pvRsMemAlloc
  split
  · exact ⟨rfl, rfl, Nat.le_succ _, rfl⟩
  · exact ⟨rfl, rfl, Nat.le_refl _, rfl⟩

theorem Shelved.varAlloc (hs : Shelved pf pp a s t) {pcRequestor : Option String} {n : ℕ}
    {out : Option ℕ × Heap}
    (hcode : pxRsrcVarAlloc pf s.heap (some pp) pcRequestor n = .ok out) :
    ∃ t', Shelved pf pp a (s.lend out) t' ∧ (t' = t ∨ pf.valgrind = false ∧ t.Move a t') ∧
      out.2.mallocOk = s.heap.mallocOk := by
  cases hv : pf.valgrind with
  | true =>
    rw [pxRsrcVarAlloc, if_pos hv, Except.ok.injEq] at hcode
    subst hcode
    obtain ⟨hpools, hrsrcs, hbrk, hmalloc⟩ := pvRsMemAlloc_keeps s.heap n
    refine ⟨t, ⟨hs.stocked.of_memory hpools hrsrcs hbrk, fun hfalse => ?_, fun hfalse => ?_⟩,
      Or.inl rfl, hmalloc⟩
    · rw [hv] at hfalse
      cases hfalse
    · rw [hv] at hfalse
      cases hfalse
  | false =>
    have hlend : ∀ {x : ℕ} {rest : List ℕ} {h' : Heap}, Stocked pp a h' (x :: t.lent) rest →
        Shelved pf pp a (s.lend (some x, h')) ⟨x :: t.lent, rest, x :: t.seen⟩ := fun hst =>
      ⟨hst, fun _ => congrArg _ (hs.lent hv), fun _ => congrArg _ (hs.seen hv)⟩
    by_cases hgranted : a.Fits pcRequestor n ∧ a.Admits t
    · obtain ⟨hfits, hadmits⟩ := hgranted
      rcases hs.stocked.admitted hv hfits hadmits with ⟨x, rest, h', hfree, hok, hst, hmalloc⟩ |
        ⟨hfree, ⟨-, hok⟩ | ⟨-, herr⟩ | ⟨x, rest, h', hlen, hok, hst, hmalloc⟩⟩
      · rw [hcode, Except.ok.injEq] at hok
        subst hok
        exact ⟨_, hlend hst, Or.inr ⟨rfl, .takes hfree hadmits⟩, hmalloc⟩
      · rw [hcode, Except.ok.injEq] at hok
        subst hok
        exact ⟨t, ⟨hs.stocked, hs.lent, hs.seen⟩, Or.inl rfl, rfl⟩
      · rw [hcode] at herr
        cases herr
      · rw [hcode, Except.ok.injEq] at hok
        subst hok
        exact ⟨_, hlend hst, Or.inr ⟨rfl, .grows hfree hadmits hlen⟩, hmalloc⟩
    · rw [hs.stocked.refused hv hgranted, Except.ok.injEq] at hcode
      subst hcode
      exact ⟨t, ⟨hs.stocked, hs.lent, hs.seen⟩, Or.inl rfl, rfl⟩

/-- A resource which is on the freelist is not released again. -/
theorem Stocked.free_again (hv : pf.valgrind = false) (hs : Stocked pp a h lent free)
    (hx : x ∈ free) : vRsrcFree pf h (some ⟨x, 0⟩) = .error .abort := by
  obtain ⟨pool, hpool, -, hstock, -, rfl⟩ := hs
  obtain ⟨-, name, hr⟩ := (hstock.free x).mp hx
  simp [vRsrcFree, hv, hr, hpool, bind, Except.bind]

/-- A resource which is on its way out of the active list. -/
theorem Stock.withdraw {name : Option String} (hs : Stock pp h pool none)
    (hx : x ∈ pool.xActive) (hr : h.rsrcs x = some ⟨pp, name, false⟩) :
    Stock pp h { pool with
      xActive := pool.xActive.erase x
      uiNumInUse := pool.uiNumInUse - 1 } (some x) where
  below := hs.below
  active y := by
    change y ∈ pool.xActive.erase x ↔ _
    rw [hs.active_nodup.mem_erase_iff, hs.active y]
    simp [eq_comm]
  free y := by
    change y ∈ pool.pxFreelist ↔ _
    rw [hs.free y]
    by_cases hyx : y = x
    · simp [hyx, hr]
    · simp [Ne.symm hyx]
  active_nodup := hs.active_nodup.erase x
  free_nodup := hs.free_nodup
  uiNumInUse := by
    change pool.uiNumInUse - 1 = .ofNat (pool.xActive.erase x).length
    obtain ⟨k, hk⟩ : ∃ k, pool.xActive.length = k + 1 :=
      Nat.exists_eq_succ_of_ne_zero (Nat.ne_of_gt (List.length_pos_of_mem hx))
    rw [hs.uiNumInUse, List.length_erase_of_mem hx, hk, UInt16.ofNat_add]
    simp
  uiNumFree := hs.uiNumFree

/-- The resource which was on its way is gone. -/
theorem Stock.drop (hs : Stock pp h pool (some x)) (hself : h'.rsrcs x = none)
    (hother : ∀ y, y ≠ x → h'.rsrcs y = h.rsrcs y) (hbrk : h'.brk = h.brk) :
    Stock pp h' pool none where
  below y rsrc hy := by
    by_cases hyx : y = x
    · rw [hyx, hself] at hy
      cases hy
    · rw [hbrk]
      exact hs.below y rsrc ((hother y hyx).symm.trans hy)
  active y := by
    rw [hs.active y]
    by_cases hyx : y = x
    · simp [hyx, hself]
    · simp [hother y hyx, Ne.symm hyx]
  free y := by
    rw [hs.free y]
    by_cases hyx : y = x
    · simp [hyx, hself]
    · simp [hother y hyx, Ne.symm hyx]
  active_nodup := hs.active_nodup
  free_nodup := hs.free_nodup
  uiNumInUse := hs.uiNumInUse
  uiNumFree := hs.uiNumFree

/-- A resource which is out goes back to the freelist or to the heap. -/
theorem Stocked.free_lent (hv : pf.valgrind = false) (hs : Stocked pp a h lent free)
    (hx : x ∈ lent) :
    ∃ h', vRsrcFree pf h (some ⟨x, 0⟩) = .ok h' ∧ h'.mallocOk = h.mallocOk ∧
      (a.Keeps ∧ Stocked pp a h' (lent.erase x) (x :: free) ∨
        ¬ a.Keeps ∧ h'.rsrcs x = none ∧ Stocked pp a h' (lent.erase x) free) := by
  obtain ⟨pool, hpool, hconf, hstock, rfl, rfl⟩ := hs
  obtain ⟨-, name, hr⟩ := (hstock.active x).mp hx
  have hbelow := hstock.below x _ hr
  obtain ⟨pool', hpool'⟩ : ∃ pool', pool' = { pool with
    xActive := pool.xActive.erase x
    uiNumInUse := pool.uiNumInUse - 1 } := ⟨_, rfl⟩
  have hconf' : Configured a pool' := by
    rw [hpool']
    exact ⟨hconf.uxSizeEach, hconf.uiIncrement, hconf.uiMaxNumRes, hconf.uiFreeOnFree⟩
  have hstock' : Stock pp h pool' (some x) := hpool' ▸ hstock.withdraw hx hr
  have hrun : vRsrcFree pf h (some ⟨x, 0⟩) = if pool.uiFreeOnFree then
        .ok (((h.setPool pp pool').setRsrc x none).setBlock x none)
      else .ok ((prvvFreeResTail h pp pool' x).1.setPool pp (prvvFreeResTail h pp pool' x).2) := by
    rw [hpool']
    simp [vRsrcFree, hv, hr, hpool, pure, Except.pure]
  by_cases hkeeps : a.Keeps
  · have hfree : ¬ pool.uiFreeOnFree = true := by simp [hconf.uiFreeOnFree, hkeeps]
    obtain ⟨-, hpools, -, hmalloc⟩ := prvvFreeResTail_heap h pp pool' x
    have hput := hstock'.put hbelow
    refine ⟨_, hrun.trans (if_neg hfree), hmalloc,
      Or.inl ⟨hkeeps, (prvvFreeResTail h pp pool' x).2, Function.update_self pp _ _,
        ⟨hconf'.uxSizeEach, hconf'.uiIncrement, hconf'.uiMaxNumRes, hconf'.uiFreeOnFree⟩,
        hput.congr (fun _ _ _ => Iff.rfl) hput.below, ?_, ?_⟩⟩
    · change pool'.xActive = _
      rw [hpool']
    · change x :: pool'.pxFreelist = _
      rw [hpool']
  · have hfree : pool.uiFreeOnFree = true := by simp [hconf.uiFreeOnFree, hkeeps]
    have hself : ((h.setPool pp pool').setRsrc x none).rsrcs x = none := Function.update_self x _ _
    have hother : ∀ y, y ≠ x → ((h.setPool pp pool').setRsrc x none).rsrcs y = h.rsrcs y :=
      fun y hy => Function.update_of_ne hy _ _
    have hdrop : Stock pp (((h.setPool pp pool').setRsrc x none).setBlock x none) pool' none :=
      hstock'.drop hself hother rfl
    refine ⟨_, hrun.trans (if_pos hfree), rfl,
      Or.inr ⟨hkeeps, hself, pool', Function.update_self pp _ _, hconf', hdrop, ?_, ?_⟩⟩
    · rw [hpool']
    · rw [hpool']

/-- What is written to a resource of another pool is of no concern. -/
theorem Stocked.write_other {rsrc : Rsrc} {r : Option Rsrc} (hs : Stocked pp a h lent free)
    (hr : h.rsrcs x = some rsrc) (hne : rsrc.pxPool ≠ pp)
    (hrp : ∀ rsrc', r = some rsrc' → rsrc'.pxPool ≠ pp)
    (hrsrcs : h'.rsrcs = Function.update h.rsrcs x r) (hbrk : h'.brk = h.brk)
    (hpools : h'.pools pp = h.pools pp) : Stocked pp a h' lent free := by
  obtain ⟨pool, -, -, hstock, -⟩ := id hs
  refine hs.congr hpools (fun y name flag => ?_) fun y rsrc' hy => ?_
  · rw [hrsrcs]
    by_cases hyx : y = x
    · subst hyx
      rw [Function.update_self, hr]
      refine iff_of_false (fun heq => hrp _ heq rfl) fun heq => ?_
      cases heq
      exact hne rfl
    · rw [Function.update_of_ne hyx]
  · rw [hrsrcs] at hy
    rw [hbrk]
    by_cases hyx : y = x
    · exact hyx ▸ hstock.below _ _ hr
    · rw [Function.update_of_ne hyx] at hy
      exact hstock.below y rsrc' hy

/-- The release of a resource of another pool is of no concern. -/
theorem Stocked.free_other {p : Ptr} {rsrc : Rsrc} (hv : pf.valgrind = false)
    (hs : Stocked pp a h lent free) (hr : h.rsrcs p.block = some rsrc) (hne : rsrc.pxPool ≠ pp)
    (hcode : vRsrcFree pf h (some p) = .ok h') :
    Stocked pp a h' lent free ∧ h'.mallocOk = h.mallocOk := by
  have hpool : ∀ (g : Heap) (pool : RsrcPool), (g.setPool rsrc.pxPool pool).pools pp = g.pools pp :=
    fun g pool => Function.update_of_ne (Ne.symm hne) _ _
  simp only [vRsrcFree, hv, Bool.false_eq_true, if_false] at hcode
  obtain ⟨rsrc', hrsrc, hcode⟩ := Exec.bind_eq_ok.mp hcode
  rw [inBounds_eq_ok] at hrsrc
  split_ifs at hrsrc
  rw [hr, Option.some.injEq] at hrsrc
  subst hrsrc
  obtain ⟨pool', -, hcode⟩ := Exec.bind_eq_ok.mp hcode
  cases hflag : rsrc.xOnFreelist with
  | true =>
    rw [if_pos hflag] at hcode
    cases hcode
  | false =>
    rw [if_neg (by simp [hflag])] at hcode
    cases hfree : pool'.uiFreeOnFree with
    | true =>
      rw [if_pos hfree] at hcode
      cases hcode
      exact ⟨hs.write_other (r := none) hr hne (fun _ heq => nomatch heq) rfl rfl (hpool _ _), rfl⟩
    | false =>
      rw [if_neg (by simp [hfree])] at hcode
      cases hcode
      obtain ⟨hrsrcs, hpools, hbrk, hmalloc⟩ := prvvFreeResTail_heap h rsrc.pxPool
        { pool' with
          xActive := pool'.xActive.erase p.block
          uiNumInUse := pool'.uiNumInUse - 1 } p.block
      refine ⟨hs.write_other hr hne (fun rsrc' heq => ?_) hrsrcs hbrk
        ((hpool _ _).trans (by rw [hpools])), hmalloc⟩
      cases heq
      exact hne

theorem vRsrcFree_gone {p : Ptr} (hv : pf.valgrind = false)
    (hp : ¬ ∃ rsrc, p.off = 0 ∧ h.rsrcs p.block = some rsrc) :
    vRsrcFree pf h (some p) = .error .outOfBounds := by
  have hnone : (if p.off = 0 then h.rsrcs p.block else none) = none := by
    split
    · rename_i hoff
      refine Option.eq_none_iff_forall_ne_some.mpr fun rsrc hr => hp ⟨rsrc, hoff, hr⟩
    · rfl
  simp [vRsrcFree, hv, hnone, inBounds]

/-- The two lists are of the resources of the pool by their flag. -/
theorem Stocked.mem_iff (hs : Stocked pp a h lent free) :
    (x ∈ lent ↔ ∃ name, h.rsrcs x = some ⟨pp, name, false⟩) ∧
      (x ∈ free ↔ ∃ name, h.rsrcs x = some ⟨pp, name, true⟩) := by
  obtain ⟨pool, -, -, hstock, rfl, rfl⟩ := hs
  have hne : none ≠ some x := (Option.some_ne_none x).symm
  exact ⟨(hstock.active x).trans (and_iff_right hne), (hstock.free x).trans (and_iff_right hne)⟩

theorem Shelved.release (hs : Shelved pf pp a s t) {pvResPayload : Option Ptr}
    (hcode : vRsrcFree pf s.heap pvResPayload = .ok h') :
    ∃ t', Shelved pf pp a
        ⟨h', pvResPayload.elim s.lent fun p => s.lent.erase p.block, s.seen⟩ t' ∧
      (t' = t ∨ pf.valgrind = false ∧ t.Move a t') ∧ h'.mallocOk = s.heap.mallocOk := by
  cases pvResPayload with
  | none =>
    cases hcode
    exact ⟨t, hs, Or.inl rfl, rfl⟩
  | some p =>
    cases hv : pf.valgrind with
    | true =>
      rw [vRsrcFree.eq_2, if_pos hv, vRsMemFree] at hcode
      split_ifs at hcode
      · cases hcode
        refine ⟨t, ⟨hs.stocked.of_memory rfl rfl (Nat.le_refl _), fun hfalse => ?_,
          fun hfalse => ?_⟩, Or.inl rfl, rfl⟩
        · rw [hv] at hfalse
          cases hfalse
        · rw [hv] at hfalse
          cases hfalse
    | false =>
      by_cases hr : ∃ rsrc, p.off = 0 ∧ s.heap.rsrcs p.block = some rsrc
      · obtain ⟨rsrc, hoff, hr⟩ := hr
        have hp : p = ⟨p.block, 0⟩ := by rw [← hoff]
        obtain ⟨hlent, hfree⟩ := hs.stocked.mem_iff (x := p.block)
        by_cases hpp : rsrc.pxPool = pp
        · cases hflag : rsrc.xOnFreelist with
          | true =>
            have hmem : p.block ∈ t.free := hfree.mpr ⟨rsrc.pcResName, by rw [hr, ← hpp, ← hflag]⟩
            rw [hp, hs.stocked.free_again hv hmem] at hcode
            cases hcode
          | false =>
            have hmem : p.block ∈ t.lent := hlent.mpr ⟨rsrc.pcResName, by rw [hr, ← hpp, ← hflag]⟩
            obtain ⟨h'', hok, hmalloc, hcases⟩ := hs.stocked.free_lent hv hmem
            rw [hp, hok, Except.ok.injEq] at hcode
            subst hcode
            have herase : s.lent.erase p.block = t.lent.erase p.block := by rw [hs.lent hv]
            rcases hcases with ⟨hkeeps, hst⟩ | ⟨hdrops, -, hst⟩
            · exact ⟨⟨_, _, t.seen⟩, ⟨hst, fun _ => herase, hs.seen⟩,
                Or.inr ⟨rfl, .returns hmem hkeeps⟩, hmalloc⟩
            · exact ⟨⟨_, _, t.seen⟩, ⟨hst, fun _ => herase, hs.seen⟩,
                Or.inr ⟨rfl, .drops hmem hdrops⟩, hmalloc⟩
        · obtain ⟨hst, hmalloc⟩ := hs.stocked.free_other hv hr hpp hcode
          refine ⟨t, ⟨hst, fun hv' => ?_, hs.seen⟩, Or.inl rfl, hmalloc⟩
          have hout : p.block ∉ t.lent := fun hmem => by
            obtain ⟨name, hr'⟩ := hlent.mp hmem
            rw [hr, Option.some.injEq] at hr'
            exact hpp (congrArg Rsrc.pxPool hr')
          change s.lent.erase p.block = t.lent
          rw [hs.lent hv', List.erase_of_not_mem hout]
      · rw [vRsrcFree_gone hv hr] at hcode
        cases hcode

/-! ### Runs -/

/-- A call moves the resources of the pool as a shelf does. -/
theorem Shelved.step (hs : Shelved pf pp a s t) {op : PoolOp} (hstep : s.step pf pp op = some s') :
    ∃ t', Shelved pf pp a s' t' ∧ (t' = t ∨ pf.valgrind = false ∧ t.Move a t') ∧
      s'.heap.mallocOk = s.heap.mallocOk := by
  cases op with
  | varAlloc pcRequestor n =>
    obtain ⟨out, hcode, rfl⟩ := Exec.toOption_map_eq_some hstep
    exact hs.varAlloc hcode
  | alloc pcRequestor =>
    obtain ⟨out, hcode, rfl⟩ := Exec.toOption_map_eq_some hstep
    rw [pxRsrcAlloc_eq hs.stocked] at hcode
    exact hs.varAlloc hcode
  | free pvResPayload =>
    obtain ⟨h', hcode, rfl⟩ := Exec.toOption_map_eq_some hstep
    exact hs.release hcode

/-- A new pool lends nothing and keeps its initial resources. -/
theorem PoolArgs.created (a : PoolArgs) (pf : Platform) {h₀ : Heap} (hw : h.Without pp)
    (hnew : a.create h pp = .ok (some pp, h₀)) :
    ∃ free, Shelved pf pp a ⟨h₀, [], []⟩ ⟨[], free, []⟩ ∧ free.length = a.uiInitAlloc.toNat ∧
      h₀.mallocOk = h.mallocOk := by
  obtain ⟨new, hpool⟩ : ∃ new, new =
    RsrcPool.new a.pcName a.xRsrcSize a.uiInitAlloc a.uiIncrement a.uiMaxNumRes := ⟨_, rfl⟩
  have hstock : Stock pp h new none := by
    rw [hpool]
    refine ⟨fun x rsrc hx => (hw x rsrc hx).1, fun x => ?_, fun x => ?_, List.nodup_nil,
      List.nodup_nil, rfl, rfl⟩
    · refine iff_of_false List.not_mem_nil ?_
      rintro ⟨-, name, hx⟩
      exact (hw x _ hx).2 rfl
    · refine iff_of_false List.not_mem_nil ?_
      rintro ⟨-, name, hx⟩
      exact (hw x _ hx).2 rfl
  have hconf : Configured a new := by
    rw [hpool]
    refine ⟨rfl, rfl, rfl, ?_⟩
    have hsingle := a.variable_size
    rw [Bool.eq_iff_iff, decide_eq_true_iff, PoolArgs.Keeps]
    simp only [RsrcPool.new, decide_eq_true_eq, UInt16.le_iff_toNat_le]
    change _ ∨ a.uiIncrement.toNat ≤ 1 ∧ a.uiInitAlloc.toNat ≤ 1 ↔ _
    omega
  rw [PoolArgs.create_eq, prviRsrcInitPool, ← hpool] at hnew
  by_cases hinit : a.uiInitAlloc = 0
  · simp only [hinit, ne_eq, not_true_eq_false, if_false, Exec.ok_bind] at hnew
    cases hnew
    exact ⟨[], ⟨⟨new, Function.update_self pp _ _, hconf,
      hstock.congr (fun _ _ _ => Iff.rfl) hstock.below, by rw [hpool]; rfl, by rw [hpool]; rfl⟩,
      fun _ => rfl, fun _ => rfl⟩, by rw [hinit]; rfl, rfl⟩
  · simp only [ne_eq, hinit, not_false_eq_true, if_true] at hnew
    cases hmem : h.mallocOk h.calls with
    | false => simp [prviRsrcAdd2Pool, hinit, hmem, bind, Except.bind] at hnew
    | true =>
      obtain ⟨h₁, pool₁, hadd, hstock₁, hconf₁, hactive, hlen, -, hmalloc⟩ :=
        hstock.grow hconf hinit hmem a.xRsrcSize
      rw [hadd, Exec.ok_bind] at hnew
      cases hnew
      have hnil : new.xActive = [] ∧ new.pxFreelist = [] := by rw [hpool]; exact ⟨rfl, rfl⟩
      exact ⟨pool₁.pxFreelist, ⟨⟨pool₁, Function.update_self pp _ _, hconf₁,
        hstock₁.congr (fun _ _ _ => Iff.rfl) hstock₁.below, hactive.trans hnil.1, rfl⟩,
        fun _ => rfl, fun _ => rfl⟩, by rw [hlen, hnil.2]; rfl, hmalloc⟩

/-- What moves of the shelf preserve holds in every state. -/
theorem PoolReached.invariant (hr : PoolReached pf pp a s) {I : Shelf → Prop}
    (hinit : ∀ free, free.length = a.uiInitAlloc.toNat → I ⟨[], free, []⟩)
    (hmove : ∀ t t', pf.valgrind = false → I t → t.Move a t' → I t') :
    ∃ t, Shelved pf pp a s t ∧ I t := by
  obtain ⟨h, h₀, ops, hw, hnew, hrun⟩ := hr
  obtain ⟨free, hs, hlen, -⟩ := a.created pf hw hnew
  have hstep : ∀ s op s', (∃ t, Shelved pf pp a s t ∧ I t) → s.step pf pp op = some s' →
      ∃ t, Shelved pf pp a s' t ∧ I t := by
    rintro s op s' ⟨t, hs, hi⟩ hop
    obtain ⟨t', hs', rfl | ⟨hv, hmv⟩, -⟩ := hs.step hop
    · exact ⟨t', hs', hi⟩
    · exact ⟨t', hs', hmove t t' hv hi hmv⟩
  exact foldlM_preserves hstep ⟨_, hs, hinit free hlen⟩ hrun

/-- A run goes on. -/
theorem PoolReached.run (hr : PoolReached pf pp a s) {ops : List PoolOp}
    (hrun : ops.foldlM (PoolState.step pf pp) s = some s') : PoolReached pf pp a s' := by
  obtain ⟨h, h₀, ops', hw, hnew, hrun'⟩ := hr
  refine ⟨h, h₀, ops' ++ ops, hw, hnew, ?_⟩
  rw [List.foldlM_append, hrun']
  exact hrun

theorem PoolReached.step (hr : PoolReached pf pp a s) {op : PoolOp}
    (hstep : s.step pf pp op = some s') : PoolReached pf pp a s' := by
  have hone : [op].foldlM (PoolState.step pf pp) s = some s' := by
    rw [List.foldlM_cons, hstep]
    rfl
  exact hr.run hone

end RinaSense.Common
