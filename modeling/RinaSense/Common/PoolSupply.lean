import Mathlib.Data.List.Perm.Subperm
import RinaSense.Common.PoolRuns

/-!
# What a pool lends

The view which the users of a pool without a cap have of it: the resources which are out. A
request gets a zeroed resource which was not out, unless memory has run out, and a resource
which is out can be given back. Addresses which belong to no resource stay so.
-/

namespace RinaSense.Common

open Library.Memory

/-- The resources of the pool which are out, whatever it keeps. -/
def Lends (pp : PoolPtr) (a : PoolArgs) (h : Heap) (lent : List ℕ) : Prop :=
  ∃ free, Stocked pp a h lent free

/-- The pool hands out resources of a size of its own and can always grow. -/
structure PoolArgs.Unbounded (a : PoolArgs) : Prop where
  xRsrcSize : a.xRsrcSize ≠ 0
  uiIncrement : a.uiIncrement ≠ 0
  uiMaxNumRes : a.uiMaxNumRes = 0

/-- An address which was handed out, but not as a resource. -/
def Heap.Plain (h : Heap) (y : ℕ) : Prop := y < h.brk ∧ h.rsrcs y = none

variable {pf : Platform} {pp : PoolPtr} {a : PoolArgs} {h h' : Heap} {pool : RsrcPool}
  {lent : List ℕ} {x y : ℕ}

theorem Lends.nodup (hl : Lends pp a h lent) : lent.Nodup := by
  obtain ⟨_, _, -, -, hstock, rfl, -⟩ := hl
  exact hstock.active_nodup

theorem Lends.lt_brk (hl : Lends pp a h lent) (hx : x ∈ lent) : x < h.brk := by
  obtain ⟨_, _, -, -, hstock, rfl, -⟩ := hl
  obtain ⟨-, name, hr⟩ := (hstock.active x).mp hx
  exact hstock.below x _ hr

/-- Resources which are out are fewer than the addresses. -/
theorem Lends.length_le (hl : Lends pp a h lent) {l : List ℕ} (hd : l.Nodup)
    (hsub : ∀ x ∈ l, x ∈ lent) : l.length ≤ h.brk := by
  have hrange : l ⊆ List.range h.brk := fun x hx =>
    List.mem_range.mpr (hl.lt_brk (hsub x hx))
  have hperm := (hd.subperm hrange).length_le
  rwa [List.length_range] at hperm

/-! ### Addresses which are no resources -/

theorem Heap.Plain.addResources (hy : h.Plain y) (len n : ℕ) :
    (addResources pp len n h pool).1.Plain y := by
  induction n generalizing h pool with
  | zero => exact hy
  | succ n ih =>
    obtain ⟨h₁, hh₁⟩ : ∃ h₁, h₁ =
      { h.setBlock h.brk (some (h.stale h.brk len)) with brk := h.brk + 1 } := ⟨_, rfl⟩
    obtain ⟨hrsrcs, -, hbrk, -⟩ := prvvFreeResTail_heap h₁ pp pool h.brk
    have hy₁ : (prvvFreeResTail h₁ pp pool h.brk).1.Plain y := by
      refine ⟨?_, ?_⟩
      · rw [hbrk, hh₁]
        exact Nat.lt_succ_of_lt hy.1
      · rw [hrsrcs, Function.update_of_ne (Nat.ne_of_lt hy.1), hh₁]
        exact hy.2
    rw [Common.addResources, ← hh₁]
    exact ih hy₁

theorem Heap.Plain.add2Pool (hy : h.Plain y) {uiCount : UInt16} {len n : ℕ} {pool' : RsrcPool}
    (hrun : prviRsrcAdd2Pool h pp pool uiCount len = .ok (n, h', pool')) : h'.Plain y := by
  have hcalled : h.called.Plain y := hy
  unfold prviRsrcAdd2Pool at hrun
  by_cases hcount : uiCount = 0
  · rw [if_pos hcount] at hrun
    cases hrun
    exact hy
  · rw [if_neg hcount] at hrun
    by_cases hmem : h.mallocOk h.calls = true
    · rw [if_pos hmem] at hrun
      cases hrun
      exact hcalled.addResources len uiCount.toNat
    · rw [if_neg hmem] at hrun
      cases hrun

/-- A resource which is handed out is cleared, and it is none of the other addresses. -/
theorem takeResource_gives {name : Option String} {n : ℕ} {out : Option ℕ}
    (hrun : takeResource h pp pool name n = .ok (out, h')) :
    ∃ x rest, pool.pxFreelist = x :: rest ∧ out = some x ∧
      h'.mem x = some (List.replicate n 0) ∧ h'.brk = h.brk ∧
      h'.rsrcs = Function.update h.rsrcs x (some ⟨pp, name, false⟩) := by
  unfold takeResource at hrun
  cases hfree : pool.pxFreelist with
  | nil =>
    rw [hfree] at hrun
    cases hrun
  | cons x rest =>
    rw [hfree] at hrun
    cases hrun
    exact ⟨x, rest, rfl, rfl, Heap.setBlock_self _ _ _, rfl, rfl⟩

/-- A served request gets cleared memory. -/
theorem pxRsrcVarAlloc_cleared (hv : pf.valgrind = false) {name : Option String} {n : ℕ}
    (hrun : pxRsrcVarAlloc pf h (some pp) name n = .ok (some x, h')) :
    h'.mem x = some (List.replicate n 0) := by
  simp only [pxRsrcVarAlloc, hv, Bool.false_eq_true, if_false] at hrun
  obtain ⟨pool, -, hrun⟩ := Exec.bind_eq_ok.mp hrun
  split_ifs at hrun with hrefused hempty
  · cases hrun
  · obtain ⟨⟨added, h₁, pool₁⟩, -, hrun⟩ := Exec.bind_eq_ok.mp hrun
    dsimp only at hrun
    split_ifs at hrun with hadded
    · cases hrun
    · obtain ⟨x', _, -, hx, hmem, -⟩ := takeResource_gives hrun
      cases hx
      exact hmem
  · obtain ⟨x', _, -, hx, hmem, -⟩ := takeResource_gives hrun
    cases hx
    exact hmem

/-- No address which was no resource becomes one. -/
theorem Heap.Plain.varAlloc (hy : h.Plain y) (hv : pf.valgrind = false)
    (hl : Lends pp a h lent) {name : Option String} {n : ℕ} {out : Option ℕ}
    (hrun : pxRsrcVarAlloc pf h (some pp) name n = .ok (out, h')) : h'.Plain y := by
  obtain ⟨free, pool₀, hpool₀, hconf, hstock, -⟩ := hl
  simp only [pxRsrcVarAlloc, hv, Bool.false_eq_true, if_false] at hrun
  obtain ⟨pool, hpool, hrun⟩ := Exec.bind_eq_ok.mp hrun
  have hpool' := inBounds_eq_ok.mp hpool
  obtain rfl : pool₀ = pool := Option.some.inj (hpool₀.symm.trans hpool')
  -- The resource which is taken was on the freelist, where only resources are.
  have htake : ∀ {h₁ : Heap} {pool₁ : RsrcPool}, h₁.Plain y → Stock pp h₁ pool₁ none →
      takeResource h₁ pp pool₁ name n = .ok (out, h') → h'.Plain y := by
    intro h₁ pool₁ hy₁ hstock₁ htake
    obtain ⟨x, rest, hfree, -, -, hbrk, hrsrcs⟩ := takeResource_gives htake
    obtain ⟨-, _, hx⟩ := (hstock₁.free x).mp (by simp [hfree])
    have hne : y ≠ x := by
      rintro rfl
      rw [hy₁.2] at hx
      cases hx
    refine ⟨hbrk ▸ hy₁.1, ?_⟩
    rw [hrsrcs, Function.update_of_ne hne]
    exact hy₁.2
  split_ifs at hrun with hrefused hempty
  · cases hrun
    exact hy
  · obtain ⟨⟨added, h₁, pool₁⟩, hadd, hrun⟩ := Exec.bind_eq_ok.mp hrun
    dsimp only at hrun
    split_ifs at hrun with hadded
    · cases hrun
      exact hy.add2Pool hadd
    · refine htake (hy.add2Pool hadd) ?_ hrun
      by_cases hcount : pool₀.uiIncrement = 0
      · rw [prviRsrcAdd2Pool, if_pos hcount] at hadd
        cases hadd
        exact absurd rfl hadded
      · by_cases hmem : h.mallocOk h.calls = true
        · obtain ⟨h₂, pool₂, hgrow, hstock₂, -⟩ := hstock.grow hconf hcount hmem n
          cases hgrow.symm.trans hadd
          exact hstock₂
        · rw [prviRsrcAdd2Pool, if_neg hcount, if_neg hmem] at hadd
          cases hadd
  · exact htake hy hstock hrun

/-! ### Requests and releases -/

section

variable (hv : pf.valgrind = false) (ha : a.Unbounded) (hl : Lends pp a h lent)
include hv ha hl

/-- A request comes back with a cleared resource which was not out, or memory has run out. -/
theorem Lends.alloc (name : String) :
    (h.mallocOk h.calls = false ∧ pxRsrcAlloc pf h (some pp) (some name) = .error .abort) ∨
      ∃ x h', pxRsrcAlloc pf h (some pp) (some name) = .ok (some x, h') ∧
        Lends pp a h' (x :: lent) ∧ h'.mallocOk = h.mallocOk ∧
        h'.mem x = some (List.replicate a.xRsrcSize 0) ∧ ∀ y, h.Plain y → h'.Plain y := by
  obtain ⟨free, hs⟩ := id hl
  rw [pxRsrcAlloc_eq hs]
  have hfits : a.Fits (some name) a.xRsrcSize := ⟨rfl, ha.xRsrcSize, Or.inr rfl⟩
  have hadmits : a.Admits ⟨lent, free, []⟩ := Or.inl ha.uiMaxNumRes
  have hs' : Stocked pp a h (Shelf.mk lent free []).lent (Shelf.mk lent free []).free := hs
  have hgiven : ∀ {x h' rest}, pxRsrcVarAlloc pf h (some pp) (some name) a.xRsrcSize =
      .ok (some x, h') → Stocked pp a h' (x :: lent) rest → h'.mallocOk = h.mallocOk →
      ∃ x h', pxRsrcVarAlloc pf h (some pp) (some name) a.xRsrcSize = .ok (some x, h') ∧
        Lends pp a h' (x :: lent) ∧ h'.mallocOk = h.mallocOk ∧
        h'.mem x = some (List.replicate a.xRsrcSize 0) ∧ ∀ y, h.Plain y → h'.Plain y := by
    intro x h' rest hrun hst hmalloc
    exact ⟨x, h', hrun, ⟨rest, hst⟩, hmalloc, pxRsrcVarAlloc_cleared hv hrun,
      fun y hy => hy.varAlloc hv hl hrun⟩
  rcases hs'.admitted hv hfits hadmits with
    ⟨x, rest, h', -, hrun, hst, hmalloc⟩ | ⟨-, ⟨hinc, -⟩ | ⟨hmem, hrun⟩ |
      ⟨x, rest, h', -, hrun, hst, hmalloc⟩⟩
  · exact Or.inr (hgiven hrun hst hmalloc)
  · exact absurd hinc ha.uiIncrement
  · exact Or.inl ⟨hmem, hrun⟩
  · exact Or.inr (hgiven hrun hst hmalloc)

omit ha in
/-- A resource which is out can be given back. -/
theorem Lends.free (hx : x ∈ lent) :
    ∃ h', vRsrcFree pf h (some ⟨x, 0⟩) = .ok h' ∧ Lends pp a h' (lent.erase x) ∧
      h'.mallocOk = h.mallocOk ∧ ∀ y, h.Plain y → h'.Plain y := by
  obtain ⟨free, hs⟩ := hl
  obtain ⟨h', hrun, hmalloc, hst⟩ := hs.free_lent hv hx
  refine ⟨h', hrun, ?_, hmalloc, ?_⟩
  · rcases hst with ⟨-, hst⟩ | ⟨-, -, hst⟩
    · exact ⟨_, hst⟩
    · exact ⟨_, hst⟩
  · obtain ⟨pool, hpool, -, hstock, rfl, -⟩ := hs
    obtain ⟨-, name, hr⟩ := (hstock.active x).mp hx
    intro y hy
    have hne : y ≠ x := by
      rintro rfl
      rw [hy.2] at hr
      cases hr
    simp only [vRsrcFree, hv, Bool.false_eq_true, if_false, if_true, hr, hpool, inBounds_some,
      Exec.ok_bind] at hrun
    split_ifs at hrun with hkeep
    · cases hrun
      exact ⟨hy.1, (Function.update_of_ne hne _ _).trans hy.2⟩
    · cases hrun
      obtain ⟨hrsrcs, -, hbrk, -⟩ := prvvFreeResTail_heap h pp { pool with
        xActive := pool.xActive.erase x
        uiNumInUse := pool.uiNumInUse - 1 } x
      refine ⟨?_, ?_⟩
      · exact Nat.lt_of_lt_of_eq hy.1 hbrk.symm
      · exact (congrFun hrsrcs y).trans ((Function.update_of_ne hne _ _).trans hy.2)

end

/-- A new pool lends nothing, unless memory runs out while it is created. -/
theorem PoolArgs.create_lends (a : PoolArgs) (hw : h.Without pp) :
    (h.mallocOk h.calls = false ∧ a.create h pp = .error .abort) ∨
      ∃ h', a.create h pp = .ok (some pp, h') ∧ Lends pp a h' [] ∧
        h'.mallocOk = h.mallocOk := by
  cases hrun : a.create h pp with
  | ok out =>
    obtain ⟨pq, h'⟩ := out
    have hpq : pq = some pp := by
      rw [PoolArgs.create_eq] at hrun
      obtain ⟨⟨_, _, _⟩, -, hout⟩ := Exec.bind_eq_ok.mp hrun
      cases hout
      rfl
    subst hpq
    obtain ⟨free, hs, -, hmalloc⟩ := a.created ⟨false, false⟩ hw hrun
    obtain ⟨free', hs'⟩ : ∃ free, Stocked pp a h' [] free := ⟨_, hs.stocked⟩
    exact Or.inr ⟨h', rfl, ⟨free', hs'⟩, hmalloc⟩
  | error t =>
    refine Or.inl ?_
    rw [PoolArgs.create_eq, prviRsrcInitPool] at hrun
    split_ifs at hrun with hinit
    · unfold prviRsrcAdd2Pool at hrun
      rw [if_neg hinit] at hrun
      cases hmem : h.mallocOk h.calls with
      | true =>
        rw [if_pos hmem] at hrun
        cases hrun
      | false =>
        rw [if_neg (by simp [hmem])] at hrun
        cases hrun
        exact ⟨rfl, rfl⟩
    · cases hrun

end RinaSense.Common
