import RinaSense.Common.Numbers
import Mathlib.Data.Finset.Card

/-!
# The numbers which are out

Runs of a number manager whose users give back only numbers they were given, with the numbers
which are out beside the manager. A number can be had again when some allocations hand it out.
-/

namespace RinaSense.Common

open Library.Loop Library.Runs

/-- A manager and the numbers which it has handed out and which were not given back. -/
structure Handed where
  im : NumMgr
  out : List UInt32

/-- A call, unless it does not come back or gives back a number which is not out. -/
def Handed.step (s : Handed) : NumMgrOp → Option Handed
  | .allocate fuel =>
    (ulNumMgrAllocate fuel s.im).map fun res =>
      ⟨res.2, if res.1 = UINT_MAX then s.out else res.1 :: s.out⟩
  | .release k => if k ∈ s.out then some ⟨(xNumMgrRelease s.im k).2, s.out.erase k⟩ else none

/-- Some allocations hand out the number `k`. -/
def NumMgr.Allocatable (im : NumMgr) (k : UInt32) : Prop :=
  k ≠ UINT_MAX ∧ ∃ (fuels : List ℕ) (im₁ : NumMgr) (fuel : ℕ) (im₂ : NumMgr),
    (fuels.map NumMgrOp.allocate).foldlM NumMgr.step im = some im₁ ∧
      ulNumMgrAllocate fuel im₁ = some (k, im₂)

/-- An allocation hands out a number of the manager which is not out, and a release makes the
number it gives back allocatable and no other. -/
def Handed.Sound (n : UInt64) (s : Handed) : NumMgrOp → Prop
  | .allocate fuel => ∀ r im', ulNumMgrAllocate fuel s.im = some (r, im') → r ≠ UINT_MAX →
      1 ≤ r ∧ r.toUInt64 ≤ n ∧ r ∉ s.out
  | .release k => k ∈ s.out → (xNumMgrRelease s.im k).1 = true ∧
      ∀ m, (xNumMgrRelease s.im k).2.Allocatable m ↔ m = k ∨ s.im.Allocatable m

/-- The call does not give back the number which was handed out last while all others are
out. -/
def Handed.Tested (n : UInt64) (s : Handed) : NumMgrOp → Prop
  | .allocate _ => True
  | .release k => ¬ (k = s.im.lastAllocated ∧ s.im.OthersTaken n)

/-- What holds of the numbers which are out as long as every call is tested. -/
structure Handed.Inv (n : UInt64) (s : Handed) : Prop where
  im : s.im.Inv n
  nodup : s.out.Nodup
  mem : ∀ k, k ∈ s.out ↔ 1 ≤ k ∧ k.toUInt64 ≤ n ∧ xNumMgrIsAllocated s.im k = true
  tested : ¬ s.im.Stuck n

variable {n : UInt64} {im im' : NumMgr}

section Small

variable (hsmall : n.toNat + 1 < 2 ^ 32)

include hsmall

/-- The numbers of the manager have a bit. -/
theorem NumMgr.Inv.inside (h : im.Inv n) {k : UInt32} (hk : k.toUInt64 ≤ n) :
    k < im.ba.nbbits := by
  rw [le_capacity] at hk
  rw [UInt32.lt_iff_toNat_lt, h.nbbits, UInt64.toNat_toUInt32, UInt64.toNat_add]
  change k.toNat < (n.toNat + 1) % 2 ^ 64 % 2 ^ 32
  omega

/-- A number which is handed out was free and is taken then. -/
theorem NumMgr.Inv.hands_out (h : im.Inv n) (hn : 1 ≤ n) {fuel : ℕ} {r : UInt32}
    (ha : ulNumMgrAllocate fuel im = some (r, im')) (hr : r ≠ UINT_MAX) :
    ¬ im.OthersTaken n ∧ xNumMgrIsAllocated im r = false ∧ xNumMgrIsAllocated im' r = true := by
  rcases h.outcome hsmall hn ha with ⟨hmax, -, -⟩ | ⟨hfree, rfl, hlast⟩
  · exact absurd hmax hr
  · refine ⟨fun htaken => ?_, hfree.2.2, ?_⟩
    · by_cases he : r = im.lastAllocated
      · have htwo := htaken.1
        rw [← he, hlast he] at htwo
        exact absurd htwo (by decide)
      · have hbit := htaken.2 r hfree.1 hfree.2.1 he
        rw [hfree.2.2] at hbit
        cases hbit
    · rw [take_isAllocated, if_pos ⟨rfl, h.inside hsmall hfree.2.1⟩]

theorem NumMgr.Inv.take_free (h : im.Inv n) {r k : UInt32} (hr : r.toUInt64 ≤ n) :
    (im.take r).Free n k ↔ k ≠ r ∧ im.Free n k := by
  have hin := h.inside hsmall hr
  simp only [NumMgr.Free, take_isAllocated, hin, and_true]
  by_cases hk : k = r <;> simp [hk]

theorem NumMgr.Inv.take_not_stuck (h : im.Inv n) {r : UInt32} (hr : r.toUInt64 ≤ n) :
    ¬ (im.take r).Stuck n := by
  rintro ⟨-, hfree⟩
  rw [take_isAllocated, if_pos ⟨rfl, h.inside hsmall hr⟩] at hfree
  cases hfree

omit hsmall in
/-- An allocation on a stuck manager fails and leaves it. -/
theorem NumMgr.Outcome.stuck {r : UInt32} (h : im.Outcome n r im') (hstuck : im.Stuck n) :
    r = UINT_MAX ∧ im' = im := by
  obtain ⟨hr, him, -⟩ | ⟨⟨h1, hle, hfree⟩, -, hone⟩ := h
  · exact ⟨hr, him⟩
  · obtain ⟨⟨h2, htaken⟩, -⟩ := hstuck
    by_cases he : r = im.lastAllocated
    · rw [← he, hone he] at h2
      exact absurd h2 (by decide)
    · rw [htaken r h1 hle he] at hfree
      cases hfree

/-- The numbers which a manager still has. -/
def NumMgr.free (im : NumMgr) (n : UInt64) : Finset ℕ :=
  (Finset.range (n.toNat + 1)).filter fun i => xNumMgrIsAllocated im (UInt32.ofNat i) = false

theorem NumMgr.Inv.free_lt (h : im.Inv n) {r : UInt32} (hr : im.Free n r) :
    ((im.take r).free n).card < (im.free n).card := by
  have hle := le_capacity.mp hr.2.1
  have hin := h.inside hsmall hr.2.1
  apply Finset.card_lt_card
  rw [Finset.ssubset_iff_of_subset]
  · refine ⟨r.toNat, ?_, ?_⟩
    · simpa [NumMgr.free, hr.2.2] using Nat.lt_succ_of_le hle
    · simp [NumMgr.free, take_isAllocated, hin]
  · intro i hi
    simp only [NumMgr.free, Finset.mem_filter, take_isAllocated] at hi ⊢
    refine ⟨hi.1, ?_⟩
    have hfree := hi.2
    split_ifs at hfree
    exact hfree

/-- The manager hands out its free numbers one by one unless it is stuck. -/
theorem NumMgr.Inv.allocatable_of_free (h : im.Inv n) {k : UInt32} (hk : im.Free n k)
    (hstuck : ¬ im.Stuck n) : im.Allocatable k := by
  have hn : 1 ≤ n := by
    rw [UInt64.le_iff_toNat_le]
    exact Nat.le_trans (one_le_number.mp hk.1) (le_capacity.mp hk.2.1)
  have hmax : k ≠ UINT_MAX := by
    rintro rfl
    have hle := le_capacity.mp hk.2.1
    change 2 ^ 32 - 1 ≤ n.toNat at hle
    omega
  refine ⟨hmax, ?_⟩
  induction hc : (im.free n).card using Nat.strongRecOn generalizing im with
  | ind c ih =>
    have hnotfull : ¬ (im.lastAllocated = 1 ∧ im.Full n) := by
      rintro ⟨-, hfull⟩
      have htaken := hfull k hk.1 hk.2.1
      rw [hk.2.2] at htaken
      cases htaken
    obtain ⟨fuel, hsome⟩ := (h.ends_iff hn).mpr hnotfull
    obtain ⟨⟨r, im'⟩, ha⟩ := Option.isSome_iff_exists.mp hsome
    obtain ⟨-, -, hothers⟩ | ⟨hr, rfl, -⟩ := h.outcome hsmall hn ha
    · refine absurd ⟨hothers, ?_⟩ hstuck
      by_cases he : k = im.lastAllocated
      · rw [← he]
        exact hk.2.2
      · have htaken := hothers.2 k hk.1 hk.2.1 he
        rw [hk.2.2] at htaken
        cases htaken
    · by_cases he : k = r
      · subst he
        exact ⟨[], im, fuel, _, rfl, ha⟩
      · obtain ⟨fuels, im₁, fuel', im₂, hrun, hlast⟩ :=
          ih _ (hc ▸ h.free_lt hsmall hr) (h.allocate hn ha)
            ((h.take_free hsmall hr.2.1).mpr ⟨he, hk⟩) (h.take_not_stuck hsmall hr.2.1) rfl
        refine ⟨fuel :: fuels, im₁, fuel', im₂, ?_, hlast⟩
        rw [List.map_cons, List.foldlM_cons, NumMgr.step]
        change (Option.map Prod.snd (ulNumMgrAllocate fuel im)).bind _ = _
        rw [show ulNumMgrAllocate fuel im = some (r, im.take r) from ha]
        exact hrun

theorem NumMgr.Inv.allocatable_iff (h : im.Inv n) (hn : 1 ≤ n) {k : UInt32} :
    im.Allocatable k ↔ im.Free n k ∧ ¬ im.Stuck n := by
  refine ⟨?_, fun hk => h.allocatable_of_free hsmall hk.1 hk.2⟩
  rintro ⟨hmax, fuels, im₁, fuel, im₂, hrun, hlast⟩
  induction fuels generalizing im with
  | nil =>
    cases hrun
    have hout := h.outcome hsmall hn hlast
    refine ⟨?_, fun hstuck => hmax (hout.stuck hstuck).1⟩
    obtain ⟨hr, -⟩ | ⟨hfree, -⟩ := hout
    · exact absurd hr hmax
    · exact hfree
  | cons f fuels ih =>
    rw [List.map_cons, List.foldlM_cons] at hrun
    obtain ⟨im', hst, hrest⟩ := Option.bind_eq_some_iff.mp hrun
    obtain ⟨⟨r, im''⟩, ha, rfl⟩ := Option.map_eq_some_iff.mp hst
    have hout := h.outcome hsmall hn ha
    obtain ⟨hfree, hns⟩ := ih (h.allocate hn ha) hrest
    refine ⟨?_, fun hstuck => hns ((hout.stuck hstuck).2 ▸ hstuck)⟩
    obtain ⟨-, rfl, -⟩ | ⟨hr, rfl, -⟩ := hout
    · exact hfree
    · exact ((h.take_free hsmall hr.2.1).mp hfree).2

variable {s s' : Handed}

omit hsmall in
theorem Handed.step_allocate {fuel : ℕ} (hst : s.step (.allocate fuel) = some s') :
    ∃ r im', ulNumMgrAllocate fuel s.im = some (r, im') ∧
      s' = ⟨im', if r = UINT_MAX then s.out else r :: s.out⟩ := by
  obtain ⟨⟨r, im'⟩, ha, rfl⟩ := Option.map_eq_some_iff.mp hst
  exact ⟨r, im', ha, rfl⟩

omit hsmall in
theorem Handed.step_release {k : UInt32} (hst : s.step (.release k) = some s') :
    k ∈ s.out ∧ s' = ⟨(xNumMgrRelease s.im k).2, s.out.erase k⟩ := by
  rw [Handed.step] at hst
  split_ifs at hst with hk
  exact ⟨hk, (Option.some.inj hst).symm⟩

omit hsmall in
/-- A release leaves the manager stuck exactly when it is not tested. -/
theorem stuck_release_iff (h : ¬ im.Stuck n) {k : UInt32} :
    (xNumMgrRelease im k).2.Stuck n ↔ k = im.lastAllocated ∧ im.OthersTaken n := by
  simp only [NumMgr.Stuck, NumMgr.OthersTaken, release_lastAllocated, release_isAllocated]
  constructor
  · rintro ⟨⟨h2, htaken⟩, hlast⟩
    have hothers : im.OthersTaken n := by
      refine ⟨h2, fun m h1 hle hne => ?_⟩
      have hm := htaken m h1 hle hne
      split_ifs at hm
      exact hm
    refine ⟨?_, hothers⟩
    by_contra hk
    rw [if_neg (Ne.symm hk)] at hlast
    exact h ⟨hothers, hlast⟩
  · rintro ⟨rfl, h2, htaken⟩
    refine ⟨⟨h2, fun m h1 hle hne => ?_⟩, if_pos rfl⟩
    rw [if_neg hne]
    exact htaken m h1 hle hne

theorem Handed.Inv.allocate (h : s.Inv n) (hn : 1 ≤ n) {fuel : ℕ}
    (hst : s.step (.allocate fuel) = some s') : s'.Inv n := by
  obtain ⟨r, im', ha, rfl⟩ := Handed.step_allocate hst
  have him := h.im.allocate hn ha
  obtain ⟨rfl, rfl, -⟩ | ⟨hr, rfl, -⟩ := h.im.outcome hsmall hn ha
  · exact ⟨him, h.nodup, h.mem, h.tested⟩
  · have hmax : r ≠ UINT_MAX := by
      rintro rfl
      have hle := le_capacity.mp hr.2.1
      change 2 ^ 32 - 1 ≤ n.toNat at hle
      omega
    have hin := h.im.inside hsmall hr.2.1
    simp only [if_neg hmax]
    refine ⟨him, List.nodup_cons.mpr ⟨?_, h.nodup⟩, fun k => ?_, h.im.take_not_stuck hsmall hr.2.1⟩
    · intro hout
      have htaken := ((h.mem r).mp hout).2.2
      rw [hr.2.2] at htaken
      cases htaken
    · rw [List.mem_cons, h.mem k, take_isAllocated]
      simp only [hin, and_true]
      by_cases hk : k = r
      · simp [hk, hr.1, hr.2.1]
      · simp [hk]

omit hsmall in
theorem Handed.Inv.release (h : s.Inv n) {k : UInt32} (ht : s.Tested n (.release k))
    (hst : s.step (.release k) = some s') : s'.Inv n := by
  obtain ⟨hk, rfl⟩ := Handed.step_release hst
  refine ⟨h.im.release k, h.nodup.erase k, fun m => ?_, ?_⟩
  · rw [h.nodup.mem_erase_iff, h.mem m, release_isAllocated]
    by_cases hm : m = k <;> simp [hm]
  · rw [stuck_release_iff h.tested]
    exact ht

theorem Handed.Inv.step (h : s.Inv n) (hn : 1 ≤ n) {op : NumMgrOp} (ht : s.Tested n op)
    (hst : s.step op = some s') : s'.Inv n := by
  cases op with
  | allocate fuel => exact h.allocate hsmall hn hst
  | release k => exact h.release ht hst

theorem Handed.Inv.sound_release (h : s.Inv n) (hn : 1 ≤ n) (k : UInt32) :
    s.Sound n (.release k) ↔ s.Tested n (.release k) := by
  have hstuck := stuck_release_iff (k := k) h.tested
  rw [Handed.Tested, ← hstuck, Handed.Sound]
  by_cases hk : k ∈ s.out
  · obtain ⟨h1, hle, htaken⟩ := (h.mem k).mp hk
    have hfree : ∀ m, (xNumMgrRelease s.im k).2.Free n m ↔ m = k ∨ s.im.Free n m := by
      intro m
      simp only [NumMgr.Free, release_isAllocated]
      by_cases hm : m = k <;> simp [hm, h1, hle]
    have htrue : (xNumMgrRelease s.im k).1 = true := by
      rw [xNumMgrIsAllocated] at htaken
      rw [xNumMgrRelease, if_pos htaken]
    simp only [hk, true_implies, htrue, true_and, (h.im.release k).allocatable_iff hsmall hn,
      h.im.allocatable_iff hsmall hn, h.tested, not_false_eq_true, and_true, hfree]
    constructor
    · intro hall
      exact ((hall k).mpr (.inl rfl)).2
    · intro hns m
      exact and_iff_left hns
  · refine iff_of_true (fun hk' => absurd hk' hk) ?_
    rw [hstuck]
    rintro ⟨rfl, hothers⟩
    -- the last number would be free and the only one
    have h2 := UInt32.le_iff_toNat_le.mp hothers.1
    refine h.tested ⟨hothers, eq_false_of_ne_true fun htaken => hk ((h.mem _).mpr ⟨?_, ?_, htaken⟩)⟩
    · exact one_le_number.mpr (Nat.le_trans (by decide) h2)
    · exact le_capacity.mpr (h.im.last hsmall)

theorem Handed.Inv.sound_iff (h : s.Inv n) (hn : 1 ≤ n) (op : NumMgrOp) :
    s.Sound n op ↔ s.Tested n op := by
  cases op with
  | allocate fuel =>
    refine iff_of_true (fun r im' ha hmax => ?_) trivial
    obtain ⟨hr, -⟩ | ⟨⟨h1, hle, hfree⟩, -⟩ := h.im.outcome hsmall hn ha
    · exact absurd hr hmax
    · refine ⟨h1, hle, fun hout => ?_⟩
      have htaken := ((h.mem r).mp hout).2.2
      rw [hfree] at htaken
      cases htaken
  | release k => exact h.sound_release hsmall hn k

omit hsmall in
theorem Handed.inv_init {im₀ : NumMgr} {memory : Bool}
    (hinit : xNumMgrInit n memory = some im₀) : Handed.Inv n ⟨im₀, []⟩ := by
  have hzero : im₀.lastAllocated = 0 := by
    unfold xNumMgrInit at hinit
    split_ifs at hinit
    cases hinit
    rfl
  have hfree : ∀ k, xNumMgrIsAllocated im₀ k = false := by
    unfold xNumMgrInit at hinit
    split_ifs at hinit
    cases hinit
    exact fun k => xBitArrayGetBit_alloc _ k
  refine ⟨RinaSense.Common.inv_init hinit, List.nodup_nil, fun k => ?_, ?_⟩
  · simp [hfree]
  · rintro ⟨⟨h2, -⟩, -⟩
    rw [hzero] at h2
    exact absurd h2 (by decide)

end Small

section Large

variable (hlarge : ¬ n.toNat + 1 < 2 ^ 32)

include hlarge

/-- The search hands out the next number when it is free. -/
theorem NumMgr.Inv.allocate_next (h : im.Inv n) (hlt : im.lastAllocated.toNat + 1 < 2 ^ 32)
    (hfree : xNumMgrIsAllocated im (im.lastAllocated + 1) = false) :
    ulNumMgrAllocate 1 im =
      some (im.lastAllocated + 1, im.take (im.lastAllocated + 1)) := by
  have hnext : (im.lastAllocated + 1).toNat = im.lastAllocated.toNat + 1 := by
    rw [UInt32.toNat_add]
    exact Nat.mod_eq_of_lt hlt
  refine allocate_succ hlt ?_ hfree 0
  obtain hw | ⟨hzero, -, -⟩ := h.wrap_large hlarge (im.lastAllocated + 1)
  · exact hw
  · rw [hzero] at hnext
    change 0 = im.lastAllocated.toNat + 1 at hnext
    omega

theorem NumMgr.Inv.take_large (h : im.Inv n) (r : UInt32) : (im.take r).Inv n :=
  ⟨h.numCnt, by simpa [NumMgr.take, vBitArraySetBit] using h.nbbits,
    fun hs => absurd hs hlarge, fun hs => absurd hs hlarge⟩

/-- Allocations alone take the last number to any `j`, through all before it. -/
theorem exists_climb {im₀ : NumMgr} {memory : Bool} (hinit : xNumMgrInit n memory = some im₀)
    {j : ℕ} (hj : j < 2 ^ 32) :
    ∃ ops s, List.foldlM Handed.step ⟨im₀, []⟩ ops = some s ∧
      GuardedSteps Handed.step (Handed.Tested n) ⟨im₀, []⟩ ops ∧ s.im.Inv n ∧
      s.im.lastAllocated.toNat = j ∧
      (∀ m : UInt32, m = 0 ∨ j < m.toNat → xNumMgrIsAllocated s.im m = false) ∧
      (1 ≤ j → 1 ∈ s.out) := by
  induction j with
  | zero =>
    have h := Handed.inv_init hinit
    unfold xNumMgrInit at hinit
    split_ifs at hinit
    cases hinit
    exact ⟨[], _, rfl, trivial, h.im, rfl, fun m _ => xBitArrayGetBit_alloc _ m, fun h => by omega⟩
  | succ j ih =>
    obtain ⟨ops, s, hrun, hguard, him, hlast, hfree, hout⟩ := ih (by omega)
    have hr : (s.im.lastAllocated + 1).toNat = j + 1 := by
      rw [UInt32.toNat_add, hlast]
      exact Nat.mod_eq_of_lt hj
    have ha := him.allocate_next hlarge (by omega) (hfree _ (.inr (by omega)))
    generalize s.im.lastAllocated + 1 = r at hr ha
    have hstep : s.step (.allocate 1) =
        some ⟨s.im.take r, if r = UINT_MAX then s.out else r :: s.out⟩ := by
      rw [Handed.step, ha]
      rfl
    have htested : GuardedSteps Handed.step (Handed.Tested n) s [.allocate 1] :=
      ⟨trivial, by rw [hstep]; trivial⟩
    refine ⟨ops ++ [.allocate 1], ⟨s.im.take r, if r = UINT_MAX then s.out else r :: s.out⟩, ?_,
      guardedSteps_append hguard hrun htested, him.take_large hlarge r, hr, ?_, ?_⟩
    · rw [List.foldlM_append, hrun]
      simp only [Option.bind_eq_bind, Option.bind_some, List.foldlM_cons, hstep]
      rfl
    · rintro m hm
      have hmr : m ≠ r := by
        rintro rfl
        rcases hm with rfl | hm
        · change 0 = j + 1 at hr
          omega
        · omega
      rw [take_isAllocated, if_neg (fun h => hmr h.1)]
      exact hfree m (hm.imp_right (by omega))
    · intro _
      by_cases hj1 : j = 0
      · have hr1 : r = 1 := UInt32.toNat_inj.mp (by rw [hr, hj1]; rfl)
        rw [hr1, if_neg (by decide)]
        exact List.mem_cons_self
      · have hmem := hout (by omega)
        split_ifs
        · exact hmem
        · exact List.mem_cons_of_mem _ hmem

/-- The number behind the largest one is zero, which is no number of the manager, or 1, which
is still out. -/
theorem exists_unsound {im₀ : NumMgr} {memory : Bool}
    (hinit : xNumMgrInit n memory = some im₀) :
    ∃ ops, GuardedSteps Handed.step (Handed.Tested n) ⟨im₀, []⟩ ops ∧
      ¬ GuardedSteps Handed.step (Handed.Sound n) ⟨im₀, []⟩ ops := by
  obtain ⟨ops, s, hrun, hguard, him, hlast, hfree, hout⟩ :=
    exists_climb hlarge hinit (show 2 ^ 32 - 1 < 2 ^ 32 by decide)
  have hlast' : s.im.lastAllocated = UINT_MAX := UInt32.toNat_inj.mp hlast
  have hzero : s.im.lastAllocated + 1 = 0 := by
    rw [hlast']
    rfl
  have hne : (0 : UInt32) ≠ s.im.lastAllocated := by
    rw [hlast']
    decide
  have hfree' : xNumMgrIsAllocated s.im (s.im.wrap 0) = false := by
    obtain hw | ⟨-, hw, hbits⟩ := him.wrap_large hlarge 0
    · rw [hw]
      exact hfree 0 (.inl rfl)
    · rw [hw]
      exact xBitArrayGetBit_outside (by simp [hbits])
  have ha : ulNumMgrAllocate 1 s.im = some (s.im.wrap 0, s.im.take (s.im.wrap 0)) := by
    rw [ulNumMgrAllocate, hzero]
    exact rounds_done (searchRound_free hne hfree') 0
  have htested : GuardedSteps Handed.step (Handed.Tested n) s [.allocate 1] := by
    refine ⟨trivial, ?_⟩
    cases Handed.step s (.allocate 1) <;> trivial
  refine ⟨ops ++ [.allocate 1], guardedSteps_append hguard hrun htested, fun hsound => ?_⟩
  have hlastSound := (hsound.of_append hrun).1 _ _ ha
  obtain hw | ⟨-, hw, -⟩ := him.wrap_large hlarge 0
  · rw [hw] at hlastSound
    exact absurd (hlastSound (by decide)).1 (by decide)
  · rw [hw] at hlastSound
    exact (hlastSound (by decide)).2.2 (hout (by decide))

end Large

/-- On a manager for at most 2 ^ 32 - 2 numbers a run of allocations and releases is sound if
and only if no call gives back the last number while all others are out. On a larger manager
there are unsound runs without such a call. -/
theorem handed_sound_iff {im₀ : NumMgr} (hn : 1 ≤ n) {memory : Bool}
    (hinit : xNumMgrInit n memory = some im₀) :
    (n.toNat + 1 < 2 ^ 32 → ∀ ops,
      (GuardedSteps Handed.step (Handed.Sound n) ⟨im₀, []⟩ ops ↔
        GuardedSteps Handed.step (Handed.Tested n) ⟨im₀, []⟩ ops)) ∧
      (¬ n.toNat + 1 < 2 ^ 32 → ∃ ops,
        GuardedSteps Handed.step (Handed.Tested n) ⟨im₀, []⟩ ops ∧
          ¬ GuardedSteps Handed.step (Handed.Sound n) ⟨im₀, []⟩ ops) := by
  refine ⟨fun hsmall ops => ?_, fun hlarge => exists_unsound hlarge hinit⟩
  apply guardedSteps_congr (Handed.Inv n)
  · intro s op h
    exact h.sound_iff hsmall hn op
  · intro s op s' h ht hst
    exact h.step hsmall hn ht hst
  · exact Handed.inv_init hinit

/-- All three numbers are handed out, and the first and the last one are given back. -/
theorem handed_sound_three :
    ∃ im₀, xNumMgrInit 3 true = some im₀ ∧
      GuardedSteps Handed.step (Handed.Sound 3) ⟨im₀, []⟩
        [.allocate 1, .allocate 1, .allocate 1, .release 1, .release 3] := by
  refine ⟨_, rfl, ((handed_sound_iff (by decide) (show xNumMgrInit 3 true = some _ from rfl)).1
    (by decide) _).mpr ⟨trivial, trivial, trivial, ?_, ?_, trivial⟩⟩
  · rintro ⟨h, -⟩
    exact absurd h (by decide)
  · rintro ⟨-, -, hothers⟩
    exact absurd (hothers 1 (by decide) (by decide) (by decide)) (by decide)

/-- All three numbers are handed out and the last one is given back. -/
theorem handed_unsound :
    ∃ im₀, xNumMgrInit 3 true = some im₀ ∧
      ¬ GuardedSteps Handed.step (Handed.Sound 3) ⟨im₀, []⟩
        [.allocate 1, .allocate 1, .allocate 1, .release 3] := by
  refine ⟨_, rfl, ?_⟩
  rintro ⟨-, -, -, hsound, -⟩
  have hthird := ((hsound (by decide)).2 3).mpr (.inl rfl)
  have hpres : ∀ im op im', NumMgr.Inv 3 im → im.step op = some im' → NumMgr.Inv 3 im' :=
    fun _ _ _ hi hst => hi.step (by decide) hst
  have him := foldlM_preserves hpres
    (inv_init (show xNumMgrInit 3 true = some _ from rfl))
    (show [NumMgrOp.allocate 1, .allocate 1, .allocate 1, .release 3].foldlM NumMgr.step _ =
      some _ from rfl)
  apply ((him.allocatable_iff (by decide) (by decide)).mp hthird).2
  refine ⟨⟨by decide, fun k h1 hle hne => ?_⟩, by decide⟩
  have hk : k = 1 ∨ k = 2 := by
    rw [one_le_number] at h1
    rw [le_capacity] at hle
    change k ≠ 3 at hne
    rw [Ne, ← UInt32.toNat_inj] at hne
    rw [← UInt32.toNat_inj, ← UInt32.toNat_inj]
    change k.toNat ≤ 3 at hle
    change k.toNat ≠ 3 at hne
    change k.toNat = 1 ∨ k.toNat = 2
    omega
  obtain rfl | rfl := hk <;> decide

end RinaSense.Common
