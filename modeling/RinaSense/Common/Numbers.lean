import RinaSense.Common.NumMgr

/-!
# What a number manager hands out

Allocations and releases of `common/num_mgr.c`, with the numbers which are out beside the
manager. The search tests the number which was handed out last only when it is the first
one, so that a manager can fail while that number is free.
-/

namespace RinaSense.Common

open Library.Loop Library.Runs

/-- Every number from 1 to `n` but the one which was handed out last is taken. -/
def NumMgr.OthersTaken (im : NumMgr) (n : UInt64) : Prop :=
  2 ≤ im.lastAllocated ∧ ∀ k : UInt32, 1 ≤ k → k.toUInt64 ≤ n → k ≠ im.lastAllocated →
    xNumMgrIsAllocated im k = true

/-- The one free number is the one the search does not test. -/
def NumMgr.Stuck (im : NumMgr) (n : UInt64) : Prop :=
  im.OthersTaken n ∧ xNumMgrIsAllocated im im.lastAllocated = false

/-- A number of a manager of the capacity `n` which is not taken. -/
def NumMgr.Free (im : NumMgr) (n : UInt64) (k : UInt32) : Prop :=
  1 ≤ k ∧ k.toUInt64 ≤ n ∧ xNumMgrIsAllocated im k = false

/-- The manager which has handed out the number `r`. -/
def NumMgr.take (im : NumMgr) (r : UInt32) : NumMgr :=
  { im with ba := vBitArraySetBit im.ba r, lastAllocated := r }

variable {n : UInt64} {im im' : NumMgr}

theorem searchRound_last {p : UInt32} (hp : p = im.lastAllocated) :
    searchRound im p = .inl (UINT_MAX, im) := by
  rw [searchRound, if_pos hp]

theorem searchRound_free {p : UInt32} (hp : p ≠ im.lastAllocated)
    (hb : xNumMgrIsAllocated im (im.wrap p) = false) :
    searchRound im p = .inl (im.wrap p, im.take (im.wrap p)) := by
  rw [xNumMgrIsAllocated] at hb
  simp only [searchRound, hp, if_false, hb, Bool.false_eq_true, NumMgr.take]

/-- The search ends in its first round where the number behind the last one is free. -/
theorem allocate_succ (hlt : im.lastAllocated.toNat + 1 < 2 ^ 32)
    (hwrap : im.wrap (im.lastAllocated + 1) = im.lastAllocated + 1)
    (hfree : xNumMgrIsAllocated im (im.lastAllocated + 1) = false) (fuel : ℕ) :
    ulNumMgrAllocate (fuel + 1) im =
      some (im.lastAllocated + 1, im.take (im.lastAllocated + 1)) := by
  have hnext : (im.lastAllocated + 1).toNat = im.lastAllocated.toNat + 1 := by
    rw [UInt32.toNat_add]
    exact Nat.mod_eq_of_lt hlt
  have hne : im.lastAllocated + 1 ≠ im.lastAllocated := by
    rw [Ne, ← UInt32.toNat_inj, hnext]
    omega
  have hround := searchRound_free hne (by rwa [hwrap])
  rw [hwrap] at hround
  exact rounds_done hround fuel

theorem take_isAllocated (r k : UInt32) :
    xNumMgrIsAllocated (im.take r) k =
      if k = r ∧ r < im.ba.nbbits then true else xNumMgrIsAllocated im k :=
  xBitArrayGetBit_set r k

theorem release_isAllocated (k m : UInt32) :
    xNumMgrIsAllocated (xNumMgrRelease im k).2 m =
      if m = k then false else xNumMgrIsAllocated im m := by
  unfold xNumMgrRelease
  split_ifs with hk hm hm
  · rw [xNumMgrIsAllocated, xBitArrayGetBit_clear]
    simp only [hm, true_and]
    split_ifs with hin
    · rfl
    · exact xBitArrayGetBit_outside hin
  · rw [xNumMgrIsAllocated, xBitArrayGetBit_clear, if_neg (fun h => hm h.1)]
    rfl
  · rw [hm]
    exact eq_false_of_ne_true hk
  · rfl

theorem release_lastAllocated (k : UInt32) :
    (xNumMgrRelease im k).2.lastAllocated = im.lastAllocated := by
  unfold xNumMgrRelease
  split_ifs <;> rfl

theorem one_le_number {k : UInt32} : 1 ≤ k ↔ 1 ≤ k.toNat := UInt32.le_iff_toNat_le

/-- The numbers behind the search: those from the last one on and, once it has started again
at 1, also those before it. -/
def NumMgr.Searched (im : NumMgr) (n : UInt64) (p : UInt32) : Prop :=
  (im.lastAllocated < p ∧ ∀ k, im.lastAllocated < k → k < p → xNumMgrIsAllocated im k = true) ∨
    (2 ≤ p ∧ ∀ k : UInt32, 1 ≤ k → k.toUInt64 ≤ n → im.lastAllocated < k ∨ k < p →
      xNumMgrIsAllocated im k = true)

/-- What an allocation which comes back has done: it went round to the number it started
from, or it hands out a free number. -/
def NumMgr.Outcome (im : NumMgr) (n : UInt64) (r : UInt32) (im' : NumMgr) : Prop :=
  (r = UINT_MAX ∧ im' = im ∧ im.OthersTaken n) ∨
    (im.Free n r ∧ im' = im.take r ∧ (r = im.lastAllocated → r = 1))

section Small

variable (hsmall : n.toNat + 1 < 2 ^ 32)

include hsmall

theorem NumMgr.Inv.searched_start (h : im.Inv n) : im.Searched n (im.lastAllocated + 1) := by
  have hstart := succ_toNat hsmall (h.last hsmall)
  left
  simp only [UInt32.lt_iff_toNat_lt, hstart]
  refine ⟨Nat.lt_succ_self _, fun k hk hkp => ?_⟩
  omega

theorem NumMgr.Inv.searched_next (h : im.Inv n) (hn : 1 ≤ n) {p next : UInt32}
    (hp : InRange n p) (hdone : im.Searched n p) (hround : searchRound im p = .inr next) :
    InRange n next ∧ im.Searched n next := by
  obtain ⟨hlast, htaken, rfl⟩ := searchRound_inr hround
  obtain ⟨h1, h2⟩ := h.wrap_range hsmall hn hp
  have hnext := succ_toNat hsmall h2
  have hwrap := h.wrap_toNat hsmall p
  have htested : ∀ k : UInt32, k.toNat = (im.wrap p).toNat →
      xNumMgrIsAllocated im k = true := by
    intro k hk
    rwa [UInt32.toNat_inj.mp hk]
  constructor
  · rw [InRange, hnext]
    omega
  simp only [NumMgr.Searched, UInt32.lt_iff_toNat_lt, le_capacity, UInt32.le_iff_toNat_le,
    UInt32.reduceToNat, hnext] at hdone ⊢
  split_ifs at hwrap with hend
  · -- the search goes on at 2 and has passed all numbers behind the last one
    right
    refine ⟨by rw [hwrap], fun k hk1 hkn hk => ?_⟩
    by_cases hk' : k.toNat = 1
    · exact htested k (hk'.trans hwrap.symm)
    · obtain ⟨-, hup⟩ | ⟨-, hup⟩ := hdone
      · exact hup k (by omega) (by omega)
      · exact hup k hk1 hkn (by omega)
  · rw [hwrap]
    obtain ⟨hlt, hup⟩ | ⟨h2', hup⟩ := hdone
    · refine .inl ⟨by omega, fun k hk hkp => ?_⟩
      by_cases he : k.toNat = p.toNat
      · exact htested k (he.trans hwrap.symm)
      · exact hup k hk (by omega)
    · refine .inr ⟨by omega, fun k hk1 hkn hk => ?_⟩
      by_cases he : k.toNat = p.toNat
      · exact htested k (he.trans hwrap.symm)
      · exact hup k hk1 hkn (by omega)

theorem NumMgr.Inv.searched_end (h : im.Inv n) (hn : 1 ≤ n) {p : UInt32}
    (hp : InRange n p) (hdone : im.Searched n p) {r : UInt32}
    (hround : searchRound im p = .inl (r, im')) : im.Outcome n r im' := by
  by_cases hlast : p = im.lastAllocated
  · rw [searchRound_last hlast] at hround
    cases hround
    refine .inl ⟨rfl, rfl, ?_⟩
    subst hlast
    obtain ⟨hlt, -⟩ | ⟨h2, htaken⟩ := hdone
    · exact absurd hlt (by simp)
    · refine ⟨h2, fun k h1 hk hne => htaken k h1 hk ?_⟩
      rw [UInt32.lt_iff_toNat_lt, UInt32.lt_iff_toNat_lt]
      rw [Ne, ← UInt32.toNat_inj] at hne
      omega
  · obtain ⟨h1, h2⟩ := h.wrap_range hsmall hn hp
    cases hfree : xNumMgrIsAllocated im (im.wrap p) with
    | true =>
      rw [searchRound_taken hlast hfree] at hround
      cases hround
    | false =>
      rw [searchRound_free hlast hfree] at hround
      cases hround
      refine .inr ⟨⟨one_le_number.mpr h1, le_capacity.mpr h2, hfree⟩, rfl, fun he => ?_⟩
      have hwrap := h.wrap_toNat hsmall p
      rw [← UInt32.toNat_inj]
      split_ifs at hwrap with hend
      · exact hwrap
      · exact absurd ((UInt32.toNat_inj.mp hwrap).symm.trans he) hlast

theorem NumMgr.Inv.outcome (h : im.Inv n) (hn : 1 ≤ n) {fuel : ℕ} {r : UInt32}
    (ha : ulNumMgrAllocate fuel im = some (r, im')) : im.Outcome n r im' :=
  rounds_result (Q := fun out => im.Outcome n out.1 out.2)
    (I := fun p => InRange n p ∧ im.Searched n p)
    (fun _ _ hp hround => h.searched_end hsmall hn hp.1 hp.2 hround)
    (fun _ _ hp hround => h.searched_next hsmall hn hp.1 hp.2 hround)
    ⟨h.start_range hsmall, h.searched_start hsmall⟩ ha

/-- A search fails exactly on a manager whose other numbers are all taken and whose last one
is not tested. -/
theorem NumMgr.Inv.complete_small (h : im.Inv n) (hn : 1 ≤ n) :
    (∀ fuel im', ulNumMgrAllocate fuel im = some (UINT_MAX, im') → im.Full n) ↔
      ¬ im.Stuck n := by
  constructor
  · rintro hcomplete ⟨⟨h2, htaken⟩, hfree⟩
    have h2' : 2 ≤ im.lastAllocated.toNat := UInt32.le_iff_toNat_le.mp h2
    have hlast : ∀ hfull : im.Full n, False := by
      intro hfull
      rw [hfull _ (one_le_number.mpr (by omega)) (le_capacity.mpr (h.last hsmall))] at hfree
      cases hfree
    obtain ⟨fuel, hsome⟩ := (h.ends_iff hn).mpr (fun hstuck => hlast hstuck.2)
    obtain ⟨⟨r, im'⟩, ha⟩ := Option.isSome_iff_exists.mp hsome
    obtain ⟨rfl, -, -⟩ | ⟨⟨h1, hle, hr⟩, -, hne⟩ := h.outcome hsmall hn ha
    · exact hlast (hcomplete fuel im' ha)
    · by_cases he : r = im.lastAllocated
      · rw [hne he] at he
        rw [← he] at h2
        exact absurd h2 (by decide)
      · rw [htaken r h1 hle he] at hr
        cases hr
  · intro hnot fuel im' ha k h1 hle
    obtain ⟨-, -, hothers⟩ | ⟨⟨-, hmax, -⟩, -, -⟩ := h.outcome hsmall hn ha
    · by_cases hk : k = im.lastAllocated
      · by_contra hfree
        rw [hk] at hfree
        exact hnot ⟨hothers, eq_false_of_ne_true hfree⟩
      · exact hothers.2 k h1 hle hk
    · rw [le_capacity] at hmax
      change 2 ^ 32 - 1 ≤ n.toNat at hmax
      omega

end Small

theorem lt_max {p : UInt32} (hp : p ≠ UINT_MAX) : p < UINT_MAX := by
  rw [Ne, ← UInt32.toNat_inj] at hp
  change p.toNat ≠ 2 ^ 32 - 1 at hp
  have hlt := p.toNat_lt
  rw [UInt32.lt_iff_toNat_lt]
  change p.toNat < 2 ^ 32 - 1
  omega

section Large

variable (hlarge : ¬ n.toNat + 1 < 2 ^ 32)

include hlarge

/-- The largest number is the result of a round which ends with nothing free before it. -/
theorem NumMgr.Inv.round_large (h : im.Inv n) {p r : UInt32} (hp : im.lastAllocated + 1 ≤ p)
    (hup : ∀ q, im.lastAllocated + 1 ≤ q → q < p → xNumMgrIsAllocated im q = true)
    (hround : searchRound im p = .inl (r, im')) :
    r = UINT_MAX ↔
      ∀ q, im.lastAllocated + 1 ≤ q → q < UINT_MAX → xNumMgrIsAllocated im q = true := by
  by_cases hlast : p = im.lastAllocated
  · rw [searchRound_last hlast] at hround
    cases hround
    refine iff_of_true rfl fun q hq hmax => hup q hq ?_
    -- the last number is the largest, or the search would be behind it
    rw [UInt32.le_iff_toNat_le, ← hlast, UInt32.toNat_add] at hp
    change (p.toNat + 1) % 2 ^ 32 ≤ p.toNat at hp
    have hlt := p.toNat_lt
    rw [UInt32.lt_iff_toNat_lt] at hmax ⊢
    change q.toNat < 2 ^ 32 - 1 at hmax
    omega
  · cases hfree : xNumMgrIsAllocated im (im.wrap p) with
    | true =>
      rw [searchRound_taken hlast hfree] at hround
      cases hround
    | false =>
      rw [searchRound_free hlast hfree] at hround
      cases hround
      obtain hw | ⟨rfl, hw, hbits⟩ := h.wrap_large hlarge p
      · rw [hw] at hfree ⊢
        constructor
        · rintro rfl q hq hmax
          exact hup q hq hmax
        · intro hall
          by_contra hne
          have hlt : p < UINT_MAX := lt_max hne
          rw [hall p hp hlt] at hfree
          cases hfree
      · rw [hw]
        refine iff_of_false (show (1 : UInt32) ≠ UINT_MAX by decide) fun hall => ?_
        have hzero := hall 0 hp (by decide)
        rw [xNumMgrIsAllocated, xBitArrayGetBit_outside (by simp [hbits])] at hzero
        cases hzero

/-- A manager of this size fails when its search meets no free number on its way up. -/
theorem NumMgr.Inv.outcome_large (h : im.Inv n) {fuel : ℕ} {r : UInt32}
    (ha : ulNumMgrAllocate fuel im = some (r, im')) :
    r = UINT_MAX ↔
      ∀ p, im.lastAllocated + 1 ≤ p → p < UINT_MAX → xNumMgrIsAllocated im p = true := by
  refine rounds_result (Q := fun out => out.1 = UINT_MAX ↔ _)
    (I := fun p => im.lastAllocated + 1 ≤ p ∧
      ∀ q, im.lastAllocated + 1 ≤ q → q < p → xNumMgrIsAllocated im q = true) ?_ ?_ ?_ ha
  · rintro p ⟨r, im'⟩ ⟨hp, hup⟩ hround
    exact h.round_large hlarge hp hup hround
  · rintro p next ⟨hp, hup⟩ hround
    obtain ⟨htaken, hnext⟩ := h.next_large hlarge hround
    rw [UInt32.le_iff_toNat_le] at hp ⊢
    refine ⟨by omega, fun q hq hqp => ?_⟩
    by_cases he : q = p
    · rwa [he]
    · refine hup q hq ?_
      rw [← UInt32.toNat_inj] at he
      rw [UInt32.lt_iff_toNat_lt] at hqp ⊢
      omega
  · exact ⟨UInt32.le_refl _, fun q hq hlt => absurd hlt (UInt32.not_lt.mpr hq)⟩

theorem NumMgr.Inv.complete_large (h : im.Inv n) :
    (∀ fuel im', ulNumMgrAllocate fuel im = some (UINT_MAX, im') → im.Full n) ↔
      ∃ p, im.lastAllocated + 1 ≤ p ∧ p < UINT_MAX ∧ xNumMgrIsAllocated im p = false := by
  constructor
  · intro hcomplete
    obtain ⟨fuel, hsome⟩ := h.ends_large hlarge (im.lastAllocated + 1)
    obtain ⟨⟨r, im'⟩, ha⟩ := Option.isSome_iff_exists.mp hsome
    have hne : r ≠ UINT_MAX := by
      rintro rfl
      exact NumMgr.not_full hlarge im (hcomplete fuel im' ha)
    have hsome := mt (h.outcome_large hlarge ha).mpr hne
    simp only [not_forall, Bool.not_eq_true] at hsome
    obtain ⟨p, hp, hlt, hfree⟩ := hsome
    exact ⟨p, hp, hlt, hfree⟩
  · rintro ⟨p, hp, hlt, hfree⟩ fuel im' ha
    rw [(h.outcome_large hlarge ha).mp rfl p hp hlt] at hfree
    cases hfree

end Large

/-- On a manager of any capacity, after any allocations and releases, an allocation fails
only when all numbers are handed out if and only if the one free number is not the last one,
from 2 on. A manager for more numbers than there are must have a free one on the way up. -/
theorem allocate_complete_iff {im₀ : NumMgr} (hn : 1 ≤ n) {memory : Bool}
    (hinit : xNumMgrInit n memory = some im₀) {ops : List NumMgrOp}
    (hrun : ops.foldlM NumMgr.step im₀ = some im) :
    (∀ fuel im', ulNumMgrAllocate fuel im = some (UINT_MAX, im') → im.Full n) ↔
      if n.toNat + 1 < 2 ^ 32 then ¬ im.Stuck n
      else ∃ p, im.lastAllocated + 1 ≤ p ∧ p < UINT_MAX ∧ xNumMgrIsAllocated im p = false := by
  have h : im.Inv n :=
    foldlM_preserves (fun _ _ _ hi hst => NumMgr.Inv.step hi hn hst) (inv_init hinit) hrun
  split_ifs with hsize
  · exact h.complete_small hsize hn
  · exact h.complete_large hsize

/-- All three numbers are handed out and the second is given back. -/
theorem allocate_complete_second :
    ∃ im₀ im, xNumMgrInit 3 true = some im₀ ∧
      [NumMgrOp.allocate 1, .allocate 1, .allocate 1, .release 2].foldlM NumMgr.step im₀ =
        some im ∧
      ∀ fuel im', ulNumMgrAllocate fuel im = some (UINT_MAX, im') → im.Full 3 :=
  ⟨_, _, rfl, rfl, (allocate_complete_iff (by decide)
    (show xNumMgrInit 3 true = some _ from rfl)
    (show [NumMgrOp.allocate 1, .allocate 1, .allocate 1, .release 2].foldlM NumMgr.step _ =
      some _ from rfl)).mpr (by
        rw [if_pos (by decide)]
        rintro ⟨-, hfree⟩
        exact absurd hfree (by decide))⟩

/-- All three numbers are handed out and the last one is given back. -/
theorem allocate_incomplete :
    ∃ im₀ im, xNumMgrInit 3 true = some im₀ ∧
      [NumMgrOp.allocate 1, .allocate 1, .allocate 1, .release 3].foldlM NumMgr.step im₀ =
        some im ∧
      ¬ ∀ fuel im', ulNumMgrAllocate fuel im = some (UINT_MAX, im') → im.Full 3 := by
  refine ⟨_, _, rfl, rfl, fun hcomplete => ?_⟩
  have hthird := hcomplete 3 _ rfl 3 (by decide) (by decide)
  exact absurd hthird (by decide)

end RinaSense.Common
