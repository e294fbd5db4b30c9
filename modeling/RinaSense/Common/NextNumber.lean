import RinaSense.Common.Numbers

/-!
# The number which an allocation comes to

The search of a number manager goes up from the number which was handed out last and then
starts again at 1. What it hands out is the first free number on this way, which says how large
the numbers get as the manager is used.
-/

namespace RinaSense.Common

open Library.Loop Library.Runs

/-- The first free number on the way of the search of a manager of the capacity `n`. -/
def NumMgr.Next (im : NumMgr) (n : UInt64) (k : UInt32) : Prop :=
  im.Free n k ∧
    ((im.lastAllocated < k ∧
        ∀ j, im.lastAllocated < j → j < k → xNumMgrIsAllocated im j = true) ∨
      ((∀ j : UInt32, im.lastAllocated < j → j.toUInt64 ≤ n → xNumMgrIsAllocated im j = true) ∧
        (∀ j : UInt32, 1 ≤ j → j < k → xNumMgrIsAllocated im j = true) ∧
        (k < im.lastAllocated ∨ k = 1)))

/-- The search comes to a free number below `b` before it comes to any other. -/
def NumMgr.MeetsBelow (im : NumMgr) (n : UInt64) (b : ℕ) : Prop :=
  (∃ k, im.Free n k ∧ k.toNat < b ∧ im.lastAllocated < k) ∨
    ((∀ k, im.Free n k → ¬ im.lastAllocated < k) ∧
      ∃ k, im.Free n k ∧ k.toNat < b ∧ (k < im.lastAllocated ∨ k = 1))

variable {n : UInt64} {im im' : NumMgr} {r : UInt32}

section Small

variable (hsmall : n.toNat + 1 < 2 ^ 32)

include hsmall

/-- The search ends with a failure, or at the first free number on its way. -/
theorem NumMgr.Inv.next_end (h : im.Inv n) (hn : 1 ≤ n) {p : UInt32} (hp : InRange n p)
    (hdone : im.Searched n p) (hround : searchRound im p = .inl (r, im')) :
    r = UINT_MAX ∨ im.Next n r := by
  rcases h.searched_end hsmall hn hp hdone hround with ⟨rfl, -, -⟩ | ⟨hfree, -, -⟩
  · exact .inl rfl
  have hlast : p ≠ im.lastAllocated := by
    rintro hlast
    rw [searchRound_last hlast] at hround
    cases hround
    have hmax := le_capacity.mp hfree.2.1
    change 2 ^ 32 - 1 ≤ n.toNat at hmax
    omega
  have hr : r = im.wrap p := by
    cases hbit : xNumMgrIsAllocated im (im.wrap p) with
    | true =>
      rw [searchRound_taken hlast hbit] at hround
      cases hround
    | false =>
      rw [searchRound_free hlast hbit] at hround
      cases hround
      rfl
  subst hr
  refine .inr ⟨hfree, ?_⟩
  have hwrap := h.wrap_toNat hsmall p
  obtain ⟨-, hpn⟩ := hp
  simp only [NumMgr.Searched, UInt32.lt_iff_toNat_lt, le_capacity, UInt32.le_iff_toNat_le,
    UInt32.reduceToNat] at hdone ⊢
  split_ifs at hwrap with hend
  · -- the search has passed all numbers behind the last one and is at 1
    refine .inr ⟨fun j hj hjn => ?_, fun j hj hjp => ?_, .inr (UInt32.toNat_inj.mp hwrap)⟩
    · obtain ⟨-, hup⟩ | ⟨-, hup⟩ := hdone
      · exact hup j hj (by omega)
      · exact hup j (by omega) hjn (.inl hj)
    · omega
  · rw [hwrap]
    obtain ⟨hlt, hup⟩ | ⟨-, hup⟩ := hdone
    · exact .inl ⟨hlt, fun j hj hjp => hup j hj (by omega)⟩
    · refine .inr ⟨fun j hj hjn => hup j (by omega) hjn (.inl hj),
        fun j hj hjp => hup j hj (by omega) (.inr (by omega)), .inl ?_⟩
      by_contra hge
      have hne : p.toNat ≠ im.lastAllocated.toNat := fun he => hlast (UInt32.toNat_inj.mp he)
      have hmem := hup (im.wrap p) (one_le_number.mp hfree.1) (le_capacity.mp hfree.2.1)
        (.inl (by omega))
      rw [hfree.2.2] at hmem
      cases hmem

/-- What an allocation hands out is the first free number on its way. -/
theorem NumMgr.Inv.next (h : im.Inv n) (hn : 1 ≤ n) {fuel : ℕ}
    (ha : ulNumMgrAllocate fuel im = some (r, im')) : r = UINT_MAX ∨ im.Next n r :=
  rounds_result (Q := fun out => out.1 = UINT_MAX ∨ im.Next n out.1)
    (I := fun p => InRange n p ∧ im.Searched n p)
    (fun _ _ hp hround => h.next_end hsmall hn hp.1 hp.2 hround)
    (fun _ _ hp hround => h.searched_next hsmall hn hp.1 hp.2 hround)
    ⟨h.start_range hsmall, h.searched_start hsmall⟩ ha

end Small

theorem NumMgr.Next.below_iff (h : im.Next n r) {b : ℕ} : r.toNat < b ↔ im.MeetsBelow n b := by
  obtain ⟨hfree, hup⟩ := h
  have hbefore : ∀ k, im.Free n k → (xNumMgrIsAllocated im k = true → False) :=
    fun k hk htaken => by
      rw [hk.2.2] at htaken
      cases htaken
  rcases hup with ⟨hlt, hup⟩ | ⟨hall, hup, hlast⟩
  · constructor
    · exact fun hb => .inl ⟨r, hfree, hb, hlt⟩
    · rintro (⟨k, hk, hkb, hkl⟩ | ⟨hnone, -⟩)
      · by_contra hb
        exact hbefore k hk (hup k hkl (UInt32.lt_iff_toNat_lt.mpr (by omega)))
      · exact absurd hlt (hnone r hfree)
  · constructor
    · exact fun hb => .inr ⟨fun k hk hkl => hbefore k hk (hall k hkl hk.2.1), r, hfree, hb, hlast⟩
    · rintro (⟨k, hk, -, hkl⟩ | ⟨-, k, hk, hkb, -⟩)
      · exact (hbefore k hk (hall k hkl hk.2.1)).elim
      · by_contra hb
        exact hbefore k hk (hup k hk.1 (UInt32.lt_iff_toNat_lt.mpr (by omega)))

/-- A search which fails has met no free number. -/
theorem NumMgr.OthersTaken.not_meets (h : im.OthersTaken n) (b : ℕ) : ¬ im.MeetsBelow n b := by
  obtain ⟨htwo, htaken⟩ := h
  have hlast : ∀ k, im.Free n k → k = im.lastAllocated := fun k hk => by
    by_contra hne
    have hbit := htaken k hk.1 hk.2.1 hne
    rw [hk.2.2] at hbit
    cases hbit
  rintro (⟨k, hk, -, hkl⟩ | ⟨-, k, hk, -, hkl | hone⟩)
  · rw [hlast k hk] at hkl
    exact absurd hkl (UInt32.lt_irrefl _)
  · rw [hlast k hk] at hkl
    exact absurd hkl (UInt32.lt_irrefl _)
  · rw [← hlast k hk, hone] at htwo
    exact absurd htwo (by decide)

/-- The result of an allocation is below a bound exactly when the search comes to a free number
below it first. -/
theorem NumMgr.Inv.allocate_below_iff (h : im.Inv n) (hsmall : n.toNat + 1 < 2 ^ 32) (hn : 1 ≤ n)
    {b : ℕ} (hb : b < 2 ^ 32) {fuel : ℕ} (ha : ulNumMgrAllocate fuel im = some (r, im')) :
    r.toNat < b ↔ im.MeetsBelow n b := by
  rcases h.next hsmall hn ha with rfl | hnext
  · rcases h.outcome hsmall hn ha with ⟨-, -, htaken⟩ | ⟨hfree, -, -⟩
    · refine iff_of_false (fun hlt => ?_) (htaken.not_meets b)
      change 2 ^ 32 - 1 < b at hlt
      omega
    · have hmax := le_capacity.mp hfree.2.1
      change 2 ^ 32 - 1 ≤ n.toNat at hmax
      omega
  · exact hnext.below_iff

/-- The allocation on a manager which has handed out nothing behind the last number. -/
theorem allocate_upwards (h : im.Inv n) (hsmall : n.toNat + 1 < 2 ^ 32)
    (hlt : im.lastAllocated.toNat < n.toNat)
    (hfree : xNumMgrIsAllocated im (im.lastAllocated + 1) = false) (fuel : ℕ) :
    ulNumMgrAllocate (fuel + 1) im =
      some (im.lastAllocated + 1, im.take (im.lastAllocated + 1)) := by
  have hsucc := succ_toNat hsmall (h.last hsmall)
  refine allocate_succ (by omega) ?_ hfree fuel
  rw [← UInt32.toNat_inj, h.wrap_toNat hsmall, if_neg (by omega)]

/-- After `k` allocations of a new manager the numbers up to `k` are handed out. -/
theorem allocations_upwards {im₀ : NumMgr} (hsmall : n.toNat + 1 < 2 ^ 32) (hn : 1 ≤ n)
    {memory : Bool} (hinit : xNumMgrInit n memory = some im₀) {k : ℕ} (hk : k ≤ n.toNat) :
    ∃ im, (List.replicate k (NumMgrOp.allocate 1)).foldlM NumMgr.step im₀ = some im ∧ im.Inv n ∧
      im.lastAllocated.toNat = k ∧
      ∀ j : UInt32, k < j.toNat → xNumMgrIsAllocated im j = false := by
  induction k with
  | zero =>
    have h := inv_init hinit
    have hlast : im₀.lastAllocated = 0 := by
      rw [xNumMgrInit] at hinit
      split_ifs at hinit
      cases hinit
      rfl
    exact ⟨im₀, rfl, h, by rw [hlast]; rfl, fun j _ => h.first hsmall hlast j⟩
  | succ k ih =>
    obtain ⟨im, hrun, h, hlast, hfree⟩ := ih (Nat.le_of_succ_le hk)
    have hsucc := succ_toNat hsmall (h.last hsmall)
    have hnext := allocate_upwards h hsmall (by omega) (hfree _ (by omega)) 0
    refine ⟨im.take (im.lastAllocated + 1), ?_, h.allocate hn hnext,
      hsucc.trans (congrArg Nat.succ hlast), fun j hj => ?_⟩
    · rw [List.replicate_succ', List.foldlM_append, hrun]
      show (im.step (.allocate 1) >>= pure) = _
      rw [NumMgr.step, hnext]
      rfl
    · rw [take_isAllocated, if_neg]
      · exact hfree j (by omega)
      · rintro ⟨rfl, -⟩
        omega

end RinaSense.Common
