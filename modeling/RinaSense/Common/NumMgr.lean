import RinaSense.Common.BitArray
import RinaSense.Library.Loop
import RinaSense.Library.Runs

/-!
# Number managers

The number manager of `common/num_mgr.c`, which hands out the numbers from 1 to its
capacity. The search goes round from the number which was handed out last and is to stop
when it comes back to it.
-/

namespace RinaSense.Common

open Library.Loop Library.Runs

def UINT_MAX : UInt32 := 0xffffffff

structure NumMgr where
  numCnt : UInt64
  lastAllocated : UInt32
  ba : BitArray
deriving DecidableEq

/-- The manager, if there is memory for its bit array, whose size has half the width. -/
def xNumMgrInit (numCnt : UInt64) (memory : Bool) : Option NumMgr :=
  let numCnt := numCnt + 1
  if memory then some ⟨numCnt, 0, pxBitArrayAlloc numCnt.toUInt32⟩ else none

def pxNumMgrCreate (numCnt : UInt64) (memory : Bool × Bool) : Option NumMgr :=
  if numCnt = UINT_MAX.toUInt64 then none
  else if memory.1 then xNumMgrInit numCnt memory.2 else none

/-- Behind the last number the search goes on with the first. -/
def NumMgr.wrap (im : NumMgr) (p : UInt32) : UInt32 :=
  if p.toUInt64 = im.numCnt then 1 else p

/-- A round of the search, which is at the number `p`. -/
def searchRound (im : NumMgr) (p : UInt32) : (UInt32 × NumMgr) ⊕ UInt32 :=
  if p = im.lastAllocated then .inl (UINT_MAX, im)
  else
    let p := im.wrap p
    if xBitArrayGetBit im.ba p then .inr (p + 1)
    else .inl (p, { im with ba := vBitArraySetBit im.ba p, lastAllocated := p })

/-- The number and the manager after a search of at most `fuel` rounds. -/
def ulNumMgrAllocate (fuel : ℕ) (im : NumMgr) : Option (UInt32 × NumMgr) :=
  rounds (searchRound im) fuel (im.lastAllocated + 1)

def xNumMgrRelease (im : NumMgr) (n : UInt32) : Bool × NumMgr :=
  if xBitArrayGetBit im.ba n then (true, { im with ba := vBitArrayClearBit im.ba n })
  else (false, im)

def xNumMgrIsAllocated (im : NumMgr) (n : UInt32) : Bool := xBitArrayGetBit im.ba n

/-- A call. An allocation is given the rounds it may take. -/
inductive NumMgrOp
  | allocate (fuel : ℕ)
  | release (n : UInt32)
deriving DecidableEq, Repr

/-- A call, unless it does not come back. -/
def NumMgr.step (im : NumMgr) : NumMgrOp → Option NumMgr
  | .allocate fuel => (ulNumMgrAllocate fuel im).map Prod.snd
  | .release n => some (xNumMgrRelease im n).2

/-- All numbers of a manager of the capacity `n` are handed out. -/
def NumMgr.Full (im : NumMgr) (n : UInt64) : Prop :=
  ∀ k : UInt32, 1 ≤ k → k.toUInt64 ≤ n → xNumMgrIsAllocated im k = true

/-! ### Runs -/

/-- What holds in every state of a manager of the capacity `n`. -/
structure NumMgr.Inv (n : UInt64) (im : NumMgr) : Prop where
  numCnt : im.numCnt = n + 1
  nbbits : im.ba.nbbits = (n + 1).toUInt32
  last : n.toNat + 1 < 2 ^ 32 → im.lastAllocated.toNat ≤ n.toNat
  first : n.toNat + 1 < 2 ^ 32 → im.lastAllocated = 0 →
    ∀ k, xNumMgrIsAllocated im k = false

variable {n : UInt64} {im im' : NumMgr}

theorem inv_init {memory : Bool} (h : xNumMgrInit n memory = some im) : im.Inv n := by
  unfold xNumMgrInit at h
  split_ifs at h
  cases h
  exact ⟨rfl, rfl, fun _ => Nat.zero_le _, fun _ _ k => xBitArrayGetBit_alloc _ k⟩

theorem pxNumMgrCreate_init {memory : Bool × Bool} (h : pxNumMgrCreate n memory = some im) :
    xNumMgrInit n memory.2 = some im := by
  unfold pxNumMgrCreate at h
  split_ifs at h
  exact h

theorem NumMgr.Inv.release (h : im.Inv n) (k : UInt32) : (xNumMgrRelease im k).2.Inv n := by
  unfold xNumMgrRelease
  split_ifs
  · refine ⟨h.numCnt, by simpa [vBitArrayClearBit] using h.nbbits, h.last, fun hn hl m => ?_⟩
    have hm := h.first hn hl m
    rw [xNumMgrIsAllocated] at hm ⊢
    rw [xBitArrayGetBit_clear, hm]
    simp
  · exact h

theorem searchRound_inr {p next : UInt32} (h : searchRound im p = .inr next) :
    p ≠ im.lastAllocated ∧ xNumMgrIsAllocated im (im.wrap p) = true ∧ next = im.wrap p + 1 := by
  by_cases hp : p = im.lastAllocated
  · simp [searchRound, hp] at h
  · by_cases hb : xBitArrayGetBit im.ba (im.wrap p) = true
    · simp only [searchRound, hp, if_false, hb, if_true] at h
      cases h
      exact ⟨hp, hb, rfl⟩
    · simp [searchRound, hp, hb] at h

theorem searchRound_taken {p : UInt32} (hp : p ≠ im.lastAllocated)
    (hb : xNumMgrIsAllocated im (im.wrap p) = true) :
    searchRound im p = .inr (im.wrap p + 1) := by
  rw [xNumMgrIsAllocated] at hb
  simp only [searchRound, hp, if_false, hb, if_true]

/-- A round which ends the search leaves the manager or hands out the number it tests. -/
theorem searchRound_inl {p r : UInt32} (h : searchRound im p = .inl (r, im')) :
    im' = im ∨ im' = { im with
      ba := vBitArraySetBit im.ba (im.wrap p), lastAllocated := im.wrap p } := by
  by_cases hp : p = im.lastAllocated
  · simp only [searchRound, hp, if_true] at h
    cases h
    exact .inl rfl
  · by_cases hb : xBitArrayGetBit im.ba (im.wrap p) = true
    · simp [searchRound, hp, hb] at h
    · simp only [searchRound, hp, if_false, hb] at h
      cases h
      exact .inr rfl

theorem le_capacity {k : UInt32} : k.toUInt64 ≤ n ↔ k.toNat ≤ n.toNat := by
  rw [UInt64.le_iff_toNat_le, UInt32.toNat_toUInt64]

section Small

variable (hsmall : n.toNat + 1 < 2 ^ 32)

include hsmall

theorem NumMgr.Inv.wrap_toNat (h : im.Inv n) (p : UInt32) :
    (im.wrap p).toNat = if p.toNat = n.toNat + 1 then 1 else p.toNat := by
  have hcnt : (n + 1).toNat = n.toNat + 1 := by
    rw [UInt64.toNat_add]
    change (n.toNat + 1) % 2 ^ 64 = _
    omega
  have hp : p.toUInt64 = im.numCnt ↔ p.toNat = n.toNat + 1 := by
    rw [h.numCnt, ← UInt64.toNat_inj, hcnt, UInt32.toNat_toUInt64]
  rw [NumMgr.wrap]
  simp only [hp]
  split_ifs <;> rfl

/-- The next number after one from 1 to the capacity. -/
theorem succ_toNat {p : UInt32} (hp : p.toNat ≤ n.toNat) : (p + 1).toNat = p.toNat + 1 := by
  rw [UInt32.toNat_add]
  change (p.toNat + 1) % 2 ^ 32 = _
  omega

/-- The numbers which the search is at. -/
def NumMgr.InRange (n : UInt64) (p : UInt32) : Prop := 1 ≤ p.toNat ∧ p.toNat ≤ n.toNat + 1

theorem NumMgr.Inv.wrap_range (h : im.Inv n) (hn : 1 ≤ n) {p : UInt32} (hp : InRange n p) :
    1 ≤ (im.wrap p).toNat ∧ (im.wrap p).toNat ≤ n.toNat := by
  rw [h.wrap_toNat hsmall]
  rw [UInt64.le_iff_toNat_le] at hn
  change 1 ≤ n.toNat at hn
  obtain ⟨h1, h2⟩ := hp
  split_ifs <;> omega

theorem NumMgr.Inv.start_range (h : im.Inv n) : InRange n (im.lastAllocated + 1) := by
  have hlast := h.last hsmall
  rw [InRange, succ_toNat hsmall hlast]
  omega

theorem NumMgr.Inv.allocate_small (h : im.Inv n) (hn : 1 ≤ n) {fuel : ℕ} {r : UInt32}
    (ha : ulNumMgrAllocate fuel im = some (r, im')) : im'.Inv n := by
  refine rounds_result (Q := fun out => NumMgr.Inv n out.2) (I := InRange n) ?_ ?_
    (h.start_range hsmall) ha
  · rintro p ⟨r, im'⟩ hp hround
    obtain ⟨h1, h2⟩ := h.wrap_range hsmall hn hp
    rcases searchRound_inl hround with rfl | rfl
    · exact h
    · refine ⟨h.numCnt, by simpa [vBitArraySetBit] using h.nbbits, fun _ => h2, fun _ h0 => ?_⟩
      have h0' : (im.wrap p).toNat = 0 := by
        change im.wrap p = 0 at h0
        rw [h0]
        rfl
      omega
  · intro p next hp hround
    obtain ⟨-, -, rfl⟩ := searchRound_inr hround
    obtain ⟨h1, h2⟩ := h.wrap_range hsmall hn hp
    rw [InRange, succ_toNat hsmall h2]
    omega

/-- The search ends when it can meet a free number, or the last one on its way up. -/
theorem NumMgr.Inv.ends_small (h : im.Inv n) {t : UInt32} (h1 : 1 ≤ t.toNat)
    (ht : t.toNat ≤ n.toNat) (hstop : xNumMgrIsAllocated im t = false ∨
      t = im.lastAllocated ∧ 2 ≤ t.toNat) :
    Ends (searchRound im) (im.lastAllocated + 1) := by
  have hn : 1 ≤ n := by
    rw [UInt64.le_iff_toNat_le]
    exact Nat.le_trans h1 ht
  refine ends_of_variant (I := InRange n)
    (fun p => if p.toNat ≤ t.toNat then t.toNat - p.toNat else n.toNat + 1 - p.toNat + t.toNat)
    ?_ (h.start_range hsmall)
  intro p next hp hround
  obtain ⟨hlast, htaken, rfl⟩ := searchRound_inr hround
  obtain ⟨hw1, hw2⟩ := h.wrap_range hsmall hn hp
  have hwrap := h.wrap_toNat hsmall p
  have hne : im.wrap p = t → t = im.lastAllocated ∧ 2 ≤ t.toNat := by
    intro he
    rw [he] at htaken
    exact hstop.resolve_left (by simp [htaken])
  have hnext := succ_toNat hsmall hw2
  have hinj : (im.wrap p).toNat = t.toNat → im.wrap p = t := UInt32.toNat_inj.mp
  have hpinj : p.toNat = t.toNat → p = t := UInt32.toNat_inj.mp
  refine ⟨⟨by omega, by omega⟩, ?_⟩
  obtain ⟨hp1, hp2⟩ := hp
  simp only [hnext]
  by_cases hpc : p.toNat = n.toNat + 1
  · -- the search starts again at 1, which is taken
    rw [if_pos hpc] at hwrap
    have ht2 : 2 ≤ t.toNat := by
      by_contra hlt
      have := (hne (hinj (by omega))).2
      omega
    rw [hwrap]
    split_ifs <;> omega
  · rw [if_neg hpc] at hwrap
    have hpt : p.toNat ≠ t.toNat := by
      intro he
      have hw := hne (hinj (by omega))
      exact hlast (hw.1 ▸ hpinj he)
    rw [hwrap]
    split_ifs <;> omega

/-- When every number is taken and 1 was the last one, the search never comes back to it. -/
theorem NumMgr.Inv.endless (h : im.Inv n) (hn : 1 ≤ n) (hlast : im.lastAllocated = 1)
    (hfull : im.Full n) : ¬ Ends (searchRound im) (im.lastAllocated + 1) := by
  refine not_ends (I := fun p => 2 ≤ p.toNat ∧ p.toNat ≤ n.toNat + 1) ?_ ?_
  · intro p hp
    obtain ⟨h1, h2⟩ := h.wrap_range hsmall hn (p := p) ⟨by omega, hp.2⟩
    have hne : p ≠ im.lastAllocated := by
      rintro rfl
      rw [hlast] at hp
      exact absurd hp.1 (by decide)
    have htaken : xNumMgrIsAllocated im (im.wrap p) = true := by
      refine hfull _ (UInt32.le_iff_toNat_le.mpr h1) (UInt64.le_iff_toNat_le.mpr ?_)
      rwa [UInt32.toNat_toUInt64]
    refine ⟨_, searchRound_taken hne htaken, ?_⟩
    rw [succ_toNat hsmall h2]
    omega
  · have hrange := h.start_range hsmall
    obtain ⟨-, h2⟩ := hrange
    rw [hlast] at h2 ⊢
    exact ⟨by decide, h2⟩

end Small

/-- The largest number has no bit. -/
theorem isAllocated_max (im : NumMgr) : xNumMgrIsAllocated im UINT_MAX = false := by
  refine xBitArrayGetBit_outside ?_
  rw [UInt32.lt_iff_toNat_lt]
  have hlt := im.ba.nbbits.toNat_lt
  change ¬ 2 ^ 32 - 1 < im.ba.nbbits.toNat
  omega

theorem next_toNat {p : UInt32} (hp : xNumMgrIsAllocated im p = true) :
    (p + 1).toNat = p.toNat + 1 := by
  have hne : p ≠ UINT_MAX := by
    rintro rfl
    rw [isAllocated_max] at hp
    cases hp
  rw [Ne, ← UInt32.toNat_inj] at hne
  change p.toNat ≠ 2 ^ 32 - 1 at hne
  have hlt := p.toNat_lt
  rw [UInt32.toNat_add]
  change (p.toNat + 1) % 2 ^ 32 = _
  omega

section Large

variable (hlarge : ¬ n.toNat + 1 < 2 ^ 32)

include hlarge

/-- Behind the largest capacity the search leaves its way up only at zero. -/
theorem NumMgr.Inv.wrap_large (h : im.Inv n) (p : UInt32) :
    im.wrap p = p ∨ p = 0 ∧ im.wrap p = 1 ∧ im.ba.nbbits = 0 := by
  rw [NumMgr.wrap]
  split_ifs with hp
  · right
    have hcnt : im.numCnt.toNat = (n.toNat + 1) % 2 ^ 64 := by
      rw [h.numCnt, UInt64.toNat_add]
      rfl
    have hbits : im.ba.nbbits.toNat = im.numCnt.toNat % 2 ^ 32 := by
      rw [h.nbbits, h.numCnt, UInt64.toNat_toUInt32]
    have hsmall : p.toNat = im.numCnt.toNat := by
      rw [← hp, UInt32.toNat_toUInt64]
    have hn := n.toNat_lt
    have hlt := p.toNat_lt
    refine ⟨UInt32.toNat_inj.mp ?_, rfl, UInt32.toNat_inj.mp ?_⟩ <;>
    · change _ = 0
      omega
  · exact .inl rfl

theorem NumMgr.not_full (im : NumMgr) : ¬ im.Full n := by
  intro hfull
  have hmax := hfull UINT_MAX (by decide) (le_capacity.mpr (by
    change 2 ^ 32 - 1 ≤ n.toNat
    omega))
  rw [isAllocated_max] at hmax
  cases hmax

/-- A round which does not end the search found the number taken, and goes to the next. -/
theorem NumMgr.Inv.next_large (h : im.Inv n) {p next : UInt32}
    (hround : searchRound im p = .inr next) :
    xNumMgrIsAllocated im p = true ∧ next.toNat = p.toNat + 1 := by
  obtain ⟨-, htaken, rfl⟩ := searchRound_inr hround
  obtain hw | ⟨-, hw, hbits⟩ := h.wrap_large hlarge p
  · rw [hw] at htaken ⊢
    exact ⟨htaken, next_toNat htaken⟩
  · -- without bits no number is taken
    rw [hw, xNumMgrIsAllocated, xBitArrayGetBit_outside (by simp [hbits])] at htaken
    cases htaken

/-- A manager for more numbers than the search can count to has free ones without a bit. -/
theorem NumMgr.Inv.ends_large (h : im.Inv n) (p : UInt32) : Ends (searchRound im) p := by
  refine ends_of_variant (I := fun _ => True) (fun p => 2 ^ 32 - p.toNat) ?_ trivial
  intro p next _ hround
  obtain ⟨-, hnext⟩ := h.next_large hlarge hround
  have hlt := p.toNat_lt
  have hlt' := next.toNat_lt
  refine ⟨trivial, ?_⟩
  omega

end Large

theorem NumMgr.Inv.allocate (h : im.Inv n) (hn : 1 ≤ n) {fuel : ℕ} {r : UInt32}
    (ha : ulNumMgrAllocate fuel im = some (r, im')) : im'.Inv n := by
  by_cases hsmall : n.toNat + 1 < 2 ^ 32
  · exact h.allocate_small hsmall hn ha
  · refine rounds_result (Q := fun out => NumMgr.Inv n out.2) (I := fun _ => True) ?_
      (fun _ _ _ _ => trivial) trivial ha
    rintro p ⟨r, im'⟩ - hround
    rcases searchRound_inl hround with rfl | rfl
    · exact h
    · exact ⟨h.numCnt, by simpa [vBitArraySetBit] using h.nbbits, fun hs => absurd hs hsmall,
        fun hs => absurd hs hsmall⟩

theorem NumMgr.Inv.step (h : im.Inv n) (hn : 1 ≤ n) {op : NumMgrOp}
    (hst : im.step op = some im') : im'.Inv n := by
  cases op with
  | allocate fuel =>
    obtain ⟨⟨r, im₁⟩, ha, rfl⟩ := Option.map_eq_some_iff.mp hst
    exact h.allocate hn ha
  | release k =>
    cases hst
    exact h.release k

/-- An allocation returns exactly when there is a free number or the search can come back to
the one it started from. -/
theorem NumMgr.Inv.ends_iff (h : im.Inv n) (hn : 1 ≤ n) :
    Ends (searchRound im) (im.lastAllocated + 1) ↔ ¬ (im.lastAllocated = 1 ∧ im.Full n) := by
  have hn' : 1 ≤ n.toNat := UInt64.le_iff_toNat_le.mp hn
  by_cases hsmall : n.toNat + 1 < 2 ^ 32
  · refine ⟨fun hends hstuck => h.endless hsmall hn hstuck.1 hstuck.2 hends, fun hnot => ?_⟩
    have hlast := h.last hsmall
    rcases Nat.lt_or_ge im.lastAllocated.toNat 2 with hlt | hge
    · by_cases h0 : im.lastAllocated = 0
      · exact h.ends_small hsmall (t := 1) le_rfl hn' (.inl (h.first hsmall h0 1))
      · have h1 : im.lastAllocated = 1 := by
          rw [← UInt32.toNat_inj] at h0 ⊢
          change im.lastAllocated.toNat ≠ 0 at h0
          change _ = 1
          omega
        have hfull : ¬ im.Full n := fun hf => hnot ⟨h1, hf⟩
        simp only [NumMgr.Full, not_forall] at hfull
        obtain ⟨k, hk1, hkn, hfree⟩ := hfull
        rw [UInt64.le_iff_toNat_le, UInt32.toNat_toUInt64] at hkn
        exact h.ends_small hsmall (UInt32.le_iff_toNat_le.mp hk1) hkn
          (.inl (by simpa using hfree))
    · exact h.ends_small hsmall (by omega) hlast (.inr ⟨rfl, hge⟩)
  · refine iff_of_true (h.ends_large hsmall _) ?_
    rintro ⟨-, hfull⟩
    exact NumMgr.not_full hsmall im hfull

/-- On a manager of any capacity, after any allocations and releases, an allocation returns
after finitely many rounds if and only if a number is free or 1 was not handed out last. -/
theorem allocate_returns_iff {im₀ : NumMgr} (hn : 1 ≤ n) {memory : Bool}
    (hinit : xNumMgrInit n memory = some im₀) {ops : List NumMgrOp}
    (hrun : ops.foldlM NumMgr.step im₀ = some im) :
    (∃ fuel, (ulNumMgrAllocate fuel im).isSome) ↔ ¬ (im.lastAllocated = 1 ∧ im.Full n) :=
  (foldlM_preserves (fun _ _ _ hi hst => NumMgr.Inv.step hi hn hst) (inv_init hinit)
    hrun).ends_iff hn

/-- All three numbers are handed out, the largest last. -/
theorem allocate_returns_third :
    ∃ im₀ im, xNumMgrInit 3 true = some im₀ ∧
      [NumMgrOp.allocate 1, .allocate 1, .allocate 1].foldlM NumMgr.step im₀ = some im ∧
      ∃ fuel, (ulNumMgrAllocate fuel im).isSome :=
  ⟨_, _, rfl, rfl, (allocate_returns_iff (by decide)
    (show xNumMgrInit 3 true = some _ from rfl)
    (show [NumMgrOp.allocate 1, .allocate 1, .allocate 1].foldlM NumMgr.step _ = some _
      from rfl)).mpr fun h => absurd h.1 (by decide)⟩

/-- All three numbers are handed out, then 1 is released and handed out again, and the next
allocation does not return. -/
theorem allocate_endless :
    ∃ im₀ im, xNumMgrInit 3 true = some im₀ ∧
      [NumMgrOp.allocate 1, .allocate 1, .allocate 1, .release 1, .allocate 1].foldlM
        NumMgr.step im₀ = some im ∧
      ¬ ∃ fuel, (ulNumMgrAllocate fuel im).isSome := by
  refine ⟨_, _, rfl, rfl, ?_⟩
  refine not_ends (I := fun p : UInt32 => p = 2 ∨ p = 3 ∨ p = 4) ?_ (.inl rfl)
  rintro p (rfl | rfl | rfl)
  · exact ⟨3, by decide, .inr (.inl rfl)⟩
  · exact ⟨4, by decide, .inr (.inr rfl)⟩
  · exact ⟨2, by decide, .inl rfl⟩

end RinaSense.Common
