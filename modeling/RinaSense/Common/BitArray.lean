import Mathlib.Data.Nat.Bitwise
import Mathlib.Tactic.Common

/-!
# Bit arrays

The bit array of `common/bit_array.h`. The units stand behind the structure and there is
one more of them than full units of bits. Bits from `nbbits` on read as clear and are never
set.
-/

namespace RinaSense.Common

def BITS_PER_UNIT : UInt32 := 32

structure BitArray where
  nbbits : UInt32
  units : List UInt32
  length_eq : units.length = nbbits.toNat / 32 + 1
deriving DecidableEq

namespace BitArray

/-- The bit of `BIT_INDEX` in its unit. -/
def bit (n : UInt32) : UInt32 := n % BITS_PER_UNIT

/-- The unit of `BIT_INDEX`. -/
def index (n : UInt32) : UInt32 := (n - bit n) / BITS_PER_UNIT

/-- A unit with a single bit. -/
def mask (n : UInt32) : UInt32 := 1 <<< bit n

theorem bit_toNat (n : UInt32) : (bit n).toNat = n.toNat % 32 := by
  rw [bit, UInt32.toNat_mod]
  rfl

theorem index_toNat (n : UInt32) : (index n).toNat = n.toNat / 32 := by
  have hle : bit n ≤ n := by
    rw [UInt32.le_iff_toNat_le, bit_toNat]
    exact Nat.mod_le _ _
  rw [index, UInt32.toNat_div, UInt32.toNat_sub_of_le _ _ hle, bit_toNat]
  change (n.toNat - n.toNat % 32) / 32 = n.toNat / 32
  omega

theorem mask_toNat (n : UInt32) : (mask n).toNat = 2 ^ (n.toNat % 32) := by
  have hlt : 2 ^ (n.toNat % 32) < 2 ^ 32 :=
    Nat.pow_lt_pow_right (by decide) (Nat.mod_lt _ (by decide))
  rw [mask, UInt32.toNat_shiftLeft, bit_toNat, Nat.mod_mod, Nat.shiftLeft_eq]
  change 1 * 2 ^ (n.toNat % 32) % 2 ^ 32 = _
  rw [Nat.one_mul, Nat.mod_eq_of_lt hlt]

/-- A bit inside the array has its unit in the array. -/
theorem index_lt {ba : BitArray} {n : UInt32} (hn : n < ba.nbbits) :
    (index n).toNat < ba.units.length := by
  rw [index_toNat, ba.length_eq]
  rw [UInt32.lt_iff_toNat_lt] at hn
  omega

/-- The test of a unit is the test of one bit of it. -/
theorem test_unit (w n : UInt32) : 0 < w &&& mask n ↔ w.toNat.testBit (n.toNat % 32) = true := by
  rw [UInt32.lt_iff_toNat_lt, UInt32.toNat_and, mask_toNat, Nat.and_two_pow]
  have hpos : 0 < 2 ^ (n.toNat % 32) := Nat.two_pow_pos _
  cases w.toNat.testBit (n.toNat % 32) <;> simp [hpos]

end BitArray

open BitArray

def pxBitArrayAlloc (nbbits : UInt32) : BitArray :=
  ⟨nbbits, List.replicate _ 0, List.length_replicate⟩

/-- The unit of a bit inside the array. -/
def BitArray.unit (ba : BitArray) (n : UInt32) : UInt32 := ba.units.getD (index n).toNat 0

/-- The array with one unit changed, when the bit is inside. -/
def BitArray.modifyUnit (ba : BitArray) (n : UInt32) (f : UInt32 → UInt32) : BitArray :=
  if n < ba.nbbits then
    ⟨ba.nbbits, ba.units.set (index n).toNat (f (ba.unit n)),
      by rw [List.length_set, ba.length_eq]⟩
  else ba

def vBitArraySetBit (ba : BitArray) (n : UInt32) : BitArray := ba.modifyUnit n (· ||| mask n)

def vBitArrayClearBit (ba : BitArray) (n : UInt32) : BitArray :=
  ba.modifyUnit n (· &&& ~~~mask n)

def xBitArrayGetBit (ba : BitArray) (n : UInt32) : Bool :=
  if n < ba.nbbits then decide (0 < ba.unit n &&& mask n) else false

variable {ba : BitArray}

@[simp] theorem BitArray.modifyUnit_nbbits (n : UInt32) (f : UInt32 → UInt32) :
    (ba.modifyUnit n f).nbbits = ba.nbbits := by
  unfold modifyUnit
  split_ifs <;> rfl

theorem xBitArrayGetBit_outside {n : UInt32} (hn : ¬ n < ba.nbbits) :
    xBitArrayGetBit ba n = false := if_neg hn

/-- A bit inside the array is a bit of its unit. -/
theorem xBitArrayGetBit_inside {n : UInt32} (hn : n < ba.nbbits) :
    xBitArrayGetBit ba n = (ba.unit n).toNat.testBit (n.toNat % 32) := by
  rw [xBitArrayGetBit, if_pos hn, Bool.eq_iff_iff, decide_eq_true_eq, test_unit]

@[simp] theorem xBitArrayGetBit_alloc (nbbits n : UInt32) :
    xBitArrayGetBit (pxBitArrayAlloc nbbits) n = false := by
  by_cases hn : n < (pxBitArrayAlloc nbbits).nbbits
  · have hzero : (pxBitArrayAlloc nbbits).unit n = 0 := by
      have hlt := index_lt hn
      simp only [pxBitArrayAlloc, List.length_replicate] at hlt
      simp [BitArray.unit, pxBitArrayAlloc, hlt]
    rw [xBitArrayGetBit_inside hn, hzero]
    exact Nat.zero_testBit _
  · exact xBitArrayGetBit_outside hn

/-- Two numbers are the same bit when they have the same unit and the same place in it. -/
theorem eq_of_index {n m : UInt32} (hi : (index n).toNat = (index m).toNat)
    (hb : n.toNat % 32 = m.toNat % 32) : n = m := by
  rw [index_toNat, index_toNat] at hi
  rw [← UInt32.toNat_inj]
  omega

theorem unit_modifyUnit {n m : UInt32} (hn : n < ba.nbbits) (f : UInt32 → UInt32) :
    (ba.modifyUnit n f).unit m =
      if (index n).toNat = (index m).toNat then f (ba.unit m) else ba.unit m := by
  have hlt := index_lt hn
  simp only [modifyUnit, hn, if_true, BitArray.unit, List.getD_eq_getElem?_getD,
    List.getElem?_set]
  by_cases hi : (index n).toNat = (index m).toNat
  · simp [← hi, hlt]
  · simp [hi]

/-- A change of one bit of a unit changes that bit of the array. -/
theorem xBitArrayGetBit_modifyUnit {n : UInt32} {f : UInt32 → UInt32} {g : Bool → Bool}
    (hf : ∀ w i, i < 32 → (f w).toNat.testBit i =
      if i = n.toNat % 32 then g (w.toNat.testBit i) else w.toNat.testBit i) (m : UInt32) :
    xBitArrayGetBit (ba.modifyUnit n f) m =
      if m = n ∧ n < ba.nbbits then g (xBitArrayGetBit ba m) else xBitArrayGetBit ba m := by
  by_cases hm : m < ba.nbbits
  · by_cases hn : n < ba.nbbits
    · have hplace : m.toNat % 32 < 32 := Nat.mod_lt _ (by decide)
      rw [xBitArrayGetBit_inside (by simpa using hm), xBitArrayGetBit_inside hm,
        unit_modifyUnit hn]
      by_cases hi : (index n).toNat = (index m).toNat
      · have hbit : m.toNat % 32 = n.toNat % 32 ↔ m = n :=
          ⟨fun hb => (eq_of_index hi hb.symm).symm, fun he => by rw [he]⟩
        simp only [hi, if_true, hf _ _ hplace, hbit, hn, and_true]
      · have hne : m ≠ n := fun he => hi (by rw [he])
        simp [hi, hne]
    · have hsame : ba.modifyUnit n f = ba := if_neg hn
      simp [hsame, hn]
  · rw [xBitArrayGetBit_outside hm, xBitArrayGetBit_outside (by simpa using hm), if_neg]
    rintro ⟨rfl, hn⟩
    exact hm hn

theorem xBitArrayGetBit_set (n m : UInt32) :
    xBitArrayGetBit (vBitArraySetBit ba n) m =
      if m = n ∧ n < ba.nbbits then true else xBitArrayGetBit ba m := by
  refine xBitArrayGetBit_modifyUnit (g := fun _ => true) (fun w i _ => ?_) m
  rw [UInt32.toNat_or, mask_toNat, Nat.testBit_or, Nat.testBit_two_pow]
  by_cases hi : i = n.toNat % 32
  · simp [hi]
  · simp [hi, Ne.symm hi]

theorem xBitArrayGetBit_clear (n m : UInt32) :
    xBitArrayGetBit (vBitArrayClearBit ba n) m =
      if m = n ∧ n < ba.nbbits then false else xBitArrayGetBit ba m := by
  refine xBitArrayGetBit_modifyUnit (g := fun _ => false) (fun w i hi32 => ?_) m
  have hmask : (~~~mask n).toNat = 2 ^ 32 - (2 ^ (n.toNat % 32) + 1) := by
    rw [UInt32.toNat_not, mask_toNat, Nat.sub_sub, Nat.add_comm 1]
    rfl
  have hlt : 2 ^ (n.toNat % 32) < 2 ^ 32 :=
    Nat.pow_lt_pow_right (by decide) (Nat.mod_lt _ (by decide))
  rw [UInt32.toNat_and, hmask, Nat.testBit_and, Nat.testBit_two_pow_sub_succ hlt,
    Nat.testBit_two_pow]
  by_cases hi : i = n.toNat % 32
  · simp [hi]
  · simp [hi, Ne.symm hi, hi32]

end RinaSense.Common
