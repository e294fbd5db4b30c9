import Mathlib.Algebra.Group.Int.Defs
import Mathlib.Algebra.Group.Nat.Defs
import RinaSense.Common.Platform

/-!
# Time-outs

The deadlines of `posix_rstime.c`, and its time-outs on the monotonic clock. A reading of the
clock can fail.
-/

namespace RinaSense.Common

structure Timespec where
  tv_sec : Int64
  tv_nsec : Int64
deriving DecidableEq, Repr

/-- The time since the origin of the clock, in nanoseconds. -/
def Timespec.toNs (ts : Timespec) : Int := ts.tv_sec.toInt * 1000000000 + ts.tv_nsec.toInt

/-- The nanoseconds which a clock shows are those of an incomplete second. -/
structure Timespec.Normal (ts : Timespec) : Prop where
  nonneg : 0 ≤ ts.tv_nsec.toInt
  lt : ts.tv_nsec.toInt < 1000000000

/-- The time in `n` nanoseconds, if the clock can be read. -/
def rstime_waitnsec (pf : Platform) (clock : Option Timespec) (n : UInt64) :
    Exec (Option Timespec) :=
  match clock with
  | none => .ok none
  | some now =>
    let tv_sec := now.tv_sec + (n / 1000000000).toInt64
    let tv_nsec := now.tv_nsec + (n % 1000000000).toInt64
    let ts : Timespec :=
      if 1000000000 ≤ tv_nsec then ⟨tv_sec + 1, tv_nsec - 1000000000⟩ else ⟨tv_sec, tv_nsec⟩
    do
      rsAssert pf (decide (ts.tv_nsec ≤ 999999999))
      return some ts

/-- The macro multiplies in the 32 bits of `useconds_t`. -/
def rstime_waitusec (pf : Platform) (clock : Option Timespec) (n : UInt32) :
    Exec (Option Timespec) :=
  rstime_waitnsec pf clock (n * 1000).toUInt64

def SEC_TO_NS (sec : Int64) : Int64 := sec * 1000000000

/-- The nanoseconds which the code computes from a reading. -/
def Timespec.ns (ts : Timespec) : UInt64 := (SEC_TO_NS ts.tv_sec + ts.tv_nsec).toUInt64

/-- The time-out after it is set, if the clock can be read. -/
def xRsTimeSetTimeOut (clock : Option Timespec) : Option Timespec := clock

/-- The time-out and the microseconds left after a check, if the clock can be read. -/
def xRsTimeCheckTimeOut (pTimeOut : Timespec) (xTimeLeft : UInt32) (clock : Option Timespec) :
    Option (Timespec × UInt32) :=
  clock.map fun xCheckTimespec =>
    let unNsTimeThen := pTimeOut.ns
    let unNsTimeNow := xCheckTimespec.ns
    -- the product has the 32 bits of `useconds_t`
    let unNsTimeDone := unNsTimeThen + (xTimeLeft * 1000).toUInt64
    let nNsTimeLeft := (unNsTimeDone - unNsTimeNow).toInt64
    (xCheckTimespec, if 0 < nNsTimeLeft then (nNsTimeLeft / 1000).toUInt64.toUInt32 else 0)

/-- Nanoseconds from one reading to a later one. -/
def Timespec.elapsed (start now : Timespec) : Int :=
  (now.tv_sec.toInt - start.tv_sec.toInt) * 1000000000 +
    (now.tv_nsec.toInt - start.tv_nsec.toInt)

variable {pf : Platform} {ts now : Timespec}

theorem Timespec.elapsed_eq (start now : Timespec) :
    start.elapsed now = now.toNs - start.toNs := by
  simp only [Timespec.elapsed, Timespec.toNs]
  omega

/-- Times are compared by their seconds first. -/
theorem Timespec.toNs_lt_iff {ts' : Timespec} (hn : ts.Normal) (hn' : ts'.Normal) :
    ts.toNs < ts'.toNs ↔ ts.tv_sec.toInt < ts'.tv_sec.toInt ∨
      ts.tv_sec.toInt = ts'.tv_sec.toInt ∧ ts.tv_nsec.toInt < ts'.tv_nsec.toInt := by
  have := hn.nonneg
  have := hn.lt
  have := hn'.nonneg
  have := hn'.lt
  simp only [Timespec.toNs]
  omega

/-- The product is that of the numbers as long as it has no more than 32 bits. -/
theorem usec_product_iff (u : UInt32) :
    (u * 1000).toNat = u.toNat * 1000 ↔ u.toNat ≤ 4294967 := by
  have hmod : (u * 1000).toNat = u.toNat * 1000 % 2 ^ 32 := UInt32.toNat_mul u 1000
  rw [hmod]
  omega

theorem uint64_toInt64_toInt (x : UInt64) : x.toInt64.toInt = (x.toNat : Int).bmod (2 ^ 64) :=
  BitVec.toInt_eq_toNat_bmod x.toBitVec

/-- The assertion at the end of a wait holds of every normal time. -/
theorem rsAssert_normal (pf : Platform) {d : Timespec} (hd : d.Normal) :
    rsAssert pf (decide (d.tv_nsec ≤ 999999999)) = .ok () := by
  have hle : d.tv_nsec ≤ 999999999 := by
    rw [Int64.le_iff_toInt_le]
    exact Int.le_of_lt_add_one hd.lt
  rw [decide_eq_true hle, rsAssert_true]

/-- The deadline is normal; only its seconds can leave their type. -/
theorem rstime_waitnsec_spec (hn : now.Normal) (n : UInt64) :
    ∃ d, rstime_waitnsec pf (some now) n = .ok (some d) ∧ d.Normal ∧
      d.tv_nsec.toInt = (now.tv_nsec.toInt + n.toNat) % 1000000000 ∧
      d.tv_sec.toInt =
        (now.tv_sec.toInt + (now.tv_nsec.toInt + n.toNat) / 1000000000).bmod (2 ^ 64) := by
  have hnonneg := hn.nonneg
  have hlt := hn.lt
  have hbound := n.toNat_lt
  have hq : (n / 1000000000).toInt64.toInt = n.toNat / 1000000000 := by
    rw [uint64_toInt64_toInt, UInt64.toNat_div]
    change ((n.toNat / 1000000000 : ℕ) : Int).bmod (2 ^ 64) = _
    rw [Int.bmod_eq_of_le (by omega) (by omega)]
    omega
  have hr : (n % 1000000000).toInt64.toInt = n.toNat % 1000000000 := by
    rw [uint64_toInt64_toInt, UInt64.toNat_mod]
    change ((n.toNat % 1000000000 : ℕ) : Int).bmod (2 ^ 64) = _
    rw [Int.bmod_eq_of_le (by omega) (by omega)]
    omega
  have hsum : (now.tv_nsec + (n % 1000000000).toInt64).toInt =
      now.tv_nsec.toInt + n.toNat % 1000000000 := by
    rw [Int64.toInt_add, hr, Int.bmod_eq_of_le (by omega) (by omega)]
  have hfits : (1000000000 : Int64) ≤ now.tv_nsec + (n % 1000000000).toInt64 ↔
      1000000000 ≤ now.tv_nsec.toInt + n.toNat % 1000000000 := by
    rw [Int64.le_iff_toInt_le, hsum]
    rfl
  have hsec : ((now.tv_sec + (n / 1000000000).toInt64).toInt) =
      (now.tv_sec.toInt + n.toNat / 1000000000).bmod (2 ^ 64) := by
    rw [Int64.toInt_add, hq]
  by_cases hcarry : (1000000000 : Int64) ≤ now.tv_nsec + (n % 1000000000).toInt64
  · have hover := hfits.mp hcarry
    have hnsec : (now.tv_nsec + (n % 1000000000).toInt64 - 1000000000).toInt =
        now.tv_nsec.toInt + n.toNat % 1000000000 - 1000000000 := by
      rw [Int64.toInt_sub, hsum]
      exact Int.bmod_eq_of_le (by simp; omega) (by simp; omega)
    have hnormal : Timespec.Normal ⟨now.tv_sec + (n / 1000000000).toInt64 + 1,
        now.tv_nsec + (n % 1000000000).toInt64 - 1000000000⟩ :=
      ⟨by rw [hnsec]; omega, by rw [hnsec]; omega⟩
    refine ⟨_, ?_, hnormal, ?_, ?_⟩
    · simp only [rstime_waitnsec, if_pos hcarry, rsAssert_normal pf hnormal, Exec.ok_bind]
      rfl
    · rw [hnsec]
      omega
    · rw [Int64.toInt_add, hsec]
      change Int.bmod (_ + 1) _ = _
      rw [Int.bmod_add_bmod]
      congr 1
      omega
  · have hunder := mt hfits.mpr hcarry
    have hnormal : Timespec.Normal ⟨now.tv_sec + (n / 1000000000).toInt64,
        now.tv_nsec + (n % 1000000000).toInt64⟩ :=
      ⟨by rw [hsum]; omega, by rw [hsum]; omega⟩
    refine ⟨_, ?_, hnormal, ?_, ?_⟩
    · simp only [rstime_waitnsec, if_neg hcarry, rsAssert_normal pf hnormal, Exec.ok_bind]
      rfl
    · rw [hsum]
      omega
    · rw [hsec]
      congr 1
      omega

end RinaSense.Common
