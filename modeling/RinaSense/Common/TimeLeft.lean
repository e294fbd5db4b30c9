import RinaSense.Common.RsTime
import RinaSense.Library.Runs

/-!
# The time left of a time-out

The calls of `xRsTimeCheckTimeOut` one after the other, each with the time which the last one
left. The product of the microseconds has only 32 bits, so that a longer time is cut at the
first call.
-/

namespace RinaSense.Common

open Library.Runs

/-- A time which the monotonic clock can show. -/
structure Timespec.Reading (ts : Timespec) : Prop where
  normal : ts.Normal
  nonneg : 0 ≤ ts.tv_sec.toInt

/-- The nanoseconds are computed without a signed overflow. -/
def Timespec.Computes (ts : Timespec) : Prop := ts.toNs < 2 ^ 63

instance (ts : Timespec) : Decidable ts.Computes := inferInstanceAs (Decidable (_ < _))

/-- The times of the calls in their order. -/
structure Times (start : Timespec) (readings : List Timespec) : Prop where
  reading : ∀ now ∈ start :: readings, now.Reading
  ordered : (start :: readings).Pairwise fun a b => a.toNs ≤ b.toNs

/-- A call of the check with the clock at `now`. -/
def checkTimeOut (s : Timespec × UInt32) (now : Timespec) : Option (Timespec × UInt32) :=
  xRsTimeCheckTimeOut s.1 s.2 (some now)

/-- A call takes the time since the last one from the time left, never below zero and rounded
down to whole microseconds, and `now` becomes the time of the last call. -/
structure CountsDown (s : Timespec × UInt32) (now : Timespec) : Prop where
  computes : s.1.Computes ∧ now.Computes
  counts : ∃ r : UInt32, checkTimeOut s now = some (now, r) ∧
    (r.toNat : Int) = max 0 (s.2.toNat * 1000 - s.1.elapsed now) / 1000

/-- Every call counts down, and none leaves any time when the time of the start is over. -/
structure CountsExactly (start : Timespec) (left : UInt32) (readings : List Timespec) : Prop where
  calls : GuardedSteps checkTimeOut CountsDown (start, left) readings
  inTime : ∀ js now, js ++ [now] <+: readings →
    ∀ t, (js ++ [now]).foldlM checkTimeOut (start, left) = some t →
      left.toNat * 1000 ≤ start.elapsed now → t.2 = 0

variable {start now : Timespec} {left : UInt32}

theorem Timespec.Reading.ns_toNat (hr : now.Reading) (hc : now.Computes) :
    (now.ns.toNat : Int) = now.toNs := by
  have hsec := hr.nonneg
  have hnsec := hr.normal.nonneg
  have hlt : now.toNs < 2 ^ 63 := hc
  rw [Timespec.toNs] at hlt
  have hprod : (SEC_TO_NS now.tv_sec).toInt = now.tv_sec.toInt * 1000000000 := by
    rw [SEC_TO_NS, Int64.toInt_mul]
    exact Int.bmod_eq_of_le (by simp; omega) (by simp; omega)
  have hsum : (SEC_TO_NS now.tv_sec + now.tv_nsec).toInt = now.toNs := by
    rw [Int64.toInt_add, hprod, Timespec.toNs]
    exact Int.bmod_eq_of_le (by omega) (by omega)
  rw [Timespec.ns]
  have : 0 ≤ now.toNs := by rw [Timespec.toNs]; omega
  have hnn : (0 : Int64) ≤ SEC_TO_NS now.tv_sec + now.tv_nsec := by
    rw [Int64.le_iff_toInt_le, hsum]
    exact this
  rw [Int64.toNat_toUInt64_of_le hnn, ← hsum]
  exact Int.toNat_of_nonneg (by rw [hsum]; exact this)

/-- What the check leaves: the product keeps 32 bits, and the rest is exact. -/
theorem xRsTimeCheckTimeOut_spec (hs : start.Reading) (hn : now.Reading)
    (hle : start.toNs ≤ now.toNs) (hc : now.Computes) (left : UInt32) :
    ∃ r, xRsTimeCheckTimeOut start left (some now) = some (now, r) ∧
      (r.toNat : Int) = max 0 ((left.toNat * 1000 % 2 ^ 32 : ℕ) - start.elapsed now) / 1000 := by
  have hnow : now.toNs < 2 ^ 63 := hc
  have hstart : start.Computes := Int.lt_of_le_of_lt hle hc
  have hnonneg : 0 ≤ start.toNs := by
    have := hs.nonneg
    have := hs.normal.nonneg
    rw [Timespec.toNs]
    omega
  have hprod : (left * 1000).toUInt64.toNat = left.toNat * 1000 % 2 ^ 32 := by
    rw [UInt32.toNat_toUInt64]
    exact UInt32.toNat_mul left 1000
  obtain ⟨d, hd⟩ : ∃ d, d = (start.ns + (left * 1000).toUInt64 - now.ns).toInt64 := ⟨_, rfl⟩
  have hdiff : d.toInt = (left.toNat * 1000 % 2 ^ 32 : ℕ) - start.elapsed now := by
    rw [hd, uint64_toInt64_toInt, UInt64.toNat_sub, UInt64.toNat_add, hprod, Timespec.elapsed_eq,
      ← hs.ns_toNat hstart, ← hn.ns_toNat hc]
    have := now.ns.toNat_lt
    have := hs.ns_toNat hstart
    have := hn.ns_toNat hc
    rw [Int.bmod_def]
    split <;> omega
  refine ⟨_, rfl, ?_⟩
  rw [← hd]
  have hpos : 0 < d ↔ 0 < d.toInt := Int64.lt_iff_toInt_lt
  have hsmall : d.toInt < 2 ^ 32 := by
    rw [hdiff, Timespec.elapsed_eq]
    omega
  split_ifs with hd'
  · have hquot : (d / 1000).toInt = d.toInt / 1000 := by
      rw [Int64.toInt_div_of_ne_right d 1000 (by decide)]
      exact Int.tdiv_eq_ediv_of_nonneg (Int.le_of_lt (hpos.mp hd'))
    have hnn : (0 : Int64) ≤ d / 1000 := by
      rw [Int64.le_iff_toInt_le, hquot]
      exact Int.ediv_nonneg (Int.le_of_lt (hpos.mp hd')) (by decide)
    have hnat : (((d / 1000).toUInt64.toNat : ℕ) : Int) = d.toInt / 1000 := by
      rw [Int64.toNat_toUInt64_of_le hnn, ← hquot]
      exact Int.toNat_of_nonneg (Int64.le_iff_toInt_le.mp hnn)
    have := hpos.mp hd'
    rw [UInt64.toNat_toUInt32, ← hdiff]
    omega
  · have := mt hpos.mpr hd'
    rw [← hdiff]
    change (0 : Int) = _
    omega

theorem countsDown_iff (hs : start.Reading) (hn : now.Reading) (hle : start.toNs ≤ now.toNs) :
    CountsDown (start, left) now ↔ now.Computes ∧
      (left.toNat ≤ 4294967 ∨ left.toNat * 1000 < start.elapsed now + 1000) := by
  have hleft := left.toNat_lt
  constructor
  · rintro ⟨⟨-, hc⟩, r, hr, hexact⟩
    refine ⟨hc, ?_⟩
    obtain ⟨r', hr', hval⟩ := xRsTimeCheckTimeOut_spec hs hn hle hc left
    rw [checkTimeOut, hr', Option.some.injEq, Prod.mk.injEq] at hr
    rw [← hr.2, hval] at hexact
    simp only at hexact
    omega
  · rintro ⟨hc, hfits⟩
    have hc' : start.Computes := Int.lt_of_le_of_lt hle hc
    obtain ⟨r, hr, hval⟩ := xRsTimeCheckTimeOut_spec hs hn hle hc left
    refine ⟨⟨hc', hc⟩, r, hr, ?_⟩
    rw [hval]
    simp only
    rw [Timespec.elapsed_eq] at hfits ⊢
    omega

theorem Times.tail {readings : List Timespec} (h : Times start (now :: readings)) :
    Times now readings :=
  ⟨fun t ht => h.reading t (List.mem_cons_of_mem start ht), h.ordered.of_cons⟩

theorem Times.le {readings : List Timespec} (h : Times start (now :: readings)) :
    start.toNs ≤ now.toNs :=
  List.rel_of_pairwise_cons h.ordered List.mem_cons_self

theorem calls_iff {readings : List Timespec} (h : Times start readings) :
    GuardedSteps checkTimeOut CountsDown (start, left) readings ↔
      (∀ now ∈ readings, now.Computes) ∧
        (left.toNat ≤ 4294967 ∨ ∀ now, readings.head? = some now →
          left.toNat * 1000 < start.elapsed now + 1000) := by
  induction readings generalizing start left with
  | nil => simp [GuardedSteps]
  | cons now readings ih =>
    have hs := h.reading start List.mem_cons_self
    have hn := h.tail.reading now List.mem_cons_self
    have hcall := @countsDown_iff _ _ left hs hn h.le
    have hsplit : GuardedSteps checkTimeOut CountsDown (start, left) (now :: readings) ↔
        CountsDown (start, left) now ∧ ∀ now' ∈ readings, now'.Computes := by
      rw [GuardedSteps]
      refine and_congr_right fun hg => ?_
      obtain ⟨r, hr, hval⟩ := hg.counts
      have hfits := (hcall.mp hg).2
      have hsmall : r.toNat ≤ 4294967 := by
        simp only at hval
        rw [Timespec.elapsed_eq] at hval hfits
        have := h.le
        omega
      simp only [hr]
      rw [ih h.tail, and_iff_left (Or.inl hsmall)]
    rw [hsplit, hcall]
    simp only [List.mem_cons, forall_eq_or_imp, List.head?_cons, Option.some.injEq, forall_eq']
    tauto

/-- What is left is at most what the time since the start leaves. -/
theorem left_le {readings : List Timespec} {t : Timespec × UInt32} (h : Times start readings)
    (hcalls : GuardedSteps checkTimeOut CountsDown (start, left) readings)
    (hrun : readings.foldlM checkTimeOut (start, left) = some t) :
    start.toNs ≤ t.1.toNs ∧
      (t.2.toNat * 1000 : Int) ≤ max 0 (left.toNat * 1000 - start.elapsed t.1) := by
  induction readings generalizing start left with
  | nil =>
    cases hrun
    simp only [Timespec.elapsed_eq]
    omega
  | cons now readings ih =>
    obtain ⟨r, hr, hval⟩ := hcalls.1.counts
    rw [List.foldlM_cons, hr] at hrun
    simp only [GuardedSteps, hr] at hcalls
    have hrest := ih h.tail hcalls.2 hrun
    have := h.le
    simp only [Timespec.elapsed_eq] at hrest hval ⊢
    omega

theorem Times.of_prefix {readings js : List Timespec} (h : Times start readings)
    (hjs : js <+: readings) : Times start js :=
  have hsub := (List.cons_prefix_cons.mpr ⟨rfl, hjs⟩).sublist
  ⟨fun t ht => h.reading t (hsub.subset ht), h.ordered.sublist hsub⟩

theorem countsExactly_iff_calls {readings : List Timespec} (h : Times start readings) :
    CountsExactly start left readings ↔
      GuardedSteps checkTimeOut CountsDown (start, left) readings := by
  refine ⟨CountsExactly.calls, fun hcalls => ⟨hcalls, fun js now hjs t hrun hover => ?_⟩⟩
  have hlast : t.1 = now := by
    rw [List.foldlM_append] at hrun
    obtain ⟨u, -, hu⟩ := Option.bind_eq_some_iff.mp hrun
    cases hu
    rfl
  obtain ⟨-, hle⟩ := left_le (h.of_prefix hjs) (hcalls.of_prefix hjs) hrun
  rw [hlast] at hle
  have hzero : t.2.toNat = 0 := by omega
  exact UInt32.toNat_inj.mp hzero

/-- Over any sequence of calls each of them is exact, and no time is left from the first call on
at which the time of the start is over, if and only if the nanoseconds of every reading have no
more than 63 bits, and the microseconds of the start no more than 32 bits as nanoseconds unless
they are over at the first call. -/
theorem countsExactly_iff {readings : List Timespec} (h : Times start readings) :
    CountsExactly start left readings ↔
      (∀ now ∈ readings, now.Computes) ∧
        (left.toNat ≤ 4294967 ∨ ∀ now, readings.head? = some now →
          left.toNat * 1000 < start.elapsed now + 1000) := by
  rw [countsExactly_iff_calls h, calls_iff h]

/-- Of one and a half milliseconds half a millisecond is left, and then nothing. -/
theorem countsExactly_twice : CountsExactly ⟨5, 0⟩ 1500 [⟨5, 1000000⟩, ⟨6, 0⟩] := by
  have htimes : Times ⟨5, 0⟩ [⟨5, 1000000⟩, ⟨6, 0⟩] := by
    refine ⟨fun now hnow => ?_, by decide⟩
    simp only [List.mem_cons, List.not_mem_nil, or_false] at hnow
    rcases hnow with rfl | rfl | rfl <;> exact ⟨⟨by decide, by decide⟩, by decide⟩
  refine (countsExactly_iff htimes).mpr ⟨fun now hnow => ?_, Or.inl (by decide)⟩
  simp only [List.mem_cons, List.not_mem_nil, or_false] at hnow
  rcases hnow with rfl | rfl <;> decide

/-- A millisecond after the start of five seconds seven tenths of a second are left. -/
theorem five_seconds_cut : ¬ CountsExactly ⟨5, 0⟩ 5000000 [⟨5, 1000000⟩] := by
  rintro ⟨hcalls, -⟩
  obtain ⟨r, hr, hexact⟩ := hcalls.1.counts
  have hcut : checkTimeOut (⟨5, 0⟩, 5000000) ⟨5, 1000000⟩ = some (⟨5, 1000000⟩, 704032) := by
    decide
  rw [hcut, Option.some.injEq, Prod.mk.injEq] at hr
  rw [← hr.2] at hexact
  exact absurd hexact (by decide)

end RinaSense.Common
