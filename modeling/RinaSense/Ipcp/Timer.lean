import RinaSense.Common.RsTime

/-!
# The timers of the IPC process

A timer of `IPCP.c` is started with a period and checked against the clock. The start does not
look at the seconds of the clock, and the check takes a time in front of the time-out for one
behind it.
-/

namespace RinaSense.Ipcp

open Common

structure IPCPTimer where
  bActive : Bool
  bExpired : Bool
  xTimeOut : Timespec
  ulRemainingTimeUS : UInt32
  ulReloadTimeUS : UInt32
deriving DecidableEq, Repr

/-- Without a reading of the clock the time is not initialised. -/
def prvIPCPTimerStart (clock : Option Timespec) (pxTimer : IPCPTimer) (xTimeUS : UInt32) :
    Exec IPCPTimer := do
  let n ← initialised clock
  let nsec := (xTimeUS * 1000).toUInt64 + n.tv_nsec.toUInt64
  return { pxTimer with
    xTimeOut := ⟨(nsec / 1000000000).toInt64, (nsec % 1000000000).toInt64⟩
    ulRemainingTimeUS := xTimeUS
    bExpired := xTimeUS == 0
    bActive := true }

/-- The comparison of the check. -/
def IPCPTimer.passed (pxTimer : IPCPTimer) (n : Timespec) : Bool :=
  if n.tv_sec = pxTimer.xTimeOut.tv_sec then n.tv_nsec < pxTimer.xTimeOut.tv_nsec
  else n.tv_sec < pxTimer.xTimeOut.tv_sec

/-- The clock is read unless the flag is set. -/
def IPCPTimer.expired (pxTimer : IPCPTimer) (clock : Option Timespec) : Exec Bool :=
  if pxTimer.bExpired then .ok true
  else do
    let n ← initialised clock
    return pxTimer.passed n

/-- A timer which is reported is started again, with a second reading of the clock. -/
def prvIPCPTimerCheck (clock restart : Option Timespec) (pxTimer : IPCPTimer) :
    Exec (Bool × IPCPTimer) :=
  if pxTimer.bActive then do
    let bExpired ← pxTimer.expired clock
    if bExpired then
      let pxTimer ←
        prvIPCPTimerStart restart { pxTimer with bExpired := true } pxTimer.ulReloadTimeUS
      return (true, pxTimer)
    else return (false, pxTimer)
  else return (false, pxTimer)

/-- The timer is started at `start` and the check at `now` reports it. -/
def ReportedAt (pxTimer : IPCPTimer) (start : Timespec) (xTimeUS : UInt32)
    (now restart : Timespec) : Prop :=
  ∃ started, prvIPCPTimerStart (some start) pxTimer xTimeUS = .ok started ∧
    ∃ after, prvIPCPTimerCheck (some now) (some restart) started = .ok (true, after)

/-- The check reports the timer exactly when its period is over. -/
def MeasuresTime (pxTimer : IPCPTimer) (start : Timespec) (xTimeUS : UInt32)
    (now restart : Timespec) : Prop :=
  ReportedAt pxTimer start xTimeUS now restart ↔
    start.toNs + xTimeUS.toNat * 1000 ≤ now.toNs

variable {pxTimer : IPCPTimer} {start now restart : Timespec} {xTimeUS : UInt32}

/-- A check which reports nothing leaves the timer. -/
theorem prvIPCPTimerCheck_unreported {clock restart : Option Timespec} {after : IPCPTimer}
    (h : prvIPCPTimerCheck clock restart pxTimer = .ok (false, after)) : after = pxTimer := by
  rw [prvIPCPTimerCheck] at h
  split at h
  · obtain ⟨bExpired, -, h⟩ := Exec.bind_eq_ok.mp h
    cases bExpired with
    | true =>
      obtain ⟨pxTimer', -, h⟩ := Exec.bind_eq_ok.mp h
      cases h
    | false =>
      cases h
      rfl
  · cases h
    rfl

/-- The time-out lies behind the origin of the clock by the 32 bits of the period and the
incomplete second of the start. -/
theorem prvIPCPTimerStart_spec (hs : start.Normal) (pxTimer : IPCPTimer) (xTimeUS : UInt32) :
    ∃ started, prvIPCPTimerStart (some start) pxTimer xTimeUS = .ok started ∧
      started.bActive = true ∧ started.bExpired = (xTimeUS == 0) ∧ started.xTimeOut.Normal ∧
      started.xTimeOut.toNs = (xTimeUS.toNat * 1000 % 2 ^ 32 : ℕ) + start.tv_nsec.toInt := by
  have hnonneg := hs.nonneg
  have hlt := hs.lt
  have hprod : (xTimeUS * 1000).toUInt64.toNat = xTimeUS.toNat * 1000 % 2 ^ 32 := by
    rw [UInt32.toNat_toUInt64]
    exact UInt32.toNat_mul xTimeUS 1000
  have hnsec : (start.tv_nsec.toUInt64.toNat : Int) = start.tv_nsec.toInt := by
    rw [Int64.toNat_toUInt64_of_le (Int64.le_iff_toInt_le.mpr hnonneg)]
    exact Int.toNat_of_nonneg hnonneg
  obtain ⟨nsec, hn⟩ : ∃ nsec, nsec = (xTimeUS * 1000).toUInt64 + start.tv_nsec.toUInt64 :=
    ⟨_, rfl⟩
  have hval : (nsec.toNat : Int) =
      (xTimeUS.toNat * 1000 % 2 ^ 32 : ℕ) + start.tv_nsec.toInt := by
    rw [hn, UInt64.toNat_add, hprod]
    omega
  have hsec : (nsec / 1000000000).toInt64.toInt = (nsec.toNat / 1000000000 : ℕ) := by
    rw [uint64_toInt64_toInt, UInt64.toNat_div]
    exact Int.bmod_eq_of_le (by simp; omega) (by simp; omega)
  have hrest : (nsec % 1000000000).toInt64.toInt = (nsec.toNat % 1000000000 : ℕ) := by
    rw [uint64_toInt64_toInt, UInt64.toNat_mod]
    exact Int.bmod_eq_of_le (by simp; omega) (by simp; omega)
  refine ⟨_, rfl, rfl, rfl, ⟨?_, ?_⟩, ?_⟩
  · rw [← hn, hrest]
    omega
  · rw [← hn, hrest]
    omega
  · rw [← hn, Timespec.toNs, hsec, hrest, ← hval]
    omega

theorem passed_iff (hn : now.Normal) (ht : pxTimer.xTimeOut.Normal) :
    pxTimer.passed now = true ↔ now.toNs < pxTimer.xTimeOut.toNs := by
  rw [Timespec.toNs_lt_iff hn ht, IPCPTimer.passed]
  split_ifs with hsec
  · rw [decide_eq_true_eq, Int64.lt_iff_toInt_lt, hsec]
    omega
  · have hne : now.tv_sec.toInt ≠ pxTimer.xTimeOut.tv_sec.toInt := mt Int64.toInt_inj.mp hsec
    rw [decide_eq_true_eq, Int64.lt_iff_toInt_lt]
    omega

/-- A timer which runs is reported exactly when its comparison says so. -/
theorem prvIPCPTimerCheck_reports_iff (hactive : pxTimer.bActive = true) :
    (∃ after, prvIPCPTimerCheck (some now) (some restart) pxTimer = .ok (true, after)) ↔
      pxTimer.bExpired = true ∨ pxTimer.passed now = true := by
  have hexpired : pxTimer.expired (some now) =
      .ok (pxTimer.bExpired || pxTimer.passed now) := by
    rw [IPCPTimer.expired]
    cases pxTimer.bExpired <;> rfl
  rw [prvIPCPTimerCheck, if_pos hactive, hexpired, Exec.ok_bind, ← Bool.or_eq_true]
  cases pxTimer.bExpired || pxTimer.passed now with
  | true => exact iff_of_true ⟨_, rfl⟩ rfl
  | false =>
    refine iff_of_false ?_ (by simp)
    rintro ⟨after, hafter⟩
    cases hafter

theorem reportedAt_iff (hs : start.Normal) (hn : now.Normal) :
    ReportedAt pxTimer start xTimeUS now restart ↔ xTimeUS = 0 ∨
      now.toNs < (xTimeUS.toNat * 1000 % 2 ^ 32 : ℕ) + start.tv_nsec.toInt := by
  obtain ⟨started, hstarted, hactive, hexpired, hnormal, htime⟩ :=
    prvIPCPTimerStart_spec hs pxTimer xTimeUS
  have hreports := @prvIPCPTimerCheck_reports_iff _ now restart hactive
  rw [hexpired, beq_iff_eq, passed_iff hn hnormal, htime] at hreports
  rw [← hreports]
  constructor
  · rintro ⟨started', hstarted', hcheck⟩
    cases hstarted.symm.trans hstarted'
    exact hcheck
  · exact fun hcheck => ⟨started, hstarted, hcheck⟩

/-- A timer measures time for a check if and only if its period is zero and the check not in
front of the start, or the check lies between the end of the period and the time which has the
period without its higher bits and the incomplete second of the start, in either order. -/
theorem measuresTime_iff (hs : start.Normal) (hn : now.Normal) :
    MeasuresTime pxTimer start xTimeUS now restart ↔
      (xTimeUS = 0 ∧ start.toNs ≤ now.toNs) ∨
      (xTimeUS ≠ 0 ∧
        min (start.toNs + xTimeUS.toNat * 1000)
          ((xTimeUS.toNat * 1000 % 2 ^ 32 : ℕ) + start.tv_nsec.toInt) ≤ now.toNs ∧
        now.toNs < max (start.toNs + xTimeUS.toNat * 1000)
          ((xTimeUS.toNat * 1000 % 2 ^ 32 : ℕ) + start.tv_nsec.toInt)) := by
  rw [MeasuresTime, reportedAt_iff hs hn]
  by_cases hzero : xTimeUS = 0
  · subst hzero
    simp
  · simp only [hzero, false_or, false_and, ne_eq, not_false_eq_true, true_and]
    omega

/-- A timer which was never started. -/
def idleTimer : IPCPTimer := ⟨false, false, ⟨0, 0⟩, 0, 0⟩

/-- Half of a second into its period a timer is not reported. -/
theorem measuresTime_early : MeasuresTime idleTimer ⟨100, 0⟩ 1000000 ⟨100, 500000000⟩ ⟨101, 0⟩ :=
  (measuresTime_iff ⟨by decide, by decide⟩ ⟨by decide, by decide⟩).mpr
    (Or.inr ⟨by decide, by decide, by decide⟩)

/-- Nor is it a second after its end. -/
theorem not_measuresTime_late :
    ¬ MeasuresTime idleTimer ⟨100, 0⟩ 1000000 ⟨102, 0⟩ ⟨102, 0⟩ := by
  intro h
  obtain ⟨started, hstarted, after, hafter⟩ := h.mpr (by decide)
  have hstart : prvIPCPTimerStart (some ⟨100, 0⟩) idleTimer 1000000 =
      .ok ⟨true, false, ⟨1, 0⟩, 1000000, 0⟩ := by decide
  cases hstart.symm.trans hstarted
  cases hafter

end RinaSense.Ipcp
