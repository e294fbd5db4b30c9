import RinaSense.Common.RsSem

/-!
# Deadlines

The deadline which a timed wait for a semaphore and a wait for a reply hand to the system. Both
compute it from their microseconds by the same macro.
-/

namespace RinaSense.Rib

open Common

/-- The status with which a timed wait for a semaphore returns. -/
def timedStatus : OsCall Unit → RsErrT
  | .ok _ => SUCCESS
  | .error errno => if errno = ETIMEDOUT then ERR_TIMEDOUT else SUCCESS

/-- `xRibObjectWaitReply` from the lookup of its row on: the row, if there is one, with its
response. The sleep ends with a number and the response which the row has then. -/
def xRibObjectWaitReply (pf : Platform) (clock : OsCall ClockTime)
    (pxPendingReq : Option (Option ℕ)) (pthread_cond_timedwait : Timespec → UInt32 × Option ℕ)
    (pxTimeout : UInt32) : Exec (RsErrT × Option (Option ℕ)) := do
  let xTs ← rstime_waitusec pf (clock.toOption.map Subtype.val) pxTimeout
  match xTs with
  | none => return (xErrorSetErrno clock.errno, none)
  | some xTs =>
    match pxPendingReq with
    | none => return (ERR_SET ERR_RIB_NOT_PENDING, none)
    | some (some pxResp) => return (SUCCESS, some (some pxResp))
    | some none =>
      let (n, pxResp) := pthread_cond_timedwait xTs
      return if n = ETIMEDOUT then (ERR_SET ERR_RIB_TIMEOUT, none) else (SUCCESS, some pxResp)

/-- The time which is so many microseconds behind the other, with its nanoseconds in range. -/
structure IsDeadline (now : Timespec) (u : UInt32) (d : Timespec) : Prop where
  normal : d.Normal
  toNs : d.toNs = now.toNs + u.toNat * 1000

/-- Whatever the system makes of it, the wait for a semaphore gives it the deadline. -/
def SemWaitsExactly (pf : Platform) (now : ClockTime) (u : UInt32) : Prop :=
  ∃ d, IsDeadline now u d ∧ ∀ sem_timedwait,
    xRsSemTimedWait pf (.ok now) sem_timedwait u = .ok (timedStatus (sem_timedwait d))

/-- So does the wait for a reply which is not there yet. -/
def ReplyWaitsExactly (pf : Platform) (now : ClockTime) (u : UInt32) : Prop :=
  ∃ d, IsDeadline now u d ∧ ∀ pthread_cond_timedwait,
    xRibObjectWaitReply pf (.ok now) (some none) pthread_cond_timedwait u =
      .ok (if (pthread_cond_timedwait d).1 = ETIMEDOUT then (ERR_RIB_TIMEOUT, none)
        else (SUCCESS, some (pthread_cond_timedwait d).2))

variable {pf : Platform} {now : ClockTime} {u : UInt32} {d : Timespec}

/-- The computed deadline is right unless the product or the seconds leave their types. -/
theorem isDeadline_iff (hd : rstime_waitusec pf (some now.val) u = .ok (some d)) :
    IsDeadline now u d ↔ u.toNat ≤ 4294967 ∧
      now.val.tv_sec.toInt + (now.val.tv_nsec.toInt + u.toNat * 1000) / 1000000000 < 2 ^ 63 := by
  obtain ⟨d', hd', hnormal, hnsec, hsec⟩ := @rstime_waitnsec_spec pf _ now.property
    (u * 1000).toUInt64
  cases hd.symm.trans hd'
  have hlow := now.val.tv_sec.le_toInt
  have hhigh := now.val.tv_sec.toInt_lt
  have hnonneg := now.property.nonneg
  have hlt := now.property.lt
  have hproduct := usec_product_iff u
  have hbound := (u * 1000).toNat_lt
  have htime : IsDeadline now u d ↔ d.toNs = now.val.toNs + u.toNat * 1000 :=
    ⟨IsDeadline.toNs, fun h => ⟨hnormal, h⟩⟩
  rw [htime, Timespec.toNs, Timespec.toNs, hnsec, hsec, UInt32.toNat_toUInt64, ← hproduct]
  by_cases hfits : now.val.tv_sec.toInt +
      (now.val.tv_nsec.toInt + (u * 1000).toNat) / 1000000000 < 2 ^ 63
  · rw [Int.bmod_eq_of_le (by omega) (by omega)]
    omega
  · -- the seconds turn negative, and no product makes up for that
    rw [Int.bmod_def, if_neg (by omega)]
    omega

/-- Two deadlines are told apart by the answer of the system. -/
theorem semWaitsExactly_iff (hd : rstime_waitusec pf (some now.val) u = .ok (some d)) :
    SemWaitsExactly pf now u ↔ IsDeadline now u d := by
  have hwait : ∀ sem_timedwait, xRsSemTimedWait pf (.ok now) sem_timedwait u =
      .ok (timedStatus (sem_timedwait d)) := fun sem_timedwait => by
    rw [xRsSemTimedWait_eq hd]
    cases sem_timedwait d <;> rfl
  constructor
  · rintro ⟨d', hdeadline, hall⟩
    have hsame := (hwait fun t => if t = d then .ok () else .error ETIMEDOUT).symm.trans (hall _)
    by_cases hdd : d' = d
    · exact hdd ▸ hdeadline
    · simp only [if_true, if_neg hdd, Except.ok.injEq] at hsame
      exact absurd hsame (by decide)
  · exact fun hdeadline => ⟨d, hdeadline, hwait⟩

theorem xRibObjectWaitReply_eq (hd : rstime_waitusec pf (some now.val) u = .ok (some d))
    (pthread_cond_timedwait : Timespec → UInt32 × Option ℕ) :
    xRibObjectWaitReply pf (.ok now) (some none) pthread_cond_timedwait u =
      .ok (if (pthread_cond_timedwait d).1 = ETIMEDOUT then (ERR_RIB_TIMEOUT, none)
        else (SUCCESS, some (pthread_cond_timedwait d).2)) := by
  have hclock : (Except.toOption (Except.ok now : OsCall ClockTime)).map Subtype.val =
      some now.val := rfl
  simp only [xRibObjectWaitReply, hclock, hd, Exec.ok_bind, ERR_SET_eq]
  rfl

theorem replyWaitsExactly_iff (hd : rstime_waitusec pf (some now.val) u = .ok (some d)) :
    ReplyWaitsExactly pf now u ↔ IsDeadline now u d := by
  constructor
  · rintro ⟨d', hdeadline, hall⟩
    have hsame := (xRibObjectWaitReply_eq hd fun t =>
      (if t = d then 0 else ETIMEDOUT, none)).symm.trans (hall _)
    by_cases hdd : d' = d
    · exact hdd ▸ hdeadline
    · simp only [if_true, if_neg hdd, Except.ok.injEq] at hsame
      exact absurd hsame (by decide)
  · exact fun hdeadline => ⟨d, hdeadline, xRibObjectWaitReply_eq hd⟩

/-- Both waits end at their deadline if and only if the microseconds have no more than 32 bits as
nanoseconds and the seconds of the deadline fit their type. -/
theorem waits_exactly_iff (pf : Platform) (now : ClockTime) (u : UInt32) :
    SemWaitsExactly pf now u ∧ ReplyWaitsExactly pf now u ↔ u.toNat ≤ 4294967 ∧
      now.val.tv_sec.toInt + (now.val.tv_nsec.toInt + u.toNat * 1000) / 1000000000 < 2 ^ 63 := by
  obtain ⟨d, hd, -⟩ := @rstime_waitnsec_spec pf _ now.property (u * 1000).toUInt64
  rw [semWaitsExactly_iff hd, replyWaitsExactly_iff hd, and_self_iff, isDeadline_iff hd]

/-- Five seconds, which the enrollment waits, end after seven tenths of a second. -/
theorem five_seconds_early : ¬ (SemWaitsExactly ⟨true, false⟩ ⟨⟨100, 0⟩, by decide, by decide⟩
    5000000 ∧ ReplyWaitsExactly ⟨true, false⟩ ⟨⟨100, 0⟩, by decide, by decide⟩ 5000000) := by
  have hd : rstime_waitusec ⟨true, false⟩ (some ⟨100, 0⟩) 5000000 =
      .ok (some ⟨100, 705032704⟩) := by decide
  rintro ⟨⟨d, hdeadline, hall⟩, -⟩
  have hlate : d = ⟨100, 705032704⟩ := by
    by_contra hne
    have hsame := (@xRsSemTimedWait_eq _ ⟨⟨100, 0⟩, by decide, by decide⟩ _ _ hd
      fun t => if t = d then .ok () else .error ETIMEDOUT).symm.trans (hall _)
    simp only [if_true, if_neg (Ne.symm hne), Except.ok.injEq] at hsame
    exact absurd hsame (by decide)
  exact absurd (hlate ▸ hdeadline.toNs) (by decide)

end RinaSense.Rib
