import RinaSense.Common.Errors
import RinaSense.Common.RsTime

/-!
# Semaphores

The functions of `posix_rssem.c` over the calls to the system which they make. A call which
fails leaves a number in `errno`.
-/

namespace RinaSense.Common

/-- How a call to the system ends. -/
abbrev OsCall (α : Type) := Except UInt32 α

def ETIMEDOUT : UInt32 := 110

/-- A time which a clock can show. -/
abbrev ClockTime := { now : Timespec // now.Normal }

/-- The status of a function which returns the error of the system as it is. -/
def OsCall.status : OsCall Unit → RsErrT
  | .ok _ => SUCCESS
  | .error errno => xErrorSetErrno errno

def xRsSemInit (sem_init : OsCall Unit) : RsErrT := sem_init.status

def xRsSemPost (sem_post : OsCall Unit) : RsErrT := sem_post.status

def xRsSemWait (sem_wait : OsCall Unit) : RsErrT := sem_wait.status

/-- What the call leaves in `errno` if it fails. -/
def OsCall.errno {α : Type} : OsCall α → UInt32
  | .ok _ => 0
  | .error errno => errno

/-- The outcome of the wait depends on the deadline which it is given. -/
def xRsSemTimedWait (pf : Platform) (clock : OsCall ClockTime)
    (sem_timedwait : Timespec → OsCall Unit) (unTimeout : UInt32) : Exec RsErrT := do
  let xTs ← rstime_waitusec pf (clock.toOption.map Subtype.val) unTimeout
  match xTs with
  | none => return xErrorSetErrno clock.errno
  | some xTs =>
    match sem_timedwait xTs with
    | .ok _ => return SUCCESS
    | .error errno =>
      return if errno = ETIMEDOUT then ERR_SET ERR_TIMEDOUT else xErrorSetErrno errno

variable {pf : Platform}

/-- The wait is given the deadline. -/
theorem xRsSemTimedWait_eq {now : ClockTime} {unTimeout : UInt32} {xTs : Timespec}
    (hdeadline : rstime_waitusec pf (some now.val) unTimeout = .ok (some xTs))
    (sem_timedwait : Timespec → OsCall Unit) :
    xRsSemTimedWait pf (.ok now) sem_timedwait unTimeout =
      .ok (match sem_timedwait xTs with
        | .ok _ => SUCCESS
        | .error errno => if errno = ETIMEDOUT then ERR_TIMEDOUT else SUCCESS) := by
  have hclock : (Except.toOption (Except.ok now : OsCall ClockTime)).map Subtype.val =
      some now.val := rfl
  simp only [xRsSemTimedWait, hclock, hdeadline, Exec.ok_bind, ERR_SET_eq, xErrorSetErrno_eq]
  cases sem_timedwait xTs <;> rfl

/-- A clock which cannot be read leaves no error. -/
theorem xRsSemTimedWait_clock (errno : UInt32) (sem_timedwait : Timespec → OsCall Unit)
    (unTimeout : UInt32) :
    xRsSemTimedWait pf (.error errno) sem_timedwait unTimeout = .ok SUCCESS :=
  congrArg Except.ok (xErrorSetErrno_eq errno)

end RinaSense.Common
