import RinaSense.Common.RsSem
import RinaSense.Queue.RsQueue

/-!
# Failures of the system

What the semaphore functions report when a call to the system fails, and what a send and a
receive do when the semaphore which they wait on could not be taken. The number which the
system leaves is masked out of the status, so only a time-out is noticed.
-/

namespace RinaSense.Queue

open Common

/-- A wait for a semaphore which does not take it. -/
inductive WaitFailure
  | wait (errno : UInt32)
  | clock (unTimeout errno : UInt32)
  | timed (unTimeout : UInt32) (now : ClockTime) (errno : UInt32)

def WaitFailure.status (pf : Platform) : WaitFailure → Exec RsErrT
  | .wait errno => .ok (xRsSemWait (.error errno))
  | .clock unTimeout errno => xRsSemTimedWait pf (.error errno) (fun _ => .ok ()) unTimeout
  | .timed unTimeout now errno => xRsSemTimedWait pf (.ok now) (fun _ => .error errno) unTimeout

/-- The deadline passed. -/
def WaitFailure.timesOut : WaitFailure → Prop
  | .timed _ _ errno => errno = ETIMEDOUT
  | _ => False

instance : ∀ w : WaitFailure, Decidable w.timesOut
  | .timed _ _ _ => inferInstanceAs (Decidable (_ = _))
  | .wait _ | .clock _ _ => .isFalse id

/-- A call to the system which fails in one of the semaphore functions. -/
inductive OsFailure
  | semInit (errno : UInt32)
  | semPost (errno : UInt32)
  | wait (w : WaitFailure)

def OsFailure.status (pf : Platform) : OsFailure → Exec RsErrT
  | .semInit errno => .ok (xRsSemInit (.error errno))
  | .semPost errno => .ok (xRsSemPost (.error errno))
  | .wait w => w.status pf

def OsFailure.timesOut : OsFailure → Prop
  | .wait w => w.timesOut
  | _ => False

/-- The failure is returned as an error. -/
def OsFailure.Reported (pf : Platform) (f : OsFailure) : Prop :=
  ∃ xStatus, f.status pf = .ok xStatus ∧ ERR_CHK xStatus = true

variable {α : Type}

/-- `prvQueueSendToBack`, where the wait for a place ends with a status and leaves places. -/
def sendAfter (wait : Exec (RsErrT × ℕ)) (q : RsQueue α) (x : α) : Exec (Call α) :=
  if 0 < q.xParams.unMaxItemCount then
    if q.xParams.xBlock then do
      let (xStatus, xSemPlaces) ← wait
      let q := { q with xSemPlaces := xSemPlaces }
      if ERR_CHK xStatus then return .returned .FAIL none q
      else return q.enqueue x
    else if q.xQueueList.length = q.xParams.unMaxItemCount then
      return .returned .ERR_OVERFLOW none q
    else return q.enqueue x
  else return q.enqueue x

/-- `prvQueueReceive`, where the wait for an item ends with a status and leaves items. -/
def receiveAfter (wait : Exec (RsErrT × ℕ)) (q : RsQueue α) : Exec (Call α) :=
  if q.xParams.xBlock then do
    let (xStatus, xSemItems) ← wait
    let q := { q with xSemItems := xSemItems }
    if ERR_CHK xStatus then return .returned .FAIL none q
    else return q.dequeue
  else return q.dequeue

/-- The semaphore keeps its value when it is not taken. -/
def WaitFailure.ends (pf : Platform) (w : WaitFailure) (value : ℕ) : Exec (RsErrT × ℕ) :=
  (w.status pf).map fun xStatus => (xStatus, value)

/-- The call fails, gives no item and leaves the list. -/
def Unaffected (q : RsQueue α) (call : Exec (Call α)) : Prop :=
  ∃ status q', call = .ok (.returned status none q') ∧ status ≠ .SUCCESS ∧
    q'.xQueueList = q.xQueueList

/-- A send which could not take a place fails without effect. -/
def SendFails (pf : Platform) (w : WaitFailure) (q : RsQueue α) (x : α) : Prop :=
  q.xParams.bounded = true → Unaffected q (sendAfter (w.ends pf q.xSemPlaces) q x)

/-- A receive which could not take an item fails without effect. -/
def ReceiveFails (pf : Platform) (w : WaitFailure) (q : RsQueue α) : Prop :=
  q.xParams.xBlock = true → Unaffected q (receiveAfter (w.ends pf q.xSemItems) q)

variable {pf : Platform} {q : RsQueue α} {x : α}

/-- After a wait which took a place the send is the one of the queue. -/
theorem sendAfter_success (hb : q.xParams.bounded = true) {k : ℕ} (hk : q.xSemPlaces = k + 1)
    (x : α) (unTimeout : ℕ) :
    sendAfter (.ok (SUCCESS, k)) q x = .ok (prvQueueSendToBack q x unTimeout) := by
  rw [prvQueueSendToBack_place hb hk]
  simp only [RsQueueParams.bounded, Bool.and_eq_true, decide_eq_true_eq] at hb
  rw [sendAfter, if_pos hb.2, if_pos hb.1]
  rfl

/-- After a wait which took an item so is the receive. -/
theorem receiveAfter_success (hb : q.xParams.xBlock = true) {k : ℕ} (hk : q.xSemItems = k + 1)
    (unTimeout : ℕ) :
    receiveAfter (.ok (SUCCESS, k)) q = .ok (prvQueueReceive q unTimeout) := by
  rw [prvQueueReceive, if_pos hb, hk, receiveAfter, if_pos hb]
  rfl

/-! ### What is reported -/

/-- Of all failures only the time-out leaves a status which is not zero. -/
theorem WaitFailure.status_eq (pf : Platform) (w : WaitFailure) :
    w.status pf = .ok (if w.timesOut then ERR_TIMEDOUT else SUCCESS) := by
  cases w with
  | wait errno => exact congrArg Except.ok (xErrorSetErrno_eq errno)
  | clock unTimeout errno => exact xRsSemTimedWait_clock errno (fun _ => .ok ()) unTimeout
  | timed unTimeout now errno =>
    obtain ⟨xTs, hdeadline, -⟩ := @rstime_waitnsec_spec pf _ now.property
      (unTimeout * 1000).toUInt64
    exact xRsSemTimedWait_eq hdeadline fun _ => .error errno

theorem WaitFailure.chk_iff (w : WaitFailure) :
    ERR_CHK (if w.timesOut then ERR_TIMEDOUT else SUCCESS) = true ↔ w.timesOut := by
  split_ifs with h
  · exact iff_of_true (by decide) h
  · exact iff_of_false (by decide) h

theorem OsFailure.reported_iff (pf : Platform) (f : OsFailure) : f.Reported pf ↔ f.timesOut := by
  have hlost : ∀ errno, ¬ ∃ xStatus, (.ok (xErrorSetErrno errno) : Exec RsErrT) = .ok xStatus ∧
      ERR_CHK xStatus = true := by
    rintro errno ⟨xStatus, hstatus, hchk⟩
    rw [xErrorSetErrno_eq] at hstatus
    cases hstatus
    exact absurd hchk (by decide)
  cases f with
  | semInit errno => exact iff_of_false (hlost errno) id
  | semPost errno => exact iff_of_false (hlost errno) id
  | wait w =>
    rw [OsFailure.Reported, OsFailure.status, w.status_eq]
    simp only [Except.ok.injEq, exists_eq_left', w.chk_iff, OsFailure.timesOut]

/-! ### What a send and a receive do -/

/-- The part behind the wait leaves the list exactly when the pool refuses an item. -/
theorem enqueue_unaffected_iff (q₀ : RsQueue α) (hlist : q.xQueueList = q₀.xQueueList) (x : α) :
    Unaffected q₀ (.ok (q.enqueue x)) ↔ q.xPool.pxRsrcAlloc = none := by
  cases hp : q.xPool.pxRsrcAlloc with
  | none => exact iff_of_true ⟨.ERR_OOM, q, by rw [RsQueue.enqueue, hp], by decide, hlist⟩ rfl
  | some xPool =>
    refine iff_of_false ?_ (by simp)
    rintro ⟨status, q', hcall, hstatus, -⟩
    rw [RsQueue.enqueue, hp, Except.ok.injEq, Call.returned.injEq] at hcall
    exact hstatus hcall.1.symm

theorem dequeue_unaffected_iff (q₀ : RsQueue α) (hlist : q.xQueueList = q₀.xQueueList) :
    Unaffected q₀ (.ok q.dequeue) ↔ q₀.xQueueList = [] := by
  rw [← hlist]
  cases hl : q.xQueueList with
  | nil =>
    refine iff_of_true ⟨.ERR_UNDERFLOW, q, by rw [RsQueue.dequeue, hl], by decide, hlist⟩ rfl
  | cons y rest =>
    refine iff_of_false ?_ (by simp)
    rintro ⟨status, q', hcall, -, -⟩
    rw [RsQueue.dequeue, hl, Except.ok.injEq, Call.returned.injEq] at hcall
    cases hcall.2.1

theorem unaffected_refused (q₀ : RsQueue α) (hlist : q.xQueueList = q₀.xQueueList) :
    Unaffected q₀ (.ok (.returned .FAIL none q)) :=
  ⟨.FAIL, q, rfl, by decide, hlist⟩

theorem sendFails_iff (w : WaitFailure) :
    SendFails pf w q x ↔
      (q.xParams.bounded = true → w.timesOut ∨ q.xPool.pxRsrcAlloc = none) := by
  refine imp_congr_right fun hb => ?_
  simp only [RsQueueParams.bounded, Bool.and_eq_true, decide_eq_true_eq] at hb
  rw [sendAfter, if_pos hb.2, if_pos hb.1, WaitFailure.ends, w.status_eq]
  change Unaffected q (if ERR_CHK _ = true then _ else _) ↔ _
  by_cases h : w.timesOut
  · rw [if_pos (w.chk_iff.mpr h)]
    exact iff_of_true (unaffected_refused q rfl) (Or.inl h)
  · rw [if_neg (mt w.chk_iff.mp h), or_iff_right h]
    exact enqueue_unaffected_iff q rfl x

theorem receiveFails_iff (w : WaitFailure) :
    ReceiveFails pf w q ↔ (q.xParams.xBlock = true → w.timesOut ∨ q.xQueueList = []) := by
  refine imp_congr_right fun hb => ?_
  rw [receiveAfter, if_pos hb, WaitFailure.ends, w.status_eq]
  change Unaffected q (if ERR_CHK _ = true then _ else _) ↔ _
  by_cases h : w.timesOut
  · rw [if_pos (w.chk_iff.mpr h)]
    exact iff_of_true (unaffected_refused q rfl) (Or.inl h)
  · rw [if_neg (mt w.chk_iff.mp h), or_iff_right h]
    exact dequeue_unaffected_iff q rfl

/-- A failure of the system is returned as an error if and only if it is a time-out, and a send
or a receive whose wait fails has no effect if and only if the wait timed out, or the pool
refuses the send an item, or there is none to receive. -/
theorem os_failures_reported_iff (pf : Platform) :
    (∀ f : OsFailure, f.Reported pf ↔ f.timesOut) ∧
    (∀ (w : WaitFailure) (q : RsQueue α) (x : α), SendFails pf w q x ↔
      (q.xParams.bounded = true → w.timesOut ∨ q.xPool.pxRsrcAlloc = none)) ∧
    ∀ (w : WaitFailure) (q : RsQueue α), ReceiveFails pf w q ↔
      (q.xParams.xBlock = true → w.timesOut ∨ q.xQueueList = []) :=
  ⟨OsFailure.reported_iff pf, fun w _ _ => sendFails_iff w, fun w _ => receiveFails_iff w⟩

/-- Another thread has the only place. A sender whose wait is interrupted by a signal puts its
item on the list. -/
theorem interrupted_send :
    ¬ (OsFailure.wait (.wait 4)).Reported ⟨true, false⟩ ∧
      ¬ SendFails ⟨true, false⟩ (.wait 4) ⟨[], ⟨1, 0⟩, 0, 0, ⟨1, true⟩⟩ 7 := by
  constructor
  · rintro ⟨xStatus, hstatus, hchk⟩
    cases hstatus
    exact absurd hchk (by decide)
  · intro h
    obtain ⟨status, q', hcall, -, hlist⟩ := h rfl
    cases hcall
    cases hlist

end RinaSense.Queue
