import RinaSense.Ipcp.Events

/-!
# The task of the IPC process

What `prvIPCPTask` calls for each event it takes from its queue, and how a send of an event
to it can end while other senders use the queue.
-/

namespace RinaSense.Ipcp

open Queue

/-- The union read as an address. -/
def RINAEventData.asPV : RINAEventData → Option ℕ
  | .PV address => address
  | .UN 0 => none
  | .UN (value + 1) => some (value + 1)

/-- The union read as a number. -/
def RINAEventData.asUN : RINAEventData → ℕ
  | .PV none => 0
  | .PV (some address) => address
  | .UN value => value

/-- `eFLOW_BOUND` of the flow request's event bits. -/
def eFLOW_BOUND : UInt64 := 0x10

/-- The calls through which the data of an event leave the task. -/
inductive TaskCall
  | duEnqueue (xId : ℕ) (pxDu : Option ℕ)
  | prvProcessNetworkDownEvent
  | applicationRegister (pxShimInstance : Option ℕ)
  | flowBindingIpcp (unPort : ℕ) (pxShimInst : Option ℕ)
  | vIpcpSetFATimerExpiredState (xExpiredState : Bool)
  | flowPrebind (pxFlowAllocateHandle : Option ℕ)
  | vRINA_WakeUpFlowRequest (pxFlowAllocateHandle : Option ℕ) (nNewBits : UInt64)
  | mgmtDuWrite (xPortId : ℕ) (pxDu : Option ℕ)
  | xNormalDuWrite (xId : ℕ) (pxDu : Option ℕ)
deriving DecidableEq, Repr

/-- The switch over the kind of an event. -/
def prvIPCPTask (xEv : RINAStackEvent) : List TaskCall :=
  match xEv.eEventType with
  | .eRinaRxEvent => [.duEnqueue xEv.xData.asUN xEv.xData2.asPV]
  | .eNetworkDownEvent => [.prvProcessNetworkDownEvent]
  | .eShimEnrolledEvent => [.applicationRegister xEv.xData.asPV]
  | .eShimFlowAllocatedEvent => [.flowBindingIpcp xEv.xData.asUN xEv.xData2.asPV]
  | .eFATimerEvent => [.vIpcpSetFATimerExpiredState true]
  | .eFlowDeallocateEvent => []
  | .eFlowBindEvent =>
    [.flowPrebind xEv.xData.asPV, .vRINA_WakeUpFlowRequest xEv.xData.asPV eFLOW_BOUND]
  | .eSendMgmtEvent => [.mgmtDuWrite xEv.xData.asUN xEv.xData2.asPV]
  | .eNoEvent => []
  | _ => []

/-- No kind of event reaches the write of data units. -/
theorem prvIPCPTask_not_duWrite (xEv : RINAStackEvent) (xId : ℕ) (pxDu : Option ℕ) :
    (prvIPCPTask xEv).count (.xNormalDuWrite xId pxDu) = 0 := by
  rw [List.count_eq_zero, prvIPCPTask]
  cases xEv.eEventType <;> simp

/-- How a send ends, with the queue before and after the list operation. While the sender
sleeps the queue may change, and a wait with a timeout may run out. -/
inductive SendEnds (c : Sender) (q : RsQueue RINAStackEvent) (ev : RINAStackEvent)
    (xTimeOutUS : ℕ) : RsErr → RsQueue RINAStackEvent → RsQueue RINAStackEvent → Prop
  | returned {status : RsErr} {item : Option RINAStackEvent} {q' : RsQueue RINAStackEvent}
      (hcall : xSendEventStructToIPCPTask c q ev xTimeOutUS = .returned status item q') :
      SendEnds c q ev xTimeOutUS status q q'
  | woken {unTimeout : ℕ} {status : RsErr} {item : Option RINAStackEvent}
      {q₁ q' : RsQueue RINAStackEvent}
      (hcall : xSendEventStructToIPCPTask c q ev xTimeOutUS = .waits unTimeout)
      (hplace : q₁.enqueue ev = .returned status item q') :
      SendEnds c q ev xTimeOutUS status q₁ q'
  | timedOut {unTimeout : ℕ} {q₁ : RsQueue RINAStackEvent}
      (hcall : xSendEventStructToIPCPTask c q ev xTimeOutUS = .waits unTimeout)
      (hpos : unTimeout ≠ 0) : SendEnds c q ev xTimeOutUS .FAIL q₁ q₁

/-- The event was put on the list. -/
def Queued (ev : RINAStackEvent) (q q' : RsQueue RINAStackEvent) : Prop :=
  q'.xQueueList = q.xQueueList ++ [ev]

variable {c : Sender} {q q' q₁ : RsQueue RINAStackEvent} {ev : RINAStackEvent} {status : RsErr}
  {item : Option RINAStackEvent} {xTimeOutUS : ℕ}

/-- Success of a call which returned stands for an event on the list, and after a failure
the list is as it was. -/
structure Reports (ev : RINAStackEvent) (status : RsErr) (q q' : RsQueue RINAStackEvent) :
    Prop where
  success : status = .SUCCESS → Queued ev q q'
  failure : status ≠ .SUCCESS → q'.xQueueList = q.xQueueList

theorem Reports.queued_iff (hr : Reports ev status q q') : Queued ev q q' ↔ status = .SUCCESS := by
  refine ⟨fun hq => ?_, hr.success⟩
  by_contra hstatus
  have hlen := congrArg List.length (hq.symm.trans (hr.failure hstatus))
  rw [List.length_append, List.length_singleton] at hlen
  omega

theorem enqueue_reports (hcall : q.enqueue ev = .returned status item q') :
    Reports ev status q q' := by
  rw [RsQueue.enqueue] at hcall
  split at hcall
  · cases hcall
    exact ⟨by simp, fun _ => rfl⟩
  · cases hcall
    refine ⟨fun _ => ?_, fun hne => absurd rfl hne⟩
    rw [Queued]
    split <;> rfl

theorem sendToBack_reports (hcall : prvQueueSendToBack q ev xTimeOutUS = .returned status item q') :
    Reports ev status q q' := by
  rw [prvQueueSendToBack] at hcall
  split at hcall
  · split at hcall
    · cases hk : q.xSemPlaces with
      | zero =>
        rw [hk] at hcall
        cases hcall
      | succ k =>
        rw [hk] at hcall
        have hr := enqueue_reports (q := { q with xSemPlaces := k }) hcall
        exact ⟨hr.success, hr.failure⟩
    · split at hcall
      · cases hcall
        exact ⟨by simp, fun _ => rfl⟩
      · exact enqueue_reports hcall
  · exact enqueue_reports hcall

theorem SendEnds.reports (hs : SendEnds c q ev xTimeOutUS status q₁ q') :
    Reports ev status q₁ q' := by
  cases hs with
  | returned hcall =>
    rw [xSendEventStructToIPCPTask] at hcall
    split at hcall
    · cases hcall
      exact ⟨by simp, fun _ => rfl⟩
    · exact sendToBack_reports hcall
  | woken _ hplace => exact enqueue_reports hplace
  | timedOut _ _ => exact ⟨by simp, fun _ => rfl⟩

/-- Every send can end. -/
theorem exists_sendEnds (c : Sender) (q : RsQueue RINAStackEvent) (ev : RINAStackEvent)
    (xTimeOutUS : ℕ) : ∃ status q₁ q', SendEnds c q ev xTimeOutUS status q₁ q' := by
  cases hcall : xSendEventStructToIPCPTask c q ev xTimeOutUS with
  | returned status item q' => exact ⟨status, q, q', .returned hcall⟩
  | waits unTimeout =>
    rcases RsQueue.enqueue_returns q ev with ⟨status, q', hplace⟩
    exact ⟨status, q, q', .woken hcall hplace⟩

end RinaSense.Ipcp
