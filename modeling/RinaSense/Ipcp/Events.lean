import RinaSense.Queue.Accounting

/-!
# Events for the task of the IPC process

The senders of `IPCP.c` put their events on a queue of 255 which the task empties. They
give a timeout of zero for calls which are not to wait, and so does every call from the
task itself.
-/

namespace RinaSense.Ipcp

open Queue

inductive RINAEvent
  | eNoEvent
  | eNetworkDownEvent
  | eShimEnrolledEvent
  | eARPTimerEvent
  | eRinaTxEvent
  | eRinaRxEvent
  | eFATimerEvent
  | eFlowBindEvent
  | eFlowDeallocateEvent
  | eStackRxEvent
  | eShimFlowAllocatedEvent
  | eStackFlowAllocateEvent
  | eStackAppRegistrationEvent
  | eShimAppRegisteredEvent
  | eSendMgmtEvent
deriving DecidableEq, Repr

inductive RINAEventData
  | PV (address : Option ℕ)
  | UN (value : ℕ)
deriving DecidableEq, Repr

structure RINAStackEvent where
  eEventType : RINAEvent
  xData : RINAEventData
  xData2 : RINAEventData
deriving DecidableEq, Repr

/-- The settings of `xNetworkEventQueue`. -/
abbrev xIpcpQueueParams : RsQueueParams := ⟨255, true⟩

/-- What a sender tests: whether the task is up and whether it is the task itself. -/
structure Sender where
  xIPCPTaskReady : Bool
  xIsCallingFromIPCPTask : Bool
deriving DecidableEq, Repr

def xSendEventStructToIPCPTask (c : Sender) (xNetworkEventQueue : RsQueue RINAStackEvent)
    (pxEvent : RINAStackEvent) (xTimeOutUS : ℕ) : Call RINAStackEvent :=
  if c.xIPCPTaskReady = false ∧ pxEvent.eEventType ≠ .eNetworkDownEvent then
    .returned .FAIL none xNetworkEventQueue
  else
    let xCalculatedTimeOutUS := if c.xIsCallingFromIPCPTask then 0 else xTimeOutUS
    xRsQueueSendToBackTimed xNetworkEventQueue pxEvent xCalculatedTimeOutUS

/-- The second argument of the event is not set. -/
def xSendEventToIPCPTask (c : Sender) (xNetworkEventQueue : RsQueue RINAStackEvent)
    (xData2 : RINAEventData) (eEvent : RINAEvent) : Call RINAStackEvent :=
  xSendEventStructToIPCPTask c xNetworkEventQueue ⟨eEvent, .PV none, xData2⟩ 0

/-- The call returns, and if the queue is full it fails and leaves the queue as it is. -/
def Immediate (q : RsQueue RINAStackEvent) (call : Call RINAStackEvent) : Prop :=
  ∃ status item q', call = .returned status item q' ∧
    (q.xQueueList.length = q.xParams.unMaxItemCount → status ≠ .SUCCESS ∧ q' = q)

/-- The event is turned down before the queue. -/
def Rejected (c : Sender) (eEvent : RINAEvent) : Prop :=
  c.xIPCPTaskReady = false ∧ eEvent ≠ .eNetworkDownEvent

variable {n : ℕ} {s : State RINAStackEvent n}

instance (c : Sender) (eEvent : RINAEvent) : Decidable (Rejected c eEvent) :=
  inferInstanceAs (Decidable (_ ∧ _))

/-- A place of the queue is neither taken by an event nor held by another sender or
receiver, nor lost to a send which the pool refused. -/
def PlaceLeft (s : State RINAStackEvent n) : Prop :=
  s.queue.xQueueList.length + s.heldPlaces + s.refusals < 255

instance (s : State RINAStackEvent n) : Decidable (PlaceLeft s) :=
  inferInstanceAs (Decidable (_ < _))

theorem sendToBackTimed_immediate_iff (h : Inv xIpcpQueueParams s) (ev : RINAStackEvent)
    (unTimeout : ℕ) :
    Immediate s.queue (xRsQueueSendToBackTimed s.queue ev unTimeout) ↔ PlaceLeft s := by
  have hplaces := h.places rfl
  change _ = 255 at hplaces
  have hb : s.queue.xParams.bounded = true := by
    rw [h.xParams]
    rfl
  rw [xRsQueueSendToBackTimed]
  cases hk : s.queue.xSemPlaces with
  | zero =>
    rw [prvQueueSendToBack_full hb hk]
    refine iff_of_false ?_ fun hlt => ?_
    · rintro ⟨status, item, q', hwait, -⟩
      cases hwait
    · unfold PlaceLeft at hlt
      omega
  | succ k =>
    rw [prvQueueSendToBack_place hb hk]
    rcases RsQueue.enqueue_returns { s.queue with xSemPlaces := k } ev with ⟨status, q', hq⟩
    refine iff_of_true ⟨status, none, q', hq, fun hfull => ?_⟩ (by unfold PlaceLeft; omega)
    rw [h.xParams] at hfull
    change _ = 255 at hfull
    omega

/-- An event is sent without a wait exactly when it is turned down or a place is left. -/
theorem send_immediate_iff (h : Inv xIpcpQueueParams s) (c : Sender) (ev : RINAStackEvent)
    (xTimeOutUS : ℕ) :
    Immediate s.queue (xSendEventStructToIPCPTask c s.queue ev xTimeOutUS) ↔
      Rejected c ev.eEventType ∨ PlaceLeft s := by
  by_cases hr : Rejected c ev.eEventType
  · rw [xSendEventStructToIPCPTask, if_pos (show _ ∧ _ from hr)]
    exact iff_of_true ⟨.FAIL, none, s.queue, rfl, fun _ => ⟨by simp, rfl⟩⟩ (.inl hr)
  · rw [xSendEventStructToIPCPTask, if_neg (show ¬ (_ ∧ _) from hr),
      sendToBackTimed_immediate_iff h]
    exact (or_iff_right hr).symm

/-- Whatever the senders and receivers of the queue did before, an event with a timeout of
zero and an event from the task are sent without a wait, and fail on a full queue without a
change to it, if and only if the event is turned down before the queue or the queue has a
place left. -/
theorem events_immediate_iff {q : RsQueue RINAStackEvent}
    (hq : xRsQueueInit xIpcpQueueParams = .ok q) {acts : List (Act RINAStackEvent n)}
    (hrun : acts.foldlM State.step (State.init q n) = some s) (c : Sender)
    (ev : RINAStackEvent) (xTimeOutUS : ℕ) (xData2 : RINAEventData) (eEvent : RINAEvent) :
    ((xTimeOutUS = 0 ∨ c.xIsCallingFromIPCPTask = true →
        Immediate s.queue (xSendEventStructToIPCPTask c s.queue ev xTimeOutUS)) ↔
      (xTimeOutUS = 0 ∨ c.xIsCallingFromIPCPTask = true →
        Rejected c ev.eEventType ∨ PlaceLeft s)) ∧
    (Immediate s.queue (xSendEventToIPCPTask c s.queue xData2 eEvent) ↔
      Rejected c eEvent ∨ PlaceLeft s) := by
  have h : Inv xIpcpQueueParams s := inv_reached hq hrun
  constructor
  · rw [send_immediate_iff h]
  · exact send_immediate_iff h c _ 0

/-- The task sends an event to an empty queue. -/
theorem events_immediate_empty :
    Immediate ⟨[], ⟨255, 0⟩, 0, 255, xIpcpQueueParams⟩ (xSendEventToIPCPTask ⟨true, true⟩
      ⟨[], ⟨255, 0⟩, 0, 255, xIpcpQueueParams⟩ (.UN 0) .eARPTimerEvent) := by
  have h := events_immediate_iff (n := 1) (q := ⟨[], ⟨255, 0⟩, 0, 255, xIpcpQueueParams⟩) rfl
    (show ([] : List (Act RINAStackEvent 1)).foldlM State.step _ = some _ from rfl)
    ⟨true, true⟩ ⟨.eARPTimerEvent, .PV none, .UN 0⟩ 0 (.UN 0) .eARPTimerEvent
  exact h.2.mpr (.inr (by decide))

/-- The queue with `k` copies of an event and `m` places. -/
def filled (ev : RINAStackEvent) (k m : ℕ) : RsQueue RINAStackEvent :=
  ⟨List.replicate k ev, ⟨255, k⟩, k, m, xIpcpQueueParams⟩

/-- One thread. -/
def only (q : RsQueue RINAStackEvent) (p : Phase RINAStackEvent) (m : Mutex 1) :
    State RINAStackEvent 1 :=
  ⟨q, fun _ => p, m, 0⟩

theorem update_only (p p' : Phase RINAStackEvent) :
    Function.update (fun _ : Fin 1 => p) 0 p' = fun _ => p' := by
  funext t
  rw [Subsingleton.elim t 0, Function.update_self]

theorem only_run {q q' : RsQueue RINAStackEvent} {p p' : Phase RINAStackEvent} {m m' : Mutex 1}
    (hn : p.next q = some (q', p')) (hm : p.mutex m 0 = some m') (hr : p.refused q = 0)
    (acts : List (Act RINAStackEvent 1)) :
    (.run 0 :: acts).foldlM State.step (only q p m) =
      acts.foldlM State.step (only q' p' m') := by
  have hstep : (only q p m).step (.run 0) = some (only q' p' m') := by
    simp only [State.step, only, hm, hn, hr, State.setPhase, update_only]
    rfl
  rw [List.foldlM_cons, hstep]
  rfl

theorem fill_one (ev : RINAStackEvent) {k m : ℕ} (hkm : k + (m + 1) = 255)
    {p : Phase RINAStackEvent} (hp : p.resting = true) :
    (Act.runs 0 (.send ev) 6).foldlM State.step (only (filled ev k (m + 1)) p ⟨none, 0⟩) =
      some (only (filled ev (k + 1) m) (.returned .SUCCESS none) ⟨none, 0⟩) := by
  have halloc : ItemPool.pxRsrcAlloc ⟨255, k⟩ = some ⟨255, k + 1⟩ :=
    ItemPool.pxRsrcAlloc_eq_some.mpr ⟨.inr (show k < 255 by omega), rfl⟩
  have hinsert : List.replicate k ev ++ [ev] = List.replicate (k + 1) ev :=
    List.replicate_succ'.symm
  have hcall : (only (filled ev k (m + 1)) p ⟨none, 0⟩).step (.call 0 false (.send ev) 0) =
      some (only (filled ev k (m + 1)) (.wait false (.send ev) 0) ⟨none, 0⟩) := by
    simp only [State.step, only, hp, State.setPhase, update_only]
    rfl
  rw [Act.runs, List.foldlM_cons, hcall]
  calc (List.replicate 6 (Act.run 0)).foldlM State.step
        (only (filled ev k (m + 1)) (.wait false (.send ev) 0) ⟨none, 0⟩)
      = (List.replicate 5 (Act.run 0)).foldlM State.step
        (only (filled ev k m) (.alloc false ev) ⟨none, 0⟩) := only_run rfl rfl rfl _
    _ = (List.replicate 4 (Act.run 0)).foldlM State.step (only { filled ev k m with
        xPool := ⟨255, k + 1⟩ } (.lock false (.send ev)) ⟨none, 0⟩) :=
      only_run (by simp [Phase.next, filled, halloc]) rfl
        (by simp [Phase.refused, filled, halloc]) _
    _ = (List.replicate 3 (Act.run 0)).foldlM State.step (only { filled ev k m with
        xPool := ⟨255, k + 1⟩ } (.list false (.send ev)) ⟨some 0, 1⟩) := only_run rfl rfl rfl _
    _ = (List.replicate 2 (Act.run 0)).foldlM State.step (only { filled ev (k + 1) m with
        xSemItems := k } (.unlock false .inserted) ⟨some 0, 1⟩) :=
      only_run (by simp [Phase.next, filled, RsQueue.insert, hinsert]) rfl rfl _
    _ = [Act.run 0].foldlM State.step (only { filled ev (k + 1) m with
        xSemItems := k } (.post false .inserted) ⟨none, 0⟩) := only_run rfl rfl rfl _
    _ = some (only (filled ev (k + 1) m) (.returned .SUCCESS none) ⟨none, 0⟩) :=
      only_run rfl rfl rfl _

/-- One sender fills the queue. -/
theorem fill (ev : RINAStackEvent) {k : ℕ} (hk : k ≤ 255) :
    ∃ (acts : List (Act RINAStackEvent 1)) (p : Phase RINAStackEvent), p.resting = true ∧
      acts.foldlM State.step (only (filled ev 0 255) .idle ⟨none, 0⟩) =
        some (only (filled ev k (255 - k)) p ⟨none, 0⟩) := by
  induction k with
  | zero => exact ⟨[], .idle, rfl, rfl⟩
  | succ k ih =>
    rcases ih (Nat.le_of_succ_le hk) with ⟨acts, p, hp, hrun⟩
    refine ⟨acts ++ Act.runs 0 (.send ev) 6, .returned .SUCCESS none, rfl, ?_⟩
    have hm : 255 - k = 255 - (k + 1) + 1 := by omega
    rw [List.foldlM_append, hrun, hm]
    exact fill_one ev (by omega) hp

/-- The queue is full when the task itself sends an event, and it sleeps for a place which
only it can free. -/
theorem task_waits_for_itself :
    ∃ (acts : List (Act RINAStackEvent 1)) (s : State RINAStackEvent 1),
      acts.foldlM State.step (State.init (filled ⟨.eFATimerEvent, .PV none, .UN 0⟩ 0 255) 1) =
        some s ∧ s.queue.xQueueList.length = 255 ∧
      xSendEventToIPCPTask ⟨true, true⟩ s.queue (.UN 0) .eARPTimerEvent = .waits 0 ∧
      ¬ Immediate s.queue (xSendEventToIPCPTask ⟨true, true⟩ s.queue (.UN 0) .eARPTimerEvent) := by
  rcases fill ⟨.eFATimerEvent, .PV none, .UN 0⟩ le_rfl with ⟨acts, p, -, hrun⟩
  have hwaits : xSendEventToIPCPTask ⟨true, true⟩ (filled ⟨.eFATimerEvent, .PV none, .UN 0⟩ 255 0)
      (.UN 0) .eARPTimerEvent = .waits 0 := rfl
  refine ⟨acts, _, hrun, List.length_replicate, hwaits, ?_⟩
  rintro ⟨status, item, q', hret, -⟩
  cases hwaits.symm.trans hret

end RinaSense.Ipcp
