import RinaSense.Common.Lifecycle
import RinaSense.Ipcp.Task

/-!
# Writing to a flow

`RINA_flow_write`, which wraps the data of the caller in a netbuf and sends it to the task
of the IPC process in an event. The caller's data stay his, so that the netbuf never
releases them; the state of the flow is not looked at.
-/

namespace RinaSense.Flow

open Common Ipcp Library.Memory Queue

def CFG_MAX_SDU_SIZE : ℕ := 1000

/-- `-1` as a `size_t`. -/
def writeError : ℕ := 2 ^ 64 - 1

/-- How far a call gets by itself: it returns, or it sends an event with a netbuf. -/
inductive FlowWrite
  | returned (ret : ℕ)
  | sends (xTxEvent : RINAStackEvent) (xTimeToWait : ℕ) (pxNb : NbPtr)
deriving DecidableEq, Repr

/-- What a call is given. `xSetOk` is the result of setting up the time-out, and
`xTimeToWait` what the check of the time-out leaves, unless it fails. -/
structure WriteArgs where
  xPool : PoolPtr
  unPort : ℕ
  pvBuffer : Option Ptr
  uxTotalDataLength : ℕ
  xSetOk : Bool
  xTimeToWait : Option ℕ
deriving DecidableEq, Repr

/-- `RINA_flow_write` up to the send. -/
def RINA_flow_write (pf : Platform) (h : Heap) (w : WriteArgs) : Exec (FlowWrite × Heap) := do
  rsAssert pf (w.uxTotalDataLength ≤ CFG_MAX_SDU_SIZE)
  if w.xSetOk = false then return (.returned 0, h)
  else do
    let (pxNb, h) ← pxNetBufNew pf h (some w.xPool) .NB_RINA_DATA w.pvBuffer
      w.uxTotalDataLength (some .vNetBufFreeButDont)
    match pxNb with
    | none => return (.returned writeError, h)
    | some pxNb =>
      match w.xTimeToWait with
      | none => return (.returned 0, h)
      | some xTimeToWait =>
        return (.sends ⟨.eRinaTxEvent, .UN w.unPort, .PV (some pxNb)⟩ xTimeToWait pxNb, h)

/-- `RINA_flow_write` from the result of the send on. -/
def flowWriteSent (pf : Platform) (h : Heap) (w : WriteArgs) (pxNb : NbPtr) (status : RsErr) :
    Exec (ℕ × Heap) :=
  if status ≠ .SUCCESS then .ok (w.uxTotalDataLength, h)
  else do
    let h ← vNetBufFree pf h pxNb
    return (writeError, h)

/-- How a call ended, with the event it sent and the queue around the list operation. -/
structure WriteEnd where
  ret : ℕ
  heap : Heap
  sent : Option (RINAStackEvent × RsQueue RINAStackEvent × RsQueue RINAStackEvent)

inductive WriteEnds (pf : Platform) (c : Sender) (q : RsQueue RINAStackEvent) (h : Heap)
    (w : WriteArgs) : WriteEnd → Prop
  | returned {ret : ℕ} {h' : Heap} (hcall : RINA_flow_write pf h w = .ok (.returned ret, h')) :
      WriteEnds pf c q h w ⟨ret, h', none⟩
  | sent {xTxEvent : RINAStackEvent} {xTimeToWait ret : ℕ} {pxNb : NbPtr} {h₁ h' : Heap}
      {status : RsErr} {q₁ q' : RsQueue RINAStackEvent}
      (hcall : RINA_flow_write pf h w = .ok (.sends xTxEvent xTimeToWait pxNb, h₁))
      (hsend : SendEnds c q xTxEvent xTimeToWait status q₁ q')
      (hret : flowWriteSent pf h₁ w pxNb status = .ok (ret, h')) :
      WriteEnds pf c q h w ⟨ret, h', some (xTxEvent, q₁, q')⟩

/-- The event was sent and put on the list. -/
def WriteEnd.Queued (e : WriteEnd) (xTxEvent : RINAStackEvent) : Prop :=
  ∃ q q', e.sent = some (xTxEvent, q, q') ∧ Ipcp.Queued xTxEvent q q'

/-- The call reports whether its event is on the list. If so, the event carries a netbuf
which is not freed and which the task hands to the write of data units; if not, the call
has left no netbuf behind. -/
structure WriteHonest (h : Heap) (w : WriteArgs) (e : WriteEnd) : Prop where
  reports : e.ret = w.uxTotalDataLength ↔ ∃ xTxEvent, e.Queued xTxEvent
  handed : ∀ xTxEvent, e.Queued xTxEvent → ∃ pxNb nb, xTxEvent.xData2 = .PV (some pxNb) ∧
    e.heap.netbufs pxNb = some nb ∧ nb.xFreed = false ∧
    (prvIPCPTask xTxEvent).count (.xNormalDuWrite w.unPort (some pxNb)) = 1
  released : (¬ ∃ xTxEvent, e.Queued xTxEvent) →
    (e.ret = 0 ∨ e.ret = writeError) ∧ e.heap.netbufs = h.netbufs

def HonestlyWrites (pf : Platform) (c : Sender) (q : RsQueue RINAStackEvent) (h : Heap)
    (w : WriteArgs) : Prop :=
  (∃ e, WriteEnds pf c q h w e) ∧ ∀ e, WriteEnds pf c q h w e → WriteHonest h w e

/-- The length passes the checks of the call, those of `pxNetBufNew` included. -/
def Accepted (pf : Platform) (w : WriteArgs) : Prop :=
  w.uxTotalDataLength ≤ CFG_MAX_SDU_SIZE ∧ (pf.ndebug = true ∨ w.uxTotalDataLength ≠ 0)

/-- The call makes no netbuf, and does not return a zero for no data. -/
def NothingMade (h : Heap) (w : WriteArgs) : Prop :=
  if w.xSetOk = true then h.mallocOk h.calls = false else w.uxTotalDataLength ≠ 0

variable {pf : Platform} {c : Sender} {q : RsQueue RINAStackEvent} {h : Heap} {w : WriteArgs}
  {e : WriteEnd}

/-- The netbuf for the data. -/
def dataNetbuf (h : Heap) (w : WriteArgs) : Netbuf where
  pxNext := none
  pxFirst := h.brk
  eType := .NB_RINA_DATA
  unSz := w.uxTotalDataLength
  pxBuf := w.pvBuffer
  pxBufStart := w.pvBuffer
  xFreed := false
  freemethod := some .vNetBufFreeButDont
  xPool := some w.xPool

theorem pxNetBufNew_data (hacc : Accepted pf w) :
    pxNetBufNew pf h (some w.xPool) .NB_RINA_DATA w.pvBuffer w.uxTotalDataLength
      (some .vNetBufFreeButDont) = .ok (pvRsMemAllocNetbuf h (dataNetbuf h w)) := by
  have hsize : rsAssert pf (w.uxTotalDataLength != 0) = .ok () := by
    rcases hacc.2 with hn | hn <;> simp [rsAssert, hn]
  simp only [pxNetBufNew, hsize, Option.isSome_some, rsAssert_true, Exec.ok_bind]
  rfl

theorem RINA_flow_write_noTimeOut (hacc : Accepted pf w) (hset : w.xSetOk = false) :
    RINA_flow_write pf h w = .ok (.returned 0, h) := by
  simp [RINA_flow_write, hacc.1, hset, pure, Except.pure]

theorem RINA_flow_write_noMemory (hacc : Accepted pf w) (hset : w.xSetOk = true)
    (hm : h.mallocOk h.calls = false) :
    RINA_flow_write pf h w = .ok (.returned writeError, h.called) := by
  simp [RINA_flow_write, hacc.1, hset, pxNetBufNew_data hacc, pvRsMemAllocNetbuf, hm, pure,
    Except.pure]

theorem RINA_flow_write_made (hacc : Accepted pf w) (hset : w.xSetOk = true)
    (hm : h.mallocOk h.calls = true) :
    RINA_flow_write pf h w = .ok (match w.xTimeToWait with
      | none => (.returned 0, h.withNetbuf (dataNetbuf h w))
      | some xTimeToWait => (.sends ⟨.eRinaTxEvent, .UN w.unPort, .PV (some h.brk)⟩ xTimeToWait
        h.brk, h.withNetbuf (dataNetbuf h w))) := by
  have hnew : pvRsMemAllocNetbuf h (dataNetbuf h w) =
      (some h.brk, h.withNetbuf (dataNetbuf h w)) := if_pos hm
  simp only [RINA_flow_write, hacc.1, decide_true, rsAssert_true, Exec.ok_bind, hset,
    pxNetBufNew_data hacc, hnew, if_neg (by decide : ¬ true = false)]
  cases w.xTimeToWait <;> rfl

theorem flowWriteSent_ret {ret : ℕ} {h₁ h' : Heap} {pxNb : NbPtr} {status : RsErr}
    (hret : flowWriteSent pf h₁ w pxNb status = .ok (ret, h')) :
    status ≠ .SUCCESS ∧ ret = w.uxTotalDataLength ∨ status = .SUCCESS ∧ ret = writeError := by
  rw [flowWriteSent] at hret
  split at hret
  · rename_i hstatus
    cases hret
    exact .inl ⟨hstatus, rfl⟩
  · rename_i hstatus
    rcases Exec.bind_eq_ok.mp hret with ⟨h₂, -, hpure⟩
    cases hpure
    exact .inr ⟨not_not.mp hstatus, rfl⟩

theorem WriteEnd.not_queued_of_none (hnone : e.sent = none) :
    ¬ ∃ xTxEvent, e.Queued xTxEvent := by
  rintro ⟨ev, q, q', hsent, -⟩
  cases hnone.symm.trans hsent

/-- Whatever becomes of a netbuf which was made, the call does not report it. -/
theorem not_honest_made (hacc : Accepted pf w) (hf : h.Fresh) (hset : w.xSetOk = true)
    (hm : h.mallocOk h.calls = true) (he : WriteEnds pf c q h w e) : ¬ WriteHonest h w e := by
  have hlen : w.uxTotalDataLength ≠ writeError := by
    have hmax := hacc.1
    rw [CFG_MAX_SDU_SIZE] at hmax
    rw [writeError]
    omega
  intro hw
  have hmade := RINA_flow_write_made hacc hset hm
  cases he with
  | returned hcall =>
    rw [hmade] at hcall
    cases ht : w.xTimeToWait with
    | none =>
      -- the check of the time-out failed, and the netbuf is still there
      rw [ht] at hcall
      cases hcall
      have hleft := congrFun (hw.released (WriteEnd.not_queued_of_none rfl)).2 h.brk
      rw [Heap.withNetbuf_self, (hf h.brk (Nat.le_refl _)).1] at hleft
      cases hleft
    | some t =>
      rw [ht] at hcall
      cases hcall
  | @sent ev t ret pxNb h₁ h' status q₁ q' hcall hsend hret =>
    have hqueued : (∃ xTxEvent, WriteEnd.Queued ⟨ret, h', some (ev, q₁, q')⟩ xTxEvent) ↔
        status = .SUCCESS := by
      rw [← hsend.reports.queued_iff]
      constructor
      · rintro ⟨ev', q₂, q₃, hsent, hq⟩
        cases hsent
        exact hq
      · exact fun hq => ⟨ev, q₁, q', rfl, hq⟩
    have hreports := hw.reports.trans hqueued
    rcases flowWriteSent_ret hret with ⟨hstatus, rfl⟩ | ⟨hstatus, rfl⟩
    · exact hstatus (hreports.mp rfl)
    · exact hlen (hreports.mpr hstatus).symm

theorem honest_nothing {ret : ℕ} {h' : Heap} (hne : ret ≠ w.uxTotalDataLength)
    (hret : ret = 0 ∨ ret = writeError) (hkept : h'.netbufs = h.netbufs) :
    WriteHonest h w ⟨ret, h', none⟩ where
  reports := iff_of_false hne (WriteEnd.not_queued_of_none rfl)
  handed ev hq := absurd ⟨ev, hq⟩ (WriteEnd.not_queued_of_none rfl)
  released _ := ⟨hret, hkept⟩

/-- A call which returns by itself ends only so. -/
theorem ends_of_returned {ret : ℕ} {h' : Heap}
    (hcall : RINA_flow_write pf h w = .ok (.returned ret, h')) (he : WriteEnds pf c q h w e) :
    e = ⟨ret, h', none⟩ := by
  cases he with
  | returned hcall' =>
    cases hcall.symm.trans hcall'
    rfl
  | sent hcall' _ _ => cases hcall.symm.trans hcall'

/-- The call is honest about its event and its netbuf exactly when there is none. -/
theorem write_honest_iff (hacc : Accepted pf w) (hf : h.Fresh) :
    HonestlyWrites pf c q h w ↔ NothingMade h w := by
  have hlen : writeError ≠ w.uxTotalDataLength := by
    have hmax := hacc.1
    rw [CFG_MAX_SDU_SIZE] at hmax
    rw [writeError]
    omega
  rw [NothingMade]
  cases hset : w.xSetOk with
  | false =>
    have hcall := RINA_flow_write_noTimeOut (h := h) hacc hset
    rw [if_neg Bool.false_ne_true]
    constructor
    · rintro ⟨-, hall⟩ h0
      have hw := hall _ (.returned hcall)
      exact WriteEnd.not_queued_of_none rfl (hw.reports.mp h0.symm)
    · intro h0
      refine ⟨⟨_, .returned hcall⟩, fun e he => ?_⟩
      rw [ends_of_returned hcall he]
      exact honest_nothing h0.symm (.inl rfl) rfl
  | true =>
    rw [if_pos rfl]
    cases hm : h.mallocOk h.calls with
    | true =>
      refine iff_of_false ?_ (by simp)
      rintro ⟨⟨e, he⟩, hall⟩
      exact not_honest_made hacc hf hset hm he (hall e he)
    | false =>
      have hcall := RINA_flow_write_noMemory hacc hset hm
      refine iff_of_true ⟨⟨_, .returned hcall⟩, fun e he => ?_⟩ rfl
      rw [ends_of_returned hcall he]
      exact honest_nothing hlen (.inr rfl) rfl

/-- Four bytes for a port, with the time-out left as it was set. -/
def exampleWrite : WriteArgs := ⟨0, 1, some ⟨0, 0⟩, 4, true, some 250000⟩

/-- A heap without netbufs, whose requests are granted or not. -/
def writeHeap (granted : Bool) : Heap where
  mem _ := none
  netbufs _ := none
  rsrcs _ := none
  pools _ := none
  brk := 0
  calls := 0
  mallocOk _ := granted
  junk _ _ := 0

def emptyQueue : RsQueue RINAStackEvent := ⟨[], ⟨255, 0⟩, 0, 255, xIpcpQueueParams⟩

/-- The event is put on the queue, its netbuf is freed, and the call returns an error. -/
theorem queued_event_reported_failed :
    (∃ e xTxEvent, WriteEnds ⟨false, false⟩ ⟨true, false⟩ emptyQueue (writeHeap true)
      exampleWrite e ∧ e.Queued xTxEvent ∧ xTxEvent.xData2 = .PV (some 0) ∧
      e.heap.netbufs 0 = none ∧ e.ret = writeError) ∧
    ¬ HonestlyWrites ⟨false, false⟩ ⟨true, false⟩ emptyQueue (writeHeap true) exampleWrite := by
  constructor
  · exact ⟨_, _, .sent rfl (.returned rfl) rfl, ⟨_, _, rfl, rfl⟩, rfl, rfl, rfl⟩
  · rintro ⟨⟨e, he⟩, hall⟩
    exact not_honest_made ⟨by decide, by decide⟩ (fun _ _ => ⟨rfl, rfl⟩) rfl rfl he (hall e he)

theorem write_honest_noMemory :
    HonestlyWrites ⟨false, false⟩ ⟨true, false⟩ emptyQueue (writeHeap false) exampleWrite :=
  (write_honest_iff ⟨by decide, by decide⟩ fun _ _ => ⟨rfl, rfl⟩).mpr rfl

end RinaSense.Flow
