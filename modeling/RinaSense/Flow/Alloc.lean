import RinaSense.Common.NameBuild
import RinaSense.Flow.Read
import RinaSense.Ipcp.Task

/-!
# Allocating a flow

`RINA_flow_alloc`, which builds a request with three names and a reserved port, has the
task of the IPC process bind it, gives it to the flow allocator and, if that fails, waits
for the flow to be allocated. The task and the rest of the process act between its steps.
-/

namespace RinaSense.Flow

open Common Ipcp Library.Memory Library.Runs Queue

def CFG_FLOW_DEFAULT_RECEIVE_BLOCK_TIME : UInt32 := 100

def CFG_FLOW_DEFAULT_SEND_BLOCK_TIME : UInt32 := 100

/-- `struct rinaFlowSpec_t`, what the caller asks of the flow. -/
structure RinaFlowSpec where
  max_sdu_gap : UInt64
  avg_bandwidth : UInt64
  max_delay : UInt32
  max_loss : UInt16
  max_jitter : UInt32
  in_order_delivery : UInt8
  msg_boundaries : UInt8
deriving DecidableEq, Repr

structure FlowSpec where
  ulAverageBandwidth : UInt32
  ulAverageSduBandwidth : UInt32
  ulDelay : UInt32
  ulJitter : UInt32
  usLoss : UInt16
  ulMaxAllowableGap : UInt32
  xOrderedDelivery : Bool
  ulUndetectedBitErrorRate : UInt32
  xPartialDelivery : Bool
  xMsgBoundaries : Bool
deriving DecidableEq, Repr

/-- The part of `flowAllocateHandle_t` which the request is made of. -/
structure FlowRequest where
  xDifName : OwnedName
  xLocal : OwnedName
  xRemote : OwnedName
  xReceiveBlockTime : UInt32
  xSendBlockTime : UInt32
  xPortId : PortId
  xFspec : FlowSpec
deriving DecidableEq, Repr

/-- The arguments of a call, whether the condition variable and the mutex can be set up,
and the port which the IPC manager reserves. -/
structure AllocArgs where
  pcNameDIF : Option Ptr
  pcLocalApp : Option Ptr
  pcRemoteApp : Option Ptr
  xFlowSpec : Option RinaFlowSpec
  condOk : Bool
  mutexOk : Bool
  xPortId : PortId
deriving DecidableEq, Repr

def AllocArgs.names (a : AllocArgs) : List (Option Ptr) :=
  [a.pcNameDIF, a.pcLocalApp, a.pcRemoteApp]

def flowSpecOf : Option RinaFlowSpec → FlowSpec
  | none =>
    { ulAverageBandwidth := 0
      ulAverageSduBandwidth := 0
      ulDelay := 0
      ulJitter := 0
      usLoss := 10000
      ulMaxAllowableGap := 10
      xOrderedDelivery := false
      ulUndetectedBitErrorRate := 0
      xPartialDelivery := true
      xMsgBoundaries := false }
  | some spec =>
    { ulAverageBandwidth := spec.avg_bandwidth.toUInt32
      ulAverageSduBandwidth := 0
      ulDelay := spec.max_delay
      ulJitter := spec.max_jitter
      usLoss := spec.max_loss
      ulMaxAllowableGap := spec.max_sdu_gap.toUInt32
      xOrderedDelivery := spec.in_order_delivery ≠ 0
      ulUndetectedBitErrorRate := 0
      xPartialDelivery := true
      xMsgBoundaries := spec.msg_boundaries ≠ 0 }

/-- The structure of the request lies outside the blocks of the heap. -/
def prvRINACreateFlowRequest (h : Heap) (a : AllocArgs) : Exec (Option FlowRequest × Heap) :=
  if h.mallocOk h.calls = false then .ok (none, h.called)
  else if a.condOk = false then .ok (none, h.called)
  else if a.mutexOk = false then .ok (none, h.called)
  else do
    let (good, xDifName, h) ← xNameAssignFromString h.called .zero a.pcNameDIF
    if good = false then return (none, h)
    else do
      let (good, xLocal, h) ← xNameAssignFromString h .zero a.pcLocalApp
      if good = false then return (none, h)
      else do
        let (good, xRemote, h) ← xNameAssignFromString h .zero a.pcRemoteApp
        if good = false then return (none, h)
        else
          return (some {
            xDifName := xDifName
            xLocal := xLocal
            xRemote := xRemote
            xReceiveBlockTime := CFG_FLOW_DEFAULT_RECEIVE_BLOCK_TIME
            xSendBlockTime := CFG_FLOW_DEFAULT_SEND_BLOCK_TIME
            xPortId := a.xPortId
            xFspec := flowSpecOf a.xFlowSpec }, h)

/-- Where a call is. In the loop it may not have set up its time-out yet. -/
inductive AllocPhase
  | start
  | binding (r : FlowRequest)
  | requested (r : FlowRequest)
  | looping (r : FlowRequest) (xRemainingTime : Option UInt32)
  | waiting (r : FlowRequest) (xRemainingTime : UInt32)
  | returned (xPortId : PortId)
deriving DecidableEq, Repr

/-- Whether the bind event was sent, whose processing the call then waits for. -/
def xRINA_bind (pxFlowRequest : Option FlowRequest) (status : RsErr) : Bool :=
  pxFlowRequest.isSome && status == .SUCCESS

/-- `RINA_flow_alloc` up to its first wait. The result of the checks which `prvConnect`
starts with is overwritten by that of the bind; without a bind the loop is entered, which
starts with the block time of the request. -/
def RINA_flow_alloc (h : Heap) (a : AllocArgs) (status : RsErr) : Exec (AllocPhase × Heap) := do
  let (pxFlowAllocateRequest, h) ← prvRINACreateFlowRequest h a
  let r ← deref pxFlowAllocateRequest
  if xRINA_bind pxFlowAllocateRequest status then return (.binding r, h)
  else return (.looping r none, h)

/-- A turn of the loop up to its wait. Whether the time-out could be set up only changes a
result which the look at the flow overwrites, and whichever way the loop ends the port of
the request is returned. -/
def flowAllocTurn (flows : List NormalFlow) (r : FlowRequest) (left : Option UInt32)
    (xCheckOk : Bool) : AllocPhase :=
  let xRemainingTime := left.getD r.xReceiveBlockTime
  if left = none ∧ xRemainingTime = 0 then .returned r.xPortId
  else if RINA_flowStatus flows r.xPortId then .returned r.xPortId
  else if xCheckOk then .returned r.xPortId
  else if xRemainingTime = 0 then .returned r.xPortId
  else .waiting r xRemainingTime

/-- A call with what it shares with the task and the flow allocator. -/
structure AllocRun where
  args : AllocArgs
  heap : Heap
  phase : AllocPhase
  xFlowsList : List NormalFlow
  nEventBits : UInt64
  /-- The bind event is on the queue of the task. -/
  bindSent : Bool
  /-- The task has bound the port during the call. -/
  bound : Bool
  /-- The flow of the port was allocated during the call. -/
  allocated : Bool
  trap : Option Trap

def AllocRun.init (h : Heap) (flows : List NormalFlow) (a : AllocArgs) : AllocRun :=
  ⟨a, h, .start, flows, 0, false, false, false, none⟩

/-- The first flow of the port gets a new state. -/
def xNormalUpdateFlowStatus (xPortId : PortId) (eNewFlowstate : PortState) :
    List NormalFlow → List NormalFlow
  | [] => []
  | flow :: flows =>
    if flow.xPortId = xPortId then { flow with eState := eNewFlowstate } :: flows
    else flow :: xNormalUpdateFlowStatus xPortId eNewFlowstate flows

/-- What a call of the task does to the request; `memory` tells whether there is memory for
the flow. -/
def AllocRun.taskCall (memory : Bool) (s : AllocRun) : TaskCall → AllocRun
  | .flowPrebind _ =>
    if memory then
      { s with
        xFlowsList := RsList.insertAfterFirst ⟨s.args.xPortId, .ePORT_STATE_PENDING⟩ s.xFlowsList
        bound := true }
    else s
  | .vRINA_WakeUpFlowRequest _ nNewBits => { s with nEventBits := s.nEventBits ||| nNewBits }
  | _ => s

/-- What can happen next. The send of an event and the check of the time-out are given
their results. -/
inductive AllocOp
  | call (status : RsErr)
  | bound
  | timer (status : RsErr)
  | turn (xCheckOk : Bool)
  | wake
  | task (memory : Bool)
  | updateFlow (xPortId : PortId) (eNewFlowstate : PortState)
deriving DecidableEq, Repr

/-- A step of the call, unless it waits or is elsewhere. -/
def AllocRun.callStep (s : AllocRun) : AllocOp → AllocPhase → Option AllocRun
  | .call status, .start =>
    match RINA_flow_alloc s.heap s.args status with
    | .error t => some { s with trap := some t }
    | .ok (phase, h) =>
      some { s with phase := phase, heap := h, bindSent := status == .SUCCESS }
  | .bound, .binding r =>
    (prvWaitForBit s.nEventBits eFLOW_BOUND true).map fun nEventBits =>
      { s with phase := .requested r, nEventBits := nEventBits }
  | .timer status, .requested r =>
    some { s with phase := if status = .SUCCESS then .returned r.xPortId else .looping r none }
  | .turn xCheckOk, .looping r left =>
    some { s with phase := flowAllocTurn s.xFlowsList r left xCheckOk }
  | .wake, .waiting r left =>
    (prvWaitForBit s.nEventBits eFLOW_BOUND true).map fun nEventBits =>
      { s with phase := .looping r (some left), nEventBits := nEventBits }
  | _, _ => none

def AllocRun.step (s : AllocRun) (op : AllocOp) : Option AllocRun :=
  if s.trap.isSome then none
  else
    match op with
    | .task memory =>
      if s.bindSent then
        some ((prvIPCPTask ⟨.eFlowBindEvent, .PV none, .PV none⟩).foldl (AllocRun.taskCall memory)
          { s with bindSent := false })
      else none
    | .updateFlow xPortId eNewFlowstate =>
      if s.phase = .start then none
      else
        some { s with
          xFlowsList := xNormalUpdateFlowStatus xPortId eNewFlowstate s.xFlowsList
          allocated := s.allocated || (xPortId == s.args.xPortId &&
            eNewFlowstate == .ePORT_STATE_ALLOCATED &&
              (prvNormalFindFlow s.xFlowsList xPortId).isSome) }
    | op => s.callStep op s.phase

/-- The call has not trapped, and it has not returned a valid port unless the port was bound
and allocated during the call. -/
def AllocRun.Honest (s : AllocRun) : Prop :=
  s.trap = none ∧ ∀ port, s.phase = .returned port → port ≠ PORT_ID_WRONG →
    s.bound = true ∧ s.allocated = true

/-- A string with at least two delimiters. -/
def NameGood (h : Heap) (p : Option Ptr) : Prop :=
  ∃ s, h.string p = .ok s ∧ 2 ≤ s.bytes.count CFG_DELIMITER

/-- The names are good, and no resource of the request is refused. -/
structure Buildable (h : Heap) (a : AllocArgs) : Prop where
  memory : ∀ i < 4, h.mallocOk (h.calls + i) = true
  condOk : a.condOk = true
  mutexOk : a.mutexOk = true
  names : ∀ p ∈ a.names, NameGood h p

/-- A name is a string or is missing. -/
def NameGiven (h : Heap) (p : Option Ptr) : Prop := p = none ∨ ∃ s, h.string p = .ok s

/-- The port is bound and allocated, or no port was left for the request. -/
def AllocRun.Served (s : AllocRun) : Prop :=
  s.args.xPortId = PORT_ID_WRONG ∨ s.bound = true ∧ s.allocated = true

/-- The request can be built, and a step which ends the call finds the port served. -/
def AllocRun.Fits (s : AllocRun) : AllocOp → Prop
  | .call _ => Buildable s.heap s.args
  | .timer status => status = .SUCCESS → s.Served
  | .turn xCheckOk =>
    RINA_flowStatus s.xFlowsList s.args.xPortId = true ∨ xCheckOk = true → s.Served
  | _ => True

variable {h h' : Heap} {a : AllocArgs} {p : Option Ptr} {s s' : AllocRun}

/-! ### Building the request -/

theorem NameGiven.later (hg : NameGiven h p) (hl : Later h h') : NameGiven h' p := by
  rcases hg with rfl | ⟨s, hs⟩
  · exact .inl rfl
  · exact .inr ⟨s, hl.string p s hs⟩

theorem NameGiven.good_iff (hg : NameGiven h p) (hl : Later h h') :
    NameGood h' p ↔ NameGood h p := by
  rcases hg with rfl | ⟨s, hs⟩
  · exact iff_of_false (fun ⟨_, hs, _⟩ => by cases hs) fun ⟨_, hs, _⟩ => by cases hs
  · have hs' := hl.string p s hs
    constructor
    · rintro ⟨t, ht, hcount⟩
      cases hs'.symm.trans ht
      exact ⟨s, hs, hcount⟩
    · rintro ⟨t, ht, hcount⟩
      cases hs.symm.trans ht
      exact ⟨s, hs', hcount⟩

/-- No request comes out. -/
def NoRequest (x : Exec (Option FlowRequest × Heap)) : Prop :=
  (∃ t, x = .error t) ∨ ∃ h', x = .ok (none, h')

/-- The names are good and there is memory for a copy of each. -/
def Assignable (h : Heap) (ps : List (Option Ptr)) : Prop :=
  (∀ i < ps.length, h.mallocOk (h.calls + i) = true) ∧ ∀ p ∈ ps, NameGood h p

theorem memory_later_iff (hl : Later h h') (n : ℕ) :
    (∀ i < n + 1, h.mallocOk (h.calls + i) = true) ↔
      h.mallocOk h.calls = true ∧ ∀ i < n, h'.mallocOk (h'.calls + i) = true := by
  rw [hl.mallocOk, hl.calls]
  constructor
  · refine fun hall => ⟨hall 0 (Nat.succ_pos _), fun i hi => ?_⟩
    rw [Nat.add_right_comm]
    exact hall (i + 1) (Nat.succ_lt_succ hi)
  · rintro ⟨hfirst, hall⟩ i hi
    cases i with
    | zero => exact hfirst
    | succ i =>
      have hnext := hall i (Nat.lt_of_succ_lt_succ hi)
      rwa [Nat.add_right_comm] at hnext

theorem names_later_iff {ps : List (Option Ptr)} (hl : Later h h')
    (hg : ∀ q ∈ ps, NameGiven h q) : (∀ q ∈ ps, NameGood h' q) ↔ ∀ q ∈ ps, NameGood h q :=
  forall₂_congr fun q hq => (hg q hq).good_iff hl

theorem assignable_cons_iff {ps : List (Option Ptr)} (hl : Later h h')
    (hg : ∀ q ∈ ps, NameGiven h q) :
    Assignable h (p :: ps) ↔ (h.mallocOk h.calls = true ∧ NameGood h p) ∧ Assignable h' ps := by
  rw [Assignable, Assignable, names_later_iff hl hg, List.length_cons, memory_later_iff hl,
    List.forall_mem_cons]
  exact and_and_and_comm

/-- The structure of the request is allocated first. -/
theorem buildable_iff (hl : Later h h') (hg : ∀ p ∈ a.names, NameGiven h p) :
    Buildable h a ↔ h.mallocOk h.calls = true ∧ a.condOk = true ∧ a.mutexOk = true ∧
      Assignable h' a.names := by
  have hmemory := memory_later_iff hl a.names.length
  have hnames := names_later_iff hl hg
  constructor
  · intro hb
    have hall := hmemory.mp hb.memory
    exact ⟨hall.1, hb.condOk, hb.mutexOk, hall.2, hnames.mpr hb.names⟩
  · rintro ⟨hm, hc, hx, hall⟩
    exact ⟨hmemory.mpr ⟨hm, hall.1⟩, hc, hx, hnames.mp hall.2⟩

/-- What a built request is returned with. -/
def FlowRequest.Of (a : AllocArgs) (r : FlowRequest) : Prop :=
  r.xPortId = a.xPortId ∧ r.xReceiveBlockTime = CFG_FLOW_DEFAULT_RECEIVE_BLOCK_TIME

/-- The request comes out exactly when the names which are left can be assigned. -/
def Settles (a : AllocArgs) (h : Heap) (ps : List (Option Ptr))
    (x : Exec (Option FlowRequest × Heap)) : Prop :=
  (Assignable h ps ∧ ∃ r h', x = .ok (some r, h') ∧ r.Of a) ∨ (¬ Assignable h ps ∧ NoRequest x)

theorem settles_nil (h : Heap) {r : FlowRequest} (hr : r.Of a) :
    Settles a h [] (.ok (some r, h)) :=
  .inl ⟨⟨fun _ hi => absurd hi (Nat.not_lt_zero _), by simp⟩, r, h, rfl, hr⟩

/-- A name is assigned before the rest of the request is built. -/
theorem settles_cons {ps : List (Option Ptr)}
    {f : OwnedName → Heap → Exec (Option FlowRequest × Heap)} (hf : h.Fresh)
    (hg : ∀ q ∈ p :: ps, NameGiven h q)
    (hrest : ∀ nm h', h'.Fresh → (∀ q ∈ ps, NameGiven h' q) → Settles a h' ps (f nm h')) :
    Settles a h (p :: ps) (do
      let (good, nm, h) ← xNameAssignFromString h .zero p
      if good = false then return (none, h) else f nm h) := by
  rw [List.forall_mem_cons] at hg
  rcases hg with ⟨rfl | ⟨s, hs⟩, hg⟩
  · -- the scan of a missing string traps
    refine .inr ⟨fun hall => ?_, .inl ⟨.nullPointer, rfl⟩⟩
    rcases hall.2 none List.mem_cons_self with ⟨s, hs, -⟩
    cases hs
  · rcases xNameAssignFromString_total .zero hf hs with ⟨good, nm, h', hrun, hl, hgood⟩
    have hgood' : good = true ↔ h.mallocOk h.calls = true ∧ NameGood h p := by
      rw [hgood]
      refine and_congr_right fun _ => ⟨fun hcount => ⟨s, hs, hcount⟩, ?_⟩
      rintro ⟨t, ht, hcount⟩
      cases hs.symm.trans ht
      exact hcount
    rw [Settles, assignable_cons_iff hl hg, ← hgood', hrun, Exec.ok_bind]
    cases good with
    | false => exact .inr ⟨fun hall => Bool.false_ne_true hall.1, .inr ⟨h', rfl⟩⟩
    | true =>
      have hthen := hrest nm h' hl.fresh fun q hq => (hg q hq).later hl
      simpa [Settles] using hthen

theorem prvRINACreateFlowRequest_cases (hf : h.Fresh) (hg : ∀ p ∈ a.names, NameGiven h p) :
    (Buildable h a ∧ ∃ r h', prvRINACreateFlowRequest h a = .ok (some r, h') ∧ r.Of a) ∨
    (¬ Buildable h a ∧ NoRequest (prvRINACreateFlowRequest h a)) := by
  have hl : Later h h.called := hf.later_called
  have hsettled : Settles a h.called a.names _ :=
    settles_cons hl.fresh (fun q hq => (hg q hq).later hl) fun xDifName h₁ hf₁ hg₁ =>
      settles_cons hf₁ hg₁ fun xLocal h₂ hf₂ hg₂ =>
        settles_cons hf₂ hg₂ fun xRemote h₃ _ _ => settles_nil h₃ (r := {
          xDifName := xDifName
          xLocal := xLocal
          xRemote := xRemote
          xReceiveBlockTime := CFG_FLOW_DEFAULT_RECEIVE_BLOCK_TIME
          xSendBlockTime := CFG_FLOW_DEFAULT_SEND_BLOCK_TIME
          xPortId := a.xPortId
          xFspec := flowSpecOf a.xFlowSpec }) ⟨rfl, rfl⟩
  rw [buildable_iff hl hg, prvRINACreateFlowRequest]
  split_ifs with hm hc hx
  · exact .inr ⟨fun hb => absurd hb.1 (by simp [hm]), .inr ⟨_, rfl⟩⟩
  · exact .inr ⟨fun hb => absurd hb.2.1 (by simp [hc]), .inr ⟨_, rfl⟩⟩
  · exact .inr ⟨fun hb => absurd hb.2.2.1 (by simp [hx]), .inr ⟨_, rfl⟩⟩
  · rw [Bool.not_eq_false] at hm hc hx
    rw [and_iff_right hm, and_iff_right hc, and_iff_right hx]
    exact hsettled

theorem RINA_flow_alloc_cases (status : RsErr) (hf : h.Fresh)
    (hg : ∀ p ∈ a.names, NameGiven h p) :
    (Buildable h a ∧ ∃ r h', r.Of a ∧ (RINA_flow_alloc h a status = .ok (.binding r, h') ∨
      RINA_flow_alloc h a status = .ok (.looping r none, h'))) ∨
    (¬ Buildable h a ∧ ∃ t, RINA_flow_alloc h a status = .error t) := by
  rcases prvRINACreateFlowRequest_cases hf hg with ⟨hb, r, h', hrun, hr⟩ | ⟨hb, hno⟩
  · refine .inl ⟨hb, r, h', hr, ?_⟩
    rw [RINA_flow_alloc, hrun]
    cases hsent : xRINA_bind (some r) status with
    | true => exact .inl (by simp [hsent, pure, Except.pure])
    | false => exact .inr (by simp [hsent, pure, Except.pure])
  · refine .inr ⟨hb, ?_⟩
    rcases hno with ⟨t, ht⟩ | ⟨h', hnone⟩
    · exact ⟨t, by simp [RINA_flow_alloc, ht]⟩
    · exact ⟨.nullPointer, by simp [RINA_flow_alloc, hnone]⟩

/-! ### Steps of the call -/

/-- What a phase tells about the call: its request has the reserved port, and the block
time never runs out, since a check of the time-out which succeeds ends the loop. -/
def AllocRun.Inv (s : AllocRun) : Prop :=
  match s.phase with
  | .start => s.heap.Fresh ∧ ∀ p ∈ s.args.names, NameGiven s.heap p
  | .binding r | .requested r => r.Of s.args
  | .looping r left => r.Of s.args ∧ left ≠ some 0
  | .waiting r left => r.Of s.args ∧ left ≠ 0
  | .returned port => port = s.args.xPortId

/-- A turn of the loop goes on exactly when the flow is not allocated and the check of the
time-out fails. -/
theorem flowAllocTurn_eq (flows : List NormalFlow) (xCheckOk : Bool) {r : FlowRequest}
    {left : Option UInt32} (hr : r.Of a) (hleft : left ≠ some 0) :
    (∃ t, t ≠ 0 ∧ ¬ (RINA_flowStatus flows a.xPortId = true ∨ xCheckOk = true) ∧
      flowAllocTurn flows r left xCheckOk = .waiting r t) ∨
    ((RINA_flowStatus flows a.xPortId = true ∨ xCheckOk = true) ∧
      flowAllocTurn flows r left xCheckOk = .returned a.xPortId) := by
  have htime : left.getD r.xReceiveBlockTime ≠ 0 := by
    cases left with
    | none =>
      rw [Option.getD_none, hr.2]
      decide
    | some t => exact fun h0 => hleft (congrArg some h0)
  rw [flowAllocTurn, if_neg fun h0 => htime h0.2, hr.1]
  by_cases hstatus : RINA_flowStatus flows a.xPortId = true
  · rw [if_pos hstatus]
    exact .inr ⟨.inl hstatus, rfl⟩
  · rw [if_neg hstatus]
    cases xCheckOk with
    | true => exact .inr ⟨.inr rfl, rfl⟩
    | false =>
      rw [if_neg Bool.false_ne_true, if_neg htime]
      exact .inl ⟨_, htime, by simp [hstatus], rfl⟩

/-- A call which has returned is honest exactly when its port is served. -/
theorem honest_returned (htrap : s.trap = none) (hphase : s.phase = .returned s.args.xPortId) :
    s.Honest ↔ s.Served := by
  rw [AllocRun.Honest, AllocRun.Served]
  constructor
  · rintro ⟨-, hret⟩
    exact or_iff_not_imp_left.mpr (hret _ hphase)
  · intro hserved
    refine ⟨htrap, fun port hport hne => ?_⟩
    cases hphase.symm.trans hport
    exact hserved.resolve_left hne

theorem honest_running (htrap : s.trap = none) (hphase : ∀ port, s.phase ≠ .returned port) :
    s.Honest := ⟨htrap, fun port hport => absurd hport (hphase port)⟩

/-- The call itself, up to its wait for the flow. -/
theorem call_inv {status : RsErr} (hi : s.Inv) (htrap : s.trap = none) (hphase : s.phase = .start)
    (hstep : s.callStep (.call status) .start = some s') :
    s'.Inv ∧ (s'.Honest ↔ s.Fits (.call status)) := by
  have hinv := hi
  rw [AllocRun.Inv, hphase] at hi
  rcases RINA_flow_alloc_cases status hi.1 hi.2 with
    ⟨hb, r, h', hr, hrun | hrun⟩ | ⟨hb, t, hrun⟩
  · simp only [AllocRun.callStep, hrun, Option.some.injEq] at hstep
    subst hstep
    exact ⟨hr, iff_of_true (honest_running htrap (by simp)) hb⟩
  · simp only [AllocRun.callStep, hrun, Option.some.injEq] at hstep
    subst hstep
    exact ⟨⟨hr, by simp⟩, iff_of_true (honest_running htrap (by simp)) hb⟩
  · simp only [AllocRun.callStep, hrun, Option.some.injEq] at hstep
    subst hstep
    refine ⟨hinv, iff_of_false (fun hh => ?_) hb⟩
    cases hh.1

/-- The status of the timer event. -/
theorem timer_inv {r : FlowRequest} {status : RsErr} (hr : r.Of s.args) (htrap : s.trap = none)
    (hstep : s.callStep (.timer status) (.requested r) = some s') :
    s'.Inv ∧ (s'.Honest ↔ s.Fits (.timer status)) := by
  cases hstep
  by_cases hstatus : status = .SUCCESS
  · rw [AllocRun.Inv, if_pos hstatus]
    refine ⟨hr.1, ?_⟩
    rw [honest_returned (s := { s with phase := .returned r.xPortId }) htrap
      (congrArg AllocPhase.returned hr.1)]
    exact ⟨fun hs _ => hs, fun hs => hs hstatus⟩
  · rw [AllocRun.Inv, if_neg hstatus]
    refine ⟨⟨hr, by simp⟩, ?_⟩
    exact iff_of_true (honest_running htrap (by simp)) fun hs => absurd hs hstatus

/-- A turn of the loop. -/
theorem turn_inv {r : FlowRequest} {left : Option UInt32} {xCheckOk : Bool} (hr : r.Of s.args)
    (hleft : left ≠ some 0) (htrap : s.trap = none)
    (hstep : s.callStep (.turn xCheckOk) (.looping r left) = some s') :
    s'.Inv ∧ (s'.Honest ↔ s.Fits (.turn xCheckOk)) := by
  cases hstep
  rcases flowAllocTurn_eq s.xFlowsList xCheckOk hr hleft with
    ⟨t, ht, hno, hturn⟩ | ⟨hends, hturn⟩
  · rw [AllocRun.Inv, hturn]
    exact ⟨⟨hr, ht⟩, iff_of_true (honest_running htrap (by simp)) fun hs => absurd hs hno⟩
  · rw [AllocRun.Inv, hturn]
    refine ⟨rfl, ?_⟩
    rw [honest_returned (s := { s with phase := .returned s.args.xPortId }) htrap rfl]
    exact ⟨fun hs _ => hs, fun hs => hs hends⟩

/-- What a step of the call itself does to an honest state. -/
theorem callStep_inv {op : AllocOp} (hi : s.Inv) (htrap : s.trap = none)
    (hstep : s.callStep op s.phase = some s') :
    s'.Inv ∧ (s'.Honest ↔ s.Fits op) := by
  have hinv := hi
  rw [AllocRun.Inv] at hi
  cases hphase : s.phase with
  | start =>
    rw [hphase] at hstep
    cases op with
    | call status => exact call_inv hinv htrap hphase hstep
    | _ => cases hstep
  | binding r =>
    rw [hphase] at hi hstep
    cases op with
    | bound =>
      rcases Option.map_eq_some_iff.mp hstep with ⟨bits, -, rfl⟩
      exact ⟨hi, iff_of_true (honest_running htrap (by simp)) trivial⟩
    | _ => cases hstep
  | requested r =>
    rw [hphase] at hi hstep
    cases op with
    | timer status => exact timer_inv hi htrap hstep
    | _ => cases hstep
  | looping r left =>
    rw [hphase] at hi hstep
    cases op with
    | turn xCheckOk => exact turn_inv hi.1 hi.2 htrap hstep
    | _ => cases hstep
  | waiting r left =>
    rw [hphase] at hi hstep
    cases op with
    | wake =>
      rcases Option.map_eq_some_iff.mp hstep with ⟨bits, -, rfl⟩
      refine ⟨⟨hi.1, fun h0 => hi.2 (Option.some.inj h0)⟩, ?_⟩
      exact iff_of_true (honest_running htrap (by simp)) trivial
    | _ => cases hstep
  | returned port =>
    rw [hphase] at hstep
    cases op <;> cases hstep

/-! ### Steps around the call -/

/-- The state as the call sees it: only the flags and the shared data differ, and a flag
which is set stays set. -/
structure Around (s s' : AllocRun) : Prop where
  args : s'.args = s.args
  heap : s'.heap = s.heap
  phase : s'.phase = s.phase
  trap : s'.trap = s.trap
  bound : s.bound = true → s'.bound = true
  allocated : s.allocated = true → s'.allocated = true

theorem Around.trans {s'' : AllocRun} (h₁ : Around s s') (h₂ : Around s' s'') : Around s s'' :=
  ⟨h₂.args.trans h₁.args, h₂.heap.trans h₁.heap, h₂.phase.trans h₁.phase, h₂.trap.trans h₁.trap,
    h₂.bound ∘ h₁.bound, h₂.allocated ∘ h₁.allocated⟩

theorem taskCall_around (memory : Bool) (s : AllocRun) (c : TaskCall) :
    Around s (s.taskCall memory c) := by
  cases c with
  | flowPrebind _ =>
    cases memory with
    | true => exact ⟨rfl, rfl, rfl, rfl, fun _ => rfl, id⟩
    | false => exact ⟨rfl, rfl, rfl, rfl, id, id⟩
  | _ => exact ⟨rfl, rfl, rfl, rfl, id, id⟩

theorem foldl_taskCall_around (memory : Bool) (s : AllocRun) (calls : List TaskCall) :
    Around s (calls.foldl (AllocRun.taskCall memory) s) := by
  induction calls generalizing s with
  | nil => exact ⟨rfl, rfl, rfl, rfl, id, id⟩
  | cons c calls ih => exact (taskCall_around memory s c).trans (ih _)

theorem Around.inv (hs : Around s s') (hi : s.Inv) : s'.Inv := by
  rw [AllocRun.Inv, hs.phase, hs.args, hs.heap]
  exact hi

theorem Around.honest (hs : Around s s') (hh : s.Honest) : s'.Honest := by
  refine ⟨hs.trap.trans hh.1, fun port hport hne => ?_⟩
  have hflags := hh.2 port (hs.phase.symm.trans hport) hne
  exact ⟨hs.bound hflags.1, hs.allocated hflags.2⟩

theorem step_cases {op : AllocOp} (hstep : s.step op = some s') :
    s.trap = none ∧ (s.callStep op s.phase = some s' ∨
      Around s s' ∧ ((∃ memory, op = .task memory) ∨
        ∃ port eState, op = .updateFlow port eState)) := by
  unfold AllocRun.step at hstep
  split at hstep
  · cases hstep
  · rename_i htrap
    refine ⟨by simpa using htrap, ?_⟩
    cases op with
    | task memory =>
      simp only [] at hstep
      split at hstep
      · cases hstep
        refine .inr ⟨?_, .inl ⟨memory, rfl⟩⟩
        have hsent : Around s { s with bindSent := false } := ⟨rfl, rfl, rfl, rfl, id, id⟩
        exact hsent.trans (foldl_taskCall_around memory _ _)
      · cases hstep
    | updateFlow port eState =>
      simp only [] at hstep
      split at hstep
      · cases hstep
      · cases hstep
        refine .inr ⟨⟨rfl, rfl, rfl, rfl, id, fun ha => ?_⟩, .inr ⟨port, eState, rfl⟩⟩
        exact Bool.or_eq_true_iff.mpr (.inl ha)
    | _ => exact .inl hstep

theorem AllocRun.Inv.step {op : AllocOp} (hi : s.Inv) (hstep : s.step op = some s') : s'.Inv := by
  rcases step_cases hstep with ⟨htrap, hcall | ⟨hs, -⟩⟩
  · exact (callStep_inv hi htrap hcall).1
  · exact hs.inv hi

theorem AllocRun.Honest.step_iff {op : AllocOp} (hi : s.Inv) (hh : s.Honest)
    (hstep : s.step op = some s') : s'.Honest ↔ s.Fits op := by
  rcases step_cases hstep with ⟨htrap, hcall | ⟨hs, ⟨memory, rfl⟩ | ⟨port, eState, rfl⟩⟩⟩
  · exact (callStep_inv hi htrap hcall).2
  · exact iff_of_true (hs.honest hh) trivial
  · exact iff_of_true (hs.honest hh) trivial

/-- Throughout a call it is honest exactly when its request can be built and each step which
ends it finds the port bound and allocated, unless there is no port. -/
theorem alloc_honest_iff {flows : List NormalFlow} (hf : h.Fresh)
    (hg : ∀ p ∈ a.names, NameGiven h p) {ops : List AllocOp}
    (hrun : ops.foldlM AllocRun.step (.init h flows a) = some s) :
    Throughout AllocRun.step AllocRun.Honest (.init h flows a) ops ↔
      GuardedSteps AllocRun.step AllocRun.Fits (.init h flows a) ops :=
  throughout_iff (fun (s : AllocRun) _ _ (hi : s.Inv) hstep => hi.step hstep)
    (fun _ _ _ hi hh hstep => AllocRun.Honest.step_iff hi hh hstep)
    (show AllocRun.Inv _ from ⟨hf, hg⟩) (honest_running rfl (by simp [AllocRun.init])) hrun

/-! ### Example calls -/

/-- The string `d/1/`. -/
def exampleName : CString := ⟨[100, 47, 49, 47], by decide⟩

/-- A heap whose only block holds the example's string. -/
def allocHeap : Heap where
  mem := Function.update (fun _ => none) 0 (some exampleName.terminated)
  netbufs _ := none
  rsrcs _ := none
  pools _ := none
  brk := 1
  calls := 0
  mallocOk _ := true
  junk _ _ := 0

theorem allocHeap_fresh : allocHeap.Fresh := by
  intro a ha
  have hne : a ≠ 0 := Nat.ne_of_gt ha
  simp [allocHeap, hne]

theorem allocHeap_string : allocHeap.string (some ⟨0, 0⟩) = .ok exampleName :=
  string_at (show allocHeap.mem 0 = some ([] ++ (exampleName.terminated ++ [])) from rfl)

/-- A call for the reserved port 1, whose three names are the same. -/
def exampleAlloc (pcNameDIF : Option Ptr) : AllocArgs :=
  ⟨pcNameDIF, some ⟨0, 0⟩, some ⟨0, 0⟩, none, true, true, 1⟩

/-- The bind and, if it is to be allocated, the allocation of the flow before the call
sends its last event. -/
def exampleOps (allocates : Bool) : List AllocOp :=
  [.call .SUCCESS, .task true, .bound] ++
    (if allocates then [.updateFlow 1 .ePORT_STATE_ALLOCATED] else []) ++ [.timer .SUCCESS]

/-- The port is returned although its flow was never allocated, and a name which is missing
is read. -/
theorem unallocated_port_returned :
    (∃ s, (exampleOps false).foldlM AllocRun.step
        (.init allocHeap [] (exampleAlloc (some ⟨0, 0⟩))) = some s ∧
      s.phase = .returned 1 ∧ s.allocated = false ∧ ¬ s.Honest) ∧
    ∃ s, [AllocOp.call .SUCCESS].foldlM AllocRun.step
        (.init allocHeap [] (exampleAlloc none)) = some s ∧
      s.trap = some .nullPointer ∧ ¬ s.Honest :=
  ⟨⟨_, rfl, rfl, rfl, fun hh => nomatch (hh.2 1 rfl (by decide)).2⟩,
    ⟨_, rfl, rfl, fun hh => nomatch hh.1⟩⟩

theorem exampleAlloc_given :
    ∀ p ∈ (exampleAlloc (some ⟨0, 0⟩)).names, NameGiven allocHeap p := by
  simp only [AllocArgs.names, exampleAlloc, List.forall_mem_cons, List.not_mem_nil,
    false_implies, implies_true, and_true, and_self]
  exact .inr ⟨exampleName, allocHeap_string⟩

theorem exampleAlloc_buildable : Buildable allocHeap (exampleAlloc (some ⟨0, 0⟩)) where
  memory _ _ := rfl
  condOk := rfl
  mutexOk := rfl
  names := by
    simp only [AllocArgs.names, exampleAlloc, List.forall_mem_cons, List.not_mem_nil,
      false_implies, implies_true, and_true, and_self]
    exact ⟨exampleName, allocHeap_string, by decide⟩

theorem alloc_honest_allocated :
    Throughout AllocRun.step AllocRun.Honest
      (.init allocHeap [] (exampleAlloc (some ⟨0, 0⟩))) (exampleOps true) :=
  (alloc_honest_iff allocHeap_fresh exampleAlloc_given rfl).mpr
    ⟨exampleAlloc_buildable, trivial, trivial, trivial, fun _ => .inr ⟨rfl, rfl⟩, trivial⟩

end RinaSense.Flow
