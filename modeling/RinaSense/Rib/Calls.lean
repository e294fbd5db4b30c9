import RinaSense.Rib.Daemon

/-!
# Calls of the RIB

The entry points of the RIB as one step of its state, and what each can do to the table of
pending queries.
-/

namespace RinaSense.Rib

open Common SerDes Library.Memory

/-- A call of an entry point. -/
inductive RibCall
  | query (pxRibObj : RibObject) (eOpCode : OpCode) (unPort : PortId)
      (xRibQueryTypeInfo : RibQueryTypeInfo)
  | reply (eOpCode : OpCode) (unPort : PortId) (unInvokeId : InvokeId)
  | objectAdd (pxRibObject : RibObject)
  | incoming (pxDecodeCdap : IncomingCdap) (unPort : PortId)
deriving DecidableEq

def Ribd.call (pxRibd : Ribd) (out : Outcomes) : RibCall → Exec RibOut
  | .query pxRibObj eOpCode unPort info =>
    xRibObjectQuery out pxRibd pxRibObj eOpCode unPort info
  | .reply eOpCode unPort unInvokeId => xRibObjectReply out pxRibd eOpCode unPort unInvokeId
  | .objectAdd pxRibObject => .ok (xRibObjectAdd out pxRibd pxRibObject)
  | .incoming pxDecodeCdap unPort => xRibNormalIncoming out pxRibd pxDecodeCdap unPort

variable {out : Outcomes} {r r' : Ribd} {o : RibOut}

/-! ### The lock leaves the tables alone -/

/-- The RIB with its mutex taken, where it has one. -/
def Ribd.locked (r : Ribd) : Ribd := { r with xMutex := r.xMutex || r.xDoLock }

theorem vRibLock_eq_ok : vRibLock r = .ok r' ↔ (r.xDoLock && r.xMutex) = false ∧ r' = r.locked := by
  cases r with
  | mk xDoLock conns rows objs xMutex id =>
    cases xDoLock <;> cases xMutex <;> simp [vRibLock, Ribd.locked, eq_comm]

@[simp] theorem Ribd.locked_rows (r : Ribd) : r.locked.xPendingReqs = r.xPendingReqs := rfl

@[simp] theorem Ribd.locked_connections (r : Ribd) :
    r.locked.xAppConnections = r.xAppConnections := rfl

@[simp] theorem Ribd.locked_objects (r : Ribd) : r.locked.pxRibObjects = r.pxRibObjects := rfl

@[simp] theorem Ribd.locked_id (r : Ribd) : r.locked.invoke_id = r.invoke_id := rfl

theorem vRibUnlock_eq (r : Ribd) :
    vRibUnlock r = { r with xMutex := r.xMutex && !r.xDoLock } := by
  cases r with
  | mk xDoLock conns rows objs xMutex id => cases xDoLock <;> simp [vRibUnlock]

@[simp] theorem vRibUnlock_rows (r : Ribd) : (vRibUnlock r).xPendingReqs = r.xPendingReqs := by
  rw [vRibUnlock_eq]

@[simp] theorem vRibUnlock_connections (r : Ribd) :
    (vRibUnlock r).xAppConnections = r.xAppConnections := by
  rw [vRibUnlock_eq]

@[simp] theorem vRibUnlock_objects (r : Ribd) :
    (vRibUnlock r).pxRibObjects = r.pxRibObjects := by
  rw [vRibUnlock_eq]

/-- Taking the mutex and giving it back changes nothing. -/
theorem vRibUnlock_locked (h : (r.xDoLock && r.xMutex) = false) : vRibUnlock r.locked = r := by
  cases r with
  | mk xDoLock conns rows objs xMutex id =>
    cases xDoLock with
    | false => cases xMutex <;> rfl
    | true =>
      cases xMutex with
      | false => rfl
      | true => cases h

theorem get_next_invoke_id_ne_zero (id : InvokeId) : (get_next_invoke_id id).1 ≠ 0 := by
  unfold get_next_invoke_id
  split_ifs with h
  · decide
  · rintro rfl
    exact h (by decide)

/-! ### What a call does to the pending queries -/

/-- The first free row. -/
def Ribd.freeRow (r : Ribd) : Option (Fin RESPONSE_HANDLER_TABLE_SIZE) :=
  Fin.find? fun x => (r.xPendingReqs x).unInvokeID == 0

/-- The method which an object has for an operation of a reply. -/
def RibObject.replies (obj : RibObject) (eOpCode : OpCode) : Bool :=
  match xRibGetObjectReplyMethod obj eOpCode with
  | .ok (some _) => true
  | _ => false

/-- The row which a reply completes: the first of its invoke id, if the object which the row
names is there, has a method for the operation, and the method takes the message. -/
def Ribd.acceptingRow (r : Ribd) (out : Outcomes) (pxMsg : IncomingCdap) :
    Option (Fin RESPONSE_HANDLER_TABLE_SIZE) :=
  match pxMsg.eOpCode, Fin.find? fun x => (r.xPendingReqs x).unInvokeID == pxMsg.nInvokeID with
  | some eOpCode, some x =>
    match pxRibObjectFind r (r.xPendingReqs x).pcObjName with
    | .ok (some obj) =>
      if obj.replies eOpCode && out.replyMethod.isSome then some x else none
    | _ => none
  | _, _ => none

structure SamePending (r : Ribd) (o : RibOut) : Prop where
  rows : o.pxRibd.xPendingReqs = r.xPendingReqs
  claimed : o.claimed = none
  delivered : o.delivered = none

/-- A tracked query took the first free row. -/
structure Claims (r : Ribd) (o : RibOut) (x : Fin RESPONSE_HANDLER_TABLE_SIZE) : Prop where
  free : (r.xPendingReqs x).unInvokeID = 0
  claimed : o.claimed = some x
  delivered : o.delivered = none
  others : ∀ y, y ≠ x → o.pxRibd.xPendingReqs y = r.xPendingReqs y
  inUse : (o.pxRibd.xPendingReqs x).unInvokeID ≠ 0

/-- A reply was given to the callback or the waiter of a row. -/
structure Delivers (r : Ribd) (o : RibOut) (d : Delivery) : Prop where
  found : (r.xPendingReqs d.row).unInvokeID = d.nInvokeID
  named : (r.xPendingReqs d.row).pcObjName.isSome
  claimed : o.claimed = none
  delivered : o.delivered = some d
  rows : ∀ x, o.pxRibd.xPendingReqs x =
    { r.xPendingReqs x with pxResp := (o.pxRibd.xPendingReqs x).pxResp }

theorem Delivers.unInvokeID {d : Delivery} (h : Delivers r o d)
    (x : Fin RESPONSE_HANDLER_TABLE_SIZE) :
    (o.pxRibd.xPendingReqs x).unInvokeID = (r.xPendingReqs x).unInvokeID := by
  rw [h.rows x]

theorem Delivers.eReqOpCode {d : Delivery} (h : Delivers r o d)
    (x : Fin RESPONSE_HANDLER_TABLE_SIZE) :
    (o.pxRibd.xPendingReqs x).eReqOpCode = (r.xPendingReqs x).eReqOpCode := by
  rw [h.rows x]

theorem Delivers.pcObjName {d : Delivery} (h : Delivers r o d)
    (x : Fin RESPONSE_HANDLER_TABLE_SIZE) :
    (o.pxRibd.xPendingReqs x).pcObjName = (r.xPendingReqs x).pcObjName := by
  rw [h.rows x]

theorem samePending_locked {status : RsErr} {sent : List OutgoingCdap} :
    SamePending r { xStatus := status, pxRibd := vRibUnlock r.locked, sent := sent } :=
  ⟨by simp, rfl, rfl⟩

theorem xRibObjectReply_eq_ok {eOpCode : OpCode} {unPort : PortId} {unInvokeId : InvokeId} :
    xRibObjectReply out r eOpCode unPort unInvokeId = .ok o ↔
      (r.xDoLock && r.xMutex) = false ∧ out.xMsgPool = true ∧
        o = { xStatus := out.outputStatus, pxRibd := vRibUnlock r.locked,
              sent := [⟨eOpCode, unInvokeId, unPort⟩] } := by
  unfold xRibObjectReply
  rw [Exec.bind_eq_ok]
  simp only [vRibLock_eq_ok]
  cases hp : out.xMsgPool with
  | false => simp
  | true =>
    constructor
    · rintro ⟨r₁, ⟨hl, rfl⟩, h⟩
      cases h
      exact ⟨hl, rfl, rfl⟩
    · rintro ⟨hl, -, rfl⟩
      exact ⟨r.locked, ⟨hl, rfl⟩, rfl⟩

/-- The RIB when a query has drawn its invoke id. -/
def Ribd.drawId (r : Ribd) : Ribd := { r with invoke_id := (get_next_invoke_id r.invoke_id).2 }

/-- The row for a tracked query. -/
def Ribd.queryRow (r : Ribd) (obj : RibObject) (eOpCode : OpCode) (fnCb : Option FnPtr) :
    RibPendingReq where
  unInvokeID := (get_next_invoke_id r.invoke_id).1
  eReqOpCode := eOpCode
  xRibResCb := fnCb
  pxResp := none
  pcObjName := some obj.ucObjName

section Query

variable {obj : RibObject} {eOpCode : OpCode} {unPort : PortId} {info : RibQueryTypeInfo}

/-- A query which returns found the mutex free and made its message. -/
theorem xRibObjectQuery_returns (h : xRibObjectQuery out r obj eOpCode unPort info = .ok o) :
    (r.xDoLock && r.xMutex) = false ∧ out.xMsgPool = true := by
  unfold xRibObjectQuery at h
  obtain ⟨r₁, hl, h⟩ := Exec.bind_eq_ok.mp h
  refine ⟨(vRibLock_eq_ok.mp hl).1, ?_⟩
  cases hp : out.xMsgPool with
  | false => simp [hp] at h
  | true => rfl

variable {fnCb : Option FnPtr} {x : Fin RESPONSE_HANDLER_TABLE_SIZE}

theorem xRibObjectQuery_eq_untracked (hl : (r.xDoLock && r.xMutex) = false)
    (hp : out.xMsgPool = true) (ht : info.tracked = none) :
    xRibObjectQuery out r obj eOpCode unPort info =
      .ok { xStatus := out.outputStatus, pxRibd := r.drawId, sent := [⟨eOpCode, 0, unPort⟩] } := by
  have hdraw : vRibUnlock r.drawId.locked = r.drawId := vRibUnlock_locked hl
  rw [xRibObjectQuery, vRibLock_eq_ok.mpr ⟨hl, rfl⟩]
  simp only [Exec.ok_bind, hp, Bool.not_true, Bool.false_eq_true, if_false, ht]
  rw [← hdraw]
  rfl

theorem xRibObjectQuery_eq_full (hl : (r.xDoLock && r.xMutex) = false)
    (hp : out.xMsgPool = true) (ht : info.tracked = some fnCb) (hf : r.freeRow = none) :
    xRibObjectQuery out r obj eOpCode unPort info =
      .ok { xStatus := .ERR_RIB_TABLE_FULL, pxRibd := r.drawId } := by
  have hdraw : vRibUnlock r.drawId.locked = r.drawId := vRibUnlock_locked hl
  have hnone : (Fin.find? fun x => (r.xPendingReqs x).unInvokeID == 0) = none := hf
  rw [xRibObjectQuery, vRibLock_eq_ok.mpr ⟨hl, rfl⟩]
  simp only [Exec.ok_bind, hp, Bool.not_true, Bool.false_eq_true, if_false, ht,
    xRibAddPendingResponse, Ribd.locked_rows, hnone]
  rw [← hdraw]
  rfl

theorem xRibObjectQuery_eq_taken (hl : (r.xDoLock && r.xMutex) = false)
    (hp : out.xMsgPool = true) (ht : info.tracked = some fnCb) (hf : r.freeRow = some x) :
    xRibObjectQuery out r obj eOpCode unPort info =
      .ok { xStatus := if out.waitInit then out.outputStatus else .FAIL
            pxRibd := r.drawId.setPending x (r.queryRow obj eOpCode fnCb)
            sent :=
              if out.waitInit then [⟨eOpCode, (get_next_invoke_id r.invoke_id).1, unPort⟩] else []
            claimed := some x } := by
  have htaken : vRibUnlock (r.drawId.setPending x (r.queryRow obj eOpCode fnCb)).locked =
      r.drawId.setPending x (r.queryRow obj eOpCode fnCb) := vRibUnlock_locked hl
  have hsome : (Fin.find? fun x => (r.xPendingReqs x).unInvokeID == 0) = some x := hf
  rw [xRibObjectQuery, vRibLock_eq_ok.mpr ⟨hl, rfl⟩, ← htaken]
  simp only [Exec.ok_bind, hp, Bool.not_true, Bool.false_eq_true, if_false, ht,
    xRibAddPendingResponse, Ribd.locked_rows, hsome]
  cases hw : out.waitInit with
  | false => rfl
  | true => rfl

/-- A query draws an invoke id. A tracked one is refused when no row is free, and takes the
first free row otherwise, whatever comes of it then. -/
theorem xRibObjectQuery_eq_ok (h : xRibObjectQuery out r obj eOpCode unPort info = .ok o) :
    (r.xDoLock && r.xMutex) = false ∧
      match info.tracked with
      | none =>
        o = { xStatus := out.outputStatus, pxRibd := r.drawId, sent := [⟨eOpCode, 0, unPort⟩] }
      | some fnCb =>
        match r.freeRow with
        | none => o = { xStatus := .ERR_RIB_TABLE_FULL, pxRibd := r.drawId }
        | some x =>
          ∃ sent, o = { xStatus := if out.waitInit then out.outputStatus else .FAIL,
                        pxRibd := r.drawId.setPending x (r.queryRow obj eOpCode fnCb),
                        sent := sent, claimed := some x } := by
  obtain ⟨hl, hp⟩ := xRibObjectQuery_returns h
  refine ⟨hl, ?_⟩
  cases ht : info.tracked with
  | none =>
    rw [xRibObjectQuery_eq_untracked hl hp ht] at h
    cases h
    rfl
  | some fnCb =>
    cases hf : r.freeRow with
    | none =>
      rw [xRibObjectQuery_eq_full hl hp ht hf] at h
      cases h
      rfl
    | some x =>
      rw [xRibObjectQuery_eq_taken hl hp ht hf] at h
      cases h
      exact ⟨_, rfl⟩

/-- What a query does to the RIB. -/
theorem xRibObjectQuery_changes (h : xRibObjectQuery out r obj eOpCode unPort info = .ok o) :
    o.pxRibd = r.drawId ∨ ∃ x row, o.pxRibd = r.drawId.setPending x row := by
  have hspec := (xRibObjectQuery_eq_ok h).2
  cases ht : info.tracked with
  | none =>
    rw [ht] at hspec
    exact .inl (by rw [hspec])
  | some fnCb =>
    rw [ht] at hspec
    cases hf : r.freeRow with
    | none =>
      rw [hf] at hspec
      exact .inl (by rw [hspec])
    | some x =>
      rw [hf] at hspec
      obtain ⟨sent, rfl⟩ := hspec
      exact .inr ⟨x, _, rfl⟩

theorem xRibObjectQuery_untracked (ht : info.tracked = none)
    (h : xRibObjectQuery out r obj eOpCode unPort info = .ok o) : SamePending r o := by
  have hspec := (xRibObjectQuery_eq_ok h).2
  rw [ht] at hspec
  rw [hspec]
  exact ⟨rfl, rfl, rfl⟩

theorem xRibObjectQuery_status (ht : info.tracked = none)
    (h : xRibObjectQuery out r obj eOpCode unPort info = .ok o) :
    o.xStatus = out.outputStatus := by
  have hspec := (xRibObjectQuery_eq_ok h).2
  rw [ht] at hspec
  rw [hspec]

theorem xRibObjectQuery_tracked {fnCb : Option FnPtr} (ht : info.tracked = some fnCb)
    (h : xRibObjectQuery out r obj eOpCode unPort info = .ok o) :
    match r.freeRow with
    | none => SamePending r o ∧ o.xStatus = .ERR_RIB_TABLE_FULL
    | some x =>
      Claims r o x ∧ (o.pxRibd.xPendingReqs x).eReqOpCode = eOpCode ∧
        o.xStatus = if out.waitInit then out.outputStatus else .FAIL := by
  have hspec := (xRibObjectQuery_eq_ok h).2
  rw [ht] at hspec
  cases hf : r.freeRow with
  | none =>
    rw [hf] at hspec
    rw [hspec]
    exact ⟨⟨rfl, rfl, rfl⟩, rfl⟩
  | some x =>
    rw [hf] at hspec
    obtain ⟨sent, rfl⟩ := hspec
    have hfree : (r.xPendingReqs x).unInvokeID = 0 := by
      simpa using Fin.eq_true_of_find?_eq_some hf
    have hid := get_next_invoke_id_ne_zero r.invoke_id
    refine ⟨⟨hfree, rfl, rfl, fun y hy => ?_, ?_⟩, ?_, rfl⟩
    · simp [Ribd.setPending, Ribd.drawId, hy]
    · simpa [Ribd.setPending, Ribd.queryRow] using hid
    · simp [Ribd.setPending, Ribd.queryRow]

theorem xRibObjectQuery_cases
    (h : xRibObjectQuery out r obj eOpCode unPort info = .ok o) :
    SamePending r o ∨ ∃ x, Claims r o x := by
  cases ht : info.tracked with
  | none => exact .inl (xRibObjectQuery_untracked ht h)
  | some fnCb =>
    have hspec := xRibObjectQuery_tracked ht h
    cases hf : r.freeRow with
    | none =>
      rw [hf] at hspec
      exact .inl hspec.1
    | some x =>
      rw [hf] at hspec
      exact .inr ⟨x, hspec.1⟩

end Query

theorem xRibFindPendingResponse_eq_ok {id : InvokeId}
    {p : Option (Fin RESPONSE_HANDLER_TABLE_SIZE) × Ribd} :
    xRibFindPendingResponse r id = .ok p ↔
      (r.xDoLock && r.xMutex) = false ∧
        p = (Fin.find? fun x => (r.xPendingReqs x).unInvokeID == id, vRibUnlock r.locked) := by
  unfold xRibFindPendingResponse
  rw [Exec.bind_eq_ok]
  simp only [vRibLock_eq_ok]
  constructor
  · rintro ⟨r₁, ⟨hl, rfl⟩, h⟩
    cases h
    exact ⟨hl, rfl⟩
  · rintro ⟨hl, rfl⟩
    exact ⟨r.locked, ⟨hl, rfl⟩, rfl⟩

theorem pxRibObjectFind_named {name : Option CString} {obj : RibObject}
    (h : pxRibObjectFind r name = .ok (some obj)) : name.isSome := by
  unfold pxRibObjectFind at h
  cases hobj : Fin.findSome? r.pxRibObjects with
  | none => simp [hobj] at h
  | some _ =>
    cases name with
    | none => simp [hobj] at h
    | some name => rfl

section Reply

variable {eOpCode : OpCode} {msg : IncomingCdap}

theorem Ribd.setPending_same (r : Ribd) (x : Fin RESPONSE_HANDLER_TABLE_SIZE) :
    r.setPending x (r.xPendingReqs x) = r := by
  rw [Ribd.setPending, Function.update_eq_self]

/-- A reply which no row accepts changes nothing. Of the row which accepts it at most the
response changes. -/
theorem prvRibHandleAnyReply_eq_ok (hop : msg.eOpCode = some eOpCode)
    (h : prvRibHandleAnyReply out r eOpCode msg = .ok o) :
    match r.acceptingRow out msg with
    | none => ∃ xStatus, o = { xStatus := xStatus, pxRibd := r }
    | some x =>
      (r.xPendingReqs x).unInvokeID = msg.nInvokeID ∧ (r.xPendingReqs x).pcObjName.isSome ∧
        ∃ xStatus resp pxResp, o = {
          xStatus := xStatus
          pxRibd := r.setPending x { r.xPendingReqs x with pxResp := pxResp }
          delivered := some ⟨x, eOpCode, msg.nInvokeID, resp⟩ } := by
  unfold prvRibHandleAnyReply at h
  obtain ⟨p, hp, h⟩ := Exec.bind_eq_ok.mp h
  obtain ⟨hl, rfl⟩ := xRibFindPendingResponse_eq_ok.mp hp
  rw [vRibUnlock_locked hl] at h
  unfold Ribd.acceptingRow
  rw [hop]
  cases hx : Fin.find? fun x => (r.xPendingReqs x).unInvokeID == msg.nInvokeID with
  | none =>
    simp only [hx] at h
    cases h
    exact ⟨_, rfl⟩
  | some x =>
    have hid : (r.xPendingReqs x).unInvokeID = msg.nInvokeID := by
      simpa using Fin.eq_true_of_find?_eq_some hx
    simp only [hx] at h
    obtain ⟨found, hfound, h⟩ := Exec.bind_eq_ok.mp h
    simp only [hfound]
    cases found with
    | none =>
      cases h
      exact ⟨_, rfl⟩
    | some obj =>
      obtain ⟨method, hmethod, h⟩ := Exec.bind_eq_ok.mp h
      simp only [RibObject.replies, hmethod]
      cases method with
      | none =>
        cases h
        exact ⟨_, rfl⟩
      | some fn =>
        cases hreply : out.replyMethod with
        | none =>
          simp only [hreply] at h
          cases h
          exact ⟨_, rfl⟩
        | some resp =>
          simp only [hreply] at h
          refine ⟨hid, pxRibObjectFind_named hfound, ?_⟩
          have hsame := r.setPending_same x
          rcases Option.eq_none_or_eq_some (r.xPendingReqs x).xRibResCb with hcb | ⟨cb, hcb⟩
          · simp only [hcb] at h
            cases h
            refine ⟨.SUCCESS, resp, resp, ?_⟩
            rw [hcb]
          · simp only [hcb] at h
            cases h
            refine ⟨out.xRibResCb, resp, (r.xPendingReqs x).pxResp, ?_⟩
            rw [hsame]

/-- A reply is delivered to the row which accepts it, and does nothing when none does. -/
theorem prvRibHandleAnyReply_spec (hop : msg.eOpCode = some eOpCode)
    (h : prvRibHandleAnyReply out r eOpCode msg = .ok o) :
    match r.acceptingRow out msg with
    | none => SamePending r o
    | some x => ∃ resp, Delivers r o ⟨x, eOpCode, msg.nInvokeID, resp⟩ := by
  have hspec := prvRibHandleAnyReply_eq_ok hop h
  cases hrow : r.acceptingRow out msg with
  | none =>
    rw [hrow] at hspec
    obtain ⟨xStatus, rfl⟩ := hspec
    exact ⟨rfl, rfl, rfl⟩
  | some x =>
    rw [hrow] at hspec
    obtain ⟨hid, hnamed, xStatus, resp, pxResp, rfl⟩ := hspec
    refine ⟨resp, hid, hnamed, rfl, rfl, fun y => ?_⟩
    by_cases hy : y = x
    · subst hy
      simp [Ribd.setPending]
    · simp [Ribd.setPending, hy]

end Reply

theorem prvRibHandleAnyRequest_same {eOpCode : OpCode} {msg : IncomingCdap}
    (h : prvRibHandleAnyRequest out r eOpCode msg = .ok o) : SamePending r o := by
  unfold prvRibHandleAnyRequest at h
  obtain ⟨found, -, h⟩ := Exec.bind_eq_ok.mp h
  cases found with
  | none =>
    cases h
    exact ⟨rfl, rfl, rfl⟩
  | some obj =>
    obtain ⟨method, -, h⟩ := Exec.bind_eq_ok.mp h
    cases method with
    | none =>
      cases h
      exact ⟨rfl, rfl, rfl⟩
    | some fn =>
      cases h
      exact ⟨rfl, rfl, rfl⟩

theorem xRibConnectionAdd_rows {src dst : Rname} {unPort : PortId} {p : RsErr × Ribd}
    (h : xRibConnectionAdd out r src dst unPort = .ok p) :
    p.2.xPendingReqs = r.xPendingReqs := by
  unfold xRibConnectionAdd at h
  obtain ⟨r₁, hl, h⟩ := Exec.bind_eq_ok.mp h
  obtain ⟨-, rfl⟩ := vRibLock_eq_ok.mp hl
  cases hx : Fin.find? fun x =>
      (r.locked.xAppConnections x).xStatus == .CONNECTION_RELEASED with
  | none =>
    simp only [hx] at h
    cases h
    rfl
  | some x =>
    simp only [hx] at h
    cases h
    simp [Ribd.setConnection]

theorem prvRibHandleConnect_same {unPort : PortId}
    {x : Option (Fin APP_CONNECTION_TABLE_SIZE)} {msg : IncomingCdap}
    (h : prvRibHandleConnect out r unPort x msg = .ok o) : SamePending r o := by
  unfold prvRibHandleConnect at h
  cases x with
  | some x =>
    cases h
    exact ⟨rfl, rfl, rfl⟩
  | none =>
    obtain ⟨⟨status, r₁⟩, hadd, h⟩ := Exec.bind_eq_ok.mp h
    have hrows := xRibConnectionAdd_rows hadd
    cases status with
    | SUCCESS =>
      obtain ⟨r₂, hl, h⟩ := Exec.bind_eq_ok.mp h
      obtain ⟨-, rfl⟩ := vRibLock_eq_ok.mp hl
      cases hp : out.xMsgPool with
      | false => simp [hp] at h
      | true =>
        simp only [hp, Bool.not_true, Bool.false_eq_true, if_false] at h
        cases h
        exact ⟨by simpa using hrows, rfl, rfl⟩
    | _ =>
      cases h
      exact ⟨hrows, rfl, rfl⟩

theorem prvRibHandleRelease_same {unPort : PortId}
    {x : Option (Fin APP_CONNECTION_TABLE_SIZE)} {msg : IncomingCdap}
    (h : prvRibHandleRelease out r unPort x msg = .ok o) : SamePending r o := by
  unfold prvRibHandleRelease at h
  cases x with
  | none =>
    cases h
    exact ⟨rfl, rfl, rfl⟩
  | some x =>
    dsimp only at h
    split_ifs at h with hst hid
    · cases h
      exact ⟨rfl, rfl, rfl⟩
    · obtain ⟨-, -, rfl⟩ := xRibObjectReply_eq_ok.mp h
      exact samePending_locked
    · cases h
      exact ⟨rfl, rfl, rfl⟩

theorem prvRibHandleConnectReply_same (x : Option (Fin APP_CONNECTION_TABLE_SIZE)) :
    SamePending r (prvRibHandleConnectReply r x) := by
  unfold prvRibHandleConnectReply
  cases x with
  | none => exact ⟨rfl, rfl, rfl⟩
  | some x => dsimp only; split_ifs <;> exact ⟨rfl, rfl, rfl⟩

theorem prvRibHandleReleaseReply_same (x : Option (Fin APP_CONNECTION_TABLE_SIZE)) :
    SamePending r (prvRibHandleReleaseReply r x) := by
  unfold prvRibHandleReleaseReply
  cases x with
  | none => exact ⟨rfl, rfl, rfl⟩
  | some x => dsimp only; split_ifs <;> exact ⟨rfl, rfl, rfl⟩

theorem acceptingRow_of_not_reply {eOpCode : OpCode} {msg : IncomingCdap}
    (hop : msg.eOpCode = some eOpCode)
    (h : ∀ obj, xRibGetObjectReplyMethod obj eOpCode = .error .abort) :
    r.acceptingRow out msg = none := by
  unfold Ribd.acceptingRow
  rw [hop]
  split
  · split
    · rename_i heq _ _ obj _
      cases heq
      simp [RibObject.replies, h obj]
    · rfl
  · rfl

/-- Of the incoming messages only replies which a row accepts matter to the pending
queries. -/
theorem xRibNormalIncoming_spec {msg : IncomingCdap} {unPort : PortId}
    (h : xRibNormalIncoming out r msg unPort = .ok o) :
    match r.acceptingRow out msg with
    | none => SamePending r o
    | some x => ∃ eOpCode resp, msg.eOpCode = some eOpCode ∧
        Delivers r o ⟨x, eOpCode, msg.nInvokeID, resp⟩ := by
  unfold xRibNormalIncoming at h
  cases hop : msg.eOpCode with
  | none => simp [hop] at h
  | some eOpCode =>
    simp only [hop] at h
    by_cases hreply : ∀ obj, xRibGetObjectReplyMethod obj eOpCode = .error .abort
    · rw [acceptingRow_of_not_reply hop hreply]
      cases eOpCode with
      | M_CONNECT => exact prvRibHandleConnect_same h
      | M_CONNECT_R =>
        cases h
        exact prvRibHandleConnectReply_same _
      | M_RELEASE => exact prvRibHandleRelease_same h
      | M_RELEASE_R =>
        cases h
        exact prvRibHandleReleaseReply_same _
      | M_CREATE | M_DELETE | M_READ | M_WRITE | M_START | M_STOP =>
        exact prvRibHandleAnyRequest_same h
      | M_CANCELREAD | M_CANCELREAD_R =>
        cases h
        exact ⟨rfl, rfl, rfl⟩
      | _ => cases hreply ⟨.empty, none, none, none, none, none, none, none, none, none, none,
          none, none, none⟩
    · have hany : prvRibHandleAnyReply out r eOpCode msg = .ok o := by
        cases eOpCode with
        | M_CREATE_R | M_DELETE_R | M_READ_R | M_WRITE_R | M_START_R | M_STOP_R => exact h
        | _ => exact absurd (fun _ => rfl) hreply
      have hspec := prvRibHandleAnyReply_spec hop hany
      cases hrow : r.acceptingRow out msg with
      | none =>
        rw [hrow] at hspec
        exact hspec
      | some x =>
        rw [hrow] at hspec
        obtain ⟨resp, hd⟩ := hspec
        exact ⟨eOpCode, resp, rfl, hd⟩

theorem xRibObjectAdd_same (obj : RibObject) : SamePending r (xRibObjectAdd out r obj) := by
  unfold xRibObjectAdd
  split <;> exact ⟨rfl, rfl, rfl⟩

/-- A call leaves the pending queries alone, takes a row for a query, or gives a response to
the owner of a row. -/
theorem call_cases {c : RibCall} (h : r.call out c = .ok o) :
    SamePending r o ∨ (∃ x, Claims r o x) ∨ ∃ d, Delivers r o d := by
  cases c with
  | reply eOpCode unPort unInvokeId =>
    obtain ⟨-, -, rfl⟩ := xRibObjectReply_eq_ok.mp h
    exact .inl samePending_locked
  | objectAdd obj =>
    cases h
    exact .inl (xRibObjectAdd_same obj)
  | query obj eOpCode unPort info =>
    rcases xRibObjectQuery_cases h with hsame | hclaim
    · exact .inl hsame
    · exact .inr (.inl hclaim)
  | incoming msg unPort =>
    have hspec := xRibNormalIncoming_spec h
    cases hrow : r.acceptingRow out msg with
    | none =>
      rw [hrow] at hspec
      exact .inl hspec
    | some x =>
      rw [hrow] at hspec
      obtain ⟨eOpCode, resp, -, hd⟩ := hspec
      exact .inr (.inr ⟨_, hd⟩)

end RinaSense.Rib
