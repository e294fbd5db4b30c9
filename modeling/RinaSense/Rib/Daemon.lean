import Mathlib.Data.Fin.Tuple.Basic
import RinaSense.Common.Ids
import RinaSense.SerDes.Message

/-!
# The RIB daemon

The tables of `Ribd_t` and the functions which read and update them: the pending queries,
the application connections and the objects. What the code outside the RIB does in a call
(the pool, the wait mechanics, the methods of the objects, the callbacks and the output
function) is given by its outcomes.
-/

namespace RinaSense.Rib

open Common SerDes Library.Memory

abbrev InvokeId := ℤ

/-- The address of a function. -/
abbrev FnPtr := ℕ

def INT_MAX : ℤ := 2147483647

/-- The id given out and the counter behind it. -/
def get_next_invoke_id (invoke_id : InvokeId) : InvokeId × InvokeId :=
  if invoke_id % INT_MAX = 0 then (1, 1) else (invoke_id, invoke_id + 1)

inductive RsErr
  | SUCCESS
  | FAIL
  | ERR_RIB_TABLE_FULL
  | ERR_RIB_NOT_PENDING
  | ERR_RIB_TOO_MANY_CONNECTIONS
  | ERR_RIB_NO_SUCH_CONNECTION
  | ERR_RIB_OBJECT_UNSUPPORTED
  | ERR_RIB_OBJECT_UNSUP_METHOD
  | ERR_RIB_BAD_CONNECTION_STATE
  | ERR_RIB_CONNECTION_EXISTS
  | ERR_RIB_TIMEOUT
  | ERR_RIB_NEIGHBOR_NOT_FOUND
  | ERR_PTHREAD
  /-- What the system call left in `errno`. -/
  | ERRNO
deriving DecidableEq, Repr

/-! ### The tables -/

abbrev APP_CONNECTION_TABLE_SIZE : ℕ := 5

abbrev RESPONSE_HANDLER_TABLE_SIZE : ℕ := 10

abbrev RIB_TABLE_SIZE : ℕ := 10

inductive ConnectionStatus
  | CONNECTION_RELEASED
  | CONNECTION_IN_PROGRESS
  | CONNECTION_OK
deriving DecidableEq, Repr

structure AppConnection where
  xSourceInfo : Rname
  xDestinationInfo : Rname
  uCdapVersion : UInt8
  uRibVersion : UInt8
  xStatus : ConnectionStatus
  unPort : PortId
deriving DecidableEq

/-- A row whose bytes are all zero. -/
def AppConnection.zero : AppConnection where
  xSourceInfo := ⟨none, none, none, none⟩
  xDestinationInfo := ⟨none, none, none, none⟩
  uCdapVersion := 0
  uRibVersion := 0
  xStatus := .CONNECTION_RELEASED
  unPort := 0

structure RibPendingReq where
  unInvokeID : InvokeId
  eReqOpCode : OpCode
  xRibResCb : Option FnPtr
  pxResp : Option ℕ
  pcObjName : Option CString
deriving DecidableEq

/-- A row whose bytes are all zero. -/
def RibPendingReq.zero : RibPendingReq := ⟨0, .M_CONNECT, none, none, none⟩

structure RibObject where
  ucObjName : CString
  fnStart : Option FnPtr
  fnStop : Option FnPtr
  fnCreate : Option FnPtr
  fnDelete : Option FnPtr
  fnRead : Option FnPtr
  fnWrite : Option FnPtr
  fnStartReply : Option FnPtr
  fnStopReply : Option FnPtr
  fnCreateReply : Option FnPtr
  fnDeleteReply : Option FnPtr
  fnReadReply : Option FnPtr
  fnWriteReply : Option FnPtr
  fnInit : Option FnPtr
deriving DecidableEq

/-- The tables of a RIB, whether its mutex is held, and the counter of invoke ids. -/
structure Ribd where
  xDoLock : Bool
  xAppConnections : Fin APP_CONNECTION_TABLE_SIZE → AppConnection
  xPendingReqs : Fin RESPONSE_HANDLER_TABLE_SIZE → RibPendingReq
  pxRibObjects : Fin RIB_TABLE_SIZE → Option RibObject
  xMutex : Bool
  invoke_id : InvokeId

/-- A RIB after `xRibNormalInit` or `xRibLoopbackInit`. -/
def Ribd.init (xDoLock : Bool) : Ribd where
  xDoLock := xDoLock
  xAppConnections := fun _ => .zero
  xPendingReqs := fun _ => .zero
  pxRibObjects := fun _ => none
  xMutex := false
  invoke_id := 1

/-- What the code outside the RIB does when a call gets to it. -/
structure Outcomes where
  /-- The pool has memory for a message. -/
  xMsgPool : Bool
  /-- The names of the source and of the destination are copied. -/
  sourceDup : Bool
  destinationDup : Bool
  /-- The mutex and the condition of a pending query are made. -/
  waitInit : Bool
  /-- The output function takes the message. -/
  fnRibOutput : Bool
  requestMethod : RsErr
  /-- The response which the reply method makes, unless it fails. -/
  replyMethod : Option (Option ℕ)
  xRibResCb : RsErr
  fnInit : RsErr
  /-- What an unset status variable holds. -/
  stale : RsErr
deriving DecidableEq

/-- The output functions return nothing else. -/
def Outcomes.outputStatus (out : Outcomes) : RsErr :=
  if out.fnRibOutput then .SUCCESS else .FAIL

/-- Everything outside works, and replies are turned into the response 1. -/
def Outcomes.allWell : Outcomes where
  xMsgPool := true
  sourceDup := true
  destinationDup := true
  waitInit := true
  fnRibOutput := true
  requestMethod := .SUCCESS
  replyMethod := some (some 1)
  xRibResCb := .SUCCESS
  fnInit := .SUCCESS
  stale := .SUCCESS

/-- A decoded message; numbers above `MAX_CDAP_OPCODE` are no operation. -/
structure IncomingCdap where
  eOpCode : Option OpCode
  xDestinationInfo : Rname
  xSourceInfo : Rname
  nInvokeID : InvokeId
  pcObjName : CString
deriving DecidableEq

/-- A message handed to the output function. -/
structure OutgoingCdap where
  eOpCode : OpCode
  nInvokeID : InvokeId
  unPort : PortId
deriving DecidableEq

/-- A response given to the callback or to the waiter of a row. -/
structure Delivery where
  row : Fin RESPONSE_HANDLER_TABLE_SIZE
  eOpCode : OpCode
  nInvokeID : InvokeId
  pxResp : Option ℕ
deriving DecidableEq

/-- What a call returns and what it did on the way. -/
structure RibOut where
  xStatus : RsErr
  pxRibd : Ribd
  sent : List OutgoingCdap := []
  /-- The row which a tracked query took. -/
  claimed : Option (Fin RESPONSE_HANDLER_TABLE_SIZE) := none
  delivered : Option Delivery := none

/-! ### The lock -/

/-- Locking a mutex which is never released does not return. -/
def vRibLock (pxRibd : Ribd) : Exec Ribd :=
  if pxRibd.xDoLock then
    if pxRibd.xMutex then .error .endless else .ok { pxRibd with xMutex := true }
  else .ok pxRibd

def vRibUnlock (pxRibd : Ribd) : Ribd :=
  if pxRibd.xDoLock then { pxRibd with xMutex := false } else pxRibd

/-! ### Pending queries -/

def Ribd.setPending (pxRibd : Ribd) (x : Fin RESPONSE_HANDLER_TABLE_SIZE)
    (row : RibPendingReq) : Ribd :=
  { pxRibd with xPendingReqs := Function.update pxRibd.xPendingReqs x row }

/-- The status, and the row which was taken. -/
def xRibAddPendingResponse (out : Outcomes) (pxRibd : Ribd) (pcObjName : CString)
    (unInvokeID : InvokeId) (eReqOpCode : OpCode) (xRibResCb : Option FnPtr) :
    RsErr × Option (Fin RESPONSE_HANDLER_TABLE_SIZE) × Ribd :=
  match Fin.find? fun x => (pxRibd.xPendingReqs x).unInvokeID == 0 with
  | some x =>
    (if out.waitInit then .SUCCESS else .FAIL, some x,
      pxRibd.setPending x
        { unInvokeID := unInvokeID
          eReqOpCode := eReqOpCode
          xRibResCb := xRibResCb
          pxResp := none
          pcObjName := some pcObjName })
  | none => (.ERR_RIB_TABLE_FULL, none, pxRibd)

def xRibFindPendingResponse (pxRibd : Ribd) (unInvokeID : InvokeId) :
    Exec (Option (Fin RESPONSE_HANDLER_TABLE_SIZE) × Ribd) := do
  let pxRibd ← vRibLock pxRibd
  return (Fin.find? fun x => (pxRibd.xPendingReqs x).unInvokeID == unInvokeID,
    vRibUnlock pxRibd)

/-! ### Objects -/

/-- The first object of the name. A null name is compared with the first object. -/
def pxRibObjectFind (pxRibd : Ribd) (ucRibObjectName : Option CString) :
    Exec (Option RibObject) :=
  match Fin.findSome? pxRibd.pxRibObjects with
  | none => .ok none
  | some _ => do
    let name ← deref ucRibObjectName
    return Fin.findSome? fun x =>
      match pxRibd.pxRibObjects x with
      | some pxRibObj => if pxRibObj.ucObjName = name then some pxRibObj else none
      | none => none

def xRibObjectAdd (out : Outcomes) (pxRibd : Ribd) (pxRibObject : RibObject) : RibOut :=
  match Fin.find? fun x => (pxRibd.pxRibObjects x).isNone with
  | some x =>
    { xStatus := if pxRibObject.fnInit.isSome && out.fnInit != .SUCCESS then .FAIL else .SUCCESS
      pxRibd :=
        { pxRibd with
          pxRibObjects := Function.update pxRibd.pxRibObjects x (some pxRibObject) } }
  | none => { xStatus := .ERR_RIB_TABLE_FULL, pxRibd := pxRibd }

def xRibGetObjectReplyMethod (pxRibObj : RibObject) : OpCode → Exec (Option FnPtr)
  | .M_CREATE_R => .ok pxRibObj.fnCreateReply
  | .M_DELETE_R => .ok pxRibObj.fnDeleteReply
  | .M_READ_R => .ok pxRibObj.fnReadReply
  | .M_WRITE_R => .ok pxRibObj.fnWriteReply
  | .M_START_R => .ok pxRibObj.fnStartReply
  | .M_STOP_R => .ok pxRibObj.fnStopReply
  | _ => .error .abort

def xRibGetObjectMethod (pxRibObj : RibObject) : OpCode → Exec (Option FnPtr)
  | .M_CREATE => .ok pxRibObj.fnCreate
  | .M_DELETE => .ok pxRibObj.fnDelete
  | .M_READ => .ok pxRibObj.fnRead
  | .M_WRITE => .ok pxRibObj.fnWrite
  | .M_START => .ok pxRibObj.fnStart
  | .M_STOP => .ok pxRibObj.fnStop
  | _ => .error .abort

/-! ### Requests and replies to the peer -/

inductive RibQueryTypeInfo
  | RIB_QUERY_TYPE_ASYNC (fnCb : Option FnPtr)
  | RIB_QUERY_TYPE_SYNC
  | RIB_QUERY_TYPE_CMD
deriving DecidableEq, Repr

/-- The callback of a query whose reply is tracked. -/
def RibQueryTypeInfo.tracked : RibQueryTypeInfo → Option (Option FnPtr)
  | .RIB_QUERY_TYPE_ASYNC fnCb => some fnCb
  | .RIB_QUERY_TYPE_SYNC => some none
  | .RIB_QUERY_TYPE_CMD => none

/-- A message which could not be allocated is used all the same. -/
def xRibObjectQuery (out : Outcomes) (pxRibd : Ribd) (pxRibObj : RibObject)
    (eOpCode : OpCode) (unPort : PortId) (xRibQueryTypeInfo : RibQueryTypeInfo) :
    Exec RibOut := do
  let pxRibd ← vRibLock pxRibd
  if !out.xMsgPool then .error .nullPointer
  else
    let (nInvokeID, invoke_id) := get_next_invoke_id pxRibd.invoke_id
    let pxRibd := { pxRibd with invoke_id := invoke_id }
    match xRibQueryTypeInfo.tracked with
    | some fnCb =>
      match xRibAddPendingResponse out pxRibd pxRibObj.ucObjName nInvokeID eOpCode fnCb with
      | (.SUCCESS, claimed, pxRibd) =>
        return { xStatus := out.outputStatus, pxRibd := vRibUnlock pxRibd,
                 sent := [⟨eOpCode, nInvokeID, unPort⟩], claimed := claimed }
      | (xStatus, claimed, pxRibd) =>
        return { xStatus := xStatus, pxRibd := vRibUnlock pxRibd, claimed := claimed }
    | none =>
      return { xStatus := out.outputStatus, pxRibd := vRibUnlock pxRibd,
               sent := [⟨eOpCode, 0, unPort⟩] }

/-- The replies of `xRibObjectReply` and `xRibObjectErr`. -/
def xRibObjectReply (out : Outcomes) (pxRibd : Ribd) (eOpCode : OpCode) (unPort : PortId)
    (unInvokeId : InvokeId) : Exec RibOut := do
  let pxRibd ← vRibLock pxRibd
  if !out.xMsgPool then .error .nullPointer
  else
    return { xStatus := out.outputStatus, pxRibd := vRibUnlock pxRibd,
             sent := [⟨eOpCode, unInvokeId, unPort⟩] }

/-! ### Connections -/

def Ribd.setConnection (pxRibd : Ribd) (x : Fin APP_CONNECTION_TABLE_SIZE)
    (row : AppConnection) : Ribd :=
  { pxRibd with xAppConnections := Function.update pxRibd.xAppConnections x row }

/-- A copy whose absent parts are empty. -/
def xNameAssignDup (pxSrc : Rname) : Rname where
  pcProcessName := some (pxSrc.pcProcessName.getD .empty)
  pcProcessInstance := some (pxSrc.pcProcessInstance.getD .empty)
  pcEntityName := some (pxSrc.pcEntityName.getD .empty)
  pcEntityInstance := some (pxSrc.pcProcessInstance.getD .empty)

/-- The row of a new connection, as far as its names are copied. -/
def newConnection (out : Outcomes) (row : AppConnection) (pxSrc pxDst : Rname)
    (unPort : PortId) : AppConnection :=
  { row with
    xSourceInfo := if out.sourceDup then xNameAssignDup pxSrc else row.xSourceInfo
    xDestinationInfo :=
      if out.sourceDup && out.destinationDup then xNameAssignDup pxDst
      else row.xDestinationInfo
    uCdapVersion := 0x01
    uRibVersion := 0x01
    xStatus := .CONNECTION_IN_PROGRESS
    unPort := unPort }

/-- A full table is reported with the mutex still held. -/
def xRibConnectionAdd (out : Outcomes) (pxRibd : Ribd) (pxSrc pxDst : Rname)
    (unPort : PortId) : Exec (RsErr × Ribd) := do
  let pxRibd ← vRibLock pxRibd
  match Fin.find? fun x => (pxRibd.xAppConnections x).xStatus == .CONNECTION_RELEASED with
  | some x =>
    let row := newConnection out (pxRibd.xAppConnections x) pxSrc pxDst unPort
    return (if out.sourceDup && out.destinationDup then .SUCCESS else .FAIL,
      vRibUnlock (pxRibd.setConnection x row))
  | none => return (.ERR_RIB_TOO_MANY_CONNECTIONS, pxRibd)

/-- A row which is in use for the port. -/
def AppConnection.live (row : AppConnection) (unPort : PortId) : Bool :=
  row.xStatus != .CONNECTION_RELEASED && row.unPort == unPort

def pxRibConnectionFind (pxRibd : Ribd) (unPort : PortId) :
    Option (Fin APP_CONNECTION_TABLE_SIZE) :=
  Fin.find? fun x => (pxRibd.xAppConnections x).live unPort

def vRibConnectionRelease (pxRibd : Ribd) (x : Fin APP_CONNECTION_TABLE_SIZE) : Ribd :=
  pxRibd.setConnection x .zero

/-! ### Incoming messages -/

def prvRibHandleConnect (out : Outcomes) (pxRibd : Ribd) (unPort : PortId)
    (pxAppCon : Option (Fin APP_CONNECTION_TABLE_SIZE)) (pxMsg : IncomingCdap) :
    Exec RibOut :=
  match pxAppCon with
  | none => do
    match ← xRibConnectionAdd out pxRibd pxMsg.xSourceInfo pxMsg.xDestinationInfo unPort with
    | (.SUCCESS, pxRibd) =>
      let pxRibd ← vRibLock pxRibd
      if !out.xMsgPool then .error .nullPointer
      else
        return { xStatus := out.outputStatus, pxRibd := vRibUnlock pxRibd,
                 sent := [⟨.M_CONNECT_R, pxMsg.nInvokeID, unPort⟩] }
    | (_, pxRibd) => return { xStatus := .FAIL, pxRibd := pxRibd }
  | some _ => return { xStatus := .ERR_RIB_CONNECTION_EXISTS, pxRibd := pxRibd }

def prvRibHandleConnectReply (pxRibd : Ribd)
    (pxAppCon : Option (Fin APP_CONNECTION_TABLE_SIZE)) : RibOut :=
  match pxAppCon with
  | none => { xStatus := .ERR_RIB_NO_SUCH_CONNECTION, pxRibd := pxRibd }
  | some x =>
    if (pxRibd.xAppConnections x).xStatus ≠ .CONNECTION_IN_PROGRESS then
      { xStatus := .ERR_RIB_BAD_CONNECTION_STATE, pxRibd := pxRibd }
    else
      { xStatus := .SUCCESS
        pxRibd := pxRibd.setConnection x
          { pxRibd.xAppConnections x with xStatus := .CONNECTION_OK } }

/-- A release with an invoke id is only answered. -/
def prvRibHandleRelease (out : Outcomes) (pxRibd : Ribd) (unPort : PortId)
    (pxAppCon : Option (Fin APP_CONNECTION_TABLE_SIZE)) (pxMsg : IncomingCdap) :
    Exec RibOut :=
  match pxAppCon with
  | none => .ok { xStatus := .ERR_RIB_NO_SUCH_CONNECTION, pxRibd := pxRibd }
  | some x =>
    if (pxRibd.xAppConnections x).xStatus = .CONNECTION_RELEASED then
      .ok { xStatus := .ERR_RIB_BAD_CONNECTION_STATE, pxRibd := pxRibd }
    else if pxMsg.nInvokeID ≠ 0 then
      xRibObjectReply out pxRibd .M_RELEASE_R unPort pxMsg.nInvokeID
    else .ok { xStatus := .SUCCESS, pxRibd := vRibConnectionRelease pxRibd x }

def prvRibHandleReleaseReply (pxRibd : Ribd)
    (pxAppCon : Option (Fin APP_CONNECTION_TABLE_SIZE)) : RibOut :=
  match pxAppCon with
  | none => { xStatus := .ERR_RIB_NO_SUCH_CONNECTION, pxRibd := pxRibd }
  | some x =>
    if (pxRibd.xAppConnections x).xStatus ≠ .CONNECTION_RELEASED then
      { xStatus := .ERR_RIB_BAD_CONNECTION_STATE, pxRibd := pxRibd }
    else
      { xStatus := .SUCCESS
        pxRibd := pxRibd.setConnection x
          { pxRibd.xAppConnections x with xStatus := .CONNECTION_RELEASED } }

/-- The operation of a reply is not compared with the one which was asked for, and the row
stays in the table. -/
def prvRibHandleAnyReply (out : Outcomes) (pxRibd : Ribd) (eOpCode : OpCode)
    (pxMsg : IncomingCdap) : Exec RibOut := do
  match ← xRibFindPendingResponse pxRibd pxMsg.nInvokeID with
  | (none, pxRibd) => return { xStatus := .ERR_RIB_NOT_PENDING, pxRibd := pxRibd }
  | (some x, pxRibd) =>
    match ← pxRibObjectFind pxRibd (pxRibd.xPendingReqs x).pcObjName with
    | none => return { xStatus := .ERR_RIB_OBJECT_UNSUPPORTED, pxRibd := pxRibd }
    | some pxRibObj =>
      match ← xRibGetObjectReplyMethod pxRibObj eOpCode with
      | none => return { xStatus := .ERR_RIB_OBJECT_UNSUP_METHOD, pxRibd := pxRibd }
      | some _ =>
        match out.replyMethod with
        | none => return { xStatus := .FAIL, pxRibd := pxRibd }
        | some pxResp =>
          match (pxRibd.xPendingReqs x).xRibResCb with
          | some _ =>
            return { xStatus := out.xRibResCb, pxRibd := pxRibd,
                     delivered := some ⟨x, eOpCode, pxMsg.nInvokeID, pxResp⟩ }
          | none =>
            return { xStatus := .SUCCESS,
                     pxRibd := pxRibd.setPending x
                       { pxRibd.xPendingReqs x with pxResp := pxResp },
                     delivered := some ⟨x, eOpCode, pxMsg.nInvokeID, pxResp⟩ }

def prvRibHandleAnyRequest (out : Outcomes) (pxRibd : Ribd) (eOpCode : OpCode)
    (pxMsg : IncomingCdap) : Exec RibOut := do
  match ← pxRibObjectFind pxRibd (some pxMsg.pcObjName) with
  | none => return { xStatus := .ERR_RIB_OBJECT_UNSUPPORTED, pxRibd := pxRibd }
  | some pxRibObj =>
    match ← xRibGetObjectMethod pxRibObj eOpCode with
    | none => return { xStatus := .ERR_RIB_OBJECT_UNSUP_METHOD, pxRibd := pxRibd }
    | some _ => return { xStatus := out.requestMethod, pxRibd := pxRibd }

/-- The handling of a message, with the status of its handler, which goes no further than
the log. The name of a number which is no operation lies outside the table of names. -/
def xRibNormalIncoming (out : Outcomes) (pxRibd : Ribd) (pxDecodeCdap : IncomingCdap)
    (unPort : PortId) : Exec RibOut :=
  let pxAppCon := pxRibConnectionFind pxRibd unPort
  match pxDecodeCdap.eOpCode with
  | none => .error .outOfBounds
  | some eOpCode =>
    match eOpCode with
    | .M_CONNECT => prvRibHandleConnect out pxRibd unPort pxAppCon pxDecodeCdap
    | .M_CONNECT_R => .ok (prvRibHandleConnectReply pxRibd pxAppCon)
    | .M_RELEASE => prvRibHandleRelease out pxRibd unPort pxAppCon pxDecodeCdap
    | .M_RELEASE_R => .ok (prvRibHandleReleaseReply pxRibd pxAppCon)
    | .M_CREATE | .M_DELETE | .M_READ | .M_WRITE | .M_START | .M_STOP =>
      prvRibHandleAnyRequest out pxRibd eOpCode pxDecodeCdap
    | .M_CREATE_R | .M_DELETE_R | .M_READ_R | .M_WRITE_R | .M_START_R | .M_STOP_R =>
      prvRibHandleAnyReply out pxRibd eOpCode pxDecodeCdap
    | .M_CANCELREAD | .M_CANCELREAD_R => .ok { xStatus := out.stale, pxRibd := pxRibd }

end RinaSense.Rib
