import RinaSense.Common.ErrorMessages
import RinaSense.Rib.Incoming
import RinaSense.Rib.Lock
import RinaSense.Rib.WaitDeadline

/-!
# Reports of the RIB

The errors which the handlers of the messages and the wait for a reply set, with the arguments for
their messages. A handler sets one error at most, and returns its status.
-/

namespace RinaSense.Rib

open Common SerDes Library.Memory

/-! ### What is reported -/

/-- The word of a status. An error of the system sets no bit of it. -/
def RsErr.word : RsErr → RsErrT
  | .SUCCESS => Common.SUCCESS
  | .FAIL => Common.FAIL
  | .ERR_RIB_TABLE_FULL => Common.ERR_RIB_TABLE_FULL
  | .ERR_RIB_NOT_PENDING => Common.ERR_RIB_NOT_PENDING
  | .ERR_RIB_TOO_MANY_CONNECTIONS => Common.ERR_RIB_TOO_MANY_CONNECTIONS
  | .ERR_RIB_NO_SUCH_CONNECTION => Common.ERR_RIB_NO_SUCH_CONNECTION
  | .ERR_RIB_OBJECT_UNSUPPORTED => Common.ERR_RIB_OBJECT_UNSUPPORTED
  | .ERR_RIB_OBJECT_UNSUP_METHOD => Common.ERR_RIB_OBJECT_UNSUP_METHOD
  | .ERR_RIB_BAD_CONNECTION_STATE => Common.ERR_RIB_BAD_CONNECTION_STATE
  | .ERR_RIB_CONNECTION_EXISTS => Common.ERR_RIB_CONNECTION_EXISTS
  | .ERR_RIB_TIMEOUT => Common.ERR_RIB_TIMEOUT
  | .ERR_RIB_NEIGHBOR_NOT_FOUND => Common.ERR_RIB_NEIGHBOR_NOT_FOUND
  | .ERR_PTHREAD => Common.ERR_PTHREAD
  | .ERRNO => Common.SUCCESS

/-- `prvRibHandleConnect`. -/
def handleConnectReport (pxAppCon : Option (Fin APP_CONNECTION_TABLE_SIZE)) : Option Report :=
  pxAppCon.map fun _ => .ERR_SET ERR_RIB_CONNECTION_EXISTS

/-- The handlers which look at the state of the connection. -/
def connectionReport (pxRibd : Ribd) (wrong : ConnectionStatus → Bool)
    (pxAppCon : Option (Fin APP_CONNECTION_TABLE_SIZE)) : Option Report :=
  match pxAppCon with
  | none => some (.ERR_SET ERR_RIB_NO_SUCH_CONNECTION)
  | some x =>
    if wrong (pxRibd.xAppConnections x).xStatus then
      some (.ERR_SET ERR_RIB_BAD_CONNECTION_STATE)
    else none

/-- `prvRibHandleConnectReply`. -/
def handleConnectReplyReport (pxRibd : Ribd) : Option (Fin APP_CONNECTION_TABLE_SIZE) →
    Option Report :=
  connectionReport pxRibd (· != .CONNECTION_IN_PROGRESS)

/-- `prvRibHandleRelease`. -/
def handleReleaseReport (pxRibd : Ribd) : Option (Fin APP_CONNECTION_TABLE_SIZE) →
    Option Report :=
  connectionReport pxRibd (· == .CONNECTION_RELEASED)

/-- `prvRibHandleReleaseReply`. -/
def handleReleaseReplyReport (pxRibd : Ribd) : Option (Fin APP_CONNECTION_TABLE_SIZE) →
    Option Report :=
  connectionReport pxRibd (· != .CONNECTION_RELEASED)

def opcodeName (eOpCode : OpCode) : Exec String :=
  inBounds opcodeNamesTable[opCodes.idxOf eOpCode]?

/-- The handlers which look up an object and its method. -/
def objectReport (found : Exec (Option RibObject)) (method : RibObject → Exec (Option FnPtr))
    (eOpCode : OpCode) (pcObjName : CString) : Exec (Option Report) := do
  match ← found with
  | none => return some (.ERR_SETF ERR_RIB_OBJECT_UNSUPPORTED [.string pcObjName])
  | some pxRibObj =>
    match ← method pxRibObj with
    | none => do
      let name ← opcodeName eOpCode
      return some (.ERR_SETF ERR_RIB_OBJECT_UNSUP_METHOD
        [.literal name, .string pxRibObj.ucObjName])
    | some _ => return none

/-- `prvRibHandleAnyReply`. -/
def handleAnyReplyReport (pxRibd : Ribd) (eOpCode : OpCode) (pxMsg : IncomingCdap) :
    Exec (Option Report) := do
  match ← xRibFindPendingResponse pxRibd pxMsg.nInvokeID with
  | (none, _) => return some (.ERR_SETF ERR_RIB_NOT_PENDING [.int pxMsg.nInvokeID])
  | (some x, pxRibd) =>
    objectReport (pxRibObjectFind pxRibd (pxRibd.xPendingReqs x).pcObjName)
      (xRibGetObjectReplyMethod · eOpCode) eOpCode pxMsg.pcObjName

/-- `prvRibHandleAnyRequest`. -/
def handleAnyRequestReport (pxRibd : Ribd) (eOpCode : OpCode) (pxMsg : IncomingCdap) :
    Exec (Option Report) :=
  objectReport (pxRibObjectFind pxRibd (some pxMsg.pcObjName)) (xRibGetObjectMethod · eOpCode)
    eOpCode pxMsg.pcObjName

/-- What the handler of a message reports. -/
def Ribd.report (pxRibd : Ribd) (pxMsg : IncomingCdap) (unPort : PortId) :
    Exec (Option Report) :=
  let pxAppCon := pxRibConnectionFind pxRibd unPort
  match pxMsg.eOpCode with
  | none => .ok none
  | some eOpCode =>
    match eOpCode with
    | .M_CONNECT => .ok (handleConnectReport pxAppCon)
    | .M_CONNECT_R => .ok (handleConnectReplyReport pxRibd pxAppCon)
    | .M_RELEASE => .ok (handleReleaseReport pxRibd pxAppCon)
    | .M_RELEASE_R => .ok (handleReleaseReplyReport pxRibd pxAppCon)
    | .M_CREATE | .M_DELETE | .M_READ | .M_WRITE | .M_START | .M_STOP =>
      handleAnyRequestReport pxRibd eOpCode pxMsg
    | .M_CREATE_R | .M_DELETE_R | .M_READ_R | .M_WRITE_R | .M_START_R | .M_STOP_R =>
      handleAnyReplyReport pxRibd eOpCode pxMsg
    | .M_CANCELREAD | .M_CANCELREAD_R => .ok none

/-- What `xRibObjectWaitReply` reports. Without a clock it takes the text of the system. -/
def waitReplyReport (pf : Platform) (clock : OsCall ClockTime)
    (pxPendingReq : Option (Option ℕ)) (pthread_cond_timedwait : Timespec → UInt32 × Option ℕ)
    (pxTimeout : UInt32) : Exec (Option Report) := do
  let xTs ← rstime_waitusec pf (clock.toOption.map Subtype.val) pxTimeout
  match xTs with
  | none => return none
  | some xTs =>
    match pxPendingReq with
    | none => return some (.ERR_SET ERR_RIB_NOT_PENDING)
    | some (some _) => return none
    | some none =>
      return if (pthread_cond_timedwait xTs).1 = ETIMEDOUT then some (.ERR_SET ERR_RIB_TIMEOUT)
        else none

/-! ### The reports of the handlers -/

/-- The object is not there, or it has no method for the operation. -/
def Unserved (found : Exec (Option RibObject)) (method : RibObject → Exec (Option FnPtr)) : Prop :=
  found = .ok none ∨ lacksMethod found method = true

section Object

variable {found : Exec (Option RibObject)} {method : RibObject → Exec (Option FnPtr)}
  {eOpCode : OpCode} {pcObjName : CString} {report : Report}

theorem opcodeName_ok (eOpCode : OpCode) : ∃ name, opcodeName eOpCode = .ok name := by
  cases eOpCode <;> exact ⟨_, rfl⟩

/-- The two errors of a lookup. -/
theorem objectReport_cases
    (hreport : objectReport found method eOpCode pcObjName = .ok (some report)) :
    (found = .ok none ∧ report = .ERR_SETF ERR_RIB_OBJECT_UNSUPPORTED [.string pcObjName]) ∨
      ∃ pxRibObj name, found = .ok (some pxRibObj) ∧ method pxRibObj = .ok none ∧
        report = .ERR_SETF ERR_RIB_OBJECT_UNSUP_METHOD
          [.literal name, .string pxRibObj.ucObjName] := by
  obtain ⟨obj, hfound, hreport⟩ := Exec.bind_eq_ok.mp hreport
  cases obj with
  | none =>
    cases hreport
    exact Or.inl ⟨hfound, rfl⟩
  | some pxRibObj =>
    obtain ⟨fn, hmethod, hreport⟩ := Exec.bind_eq_ok.mp hreport
    cases fn with
    | none =>
      obtain ⟨name, -, hreport⟩ := Exec.bind_eq_ok.mp hreport
      cases hreport
      exact Or.inr ⟨pxRibObj, name, hfound, hmethod, rfl⟩
    | some fn => cases hreport

theorem objectReport_exists (hno : Unserved found method) (eOpCode : OpCode)
    (pcObjName : CString) :
    ∃ report, objectReport found method eOpCode pcObjName = .ok (some report) := by
  rcases hno with rfl | hlacks
  · exact ⟨_, rfl⟩
  · unfold lacksMethod at hlacks
    split at hlacks
    · split at hlacks
      · rename_i pxRibObj _ hmethod
        obtain ⟨name, hname⟩ := opcodeName_ok eOpCode
        refine ⟨.ERR_SETF ERR_RIB_OBJECT_UNSUP_METHOD
          [.literal name, .string pxRibObj.ucObjName], ?_⟩
        simp only [objectReport, Exec.ok_bind, hmethod, hname]
        rfl
      · cases hlacks
    · cases hlacks

/-- A status whose message is elsewhere in the table. -/
theorem setf_not_proper {x : RsErrT} {msg : String} (hstated : statedMessage x = some msg)
    (hget : xErrorGetMsg x ≠ .ok msg) (args : List Arg) : ¬ (Report.ERR_SETF x args).Proper := by
  rintro ⟨found, hfound, hmsg, -⟩
  cases hstated.symm.trans hmsg
  exact hget hfound

theorem unsupported_not_proper (args : List Arg) :
    ¬ (Report.ERR_SETF ERR_RIB_OBJECT_UNSUPPORTED args).Proper := by
  have hstated : statedMessage ERR_RIB_OBJECT_UNSUPPORTED =
      some "Unsupported RIB object: '%s'" := by decide
  exact setf_not_proper hstated (by decide) args

theorem unsupMethod_not_proper (args : List Arg) :
    ¬ (Report.ERR_SETF ERR_RIB_OBJECT_UNSUP_METHOD args).Proper := by
  have hstated : statedMessage ERR_RIB_OBJECT_UNSUP_METHOD =
      some "Unsupported method %s on RIB object '%s'" := by decide
  exact setf_not_proper hstated (by decide) args

/-- None of the errors of a lookup is reported with its message. -/
theorem objectReport_proper_iff :
    (∀ report, objectReport found method eOpCode pcObjName = .ok (some report) → report.Proper) ↔
      ¬ Unserved found method := by
  constructor
  · intro hall hno
    obtain ⟨report, hreport⟩ := objectReport_exists hno eOpCode pcObjName
    have hproper := hall report hreport
    rcases objectReport_cases hreport with ⟨-, rfl⟩ | ⟨_, _, -, -, rfl⟩
    · exact unsupported_not_proper _ hproper
    · exact unsupMethod_not_proper _ hproper
  · intro hserved report hreport
    refine absurd ?_ hserved
    rcases objectReport_cases hreport with ⟨hfound, -⟩ | ⟨pxRibObj, _, hfound, hmethod, -⟩
    · exact Or.inl hfound
    · refine Or.inr ?_
      simp only [lacksMethod, hfound, hmethod]

end Object

/-- The id which is not pending is a number, as its message has it. -/
theorem notPending_proper (nInvokeID : InvokeId) :
    (Report.ERR_SETF ERR_RIB_NOT_PENDING [.int nInvokeID]).Proper := by
  have hget : xErrorGetMsg ERR_RIB_NOT_PENDING =
      .ok "No pending RIB requests found for invoke ID %d" := by decide
  refine ⟨_, hget, ?_, ?_⟩
  · change statedMessage ERR_RIB_NOT_PENDING = _
    decide
  · change conversions "No pending RIB requests found for invoke ID %d" = [.d]
    decide

/-- The reports of the handlers which look at the connection. -/
theorem connection_not_proper :
    ¬ (Report.ERR_SET ERR_RIB_NO_SUCH_CONNECTION).Proper ∧
      ¬ (Report.ERR_SET ERR_RIB_BAD_CONNECTION_STATE).Proper ∧
      ¬ (Report.ERR_SET ERR_RIB_CONNECTION_EXISTS).Proper := by
  decide

/-- The statuses of the wait. -/
theorem wait_not_proper :
    ¬ (Report.ERR_SET ERR_RIB_NOT_PENDING).Proper ∧
      ¬ (Report.ERR_SET ERR_RIB_TIMEOUT).Proper := by
  decide

variable {r : Ribd} {pxMsg : IncomingCdap} {unPort : PortId}

theorem connectionReport_proper_iff {wrong : ConnectionStatus → Bool}
    {pxAppCon : Option (Fin APP_CONNECTION_TABLE_SIZE)} :
    (∀ report, connectionReport r wrong pxAppCon = some report → report.Proper) ↔
      ∃ x, pxAppCon = some x ∧ wrong (r.xAppConnections x).xStatus = false := by
  obtain ⟨hnone, hbad, -⟩ := connection_not_proper
  cases pxAppCon with
  | none => exact iff_of_false (fun hall => hnone (hall _ rfl)) (by simp)
  | some x =>
    cases hwrong : wrong (r.xAppConnections x).xStatus with
    | true =>
      refine iff_of_false (fun hall => hbad (hall _ ?_)) ?_
      · simp only [connectionReport, hwrong, if_true]
      · rintro ⟨_, ⟨rfl⟩, hright⟩
        cases hwrong.symm.trans hright
    | false =>
      refine iff_of_true (fun report hreport => ?_) ⟨x, rfl, hwrong⟩
      simp only [connectionReport, hwrong, Bool.false_eq_true, if_false] at hreport
      cases hreport

/-- The handling of the message gets to no error with a message of its own but that of an id which
is not pending. -/
def Ribd.Serves (r : Ribd) (pxMsg : IncomingCdap) (unPort : PortId) : Prop :=
  match pxMsg.eOpCode with
  | none => True
  | some eOpCode =>
    match eOpCode with
    | .M_CONNECT => pxRibConnectionFind r unPort = none
    | .M_CONNECT_R => ∃ x, pxRibConnectionFind r unPort = some x ∧
        (r.xAppConnections x).xStatus = .CONNECTION_IN_PROGRESS
    | .M_RELEASE => ∃ x, pxRibConnectionFind r unPort = some x
    | .M_RELEASE_R => False
    | .M_CREATE | .M_DELETE | .M_READ | .M_WRITE | .M_START | .M_STOP =>
      ¬ Unserved (pxRibObjectFind r (some pxMsg.pcObjName)) (xRibGetObjectMethod · eOpCode)
    | .M_CREATE_R | .M_DELETE_R | .M_READ_R | .M_WRITE_R | .M_START_R | .M_STOP_R =>
      ∀ x r', xRibFindPendingResponse r pxMsg.nInvokeID = .ok (some x, r') →
        ¬ Unserved (pxRibObjectFind r' (r'.xPendingReqs x).pcObjName)
          (xRibGetObjectReplyMethod · eOpCode)
    | .M_CANCELREAD | .M_CANCELREAD_R => True

theorem handleAnyReplyReport_proper_iff (eOpCode : OpCode) :
    (∀ report, handleAnyReplyReport r eOpCode pxMsg = .ok (some report) → report.Proper) ↔
      ∀ x r', xRibFindPendingResponse r pxMsg.nInvokeID = .ok (some x, r') →
        ¬ Unserved (pxRibObjectFind r' (r'.xPendingReqs x).pcObjName)
          (xRibGetObjectReplyMethod · eOpCode) := by
  unfold handleAnyReplyReport
  cases hfind : xRibFindPendingResponse r pxMsg.nInvokeID with
  | error t =>
    refine iff_of_true (fun report hreport => ?_) (fun x r' hrow => ?_)
    · cases hreport
    · cases hrow
  | ok found =>
    obtain ⟨row, r'⟩ := found
    cases row with
    | none =>
      refine iff_of_true (fun report hreport => ?_) (fun x r'' hrow => ?_)
      · cases hreport
        exact notPending_proper pxMsg.nInvokeID
      · cases hrow
    | some x =>
      simp only [Exec.ok_bind, objectReport_proper_iff]
      constructor
      · rintro hserved _ _ ⟨rfl, rfl⟩
        exact hserved
      · intro hall
        exact hall x r' rfl

/-- A connection which is found is not released, so that a reply to a release is never right. -/
theorem releaseReply_not_proper (r : Ribd) (unPort : PortId) :
    ¬ ∀ report, handleReleaseReplyReport r (pxRibConnectionFind r unPort) = some report →
      report.Proper := by
  rw [handleReleaseReplyReport, connectionReport_proper_iff]
  rintro ⟨x, hfind, hreleased⟩
  have hlive := AppConnection.live_iff.mp (pxRibConnectionFind_live hfind)
  exact hlive.1 (by simpa using hreleased)

theorem release_proper_iff (r : Ribd) (unPort : PortId) :
    (∀ report, handleReleaseReport r (pxRibConnectionFind r unPort) = some report →
      report.Proper) ↔ ∃ x, pxRibConnectionFind r unPort = some x := by
  rw [handleReleaseReport, connectionReport_proper_iff]
  constructor
  · rintro ⟨x, hfind, -⟩
    exact ⟨x, hfind⟩
  · rintro ⟨x, hfind⟩
    have hlive := AppConnection.live_iff.mp (pxRibConnectionFind_live hfind)
    exact ⟨x, hfind, by simpa using hlive.1⟩

theorem connectReply_proper_iff (r : Ribd) (unPort : PortId) :
    (∀ report, handleConnectReplyReport r (pxRibConnectionFind r unPort) = some report →
      report.Proper) ↔ ∃ x, pxRibConnectionFind r unPort = some x ∧
        (r.xAppConnections x).xStatus = .CONNECTION_IN_PROGRESS := by
  rw [handleConnectReplyReport, connectionReport_proper_iff]
  simp

theorem connect_proper_iff (r : Ribd) (unPort : PortId) :
    (∀ report, handleConnectReport (pxRibConnectionFind r unPort) = some report →
      report.Proper) ↔ pxRibConnectionFind r unPort = none := by
  cases pxRibConnectionFind r unPort with
  | none => exact iff_of_true (fun report hreport => by cases hreport) rfl
  | some x =>
    exact iff_of_false (fun hall => connection_not_proper.2.2 (hall _ rfl)) (by simp)

/-- A message is reported with its messages exactly when the RIB serves it, up to the id. -/
theorem report_proper_iff (r : Ribd) (pxMsg : IncomingCdap) (unPort : PortId) :
    (∀ report, r.report pxMsg unPort = .ok (some report) → report.Proper) ↔
      r.Serves pxMsg unPort := by
  unfold Ribd.report Ribd.Serves
  cases pxMsg.eOpCode with
  | none => simp
  | some eOpCode =>
    cases eOpCode with
    | M_CONNECT => simpa only [Except.ok.injEq] using connect_proper_iff r unPort
    | M_CONNECT_R => simpa only [Except.ok.injEq] using connectReply_proper_iff r unPort
    | M_RELEASE => simpa only [Except.ok.injEq] using release_proper_iff r unPort
    | M_RELEASE_R =>
      simpa only [Except.ok.injEq, iff_false] using releaseReply_not_proper r unPort
    | M_CREATE | M_DELETE | M_READ | M_WRITE | M_START | M_STOP => exact objectReport_proper_iff
    | M_CREATE_R | M_DELETE_R | M_READ_R | M_WRITE_R | M_START_R | M_STOP_R =>
      exact handleAnyReplyReport_proper_iff _
    | M_CANCELREAD | M_CANCELREAD_R => simp

/-! ### The status of a report -/

variable {out : Outcomes} {report : Report}

theorem connectionReport_status {wrong : ConnectionStatus → Bool}
    {pxAppCon : Option (Fin APP_CONNECTION_TABLE_SIZE)}
    (hreport : connectionReport r wrong pxAppCon = some report) :
    (pxAppCon = none ∧ report.status = ERR_RIB_NO_SUCH_CONNECTION) ∨
      ∃ x, pxAppCon = some x ∧ wrong (r.xAppConnections x).xStatus = true ∧
        report.status = ERR_RIB_BAD_CONNECTION_STATE := by
  cases pxAppCon with
  | none =>
    cases hreport
    exact Or.inl ⟨rfl, rfl⟩
  | some x =>
    unfold connectionReport at hreport
    simp only at hreport
    split_ifs at hreport with hwrong
    cases hreport
    exact Or.inr ⟨x, rfl, hwrong, rfl⟩

theorem handleAnyRequest_status (out : Outcomes) {eOpCode : OpCode}
    (hreport : handleAnyRequestReport r eOpCode pxMsg = .ok (some report)) :
    ∃ o, prvRibHandleAnyRequest out r eOpCode pxMsg = .ok o ∧ o.xStatus.word = report.status := by
  rcases objectReport_cases hreport with ⟨hfound, rfl⟩ | ⟨pxRibObj, _, hfound, hmethod, rfl⟩
  · refine ⟨{ xStatus := .ERR_RIB_OBJECT_UNSUPPORTED, pxRibd := r }, ?_, rfl⟩
    simp only [prvRibHandleAnyRequest, hfound, Exec.ok_bind]
    rfl
  · refine ⟨{ xStatus := .ERR_RIB_OBJECT_UNSUP_METHOD, pxRibd := r }, ?_, rfl⟩
    simp only [prvRibHandleAnyRequest, hfound, Exec.ok_bind, hmethod]
    rfl

theorem handleAnyReply_status (out : Outcomes) {eOpCode : OpCode}
    (hreport : handleAnyReplyReport r eOpCode pxMsg = .ok (some report)) :
    ∃ o, prvRibHandleAnyReply out r eOpCode pxMsg = .ok o ∧ o.xStatus.word = report.status := by
  obtain ⟨⟨row, r'⟩, hfind, hreport⟩ := Exec.bind_eq_ok.mp hreport
  cases row with
  | none =>
    cases hreport
    refine ⟨{ xStatus := .ERR_RIB_NOT_PENDING, pxRibd := r' }, ?_, rfl⟩
    simp only [prvRibHandleAnyReply, hfind, Exec.ok_bind]
    rfl
  | some x =>
    rcases objectReport_cases hreport with ⟨hfound, rfl⟩ | ⟨pxRibObj, _, hfound, hmethod, rfl⟩
    · refine ⟨{ xStatus := .ERR_RIB_OBJECT_UNSUPPORTED, pxRibd := r' }, ?_, rfl⟩
      simp only [prvRibHandleAnyReply, hfind, Exec.ok_bind, hfound]
      rfl
    · refine ⟨{ xStatus := .ERR_RIB_OBJECT_UNSUP_METHOD, pxRibd := r' }, ?_, rfl⟩
      simp only [prvRibHandleAnyReply, hfind, Exec.ok_bind, hfound, hmethod]
      rfl

theorem handleConnect_status (out : Outcomes) {pxAppCon : Option (Fin APP_CONNECTION_TABLE_SIZE)}
    (hreport : handleConnectReport pxAppCon = some report) :
    ∃ o, prvRibHandleConnect out r unPort pxAppCon pxMsg = .ok o ∧
      o.xStatus.word = report.status := by
  cases pxAppCon with
  | none => cases hreport
  | some x =>
    cases hreport
    exact ⟨_, rfl, rfl⟩

theorem handleConnectReply_status {pxAppCon : Option (Fin APP_CONNECTION_TABLE_SIZE)}
    (hreport : handleConnectReplyReport r pxAppCon = some report) :
    (prvRibHandleConnectReply r pxAppCon).xStatus.word = report.status := by
  rcases connectionReport_status hreport with ⟨rfl, hstatus⟩ | ⟨x, rfl, hwrong, hstatus⟩
  · exact hstatus.symm
  · rw [prvRibHandleConnectReply, if_pos (by simpa using hwrong)]
    exact hstatus.symm

theorem handleRelease_status (out : Outcomes) {pxAppCon : Option (Fin APP_CONNECTION_TABLE_SIZE)}
    (hreport : handleReleaseReport r pxAppCon = some report) :
    ∃ o, prvRibHandleRelease out r unPort pxAppCon pxMsg = .ok o ∧
      o.xStatus.word = report.status := by
  rcases connectionReport_status hreport with ⟨rfl, hstatus⟩ | ⟨x, rfl, hwrong, hstatus⟩
  · exact ⟨_, rfl, hstatus.symm⟩
  · rw [prvRibHandleRelease, if_pos (by simpa using hwrong)]
    exact ⟨_, rfl, hstatus.symm⟩

theorem handleReleaseReply_status {pxAppCon : Option (Fin APP_CONNECTION_TABLE_SIZE)}
    (hreport : handleReleaseReplyReport r pxAppCon = some report) :
    (prvRibHandleReleaseReply r pxAppCon).xStatus.word = report.status := by
  rcases connectionReport_status hreport with ⟨rfl, hstatus⟩ | ⟨x, rfl, hwrong, hstatus⟩
  · exact hstatus.symm
  · rw [prvRibHandleReleaseReply, if_pos (by simpa using hwrong)]
    exact hstatus.symm

/-- The error which a handler reports is the one it returns. -/
theorem report_status (out : Outcomes) (hreport : r.report pxMsg unPort = .ok (some report)) :
    ∃ o, xRibNormalIncoming out r pxMsg unPort = .ok o ∧ o.xStatus.word = report.status := by
  unfold Ribd.report at hreport
  unfold xRibNormalIncoming
  cases hop : pxMsg.eOpCode with
  | none =>
    rw [hop] at hreport
    cases hreport
  | some eOpCode =>
    rw [hop] at hreport
    cases eOpCode with
    | M_CONNECT => exact handleConnect_status out (Except.ok.inj hreport)
    | M_CONNECT_R => exact ⟨_, rfl, handleConnectReply_status (Except.ok.inj hreport)⟩
    | M_RELEASE => exact handleRelease_status out (Except.ok.inj hreport)
    | M_RELEASE_R => exact ⟨_, rfl, handleReleaseReply_status (Except.ok.inj hreport)⟩
    | M_CREATE | M_DELETE | M_READ | M_WRITE | M_START | M_STOP =>
      exact handleAnyRequest_status out hreport
    | M_CREATE_R | M_DELETE_R | M_READ_R | M_WRITE_R | M_START_R | M_STOP_R =>
      exact handleAnyReply_status out hreport
    | M_CANCELREAD | M_CANCELREAD_R => cases hreport

/-! ### The wait -/

section Wait

variable {pf : Platform} {clock : OsCall ClockTime} {pxPendingReq : Option (Option ℕ)}
  {pthread_cond_timedwait : Timespec → UInt32 × Option ℕ} {pxTimeout : UInt32}

/-- The wait does not get to its errors: there is no time, the response is there, or it comes
before the deadline. -/
def WaitServed (pf : Platform) (clock : OsCall ClockTime) (pxPendingReq : Option (Option ℕ))
    (pthread_cond_timedwait : Timespec → UInt32 × Option ℕ) (pxTimeout : UInt32) : Prop :=
  ∀ now, clock = .ok now → ∃ pxResp, pxPendingReq = some pxResp ∧
    (pxResp = none → ∀ xTs, rstime_waitusec pf (some now.val) pxTimeout = .ok (some xTs) →
      (pthread_cond_timedwait xTs).1 ≠ ETIMEDOUT)

/-- What is reported once the deadline is known. -/
theorem waitReplyReport_eq {now : ClockTime} {xTs : Timespec}
    (hdeadline : rstime_waitusec pf (some now.val) pxTimeout = .ok (some xTs)) :
    waitReplyReport pf (.ok now) pxPendingReq pthread_cond_timedwait pxTimeout =
      .ok (match pxPendingReq with
        | none => some (.ERR_SET ERR_RIB_NOT_PENDING)
        | some (some _) => none
        | some none => if (pthread_cond_timedwait xTs).1 = ETIMEDOUT then
            some (.ERR_SET ERR_RIB_TIMEOUT) else none) := by
  have hclock : (Except.toOption (Except.ok now : OsCall ClockTime)).map Subtype.val =
      some now.val := rfl
  simp only [waitReplyReport, hclock, hdeadline, Exec.ok_bind]
  rcases pxPendingReq with _ | _ | pxResp <;> rfl

/-- The status of a report is the one which the wait returns. -/
theorem waitReply_status
    (hreport : waitReplyReport pf clock pxPendingReq pthread_cond_timedwait pxTimeout =
      .ok (some report)) :
    xRibObjectWaitReply pf clock pxPendingReq pthread_cond_timedwait pxTimeout =
      .ok (report.status, none) := by
  obtain ⟨xTs, hdeadline, hreport⟩ := Exec.bind_eq_ok.mp hreport
  simp only [xRibObjectWaitReply, hdeadline, Exec.ok_bind, ERR_SET_eq]
  rcases xTs with _ | xTs
  · cases hreport
  · rcases pxPendingReq with _ | _ | pxResp
    · cases hreport
      rfl
    · simp only at hreport ⊢
      split_ifs at hreport ⊢ with htimeout
      · cases hreport
        rfl
      · cases hreport
    · cases hreport

/-- The wait reports nothing but its two errors, neither of which has its message. -/
theorem waitReply_proper_iff (pf : Platform) (clock : OsCall ClockTime)
    (pxPendingReq : Option (Option ℕ)) (pthread_cond_timedwait : Timespec → UInt32 × Option ℕ)
    (pxTimeout : UInt32) :
    (∀ report, waitReplyReport pf clock pxPendingReq pthread_cond_timedwait pxTimeout =
      .ok (some report) → report.Proper) ↔
      WaitServed pf clock pxPendingReq pthread_cond_timedwait pxTimeout := by
  obtain ⟨hpending, htimeout⟩ := wait_not_proper
  cases clock with
  | error errno =>
    refine iff_of_true (fun report hreport => ?_) (fun now hnow => ?_)
    · cases hreport
    · cases hnow
  | ok now =>
    obtain ⟨xTs, hdeadline, -⟩ := @rstime_waitnsec_spec pf _ now.property
      (pxTimeout * 1000).toUInt64
    rw [waitReplyReport_eq hdeadline]
    rcases pxPendingReq with _ | _ | pxResp
    · refine iff_of_false (fun hall => hpending (hall _ rfl)) (fun hserved => ?_)
      obtain ⟨_, hrow, -⟩ := hserved now rfl
      cases hrow
    · by_cases htimed : (pthread_cond_timedwait xTs).1 = ETIMEDOUT
      · refine iff_of_false (fun hall => htimeout (hall _ ?_)) (fun hserved => ?_)
        · simp only [htimed, if_true]
        · obtain ⟨_, ⟨rfl⟩, hwait⟩ := hserved now rfl
          exact hwait rfl xTs hdeadline htimed
      · refine iff_of_true (fun report hreport => ?_) ?_
        · simp only [htimed, if_false] at hreport
          cases hreport
        · rintro _ ⟨rfl⟩
          refine ⟨none, rfl, fun _ xTs' hdeadline' => ?_⟩
          cases hdeadline.symm.trans hdeadline'
          exact htimed
    · refine iff_of_true (fun report hreport => by cases hreport) ?_
      rintro _ ⟨rfl⟩
      exact ⟨some pxResp, rfl, fun hnone => by cases hnone⟩

end Wait

/-! ### All reports -/

/-- What the handling of a message, a wait for a reply and a failed thread call report is found in
the table, is the message of the status and takes the arguments exactly when the RIB serves the
message, up to its id, the wait gets to none of its errors, and no thread call fails. The message
of a failed thread call is found for numbers below 256, without an argument for it. -/
theorem reports_proper_iff (r : Ribd) (pxMsg : IncomingCdap) (unPort : PortId) (pf : Platform)
    (clock : OsCall ClockTime) (pxPendingReq : Option (Option ℕ))
    (pthread_cond_timedwait : Timespec → UInt32 × Option ℕ) (pxTimeout n : UInt32) :
    ((∀ report, r.report pxMsg unPort = .ok (some report) → report.Proper) ↔
      r.Serves pxMsg unPort) ∧
    ((∀ report, waitReplyReport pf clock pxPendingReq pthread_cond_timedwait pxTimeout =
      .ok (some report) → report.Proper) ↔
        WaitServed pf clock pxPendingReq pthread_cond_timedwait pxTimeout) ∧
    ¬ (Report.ERR_SET_PTHREAD n).Proper ∧
      (xErrorGetMsg (Report.ERR_SET_PTHREAD n).word = .ok "pthread error: %d" ↔
        n.toNat % 65536 < 256) :=
  ⟨report_proper_iff r pxMsg unPort, waitReply_proper_iff pf clock pxPendingReq
    pthread_cond_timedwait pxTimeout, pthread_not_proper n, pthread_message_iff n⟩

/-- A request to read an object which the RIB does not have. -/
def unknownRead (pcObjName : CString) : IncomingCdap :=
  ⟨some .M_READ, ⟨none, none, none, none⟩, ⟨none, none, none, none⟩, 1, pcObjName⟩

/-- The name of an object which is not there is given to a format for two strings. -/
theorem unknown_object_report :
    (Ribd.init true).report (unknownRead .empty) 1 =
        .ok (some (.ERR_SETF ERR_RIB_OBJECT_UNSUPPORTED [.string .empty])) ∧
      xErrorGetMsg ERR_RIB_OBJECT_UNSUPPORTED = .ok "Unsupported method %s on RIB object '%s'" ∧
      ¬ (Report.ERR_SETF ERR_RIB_OBJECT_UNSUPPORTED [.string .empty]).Proper :=
  ⟨by rfl, by decide, unsupported_not_proper _⟩

end RinaSense.Rib
