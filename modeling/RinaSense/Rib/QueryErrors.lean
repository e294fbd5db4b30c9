import RinaSense.Rib.Pending
import RinaSense.SerDes.RoundTrip

/-!
# Errors of a query

`xRibObjectQuery` with the message it makes and the steps of the output functions. A tracked
query takes its row before the steps which can fail, and none of them gives it back.
-/

namespace RinaSense.Rib

open Common SerDes Library.Memory

/-- Whether an object which was made has been given back. -/
inductive Life
  | live
  | released
deriving DecidableEq, Repr

def Life.release : Life → Exec Life
  | .live => .ok .released
  | .released => .error .abort

/-- What the steps of a query come to. -/
structure QueryOutcomes where
  /-- The pool has memory for a message. -/
  xMsgPool : Bool
  /-- The names of the message are allocated. -/
  destinationDup : Bool
  sourceDup : Bool
  /-- The calls which make the mutex and the condition of a row succeed. -/
  mutexInit : Bool
  condInit : Bool
  mem : Memory
  pxNetBufNew : Bool
  xSendEventStructToIPCPTask : Bool
  /-- What the calls behind the input function come to, for the loopback. -/
  fnRibInput : Outcomes

/-- An object with what a message says of it. -/
structure QueriedObject extends RibObject where
  ucObjClass : CString
  ulObjInst : ℤ

/-- `CFG_MANAGEMENT_AE`, the word Management. -/
def CFG_MANAGEMENT_AE : CString := ⟨[77, 97, 110, 97, 103, 101, 109, 101, 110, 116], by decide⟩

/-- Both names of a message which the RIB makes. -/
def managementName : Rname := ⟨some .empty, some CFG_MANAGEMENT_AE, some .empty, some .empty⟩

/-- A request as `pxRibCdapMsgCreateRequest` fills it in. -/
def requestMsg (pxRibObj : QueriedObject) (eOpCode : OpCode) (pxObjVal : Option Bytes)
    (nInvokeID : InvokeId) : MessageCdap where
  eOpCode := eOpCode
  xDestinationInfo := managementName
  xSourceInfo := managementName
  version := 1
  xAuthPolicy := ⟨none, none⟩
  nInvokeID := nInvokeID
  pcObjClass := some pxRibObj.ucObjClass
  pcObjName := some pxRibObj.ucObjName
  objInst := pxRibObj.ulObjInst
  pxObjValue := pxObjVal
  result := 0
  pcResultReason := none

/-- The message as the input function of the loopback sees it. -/
def incomingCdap (msg : MessageCdap) : IncomingCdap where
  eOpCode := some msg.eOpCode
  xDestinationInfo := msg.xDestinationInfo
  xSourceInfo := msg.xSourceInfo
  nInvokeID := msg.nInvokeID
  pcObjName := msg.pcObjName.getD .empty

/-- What a query returns, and what has become of its message. -/
structure QueryEnd where
  xStatus : RsErr
  pxRibd : Ribd
  pxMsgCdap : Life

namespace QueryOutcomes

variable (out : QueryOutcomes) (pb_encode : PbMessage → Option Bytes)

/-- The message is made, with both names. What was made of it before a failure is given back
there. -/
def creates : Bool := out.xMsgPool && out.destinationDup && out.sourceDup

def pxRibCdapMsgCreateRequest (pxRibd : Ribd) (pxRibObj : QueriedObject) (eOpCode : OpCode)
    (pxObjVal : Option Bytes) : Option (MessageCdap × Ribd) :=
  if out.creates then
    let (nInvokeID, invoke_id) := get_next_invoke_id pxRibd.invoke_id
    some (requestMsg pxRibObj eOpCode pxObjVal nInvokeID, { pxRibd with invoke_id := invoke_id })
  else none

/-- The outcomes of the calls which make the wait mechanics of a row. -/
def rowOutcomes : Outcomes :=
  { Outcomes.allWell with waitInit := out.mutexInit && out.condInit }

/-- When the event cannot be sent, the encoded message is given back by itself and once more
with its netbuf. -/
def prvRibNormalOutgoing (pxOutgoingCdap : MessageCdap) : Exec RsErr := do
  match ← xSerDesMessageEncode pb_encode out.mem pxOutgoingCdap with
  | none => return .FAIL
  | some _ =>
    let pvSerBuffer := Life.live
    if !out.pxNetBufNew then
      let _ ← pvSerBuffer.release
      return .FAIL
    else if out.xSendEventStructToIPCPTask then return .SUCCESS
    else
      let pvSerBuffer ← pvSerBuffer.release
      let _ ← pvSerBuffer.release
      return .FAIL

/-- The status of the handler goes no further than the log. -/
def prvRibLoopbackOutgoing (pxRibd : Ribd) (pxOutgoingCdap : MessageCdap) (unPort : PortId) :
    Exec (RsErr × Ribd) := do
  let o ← xRibNormalIncoming out.fnRibInput pxRibd (incomingCdap pxOutgoingCdap) unPort
  return (.SUCCESS, o.pxRibd)

/-- The RIB without a lock is the one of the loopback. -/
def fnRibOutput (pxRibd : Ribd) (pxOutgoingCdap : MessageCdap) (unPort : PortId) :
    Exec (RsErr × Ribd) :=
  if pxRibd.xDoLock then do
    let xStatus ← out.prvRibNormalOutgoing pb_encode pxOutgoingCdap
    return (xStatus, pxRibd)
  else out.prvRibLoopbackOutgoing pxRibd pxOutgoingCdap unPort

def xRibObjectQuery (pxRibd : Ribd) (pxRibObj : QueriedObject) (eOpCode : OpCode)
    (unPort : PortId) (pxObjVal : Option Bytes) (xRibQueryTypeInfo : RibQueryTypeInfo) :
    Exec QueryEnd := do
  let pxRibd ← vRibLock pxRibd
  match out.pxRibCdapMsgCreateRequest pxRibd pxRibObj eOpCode pxObjVal with
  | none => .error .nullPointer
  | some (msg, pxRibd) =>
    let pxMsgCdap := Life.live
    match xRibQueryTypeInfo.tracked with
    | some fnCb =>
      match xRibAddPendingResponse out.rowOutcomes pxRibd pxRibObj.ucObjName msg.nInvokeID
          eOpCode fnCb with
      | (.SUCCESS, _, pxRibd) =>
        let (xStatus, pxRibd) ← out.fnRibOutput pb_encode pxRibd msg unPort
        let pxMsgCdap ← pxMsgCdap.release
        return ⟨xStatus, vRibUnlock pxRibd, pxMsgCdap⟩
      | (xStatus, _, pxRibd) =>
        let pxMsgCdap ← pxMsgCdap.release
        return ⟨xStatus, vRibUnlock pxRibd, pxMsgCdap⟩
    | none =>
      let (xStatus, pxRibd) ← out.fnRibOutput pb_encode pxRibd { msg with nInvokeID := 0 } unPort
      let pxMsgCdap ← pxMsgCdap.release
      return ⟨xStatus, vRibUnlock pxRibd, pxMsgCdap⟩

/-! ### The output function -/

/-- The message goes out, or is handled without a crash in the loopback. -/
def Sends (r : Ribd) (msg : MessageCdap) (unPort : PortId) : Prop :=
  if r.xDoLock then
    (∃ bytes, xSerDesMessageEncode pb_encode out.mem msg = .ok (some bytes)) ∧
      out.pxNetBufNew = true ∧ out.xSendEventStructToIPCPTask = true
  else ∃ o, xRibNormalIncoming out.fnRibInput r (incomingCdap msg) unPort = .ok o

/-- The value fits the encoder, and an encoded message with a netbuf goes out. In the loopback
the message is handled without a crash. -/
def Answers (r : Ribd) (msg : MessageCdap) (unPort : PortId) : Prop :=
  if r.xDoLock then
    ∃ res, xSerDesMessageEncode pb_encode out.mem msg = .ok res ∧
      (res.isSome → out.pxNetBufNew = true → out.xSendEventStructToIPCPTask = true)
  else ∃ o, xRibNormalIncoming out.fnRibInput r (incomingCdap msg) unPort = .ok o

variable {out pb_encode} {r r' : Ribd} {msg : MessageCdap} {unPort : PortId} {xStatus : RsErr}

theorem normalOutgoing_eq_ok :
    out.prvRibNormalOutgoing pb_encode msg = .ok xStatus ↔
      ∃ res, xSerDesMessageEncode pb_encode out.mem msg = .ok res ∧
        (res.isSome → out.pxNetBufNew = true → out.xSendEventStructToIPCPTask = true) ∧
        xStatus = if res.isSome && out.pxNetBufNew then .SUCCESS else .FAIL := by
  unfold prvRibNormalOutgoing
  rw [Exec.bind_eq_ok]
  apply exists_congr
  intro res
  apply and_congr_right
  intro _
  cases res with
  | none =>
    constructor
    · intro h
      cases h
      exact ⟨by simp, rfl⟩
    · rintro ⟨-, rfl⟩
      rfl
  | some bytes =>
    simp only [Option.isSome_some, Bool.true_and, forall_const]
    cases hn : out.pxNetBufNew with
    | false =>
      constructor
      · intro h
        cases h
        exact ⟨by simp, rfl⟩
      · rintro ⟨-, rfl⟩
        rfl
    | true =>
      cases he : out.xSendEventStructToIPCPTask with
      | false =>
        -- the encoded message is given back twice
        constructor
        · intro h
          cases h
        · rintro ⟨h, -⟩
          cases h rfl
      | true =>
        constructor
        · intro h
          cases h
          exact ⟨fun _ => rfl, rfl⟩
        · rintro ⟨-, rfl⟩
          rfl

/-- The RIB is only changed by an output which succeeds. -/
theorem fnRibOutput_eq_ok (h : out.fnRibOutput pb_encode r msg unPort = .ok (xStatus, r')) :
    xStatus ≠ .SUCCESS → r' = r := by
  unfold fnRibOutput at h
  split_ifs at h with hl
  · obtain ⟨st, -, h⟩ := Exec.bind_eq_ok.mp h
    cases h
    exact fun _ => rfl
  · obtain ⟨o, -, h⟩ := Exec.bind_eq_ok.mp h
    cases h
    exact fun hne => absurd rfl hne

/-- The status tells whether the message was sent. -/
theorem fnRibOutput_locked (hlock : r.xDoLock = true)
    (h : out.fnRibOutput pb_encode r msg unPort = .ok (xStatus, r')) :
    r' = r ∧ ∃ sent : Bool, xStatus = if sent then .SUCCESS else .FAIL := by
  rw [fnRibOutput, if_pos hlock] at h
  obtain ⟨st, hst, h⟩ := Exec.bind_eq_ok.mp h
  cases h
  obtain ⟨res, -, -, hstatus⟩ := normalOutgoing_eq_ok.mp hst
  exact ⟨rfl, _, hstatus⟩

theorem answers_iff :
    (∃ p, out.fnRibOutput pb_encode r msg unPort = .ok p) ↔ out.Answers pb_encode r msg unPort := by
  unfold fnRibOutput Answers
  split_ifs with hl
  · constructor
    · rintro ⟨p, hp⟩
      obtain ⟨st, hst, -⟩ := Exec.bind_eq_ok.mp hp
      obtain ⟨res, henc, hsend, -⟩ := normalOutgoing_eq_ok.mp hst
      exact ⟨res, henc, hsend⟩
    · rintro ⟨res, henc, hsend⟩
      exact ⟨_, Exec.bind_eq_ok.mpr ⟨_, normalOutgoing_eq_ok.mpr ⟨res, henc, hsend, rfl⟩, rfl⟩⟩
  · constructor
    · rintro ⟨p, hp⟩
      obtain ⟨o, ho, -⟩ := Exec.bind_eq_ok.mp hp
      exact ⟨o, ho⟩
    · rintro ⟨o, ho⟩
      exact ⟨_, Exec.bind_eq_ok.mpr ⟨o, ho, rfl⟩⟩

theorem sends_iff :
    (∃ r', out.fnRibOutput pb_encode r msg unPort = .ok (.SUCCESS, r')) ↔
      out.Sends pb_encode r msg unPort := by
  unfold fnRibOutput Sends
  split_ifs with hl
  · constructor
    · rintro ⟨r', hr⟩
      obtain ⟨st, hst, hret⟩ := Exec.bind_eq_ok.mp hr
      cases hret
      obtain ⟨res, henc, hsend, hstatus⟩ := normalOutgoing_eq_ok.mp hst
      split_ifs at hstatus with hboth
      rw [Bool.and_eq_true] at hboth
      obtain ⟨bytes, rfl⟩ := Option.isSome_iff_exists.mp hboth.1
      exact ⟨⟨bytes, henc⟩, hboth.2, hsend rfl hboth.2⟩
    · rintro ⟨⟨bytes, henc⟩, hnb, hev⟩
      refine ⟨r, Exec.bind_eq_ok.mpr ⟨.SUCCESS, normalOutgoing_eq_ok.mpr
        ⟨some bytes, henc, fun _ _ => hev, ?_⟩, rfl⟩⟩
      rw [hnb]
      rfl
  · constructor
    · rintro ⟨r', hr⟩
      obtain ⟨o, ho, -⟩ := Exec.bind_eq_ok.mp hr
      exact ⟨o, ho⟩
    · rintro ⟨o, ho⟩
      exact ⟨_, Exec.bind_eq_ok.mpr ⟨o, ho, rfl⟩⟩

/-- A query from its output function on. -/
def outputEnd (out : QueryOutcomes) (pb_encode : PbMessage → Option Bytes) (pxRibd : Ribd)
    (pxMsgCdap : MessageCdap) (unPort : PortId) : Exec QueryEnd := do
  let (xStatus, pxRibd) ← out.fnRibOutput pb_encode pxRibd pxMsgCdap unPort
  return ⟨xStatus, vRibUnlock pxRibd, .released⟩

theorem outputEnd_eq_ok {e : QueryEnd} :
    out.outputEnd pb_encode r msg unPort = .ok e ↔
      ∃ xStatus r', out.fnRibOutput pb_encode r msg unPort = .ok (xStatus, r') ∧
        e = ⟨xStatus, vRibUnlock r', .released⟩ := by
  unfold outputEnd
  rw [Exec.bind_eq_ok]
  constructor
  · rintro ⟨⟨xStatus, r'⟩, hp, hret⟩
    cases hret
    exact ⟨xStatus, r', hp, rfl⟩
  · rintro ⟨xStatus, r', hp, rfl⟩
    exact ⟨(xStatus, r'), hp, rfl⟩

/-- On a RIB with a lock the output leaves the RIB as it was. -/
theorem outputEnd_locked {e : QueryEnd} (hlock : r.xDoLock = true)
    (h : out.outputEnd pb_encode r msg unPort = .ok e) :
    ∃ sent : Bool, e.xStatus = (if sent then .SUCCESS else .FAIL) ∧ e.pxRibd = vRibUnlock r := by
  obtain ⟨xStatus, r', hp, rfl⟩ := outputEnd_eq_ok.mp h
  obtain ⟨hr', sent, hsent⟩ := fnRibOutput_locked hlock hp
  exact ⟨sent, hsent, by rw [hr']⟩

variable {rows : Fin RESPONSE_HANDLER_TABLE_SIZE → RibPendingReq}

/-- Where no row was taken, an output which fails has nothing to take back. -/
theorem outputEnd_kept (hrows : r.xPendingReqs = rows) :
    (∃ o, out.outputEnd pb_encode r msg unPort = .ok o ∧
      (o.xStatus ≠ .SUCCESS → o.pxRibd.xPendingReqs = rows ∧ o.pxMsgCdap = .released)) ↔
      out.Answers pb_encode r msg unPort := by
  rw [← answers_iff]
  constructor
  · rintro ⟨o, ho, -⟩
    obtain ⟨xStatus, r', hp, -⟩ := outputEnd_eq_ok.mp ho
    exact ⟨_, hp⟩
  · rintro ⟨⟨xStatus, r'⟩, hp⟩
    refine ⟨_, outputEnd_eq_ok.mpr ⟨xStatus, r', hp, rfl⟩, fun hne => ⟨?_, rfl⟩⟩
    rw [vRibUnlock_rows, fnRibOutput_eq_ok hp hne, hrows]

/-- Where a row was taken, the output has to succeed. -/
theorem outputEnd_changed (hrows : r.xPendingReqs ≠ rows) :
    (∃ o, out.outputEnd pb_encode r msg unPort = .ok o ∧
      (o.xStatus ≠ .SUCCESS → o.pxRibd.xPendingReqs = rows ∧ o.pxMsgCdap = .released)) ↔
      out.Sends pb_encode r msg unPort := by
  rw [← sends_iff]
  constructor
  · rintro ⟨o, ho, hundo⟩
    obtain ⟨xStatus, r', hp, rfl⟩ := outputEnd_eq_ok.mp ho
    refine ⟨r', ?_⟩
    by_cases hst : xStatus = .SUCCESS
    · rw [hp, hst]
    · have hsame := (hundo hst).1
      rw [vRibUnlock_rows, fnRibOutput_eq_ok hp hst] at hsame
      exact absurd hsame hrows
  · rintro ⟨r', hp⟩
    exact ⟨_, outputEnd_eq_ok.mpr ⟨_, r', hp, rfl⟩, fun hne => absurd rfl hne⟩

/-! ### The query -/

section Query

variable {obj : QueriedObject} {eOpCode : OpCode} {val : Option Bytes} {info : RibQueryTypeInfo}
  {x : Fin RESPONSE_HANDLER_TABLE_SIZE} {fnCb : Option FnPtr}

theorem query_uncreated (hl : (r.xDoLock && r.xMutex) = false) (hc : out.creates = false) :
    out.xRibObjectQuery pb_encode r obj eOpCode unPort val info = .error .nullPointer := by
  rw [xRibObjectQuery, vRibLock_eq_ok.mpr ⟨hl, rfl⟩, Exec.ok_bind]
  simp only [pxRibCdapMsgCreateRequest, hc, Bool.false_eq_true, if_false]

/-- A query which returns got past the lock and made its message. -/
theorem query_returns {e : QueryEnd}
    (h : out.xRibObjectQuery pb_encode r obj eOpCode unPort val info = .ok e) :
    (r.xDoLock && r.xMutex) = false ∧ out.creates = true := by
  have hl : (r.xDoLock && r.xMutex) = false := by
    rw [xRibObjectQuery] at h
    obtain ⟨r₁, hr₁, -⟩ := Exec.bind_eq_ok.mp h
    exact (vRibLock_eq_ok.mp hr₁).1
  refine ⟨hl, ?_⟩
  cases hc : out.creates with
  | true => rfl
  | false =>
    rw [query_uncreated hl hc] at h
    cases h

theorem create_locked (hc : out.creates = true) :
    out.pxRibCdapMsgCreateRequest r.locked obj eOpCode val =
      some (requestMsg obj eOpCode val (get_next_invoke_id r.invoke_id).1, r.drawId.locked) := by
  simp only [pxRibCdapMsgCreateRequest, hc, if_true]
  rfl

theorem query_untracked (hl : (r.xDoLock && r.xMutex) = false) (hc : out.creates = true)
    (ht : info.tracked = none) :
    out.xRibObjectQuery pb_encode r obj eOpCode unPort val info =
      out.outputEnd pb_encode r.drawId.locked (requestMsg obj eOpCode val 0) unPort := by
  rw [xRibObjectQuery, vRibLock_eq_ok.mpr ⟨hl, rfl⟩, Exec.ok_bind, create_locked hc]
  simp only [ht]
  rfl

theorem query_full (hl : (r.xDoLock && r.xMutex) = false) (hc : out.creates = true)
    (ht : info.tracked = some fnCb) (hx : r.freeRow = none) :
    out.xRibObjectQuery pb_encode r obj eOpCode unPort val info =
      .ok ⟨.ERR_RIB_TABLE_FULL, r.drawId, .released⟩ := by
  have hnone : (Fin.find? fun x => (r.drawId.locked.xPendingReqs x).unInvokeID == 0) = none := hx
  have hunlock : vRibUnlock r.drawId.locked = r.drawId := vRibUnlock_locked hl
  rw [xRibObjectQuery, vRibLock_eq_ok.mpr ⟨hl, rfl⟩, Exec.ok_bind, create_locked hc]
  simp only [ht, xRibAddPendingResponse, hnone, hunlock]
  rfl

/-- A tracked query puts its row in use, and does not take it back. -/
theorem query_taken (hl : (r.xDoLock && r.xMutex) = false) (hc : out.creates = true)
    (ht : info.tracked = some fnCb) (hx : r.freeRow = some x) :
    out.xRibObjectQuery pb_encode r obj eOpCode unPort val info =
      if out.mutexInit && out.condInit then
        out.outputEnd pb_encode
          (r.drawId.setPending x (r.queryRow obj.toRibObject eOpCode fnCb)).locked
          (requestMsg obj eOpCode val (get_next_invoke_id r.invoke_id).1) unPort
      else .ok ⟨.FAIL, r.drawId.setPending x (r.queryRow obj.toRibObject eOpCode fnCb),
        .released⟩ := by
  have hsome : (Fin.find? fun x => (r.drawId.locked.xPendingReqs x).unInvokeID == 0) = some x :=
    hx
  have hunlock : vRibUnlock (r.drawId.setPending x
      (r.queryRow obj.toRibObject eOpCode fnCb)).locked =
        r.drawId.setPending x (r.queryRow obj.toRibObject eOpCode fnCb) := vRibUnlock_locked hl
  rw [xRibObjectQuery, vRibLock_eq_ok.mpr ⟨hl, rfl⟩, Exec.ok_bind, create_locked hc]
  simp only [ht, xRibAddPendingResponse, hsome, rowOutcomes]
  by_cases hw : (out.mutexInit && out.condInit) = true
  · simp only [hw, if_true]
    rfl
  · simp only [hw, Bool.false_eq_true, if_false]
    rw [← hunlock]
    rfl

end Query

end QueryOutcomes

/-! ### Atomicity -/

/-- A query which gets past the lock returns. If it returns an error, the pending queries are as
before and the message has been given back. -/
def AtomicOnError (r : Ribd) (run : Exec QueryEnd) : Prop :=
  (r.xDoLock && r.xMutex) = false → ∃ o, run = .ok o ∧
    (o.xStatus ≠ .SUCCESS → o.pxRibd.xPendingReqs = r.xPendingReqs ∧ o.pxMsgCdap = .released)

/-- The message is made; then the query is not tracked and its message can be handed to the
output function, or the table is full, or nothing fails after the row was taken. -/
def QueryOutcomes.Undoes (out : QueryOutcomes) (pb_encode : PbMessage → Option Bytes) (r : Ribd)
    (obj : QueriedObject) (eOpCode : OpCode) (unPort : PortId) (val : Option Bytes)
    (info : RibQueryTypeInfo) : Prop :=
  out.creates = true ∧
    ((info.tracked = none ∧
        out.Answers pb_encode r.drawId.locked (requestMsg obj eOpCode val 0) unPort) ∨
      (info.tracked ≠ none ∧ r.freeRow = none) ∨
      ∃ fnCb x, info.tracked = some fnCb ∧ r.freeRow = some x ∧
        (out.mutexInit && out.condInit) = true ∧
        out.Sends pb_encode (r.drawId.setPending x (r.queryRow obj.toRibObject eOpCode fnCb)).locked
          (requestMsg obj eOpCode val (get_next_invoke_id r.invoke_id).1) unPort)

/-- The row a tracked query takes was free, and has an invoke id then. -/
theorem Ribd.taken_ne {r : Ribd} {x : Fin RESPONSE_HANDLER_TABLE_SIZE} (obj : RibObject)
    (eOpCode : OpCode) (fnCb : Option FnPtr) (hx : r.freeRow = some x) :
    (r.drawId.setPending x (r.queryRow obj eOpCode fnCb)).xPendingReqs ≠ r.xPendingReqs := by
  intro hsame
  have hrow := congrFun hsame x
  have hfree : (r.xPendingReqs x).unInvokeID = 0 := by
    simpa using Fin.eq_true_of_find?_eq_some hx
  rw [← hrow] at hfree
  simp only [Ribd.setPending, Function.update_self] at hfree
  exact get_next_invoke_id_ne_zero _ hfree

/-- A query undoes what it did when it fails, if and only if it waits for the mutex, or nothing
fails once it has made its message and taken a row. -/
theorem query_atomic_iff (out : QueryOutcomes) (pb_encode : PbMessage → Option Bytes) (r : Ribd)
    (obj : QueriedObject) (eOpCode : OpCode) (unPort : PortId) (val : Option Bytes)
    (info : RibQueryTypeInfo) :
    AtomicOnError r (out.xRibObjectQuery pb_encode r obj eOpCode unPort val info) ↔
      (r.xDoLock && r.xMutex) = true ∨
        out.Undoes pb_encode r obj eOpCode unPort val info := by
  unfold AtomicOnError QueryOutcomes.Undoes
  cases hl : r.xDoLock && r.xMutex with
  | true => simp
  | false =>
    simp only [forall_const, Bool.false_eq_true, false_or]
    cases hc : out.creates with
    | false =>
      rw [QueryOutcomes.query_uncreated hl hc]
      simp
    | true =>
      simp only [true_and]
      cases ht : info.tracked with
      | none =>
        have hsame : r.drawId.locked.xPendingReqs = r.xPendingReqs := rfl
        rw [QueryOutcomes.query_untracked hl hc ht, QueryOutcomes.outputEnd_kept hsame]
        simp
      | some fnCb =>
        cases hx : r.freeRow with
        | none =>
          rw [QueryOutcomes.query_full hl hc ht hx]
          refine iff_of_true ⟨_, rfl, fun _ => ⟨rfl, rfl⟩⟩ (.inr (.inl ⟨by simp, rfl⟩))
        | some x =>
          have htaken := Ribd.taken_ne obj.toRibObject eOpCode fnCb hx
          rw [QueryOutcomes.query_taken hl hc ht hx]
          by_cases hw : (out.mutexInit && out.condInit) = true
          · rw [if_pos hw, QueryOutcomes.outputEnd_changed (by rw [Ribd.locked_rows]; exact htaken)]
            constructor
            · intro hs
              exact .inr (.inr ⟨fnCb, x, rfl, rfl, hw, hs⟩)
            · rintro (⟨h, -⟩ | ⟨-, h⟩ | ⟨fnCb', x', hcb, hx', -, hs⟩)
              · cases h
              · cases h
              · cases hcb
                cases hx'
                exact hs
          · rw [if_neg hw]
            apply iff_of_false
            · rintro ⟨o, ho, hundo⟩
              cases ho
              have hne : RsErr.FAIL ≠ .SUCCESS := by decide
              exact htaken (hundo hne).1
            · rintro (⟨h, -⟩ | ⟨-, h⟩ | ⟨-, -, -, -, hw', -⟩)
              · cases h
              · cases h
              · exact hw hw'

def exampleQueried : QueriedObject :=
  { exampleObject with
    ucObjClass := .empty
    ulObjInst := 0 }

/-- Everything succeeds but the request for memory for the encoded message. -/
def encodingRefused : QueryOutcomes where
  xMsgPool := true
  destinationDup := true
  sourceDup := true
  mutexInit := true
  condInit := true
  mem := { exampleMemory with encPool := false }
  pxNetBufNew := true
  xSendEventStructToIPCPTask := true
  fnRibInput := .allWell

/-- The message of a tracked query cannot be encoded, and the row stays in use. -/
theorem query_left :
    ¬ AtomicOnError (.init true) (encodingRefused.xRibObjectQuery (fun _ => none) (.init true)
      exampleQueried .M_START 1 none .RIB_QUERY_TYPE_SYNC) := by
  intro h
  obtain ⟨o, ho, hundo⟩ := h rfl
  cases ho
  have hrow := congrFun (hundo (by decide)).1 0
  exact absurd (congrArg RibPendingReq.unInvokeID hrow) (by decide)

/-! ### The model by outcomes -/

/-- The outcomes of a query whose message was sent or not. -/
def QueryOutcomes.outcomes (out : QueryOutcomes) (sent : Bool) : Outcomes :=
  { out.rowOutcomes with
    xMsgPool := out.creates
    fnRibOutput := sent }

/-- On a RIB with a lock a query which returns does what it does in the model by outcomes. -/
theorem QueryOutcomes.xRibObjectQuery_refines {out : QueryOutcomes}
    {pb_encode : PbMessage → Option Bytes} {r : Ribd} {obj : QueriedObject} {eOpCode : OpCode}
    {unPort : PortId} {val : Option Bytes} {info : RibQueryTypeInfo} {e : QueryEnd}
    (hlock : r.xDoLock = true)
    (h : out.xRibObjectQuery pb_encode r obj eOpCode unPort val info = .ok e) :
    ∃ sent o, Rib.xRibObjectQuery (out.outcomes sent) r obj.toRibObject eOpCode unPort info =
      .ok o ∧ o.xStatus = e.xStatus ∧ o.pxRibd = e.pxRibd := by
  obtain ⟨hl, hc⟩ := query_returns h
  cases ht : info.tracked with
  | none =>
    rw [query_untracked hl hc ht] at h
    obtain ⟨sent, hstatus, hr⟩ := outputEnd_locked (r := r.drawId.locked) hlock h
    have hunlock : vRibUnlock r.drawId.locked = r.drawId := vRibUnlock_locked hl
    exact ⟨sent, _, xRibObjectQuery_eq_untracked hl hc ht, hstatus.symm, by rw [hr, hunlock]⟩
  | some fnCb =>
    cases hx : r.freeRow with
    | none =>
      rw [query_full hl hc ht hx] at h
      cases h
      exact ⟨true, _, xRibObjectQuery_eq_full hl hc ht hx, rfl, rfl⟩
    | some x =>
      rw [query_taken hl hc ht hx] at h
      by_cases hw : (out.mutexInit && out.condInit) = true
      · rw [if_pos hw] at h
        obtain ⟨sent, hstatus, hr⟩ := outputEnd_locked
          (r := (r.drawId.setPending x (r.queryRow obj.toRibObject eOpCode fnCb)).locked) hlock h
        have hunlock : vRibUnlock (r.drawId.setPending x
            (r.queryRow obj.toRibObject eOpCode fnCb)).locked =
              r.drawId.setPending x (r.queryRow obj.toRibObject eOpCode fnCb) :=
          vRibUnlock_locked hl
        refine ⟨sent, _, xRibObjectQuery_eq_taken hl hc ht hx, ?_, by rw [hr, hunlock]⟩
        rw [hstatus]
        exact if_pos hw
      · rw [if_neg hw] at h
        cases h
        exact ⟨true, _, xRibObjectQuery_eq_taken hl hc ht hx, if_neg hw, rfl⟩

end RinaSense.Rib
