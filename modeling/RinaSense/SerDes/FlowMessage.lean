import RinaSense.Flow.Alloc
import RinaSense.SerDes.NeighborTrip
import RinaSense.SerDes.RoundTrip

/-!
# Flow messages

The encoder copies a flow into the protobuf structure field by field and the decoder copies
the structure into a block from the heap which nothing clears. A field goes through if the
encoder fills it in and marks it as present, and the decoder copies it. The protobuf library
is given from outside.
-/

namespace RinaSense.SerDes

open Common Library.Memory

/-! ### Flows -/

/-- `connectionId_t`. -/
structure ConnectionId where
  xQosId : QosId
  xDestination : CepId
  xSource : CepId
deriving DecidableEq, Repr

structure QosSpec where
  pcQosName : Option CString
  xQosId : QosId
  xFlowSpec : Flow.FlowSpec
deriving DecidableEq

structure Policy where
  pcPolicyName : Option CString
  pcPolicyVersion : Option CString
deriving DecidableEq

structure DtpConfig where
  xDtcpPresent : Bool
  xInitialATimer : UInt32
  xDtpPolicySet : Policy
deriving DecidableEq

/-- `flow_t` with names of a kind, as far as the encoder or the decoder uses it. -/
structure FlowInfo (ν : Type) where
  xSourceInfo : ν
  xDestInfo : ν
  ulHopCount : UInt32
  xSourceAddress : Address
  xRemoteAddress : Address
  xConnectionId : ConnectionId
  xQosSpec : QosSpec
  xDtpConfig : DtpConfig
  xSourcePortId : PortId
  xDestinationPortId : PortId
deriving DecidableEq

/-! ### The protobuf structure -/

/-- The size of the arrays for names and policies. -/
def sizeFlowString : ℕ := 20

def sizeofFlow : ℕ := 2640

/-- An optional field which is no string. -/
structure PbOptional (α : Type) where
  has : Bool
  val : α
deriving DecidableEq, Repr

structure PbNaming where
  applicationProcessName : Bytes
  applicationProcessInstance : PbString
  applicationEntityName : PbString
  applicationEntityInstance : PbString
deriving DecidableEq, Repr

structure PbConnectionId where
  qosId : PbOptional UInt32
  sourceCEPId : PbOptional UInt32
  destinationCEPId : PbOptional UInt32
deriving DecidableEq, Repr

structure PbQosSpecification where
  name : PbString
  qosid : PbOptional UInt32
  partialDelivery : PbOptional Bool
  order : PbOptional Bool
deriving DecidableEq, Repr

structure PbPolicyDescriptor where
  policyName : PbString
  version : PbString
deriving DecidableEq, Repr

structure PbDtpConfig where
  dtcpPresent : PbOptional Bool
  initialATimer : PbOptional UInt32
  has_dtppolicyset : Bool
  dtppolicyset : PbPolicyDescriptor
deriving DecidableEq, Repr

/-- The fields of `rina_messages_Flow` which are ever set or read. -/
structure PbFlow where
  sourceNamingInfo : PbNaming
  destinationNamingInfo : PbNaming
  sourcePortId : UInt64
  destinationPortId : PbOptional UInt64
  sourceAddress : UInt64
  destinationAddress : PbOptional UInt64
  connectionIds_count : ℕ
  connectionIds : PbConnectionId
  has_qosParameters : Bool
  qosParameters : PbQosSpecification
  has_dtpConfig : Bool
  dtpConfig : PbDtpConfig
  hopCount : PbOptional UInt32
deriving DecidableEq, Repr

/-! ### What is sent

A field which is not marked as present is not sent, and the decoder leaves it zero. -/

def unsetString : PbString := ⟨false, zeros sizeFlowString⟩

def sentString (field : PbString) : PbString := if field.has then field else unsetString

def PbOptional.unset {α : Type} (zero : α) : PbOptional α := ⟨false, zero⟩

def PbOptional.sent {α : Type} (field : PbOptional α) (zero : α) : PbOptional α :=
  if field.has then field else .unset zero

def PbNaming.sent (info : PbNaming) : PbNaming where
  applicationProcessName := info.applicationProcessName
  applicationProcessInstance := sentString info.applicationProcessInstance
  applicationEntityName := sentString info.applicationEntityName
  applicationEntityInstance := sentString info.applicationEntityInstance

def PbConnectionId.zero : PbConnectionId := ⟨.unset 0, .unset 0, .unset 0⟩

def PbConnectionId.sent (id : PbConnectionId) : PbConnectionId :=
  ⟨id.qosId.sent 0, id.sourceCEPId.sent 0, id.destinationCEPId.sent 0⟩

def PbQosSpecification.zero : PbQosSpecification :=
  ⟨unsetString, .unset 0, .unset false, .unset false⟩

def PbQosSpecification.sent (qos : PbQosSpecification) : PbQosSpecification :=
  ⟨sentString qos.name, qos.qosid.sent 0, qos.partialDelivery.sent false, qos.order.sent false⟩

def PbPolicyDescriptor.zero : PbPolicyDescriptor := ⟨unsetString, unsetString⟩

def PbPolicyDescriptor.sent (policy : PbPolicyDescriptor) : PbPolicyDescriptor :=
  ⟨sentString policy.policyName, sentString policy.version⟩

def PbDtpConfig.zero : PbDtpConfig := ⟨.unset false, .unset 0, false, .zero⟩

def PbDtpConfig.sent (config : PbDtpConfig) : PbDtpConfig where
  dtcpPresent := config.dtcpPresent.sent false
  initialATimer := config.initialATimer.sent 0
  has_dtppolicyset := config.has_dtppolicyset
  dtppolicyset := if config.has_dtppolicyset then config.dtppolicyset.sent else .zero

/-- The structure as a library decodes it which loses nothing of what is marked. -/
def PbFlow.sent (message : PbFlow) : PbFlow where
  sourceNamingInfo := message.sourceNamingInfo.sent
  destinationNamingInfo := message.destinationNamingInfo.sent
  sourcePortId := message.sourcePortId
  destinationPortId := message.destinationPortId.sent 0
  sourceAddress := message.sourceAddress
  destinationAddress := message.destinationAddress.sent 0
  connectionIds_count := message.connectionIds_count
  connectionIds := if message.connectionIds_count = 0 then .zero else message.connectionIds.sent
  has_qosParameters := message.has_qosParameters
  qosParameters := if message.has_qosParameters then message.qosParameters.sent else .zero
  has_dtpConfig := message.has_dtpConfig
  dtpConfig := if message.has_dtpConfig then message.dtpConfig.sent else .zero
  hopCount := message.hopCount.sent 0

/-- The longest encoding of the fields which the encoder fills in, from the sizes of their types:
two names of at most 84 bytes, four numbers of 64 bits, the connection ids of at most 18 bytes,
the hop count, and the parameters of the QoS and of DTP. -/
def maxFlowWire : ℕ :=
  2 * (2 + 84) + 4 * 11 + (2 + 18) + 7 + (2 + 21 + 6 + 2 + 2) + (2 + (2 + 21 + 21) + 6 + 2)

/-! ### Encoding -/

/-- The macro `_COPY` of the encoder, which does not test for a null pointer. -/
def copyName (pcSrc : Option CString) : Exec Bytes := do
  let s ← deref pcSrc
  return strncpy sizeFlowString s

/-- `strcpy` into an array of the structure. -/
def copyPolicy (pcSrc : Option CString) : Exec PbString := do
  let s ← deref pcSrc
  let chars ← strcpy (zeros sizeFlowString) 0 s
  return ⟨true, chars⟩

/-- None of the optional parts is marked as present. -/
def fillNaming (name : Rname) : Exec PbNaming := do
  let applicationProcessName ← copyName name.pcProcessName
  let applicationProcessInstance ← copyName name.pcProcessInstance
  let applicationEntityName ← copyName name.pcEntityName
  let applicationEntityInstance ← copyName name.pcEntityInstance
  return ⟨applicationProcessName, ⟨false, applicationProcessInstance⟩,
    ⟨false, applicationEntityName⟩, ⟨false, applicationEntityInstance⟩⟩

/-- The structure with the strings already copied. The address and the port of the destination
stay unset, and the policy set is not marked as present. -/
def fillFlowRest (pxMsg : FlowInfo Rname) (sourceNamingInfo destinationNamingInfo : PbNaming)
    (name policyName version : PbString) : PbFlow where
  sourceNamingInfo := sourceNamingInfo
  destinationNamingInfo := destinationNamingInfo
  sourcePortId := pxMsg.xSourcePortId.toUInt64
  destinationPortId := .unset 0
  sourceAddress := pxMsg.xSourceAddress.toUInt64
  destinationAddress := .unset 0
  connectionIds_count := 1
  connectionIds :=
    { qosId := ⟨true, pxMsg.xConnectionId.xQosId.toUInt32⟩
      sourceCEPId := ⟨true, pxMsg.xConnectionId.xSource.toUInt32⟩
      destinationCEPId := ⟨true, pxMsg.xConnectionId.xDestination.toUInt32⟩ }
  has_qosParameters := true
  qosParameters :=
    { name := name
      qosid := ⟨true, pxMsg.xQosSpec.xQosId.toUInt32⟩
      partialDelivery := ⟨true, pxMsg.xQosSpec.xFlowSpec.xPartialDelivery⟩
      order := ⟨true, pxMsg.xQosSpec.xFlowSpec.xOrderedDelivery⟩ }
  has_dtpConfig := true
  dtpConfig :=
    { dtcpPresent := ⟨true, pxMsg.xDtpConfig.xDtcpPresent⟩
      initialATimer := ⟨true, pxMsg.xDtpConfig.xInitialATimer⟩
      has_dtppolicyset := false
      dtppolicyset := ⟨policyName, version⟩ }
  hopCount := ⟨true, pxMsg.ulHopCount⟩

def fillFlow (pxMsg : FlowInfo Rname) : Exec PbFlow := do
  let sourceNamingInfo ← fillNaming pxMsg.xSourceInfo
  let destinationNamingInfo ← fillNaming pxMsg.xDestInfo
  let name ← copyPolicy pxMsg.xQosSpec.pcQosName
  let policyName ← copyPolicy pxMsg.xDtpConfig.xDtpPolicySet.pcPolicyName
  let version ← copyPolicy pxMsg.xDtpConfig.xDtpPolicySet.pcPolicyVersion
  return fillFlowRest pxMsg sourceNamingInfo destinationNamingInfo name policyName version

/-- The memory of a round trip. -/
structure FlowMemory where
  xPool : Bool
  /-- The block for the decoded flow, with what it holds. -/
  pvRsMemAlloc : Option (FlowInfo DupName)
  destination : Bool
  source : Bool

/-- Where the encoding begins in an object of the pool: the pointer behind the value is moved on
by as many values as it has bytes. -/
def offFlowBuffer : ℕ := sizeofSerObjectValue * sizeofSerObjectValue

section Codec

variable (pf : Platform) (pb_encode : PbFlow → Option Bytes) (pb_decode : Bytes → Option PbFlow)
  (mem : FlowMemory)

def pxSerDesFlowEncode (pxMsg : FlowInfo Rname) : Exec (Option Bytes) := do
  let msg ← fillFlow pxMsg
  if mem.xPool then
    match pb_encode msg with
    | none => return none
    | some buf =>
      if offFlowBuffer + buf.length ≤ sizeofFlow + sizeofSerObjectValue then return some buf
      else .error .outOfBounds
  else status (outOfMemory pf)

/-- The QoS, the DTP configuration and the hop count are not copied, and the block is used
without a check. -/
def prvSerdesMsgDecodeFlow (message : PbFlow) : Exec (Option (FlowInfo DupName)) := do
  let pxMessage ← deref mem.pvRsMemAlloc
  let dst ← xNameAssignFromPartsDup mem.destination
    message.destinationNamingInfo.applicationProcessName
    message.destinationNamingInfo.applicationProcessInstance.chars
    message.destinationNamingInfo.applicationEntityName.chars
    message.destinationNamingInfo.applicationEntityInstance.chars
  match dst with
  | none => return none
  | some dst =>
    let src ← xNameAssignFromPartsDup mem.source
      message.sourceNamingInfo.applicationProcessName
      message.sourceNamingInfo.applicationProcessInstance.chars
      message.sourceNamingInfo.applicationEntityName.chars
      message.sourceNamingInfo.applicationEntityInstance.chars
    match src with
    | none => return none
    | some src =>
      return some { pxMessage with
        xRemoteAddress :=
          if message.destinationAddress.has then message.destinationAddress.val.toUInt8
          else pxMessage.xRemoteAddress
        xDestInfo := dst
        xSourceInfo := src
        xDestinationPortId :=
          if message.destinationPortId.has then message.destinationPortId.val.toUInt32
          else pxMessage.xDestinationPortId
        xSourceAddress := message.sourceAddress.toUInt8
        xSourcePortId := message.sourcePortId.toUInt32
        xConnectionId :=
          { xDestination :=
              if message.connectionIds.destinationCEPId.has then
                message.connectionIds.destinationCEPId.val.toUInt8
              else pxMessage.xConnectionId.xDestination
            xSource :=
              if message.connectionIds.sourceCEPId.has then
                message.connectionIds.sourceCEPId.val.toUInt8
              else pxMessage.xConnectionId.xSource
            xQosId :=
              if message.connectionIds.qosId.has then message.connectionIds.qosId.val.toUInt8
              else pxMessage.xConnectionId.xQosId } }

def pxSerDesFlowDecode (pucBuffer : Bytes) : Exec (Option (FlowInfo DupName)) :=
  match pb_decode pucBuffer with
  | none => .ok none
  | some message => prvSerdesMsgDecodeFlow mem message

end Codec

/-! ### The round trip -/

/-- All strings fit their arrays. -/
structure FlowInfo.Fits (flow : FlowInfo Rname) : Prop where
  source : flow.xSourceInfo.Fits
  destination : flow.xDestInfo.Fits
  qosName : FitsIn sizeFlowString flow.xQosSpec.pcQosName
  policyName : FitsIn sizeFlowString flow.xDtpConfig.xDtpPolicySet.pcPolicyName
  policyVersion : FitsIn sizeFlowString flow.xDtpConfig.xDtpPolicySet.pcPolicyVersion

/-- A decoded flow has the contents of the flow which it was made from. -/
structure SameFlow (flow : FlowInfo Rname) (d : FlowInfo DupName) : Prop where
  source : d.xSourceInfo.Reads flow.xSourceInfo
  destination : d.xDestInfo.Reads flow.xDestInfo
  sourceAddress : d.xSourceAddress = flow.xSourceAddress
  remoteAddress : d.xRemoteAddress = flow.xRemoteAddress
  sourcePort : d.xSourcePortId = flow.xSourcePortId
  destinationPort : d.xDestinationPortId = flow.xDestinationPortId
  connectionId : d.xConnectionId = flow.xConnectionId
  policies : d.xDtpConfig = flow.xDtpConfig

/-- The bytes produced for a flow are decoded to one with the same contents. -/
def FlowRoundTrips (pf : Platform) (pb_encode : PbFlow → Option Bytes)
    (pb_decode : Bytes → Option PbFlow) (mem : FlowMemory) (flow : FlowInfo Rname) : Prop :=
  ∃ buf d, pxSerDesFlowEncode pf pb_encode mem flow = .ok (some buf) ∧
    pxSerDesFlowDecode pb_decode mem buf = .ok (some d) ∧ SameFlow flow d

/-- The protobuf library decodes what is sent of the structure of a flow, and its encoding is
not longer than the fields take. -/
def FaithfulFlow (pb_encode : PbFlow → Option Bytes) (pb_decode : Bytes → Option PbFlow)
    (flow : FlowInfo Rname) : Prop :=
  ∀ pb, fillFlow flow = .ok pb → ∃ buf, pb_encode pb = some buf ∧ buf.length ≤ maxFlowWire ∧
    pb_decode buf = some pb.sent

def Rname.Complete (name : Rname) : Prop :=
  name.pcProcessName.isSome ∧ name.pcProcessInstance.isSome ∧ name.pcEntityName.isSome ∧
    name.pcEntityInstance.isSome

/-- The strings which the encoder copies are there. -/
structure FlowInfo.Complete (flow : FlowInfo Rname) : Prop where
  source : flow.xSourceInfo.Complete
  destination : flow.xDestInfo.Complete
  qosName : flow.xQosSpec.pcQosName.isSome
  policyName : flow.xDtpConfig.xDtpPolicySet.pcPolicyName.isSome
  policyVersion : flow.xDtpConfig.xDtpPolicySet.pcPolicyVersion.isSome

/-- A name of a process and nothing else. -/
def Rname.Bare (name : Rname) : Prop :=
  orEmpty name.pcProcessInstance = .empty ∧ orEmpty name.pcEntityName = .empty ∧
    orEmpty name.pcEntityInstance = .empty

/-- What a flow needs to survive: the memory for it, strings which are there, names without
optional parts, and a block for the result which happens to hold the fields that do not go
through. -/
structure FlowSurvives (mem : FlowMemory) (flow : FlowInfo Rname) : Prop where
  xPool : mem.xPool = true
  destinationDup : mem.destination = true
  sourceDup : mem.source = true
  complete : flow.Complete
  source : flow.xSourceInfo.Bare
  destination : flow.xDestInfo.Bare
  stale : ∃ stale, mem.pvRsMemAlloc = some stale ∧
    stale.xRemoteAddress = flow.xRemoteAddress ∧
    stale.xDestinationPortId = flow.xDestinationPortId ∧ stale.xDtpConfig = flow.xDtpConfig

/-! ### Filling in -/

/-- What is read back of a name. -/
def Rname.sent (name : Rname) : Rname := ⟨name.pcProcessName, none, none, none⟩

def filledNaming (name : Rname) : PbNaming where
  applicationProcessName := strncpy sizeFlowString (orEmpty name.pcProcessName)
  applicationProcessInstance := ⟨false, strncpy sizeFlowString (orEmpty name.pcProcessInstance)⟩
  applicationEntityName := ⟨false, strncpy sizeFlowString (orEmpty name.pcEntityName)⟩
  applicationEntityInstance := ⟨false, strncpy sizeFlowString (orEmpty name.pcEntityInstance)⟩

theorem copyName_eq_ok {src : Option CString} {chars : Bytes} :
    copyName src = .ok chars ↔ src.isSome ∧ chars = strncpy sizeFlowString (orEmpty src) := by
  cases src with
  | none => simp [copyName]
  | some s => simp [copyName, orEmpty, pure, Except.pure, eq_comm]

theorem fillNaming_eq_ok {name : Rname} {pb : PbNaming} :
    fillNaming name = .ok pb ↔ name.Complete ∧ pb = filledNaming name := by
  unfold fillNaming
  constructor
  · intro h
    obtain ⟨pn, hpn, h⟩ := Exec.bind_eq_ok.mp h
    obtain ⟨pi, hpi, h⟩ := Exec.bind_eq_ok.mp h
    obtain ⟨en, hen, h⟩ := Exec.bind_eq_ok.mp h
    obtain ⟨ei, hei, h⟩ := Exec.bind_eq_ok.mp h
    rw [copyName_eq_ok] at hpn hpi hen hei
    cases h
    exact ⟨⟨hpn.1, hpi.1, hen.1, hei.1⟩, by rw [hpn.2, hpi.2, hen.2, hei.2]; rfl⟩
  · rintro ⟨⟨hpn, hpi, hen, hei⟩, rfl⟩
    rw [copyName_eq_ok.mpr ⟨hpn, rfl⟩, copyName_eq_ok.mpr ⟨hpi, rfl⟩,
      copyName_eq_ok.mpr ⟨hen, rfl⟩, copyName_eq_ok.mpr ⟨hei, rfl⟩]
    rfl

theorem copyPolicy_eq_ok {src : Option CString} (hfit : FitsIn sizeFlowString src)
    {field : PbString} :
    copyPolicy src = .ok field ↔
      src.isSome ∧ field = ⟨true, splice (zeros sizeFlowString) 0 (orEmpty src).terminated⟩ := by
  cases src with
  | none => simp [copyPolicy]
  | some s =>
    have hlen : 0 + s.length + 1 ≤ (zeros sizeFlowString).length := by
      rw [zeros, List.length_replicate, Nat.zero_add]
      exact hfit
    simp [copyPolicy, orEmpty, strcpy_ok hlen, pure, Except.pure, eq_comm]

def filledString (s : Option CString) : PbString :=
  ⟨true, splice (zeros sizeFlowString) 0 (orEmpty s).terminated⟩

/-- The structure of a flow whose strings are there. -/
def filledFlow (flow : FlowInfo Rname) : PbFlow :=
  fillFlowRest flow (filledNaming flow.xSourceInfo) (filledNaming flow.xDestInfo)
    (filledString flow.xQosSpec.pcQosName)
    (filledString flow.xDtpConfig.xDtpPolicySet.pcPolicyName)
    (filledString flow.xDtpConfig.xDtpPolicySet.pcPolicyVersion)

variable {pf : Platform} {pb_encode : PbFlow → Option Bytes} {pb_decode : Bytes → Option PbFlow}
  {mem : FlowMemory} {flow : FlowInfo Rname} {stale d : FlowInfo DupName}

theorem fillFlow_eq_ok (hfits : flow.Fits) {pb : PbFlow} :
    fillFlow flow = .ok pb ↔ flow.Complete ∧ pb = filledFlow flow := by
  unfold fillFlow
  constructor
  · intro h
    obtain ⟨src, hfill, h⟩ := Exec.bind_eq_ok.mp h
    obtain ⟨hsrc, rfl⟩ := fillNaming_eq_ok.mp hfill
    obtain ⟨dst, hfill, h⟩ := Exec.bind_eq_ok.mp h
    obtain ⟨hdst, rfl⟩ := fillNaming_eq_ok.mp hfill
    obtain ⟨qos, hcopy, h⟩ := Exec.bind_eq_ok.mp h
    obtain ⟨hqos, rfl⟩ := (copyPolicy_eq_ok hfits.qosName).mp hcopy
    obtain ⟨name, hcopy, h⟩ := Exec.bind_eq_ok.mp h
    obtain ⟨hname, rfl⟩ := (copyPolicy_eq_ok hfits.policyName).mp hcopy
    obtain ⟨version, hcopy, h⟩ := Exec.bind_eq_ok.mp h
    obtain ⟨hversion, rfl⟩ := (copyPolicy_eq_ok hfits.policyVersion).mp hcopy
    cases h
    exact ⟨⟨hsrc, hdst, hqos, hname, hversion⟩, rfl⟩
  · rintro ⟨h, rfl⟩
    rw [fillNaming_eq_ok.mpr ⟨h.source, rfl⟩, fillNaming_eq_ok.mpr ⟨h.destination, rfl⟩,
      (copyPolicy_eq_ok hfits.qosName).mpr ⟨h.qosName, rfl⟩,
      (copyPolicy_eq_ok hfits.policyName).mpr ⟨h.policyName, rfl⟩,
      (copyPolicy_eq_ok hfits.policyVersion).mpr ⟨h.policyVersion, rfl⟩]
    rfl

/-! ### Reading back -/

/-- The name in its block, without its optional parts. -/
def sentDup (name : Rname) : DupName :=
  prvNameCopyAssignParts (orEmpty name.sent.pcProcessName) (orEmpty name.sent.pcProcessInstance)
    (orEmpty name.sent.pcEntityName) (orEmpty name.sent.pcEntityInstance)

theorem xNameAssignFromPartsDup_sent {name : Rname} (h : name.Fits) (memory : Bool) :
    xNameAssignFromPartsDup memory (filledNaming name).sent.applicationProcessName
        (filledNaming name).sent.applicationProcessInstance.chars
        (filledNaming name).sent.applicationEntityName.chars
        (filledNaming name).sent.applicationEntityInstance.chars =
      .ok (if memory then some (sentDup name) else none) := by
  have hempty : FitsIn sizeNamePart none := empty_fits
  have hsent : Rname.Fits ⟨some (orEmpty name.pcProcessName), none, none, none⟩ :=
    ⟨h.1, hempty, hempty, hempty⟩
  exact xNameAssignFromPartsDup_ok hsent memory

/-- A name is read back whole if it has no optional parts. -/
theorem sentDup_reads_iff (name : Rname) : (sentDup name).Reads name ↔ name.Bare := by
  have hreads : (sentDup name).Reads name.sent := prvNameCopyAssignParts_reads name.sent
  constructor
  · intro h
    refine ⟨?_, ?_, ?_⟩
    · exact Option.some.inj (h.processInstance.symm.trans hreads.processInstance)
    · exact Option.some.inj (h.entityName.symm.trans hreads.entityName)
    · exact Option.some.inj (h.entityInstance.symm.trans hreads.entityInstance)
  · rintro ⟨hpi, hen, hei⟩
    refine ⟨hreads.processName, ?_, ?_, ?_⟩
    · rw [hpi]
      exact hreads.processInstance
    · rw [hen]
      exact hreads.entityName
    · rw [hei]
      exact hreads.entityInstance

/-- What becomes of a block when a flow is decoded to it. -/
def decodedFlow (stale : FlowInfo DupName) (flow : FlowInfo Rname) : FlowInfo DupName :=
  { stale with
    xSourceInfo := sentDup flow.xSourceInfo
    xDestInfo := sentDup flow.xDestInfo
    xSourceAddress := flow.xSourceAddress
    xSourcePortId := flow.xSourcePortId
    xConnectionId := flow.xConnectionId }

theorem prvSerdesMsgDecodeFlow_filled (hfits : flow.Fits) (hmem : mem.pvRsMemAlloc = some stale)
    (hdst : mem.destination = true) (hsrc : mem.source = true) :
    prvSerdesMsgDecodeFlow mem (filledFlow flow).sent = .ok (some (decodedFlow stale flow)) := by
  have hd := xNameAssignFromPartsDup_sent hfits.destination mem.destination
  have hs := xNameAssignFromPartsDup_sent hfits.source mem.source
  rw [hdst, if_pos rfl] at hd
  rw [hsrc, if_pos rfl] at hs
  have hdest : (filledFlow flow).sent.destinationNamingInfo = (filledNaming flow.xDestInfo).sent :=
    rfl
  have hsource : (filledFlow flow).sent.sourceNamingInfo = (filledNaming flow.xSourceInfo).sent :=
    rfl
  have haddress : (filledFlow flow).sent.destinationAddress = .unset 0 := rfl
  have hport : (filledFlow flow).sent.destinationPortId = .unset 0 := rfl
  have hids : (filledFlow flow).sent.connectionIds = (filledFlow flow).connectionIds := rfl
  unfold prvSerdesMsgDecodeFlow
  rw [hmem, deref_some, Exec.ok_bind, hdest, hsource, haddress, hport, hids, hdst, hsrc, hd,
    Exec.ok_bind]
  dsimp only
  rw [hs, Exec.ok_bind]
  simp [filledFlow, fillFlowRest, PbFlow.sent, PbOptional.unset, decodedFlow, pure, Except.pure]

theorem prvSerdesMsgDecodeFlow_memory {message : PbFlow}
    (h : prvSerdesMsgDecodeFlow mem message = .ok (some d)) :
    (∃ stale, mem.pvRsMemAlloc = some stale) ∧ mem.destination = true ∧ mem.source = true := by
  unfold prvSerdesMsgDecodeFlow at h
  obtain ⟨stale, hstale, h⟩ := Exec.bind_eq_ok.mp h
  obtain ⟨dst, hdst, h⟩ := Exec.bind_eq_ok.mp h
  cases dst with
  | none => cases h
  | some dst =>
    obtain ⟨src, hsrc, h⟩ := Exec.bind_eq_ok.mp h
    cases src with
    | none => cases h
    | some src =>
      refine ⟨⟨stale, ?_⟩, xNameAssignFromPartsDup_memory hdst,
        xNameAssignFromPartsDup_memory hsrc⟩
      cases hmem : mem.pvRsMemAlloc with
      | none => simp [hmem] at hstale
      | some block =>
        rw [hmem] at hstale
        cases hstale
        rfl

theorem decodedFlow_same_iff (stale : FlowInfo DupName) (flow : FlowInfo Rname) :
    SameFlow flow (decodedFlow stale flow) ↔
      (flow.xSourceInfo.Bare ∧ flow.xDestInfo.Bare) ∧
        stale.xRemoteAddress = flow.xRemoteAddress ∧
        stale.xDestinationPortId = flow.xDestinationPortId ∧
        stale.xDtpConfig = flow.xDtpConfig := by
  rw [← sentDup_reads_iff, ← sentDup_reads_iff]
  constructor
  · intro h
    exact ⟨⟨h.source, h.destination⟩, h.remoteAddress, h.destinationPort, h.policies⟩
  · rintro ⟨⟨hsrc, hdst⟩, hremote, hport, hpolicies⟩
    exact ⟨hsrc, hdst, rfl, hremote, rfl, hport, rfl, hpolicies⟩

/-- An encoding lies inside its object, whose size is that of the whole structure. -/
theorem maxFlowWire_le : offFlowBuffer + maxFlowWire ≤ sizeofFlow + sizeofSerObjectValue := by
  decide

theorem pxSerDesFlowEncode_eq_ok (hfits : flow.Fits) (hpb : FaithfulFlow pb_encode pb_decode flow)
    {buf : Bytes} :
    pxSerDesFlowEncode pf pb_encode mem flow = .ok (some buf) ↔
      mem.xPool = true ∧ flow.Complete ∧ pb_encode (filledFlow flow) = some buf := by
  unfold pxSerDesFlowEncode
  constructor
  · intro h
    obtain ⟨pb, hfill, h⟩ := Exec.bind_eq_ok.mp h
    obtain ⟨hcomplete, rfl⟩ := (fillFlow_eq_ok hfits).mp hfill
    cases hpool : mem.xPool with
    | false =>
      rw [hpool] at h
      exact absurd h (status_outOfMemory pf buf)
    | true =>
      obtain ⟨buf', hbuf, -, -⟩ := hpb _ hfill
      simp only [hpool, if_true, hbuf] at h
      split_ifs at h
      · cases h
        exact ⟨rfl, hcomplete, hbuf⟩
  · rintro ⟨hpool, hcomplete, hbuf⟩
    have hfill := (fillFlow_eq_ok hfits).mpr ⟨hcomplete, rfl⟩
    obtain ⟨buf', hbuf', hlen, -⟩ := hpb _ hfill
    rw [hbuf] at hbuf'
    cases hbuf'
    have hinside : offFlowBuffer + buf.length ≤ sizeofFlow + sizeofSerObjectValue :=
      le_trans (Nat.add_le_add_left hlen _) maxFlowWire_le
    simp only [hfill, Exec.ok_bind, hpool, if_true, hbuf, hinside]
    rfl

theorem FlowRoundTrips.survives (h : FlowRoundTrips pf pb_encode pb_decode mem flow)
    (hfits : flow.Fits) (hpb : FaithfulFlow pb_encode pb_decode flow) : FlowSurvives mem flow := by
  obtain ⟨buf, d, hencode, hdecode, hsame⟩ := h
  obtain ⟨hpool, hcomplete, hbuf⟩ := (pxSerDesFlowEncode_eq_ok hfits hpb).mp hencode
  obtain ⟨buf', hbuf', -, hback⟩ := hpb _ ((fillFlow_eq_ok hfits).mpr ⟨hcomplete, rfl⟩)
  rw [hbuf] at hbuf'
  cases hbuf'
  simp only [pxSerDesFlowDecode, hback] at hdecode
  obtain ⟨⟨stale, hstale⟩, hdst, hsrc⟩ := prvSerdesMsgDecodeFlow_memory hdecode
  rw [prvSerdesMsgDecodeFlow_filled hfits hstale hdst hsrc] at hdecode
  cases hdecode
  obtain ⟨⟨hs, hd⟩, hrest⟩ := (decodedFlow_same_iff stale flow).mp hsame
  exact ⟨hpool, hdst, hsrc, hcomplete, hs, hd, stale, hstale, hrest⟩

theorem FlowSurvives.roundTrips (h : FlowSurvives mem flow) (hfits : flow.Fits)
    (hpb : FaithfulFlow pb_encode pb_decode flow) :
    FlowRoundTrips pf pb_encode pb_decode mem flow := by
  obtain ⟨stale, hstale, hrest⟩ := h.stale
  obtain ⟨buf, hbuf, -, hback⟩ := hpb _ ((fillFlow_eq_ok hfits).mpr ⟨h.complete, rfl⟩)
  refine ⟨buf, decodedFlow stale flow, ?_, ?_, ?_⟩
  · exact (pxSerDesFlowEncode_eq_ok hfits hpb).mpr ⟨h.xPool, h.complete, hbuf⟩
  · simp only [pxSerDesFlowDecode, hback]
    exact prvSerdesMsgDecodeFlow_filled hfits hstale h.destinationDup h.sourceDup
  · exact (decodedFlow_same_iff stale flow).mpr ⟨⟨h.source, h.destination⟩, hrest⟩

/-- A flow whose strings fit makes the round trip exactly when it survives it. -/
theorem flow_roundTrips_iff (pf : Platform) (mem : FlowMemory) (hfits : flow.Fits)
    (hpb : FaithfulFlow pb_encode pb_decode flow) :
    FlowRoundTrips pf pb_encode pb_decode mem flow ↔ FlowSurvives mem flow :=
  ⟨fun h => h.survives hfits hpb, fun h => h.roundTrips hfits hpb⟩

/-! ### A flow between two processes -/

def exampleName (c : UInt8) (hc : (0 : UInt8) ∉ [c]) (pcProcessInstance : CString) : Rname :=
  ⟨some ⟨[c], hc⟩, some pcProcessInstance, some .empty, some .empty⟩

/-- A flow from the process a to the process b, at address 5. -/
def exampleFlow (pcProcessInstance : CString) : FlowInfo Rname where
  xSourceInfo := exampleName 97 (by decide) pcProcessInstance
  xDestInfo := exampleName 98 (by decide) .empty
  ulHopCount := 0
  xSourceAddress := 2
  xRemoteAddress := 5
  xConnectionId := ⟨1, 0, 3⟩
  xQosSpec := ⟨some ⟨[113], by decide⟩, 1, Flow.flowSpecOf none⟩
  xDtpConfig := ⟨false, 0, ⟨some ⟨[112], by decide⟩, some ⟨[48], by decide⟩⟩⟩
  xSourcePortId := 1
  xDestinationPortId := 0

/-- The protobuf encoding of the flow. -/
def exampleFlowWire : Bytes :=
  [0x0a, 3, 0x0a, 1, 97, 0x12, 3, 0x0a, 1, 98, 0x18, 1, 0x28, 2, 0x3a, 6, 0x08, 1, 0x10, 3, 0x18,
    0, 0x52, 9, 0x0a, 1, 113, 0x10, 1, 0x40, 1, 0x48, 0, 0x62, 4, 0x08, 0, 0x38, 0, 0x88, 1, 0]

def exampleFlowEncode (pb : PbFlow) : Option Bytes :=
  if pb.sent = (filledFlow (exampleFlow .empty)).sent then some exampleFlowWire else none

def exampleFlowDecode (buf : Bytes) : Option PbFlow :=
  if buf = exampleFlowWire then some (filledFlow (exampleFlow .empty)).sent else none

theorem exampleFlow_fits {s : CString} (h : s.length < sizeFlowString) : (exampleFlow s).Fits where
  source := ⟨(by decide : 1 < 20), h, empty_fits, empty_fits⟩
  destination := ⟨(by decide : 1 < 20), empty_fits, empty_fits, empty_fits⟩
  qosName := (by decide : 1 < 20)
  policyName := (by decide : 1 < 20)
  policyVersion := (by decide : 1 < 20)

/-- The instance of the process is not sent. -/
theorem exampleFlow_faithful {s : CString} (h : s.length < sizeFlowString) :
    FaithfulFlow exampleFlowEncode exampleFlowDecode (exampleFlow s) := by
  intro pb hfill
  obtain ⟨-, rfl⟩ := (fillFlow_eq_ok (exampleFlow_fits h)).mp hfill
  exact ⟨exampleFlowWire, if_pos rfl, by decide, if_pos rfl⟩

/-- Memory whose block for the result holds the flow already, up to its names. -/
def exampleFlowMemory : FlowMemory where
  xPool := true
  pvRsMemAlloc :=
    some { exampleFlow .empty with
      xSourceInfo := sentDup ⟨none, none, none, none⟩
      xDestInfo := sentDup ⟨none, none, none, none⟩ }
  destination := true
  source := true

theorem flow_roundTrips_stale :
    FlowRoundTrips ⟨false, false⟩ exampleFlowEncode exampleFlowDecode exampleFlowMemory
      (exampleFlow .empty) :=
  (flow_roundTrips_iff ⟨false, false⟩ exampleFlowMemory (exampleFlow_fits (by decide))
    (exampleFlow_faithful (by decide))).mpr
    ⟨rfl, rfl, rfl, ⟨⟨rfl, rfl, rfl, rfl⟩, ⟨rfl, rfl, rfl, rfl⟩, rfl, rfl, rfl⟩, ⟨rfl, rfl, rfl⟩,
      ⟨rfl, rfl, rfl⟩, _, rfl, rfl, rfl, rfl⟩

/-- The instance 1 of the source process is lost, whatever the block for the result holds. -/
theorem flow_instance_lost :
    (exampleFlow ⟨[49], by decide⟩).Fits ∧
      FaithfulFlow exampleFlowEncode exampleFlowDecode (exampleFlow ⟨[49], by decide⟩) ∧
      ∀ pf mem, ¬ FlowRoundTrips pf exampleFlowEncode exampleFlowDecode mem
        (exampleFlow ⟨[49], by decide⟩) := by
  have hshort : (⟨[49], by decide⟩ : CString).length < sizeFlowString := by decide
  have hfits := exampleFlow_fits hshort
  have hfaithful := exampleFlow_faithful hshort
  refine ⟨hfits, hfaithful, fun pf mem h => ?_⟩
  have hbare := (h.survives hfits hfaithful).source.1
  cases congrArg CString.bytes hbare

end RinaSense.SerDes
