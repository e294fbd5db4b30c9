import RinaSense.SerDes.CdapFields
import RinaSense.SerDes.FlowMessage

/-!
# Flows on the wire

The tables of `FlowMessage.pb.h`, and the round trip of a flow through them. The configuration of
DTCP is never set and never read, so its type is given from outside.
-/

namespace RinaSense.SerDes

open Common Library.Memory

/-! ### The parts of a flow -/

inductive NamingField
  | applicationProcessName
  | applicationProcessInstance
  | applicationEntityName
  | applicationEntityInstance
deriving DecidableEq, Repr

def NamingField.Slot : NamingField → Type
  | .applicationProcessName => Bytes
  | .applicationProcessInstance => PbSlot Bytes
  | .applicationEntityName => PbSlot Bytes
  | .applicationEntityInstance => PbSlot Bytes

def rina_messages_applicationProcessNamingInfo_t : PbMsgdesc NamingField.Slot where
  order := [.applicationProcessName, .applicationProcessInstance, .applicationEntityName,
    .applicationEntityInstance]
  field
    | .applicationProcessName => REQUIRED 1 STRING
    | .applicationProcessInstance => OPTIONAL 2 STRING
    | .applicationEntityName => OPTIONAL 3 STRING
    | .applicationEntityInstance => OPTIONAL 4 STRING

def rina_messages_applicationProcessNamingInfo_t_init_zero : ∀ i, NamingField.Slot i
  | .applicationProcessName => zeros sizeFlowString
  | .applicationProcessInstance => ⟨false, zeros sizeFlowString⟩
  | .applicationEntityName => ⟨false, zeros sizeFlowString⟩
  | .applicationEntityInstance => ⟨false, zeros sizeFlowString⟩

inductive ConnectionIdField
  | qosId
  | sourceCEPId
  | destinationCEPId
deriving DecidableEq, Repr

def ConnectionIdField.Slot (_ : ConnectionIdField) : Type := PbSlot UInt32

def rina_messages_connectionId_t : PbMsgdesc ConnectionIdField.Slot where
  order := [.qosId, .sourceCEPId, .destinationCEPId]
  field
    | .qosId => OPTIONAL 1 UINT32
    | .sourceCEPId => OPTIONAL 2 UINT32
    | .destinationCEPId => OPTIONAL 3 UINT32

def rina_messages_connectionId_t_init_zero : ∀ i, ConnectionIdField.Slot i := fun _ => ⟨false, 0⟩

inductive QosSpecificationField
  | name
  | qosid
  | averageBandwidth
  | averageSDUBandwidth
  | peakBandwidthDuration
  | peakSDUBandwidthDuration
  | undetectedBitErrorRate
  | partialDelivery
  | order
  | maxAllowableGapSdu
  | delay
  | jitter
  | extraParameters
  | msg_boundaries
  | loss
deriving DecidableEq, Repr

def QosSpecificationField.Slot : QosSpecificationField → Type
  | .name => PbSlot Bytes
  | .qosid => PbSlot UInt32
  | .averageBandwidth => PbSlot UInt64
  | .averageSDUBandwidth => PbSlot UInt64
  | .peakBandwidthDuration => PbSlot UInt32
  | .peakSDUBandwidthDuration => PbSlot UInt32
  | .undetectedBitErrorRate => PbSlot Bytes
  | .partialDelivery => PbSlot Bool
  | .order => PbSlot Bool
  | .maxAllowableGapSdu => PbSlot ℤ
  | .delay => PbSlot UInt32
  | .jitter => PbSlot UInt32
  | .extraParameters => Unit
  | .msg_boundaries => PbSlot Bool
  | .loss => PbSlot UInt32

def rina_messages_qosSpecification_t : PbMsgdesc QosSpecificationField.Slot where
  order := [.name, .qosid, .averageBandwidth, .averageSDUBandwidth, .peakBandwidthDuration,
    .peakSDUBandwidthDuration, .undetectedBitErrorRate, .partialDelivery, .order,
    .maxAllowableGapSdu, .delay, .jitter, .extraParameters, .msg_boundaries, .loss]
  field
    | .name => OPTIONAL 1 STRING
    | .qosid => OPTIONAL 2 UINT32
    | .averageBandwidth => OPTIONAL 3 UINT64
    | .averageSDUBandwidth => OPTIONAL 4 UINT64
    | .peakBandwidthDuration => OPTIONAL 5 UINT32
    | .peakSDUBandwidthDuration => OPTIONAL 6 UINT32
    | .undetectedBitErrorRate => OPTIONAL 7 FIXED64
    | .partialDelivery => OPTIONAL 8 BOOL
    | .order => OPTIONAL 9 BOOL
    | .maxAllowableGapSdu => OPTIONAL 10 INT32
    | .delay => OPTIONAL 11 UINT32
    | .jitter => OPTIONAL 12 UINT32
    | .extraParameters => CALLBACK 13
    | .msg_boundaries => OPTIONAL 14 BOOL
    | .loss => OPTIONAL 15 UINT32

def rina_messages_qosSpecification_t_init_zero : ∀ i, QosSpecificationField.Slot i
  | .name => ⟨false, zeros sizeFlowString⟩
  | .qosid => ⟨false, (0 : UInt32)⟩
  | .averageBandwidth => ⟨false, (0 : UInt64)⟩
  | .averageSDUBandwidth => ⟨false, (0 : UInt64)⟩
  | .peakBandwidthDuration => ⟨false, (0 : UInt32)⟩
  | .peakSDUBandwidthDuration => ⟨false, (0 : UInt32)⟩
  | .undetectedBitErrorRate => ⟨false, zeros 8⟩
  | .partialDelivery => ⟨false, false⟩
  | .order => ⟨false, false⟩
  | .maxAllowableGapSdu => ⟨false, (0 : ℤ)⟩
  | .delay => ⟨false, (0 : UInt32)⟩
  | .jitter => ⟨false, (0 : UInt32)⟩
  | .extraParameters => ()
  | .msg_boundaries => ⟨false, false⟩
  | .loss => ⟨false, (0 : UInt32)⟩

inductive PolicyDescriptorField
  | policyName
  | policyImplName
  | version
  | policyParameters
deriving DecidableEq, Repr

def PolicyDescriptorField.Slot : PolicyDescriptorField → Type
  | .policyName => PbSlot Bytes
  | .policyImplName => PbSlot Bytes
  | .version => PbSlot Bytes
  | .policyParameters => Unit

def rina_messages_policyDescriptor_t : PbMsgdesc PolicyDescriptorField.Slot where
  order := [.policyName, .policyImplName, .version, .policyParameters]
  field
    | .policyName => OPTIONAL 1 STRING
    | .policyImplName => OPTIONAL 2 STRING
    | .version => OPTIONAL 3 STRING
    | .policyParameters => CALLBACK 4

def rina_messages_policyDescriptor_t_init_zero : ∀ i, PolicyDescriptorField.Slot i
  | .policyName => ⟨false, zeros sizeFlowString⟩
  | .policyImplName => ⟨false, zeros sizeFlowString⟩
  | .version => ⟨false, zeros sizeFlowString⟩
  | .policyParameters => ()

inductive DtpConfigField
  | dtcpPresent
  | rcvrtimerinactivitypolicy
  | sendertimerinactiviypolicy
  | initialseqnumpolicy
  | seqnumrolloverthreshold
  | initialATimer
  | dtppolicyset
deriving DecidableEq, Repr

def DtpConfigField.Slot : DtpConfigField → Type
  | .dtcpPresent => PbSlot Bool
  | .rcvrtimerinactivitypolicy => PbSlot (∀ i, PolicyDescriptorField.Slot i)
  | .sendertimerinactiviypolicy => PbSlot (∀ i, PolicyDescriptorField.Slot i)
  | .initialseqnumpolicy => PbSlot (∀ i, PolicyDescriptorField.Slot i)
  | .seqnumrolloverthreshold => PbSlot UInt64
  | .initialATimer => PbSlot UInt32
  | .dtppolicyset => PbSlot (∀ i, PolicyDescriptorField.Slot i)

def rina_messages_dtpConfig_t : PbMsgdesc DtpConfigField.Slot where
  order := [.dtcpPresent, .rcvrtimerinactivitypolicy, .sendertimerinactiviypolicy,
    .initialseqnumpolicy, .seqnumrolloverthreshold, .initialATimer, .dtppolicyset]
  field
    | .dtcpPresent => OPTIONAL 1 BOOL
    | .rcvrtimerinactivitypolicy => OPTIONAL 3 (MESSAGE rina_messages_policyDescriptor_t)
    | .sendertimerinactiviypolicy => OPTIONAL 4 (MESSAGE rina_messages_policyDescriptor_t)
    | .initialseqnumpolicy => OPTIONAL 5 (MESSAGE rina_messages_policyDescriptor_t)
    | .seqnumrolloverthreshold => OPTIONAL 6 UINT64
    | .initialATimer => OPTIONAL 7 UINT32
    | .dtppolicyset => OPTIONAL 8 (MESSAGE rina_messages_policyDescriptor_t)

def rina_messages_dtpConfig_t_init_zero : ∀ i, DtpConfigField.Slot i
  | .dtcpPresent => ⟨false, false⟩
  | .rcvrtimerinactivitypolicy => ⟨false, rina_messages_policyDescriptor_t_init_zero⟩
  | .sendertimerinactiviypolicy => ⟨false, rina_messages_policyDescriptor_t_init_zero⟩
  | .initialseqnumpolicy => ⟨false, rina_messages_policyDescriptor_t_init_zero⟩
  | .seqnumrolloverthreshold => ⟨false, (0 : UInt64)⟩
  | .initialATimer => ⟨false, (0 : UInt32)⟩
  | .dtppolicyset => ⟨false, rina_messages_policyDescriptor_t_init_zero⟩

/-! ### Flows -/

inductive FlowField
  | sourceNamingInfo
  | destinationNamingInfo
  | sourcePortId
  | destinationPortId
  | sourceAddress
  | destinationAddress
  | connectionIds
  | currentConnectionIdIndex
  | state
  | qosParameters
  | dtpConfig
  | dtcpConfig
  | accessControl
  | maxCreateFlowRetries
  | createFlowRetries
  | hopCount
deriving DecidableEq, Repr

section Flow

variable {δ : Type} (dtcp : PbType δ) (zero : δ)

def FlowField.Slot (δ : Type) : FlowField → Type
  | .sourceNamingInfo => ∀ i, NamingField.Slot i
  | .destinationNamingInfo => ∀ i, NamingField.Slot i
  | .sourcePortId => UInt64
  | .destinationPortId => PbSlot UInt64
  | .sourceAddress => UInt64
  | .destinationAddress => PbSlot UInt64
  | .connectionIds => PbArray (∀ i, ConnectionIdField.Slot i)
  | .currentConnectionIdIndex => PbSlot UInt32
  | .state => PbSlot UInt32
  | .qosParameters => PbSlot (∀ i, QosSpecificationField.Slot i)
  | .dtpConfig => PbSlot (∀ i, DtpConfigField.Slot i)
  | .dtcpConfig => PbSlot δ
  | .accessControl => Unit
  | .maxCreateFlowRetries => PbSlot UInt32
  | .createFlowRetries => PbSlot UInt32
  | .hopCount => PbSlot UInt32

def rina_messages_Flow : PbMsgdesc (FlowField.Slot δ) where
  order := [.sourceNamingInfo, .destinationNamingInfo, .sourcePortId, .destinationPortId,
    .sourceAddress, .destinationAddress, .connectionIds, .currentConnectionIdIndex, .state,
    .qosParameters, .dtpConfig, .dtcpConfig, .accessControl, .maxCreateFlowRetries,
    .createFlowRetries, .hopCount]
  field
    | .sourceNamingInfo => REQUIRED 1 (MESSAGE rina_messages_applicationProcessNamingInfo_t)
    | .destinationNamingInfo => REQUIRED 2 (MESSAGE rina_messages_applicationProcessNamingInfo_t)
    | .sourcePortId => REQUIRED 3 UINT64
    | .destinationPortId => OPTIONAL 4 UINT64
    | .sourceAddress => REQUIRED 5 UINT64
    | .destinationAddress => OPTIONAL 6 UINT64
    | .connectionIds =>
      REPEATED 7 (ITEM rina_messages_connectionId_t rina_messages_connectionId_t_init_zero)
    | .currentConnectionIdIndex => OPTIONAL 8 UINT32
    | .state => OPTIONAL 9 UINT32
    | .qosParameters => OPTIONAL 10 (MESSAGE rina_messages_qosSpecification_t)
    | .dtpConfig => OPTIONAL 12 (MESSAGE rina_messages_dtpConfig_t)
    | .dtcpConfig => OPTIONAL 13 dtcp
    | .accessControl => CALLBACK 14
    | .maxCreateFlowRetries => OPTIONAL 15 UINT32
    | .createFlowRetries => OPTIONAL 16 UINT32
    | .hopCount => OPTIONAL 17 UINT32

def rina_messages_Flow_init_zero : ∀ i, FlowField.Slot δ i
  | .sourceNamingInfo => rina_messages_applicationProcessNamingInfo_t_init_zero
  | .destinationNamingInfo => rina_messages_applicationProcessNamingInfo_t_init_zero
  | .sourcePortId => (0 : UInt64)
  | .destinationPortId => ⟨false, (0 : UInt64)⟩
  | .sourceAddress => (0 : UInt64)
  | .destinationAddress => ⟨false, (0 : UInt64)⟩
  | .connectionIds => (⟨0, [rina_messages_connectionId_t_init_zero]⟩ : PbArray _)
  | .currentConnectionIdIndex => ⟨false, (0 : UInt32)⟩
  | .state => ⟨false, (0 : UInt32)⟩
  | .qosParameters => ⟨false, rina_messages_qosSpecification_t_init_zero⟩
  | .dtpConfig => ⟨false, rina_messages_dtpConfig_t_init_zero⟩
  | .dtcpConfig => ⟨false, zero⟩
  | .accessControl => ()
  | .maxCreateFlowRetries => ⟨false, (0 : UInt32)⟩
  | .createFlowRetries => ⟨false, (0 : UInt32)⟩
  | .hopCount => ⟨false, (0 : UInt32)⟩

end Flow

/-! ### The structure of the library -/

def PbOptional.slot {α : Type} (x : PbOptional α) : PbSlot α := ⟨x.has, x.val⟩

def PbNaming.fields (x : PbNaming) : ∀ i, NamingField.Slot i
  | .applicationProcessName => x.applicationProcessName
  | .applicationProcessInstance => x.applicationProcessInstance.slot
  | .applicationEntityName => x.applicationEntityName.slot
  | .applicationEntityInstance => x.applicationEntityInstance.slot

def PbConnectionId.fields (x : PbConnectionId) : ∀ i, ConnectionIdField.Slot i
  | .qosId => x.qosId.slot
  | .sourceCEPId => x.sourceCEPId.slot
  | .destinationCEPId => x.destinationCEPId.slot

def PbQosSpecification.fields (x : PbQosSpecification) : ∀ i, QosSpecificationField.Slot i
  | .name => x.name.slot
  | .qosid => x.qosid.slot
  | .partialDelivery => x.partialDelivery.slot
  | .order => x.order.slot
  | i => rina_messages_qosSpecification_t_init_zero i

def PbPolicyDescriptor.fields (x : PbPolicyDescriptor) : ∀ i, PolicyDescriptorField.Slot i
  | .policyName => x.policyName.slot
  | .version => x.version.slot
  | i => rina_messages_policyDescriptor_t_init_zero i

def PbDtpConfig.fields (x : PbDtpConfig) : ∀ i, DtpConfigField.Slot i
  | .dtcpPresent => x.dtcpPresent.slot
  | .initialATimer => x.initialATimer.slot
  | .dtppolicyset => ⟨x.has_dtppolicyset, x.dtppolicyset.fields⟩
  | i => rina_messages_dtpConfig_t_init_zero i

/-- The other fields of a flow are never set. -/
def PbFlow.fields {δ : Type} (zero : δ) (x : PbFlow) : ∀ i, FlowField.Slot δ i
  | .sourceNamingInfo => x.sourceNamingInfo.fields
  | .destinationNamingInfo => x.destinationNamingInfo.fields
  | .sourcePortId => x.sourcePortId
  | .destinationPortId => x.destinationPortId.slot
  | .sourceAddress => x.sourceAddress
  | .destinationAddress => x.destinationAddress.slot
  | .connectionIds => (⟨x.connectionIds_count, [x.connectionIds.fields]⟩ : PbArray _)
  | .qosParameters => ⟨x.has_qosParameters, x.qosParameters.fields⟩
  | .dtpConfig => ⟨x.has_dtpConfig, x.dtpConfig.fields⟩
  | .hopCount => x.hopCount.slot
  | i => rina_messages_Flow_init_zero zero i

def PbOptional.ofSlot {α : Type} (x : PbSlot α) : PbOptional α := ⟨x.has, x.val⟩

def PbNaming.ofFields (m : ∀ i, NamingField.Slot i) : PbNaming where
  applicationProcessName := m .applicationProcessName
  applicationProcessInstance := .ofSlot (m .applicationProcessInstance)
  applicationEntityName := .ofSlot (m .applicationEntityName)
  applicationEntityInstance := .ofSlot (m .applicationEntityInstance)

def PbConnectionId.ofFields (m : ∀ i, ConnectionIdField.Slot i) : PbConnectionId where
  qosId := .ofSlot (m .qosId)
  sourceCEPId := .ofSlot (m .sourceCEPId)
  destinationCEPId := .ofSlot (m .destinationCEPId)

def PbQosSpecification.ofFields (m : ∀ i, QosSpecificationField.Slot i) : PbQosSpecification where
  name := .ofSlot (m .name)
  qosid := .ofSlot (m .qosid)
  partialDelivery := .ofSlot (m .partialDelivery)
  order := .ofSlot (m .order)

def PbPolicyDescriptor.ofFields (m : ∀ i, PolicyDescriptorField.Slot i) : PbPolicyDescriptor where
  policyName := .ofSlot (m .policyName)
  version := .ofSlot (m .version)

def PbDtpConfig.ofFields (m : ∀ i, DtpConfigField.Slot i) : PbDtpConfig :=
  let dtppolicyset : PbSlot (∀ i, PolicyDescriptorField.Slot i) := m .dtppolicyset
  { dtcpPresent := .ofSlot (m .dtcpPresent)
    initialATimer := .ofSlot (m .initialATimer)
    has_dtppolicyset := dtppolicyset.has
    dtppolicyset := .ofFields dtppolicyset.val }

def PbFlow.ofFields {δ : Type} (m : ∀ i, FlowField.Slot δ i) : PbFlow :=
  let connectionIds : PbArray (∀ i, ConnectionIdField.Slot i) := m .connectionIds
  let qosParameters : PbSlot (∀ i, QosSpecificationField.Slot i) := m .qosParameters
  let dtpConfig : PbSlot (∀ i, DtpConfigField.Slot i) := m .dtpConfig
  { sourceNamingInfo := .ofFields (m .sourceNamingInfo)
    destinationNamingInfo := .ofFields (m .destinationNamingInfo)
    sourcePortId := m .sourcePortId
    destinationPortId := .ofSlot (m .destinationPortId)
    sourceAddress := m .sourceAddress
    destinationAddress := .ofSlot (m .destinationAddress)
    connectionIds_count := connectionIds.count
    connectionIds := .ofFields (connectionIds.items.headD rina_messages_connectionId_t_init_zero)
    has_qosParameters := qosParameters.has
    qosParameters := .ofFields qosParameters.val
    has_dtpConfig := dtpConfig.has
    dtpConfig := .ofFields dtpConfig.val
    hopCount := .ofSlot (m .hopCount) }

theorem PbFlow.ofFields_fields {δ : Type} (zero : δ) (x : PbFlow) :
    ofFields (x.fields zero) = x := rfl

section Library

variable {δ : Type} (dtcp : PbType δ) (zero : δ)

/-- A flow is encoded into a buffer for its structure. -/
def encodeFlow (message : PbFlow) : Option Bytes :=
  ((rina_messages_Flow dtcp).pb_encode (message.fields zero)
    (pb_ostream_from_buffer sizeofFlow)).map (·.buffer)

def decodeFlow (pucBuffer : Bytes) : Option PbFlow :=
  match (rina_messages_Flow dtcp).pb_decode pucBuffer (rina_messages_Flow_init_zero zero) with
  | .ok m => some (.ofFields m)
  | .error _ => none

end Library

/-! ### The tables are in order -/

theorem naming_valid : rina_messages_applicationProcessNamingInfo_t.Valid where
  complete i := by cases i <;> decide
  nodup := by decide
  tag_ne_zero i := by cases i <;> decide
  tag_lt i := by cases i <;> decide

theorem connectionId_valid : rina_messages_connectionId_t.Valid where
  complete i := by cases i <;> decide
  nodup := by decide
  tag_ne_zero i := by cases i <;> decide
  tag_lt i := by cases i <;> decide

theorem qosSpecification_valid : rina_messages_qosSpecification_t.Valid where
  complete i := by cases i <;> decide
  nodup := by decide
  tag_ne_zero i := by cases i <;> decide
  tag_lt i := by cases i <;> decide

theorem dtpConfig_valid : rina_messages_dtpConfig_t.Valid where
  complete i := by cases i <;> decide
  nodup := by decide
  tag_ne_zero i := by cases i <;> decide
  tag_lt i := by cases i <;> decide

variable {δ : Type} (dtcp : PbType δ) (zero : δ) {flow : FlowInfo Rname}

theorem flow_valid : (rina_messages_Flow dtcp).Valid where
  complete i := by cases i <;> simp [rina_messages_Flow]
  nodup := show [1, 2, 3, 4, 5, 6, 7, 8, 9, 10, 12, 13, 14, 15, 16, 17].Nodup by decide
  tag_ne_zero i := by cases i <;> exact Nat.succ_ne_zero _
  tag_lt i := by
    cases i <;> simp [rina_messages_Flow, REQUIRED, OPTIONAL, REPEATED, CALLBACK]

/-! ### The round trip -/

section Optional

variable {γ : Type} {t : PbType γ} {z : PbSlot γ} {tag n : ℕ}

theorem OPTIONAL_unset (tag : ℕ) (t : PbType γ) (z : PbSlot γ) (v : γ) :
    (OPTIONAL tag t).Carries z ⟨false, v⟩ z 0 :=
  carries_nothing rfl (fun s => by simp [OPTIONAL, pb_write_nil]) z

theorem OPTIONAL_set {z v y : γ} (h : t.Carries z v y n) (htag : tag < 2 ^ 10)
    (hw : t.wire_type < 8) :
    (OPTIONAL tag t).Carries ⟨false, z⟩ ⟨true, v⟩ ⟨true, y⟩ (tagSize tag + n) :=
  OPTIONAL_carries (x := ⟨true, v⟩) (fun _ => h) htag hw

end Optional

/-- The most bytes which the fields take that the encoder fills. -/
def NamingField.bound : NamingField → ℕ
  | .applicationProcessName => 1 + sizeFlowString
  | _ => 0

def ConnectionIdField.bound (_ : ConnectionIdField) : ℕ := 11

def QosSpecificationField.bound : QosSpecificationField → ℕ
  | .name => 1 + sizeFlowString
  | .qosid => 11
  | .partialDelivery | .order => 2
  | _ => 0

def DtpConfigField.bound : DtpConfigField → ℕ
  | .dtcpPresent => 2
  | .initialATimer => 11
  | _ => 0

def FlowField.bound : FlowField → ℕ
  | .sourceNamingInfo | .destinationNamingInfo =>
    3 + (rina_messages_applicationProcessNamingInfo_t.order.map NamingField.bound).sum
  | .sourcePortId | .sourceAddress => 11
  | .connectionIds =>
    3 + (rina_messages_connectionId_t.order.map ConnectionIdField.bound).sum
  | .qosParameters =>
    3 + (rina_messages_qosSpecification_t.order.map QosSpecificationField.bound).sum
  | .dtpConfig => 3 + (rina_messages_dtpConfig_t.order.map DtpConfigField.bound).sum
  | .hopCount => 12
  | _ => 0

theorem naming_carries {name : Rname} (h : FitsIn sizeFlowString name.pcProcessName)
    (i : NamingField) : (rina_messages_applicationProcessNamingInfo_t.field i).Carries
      (rina_messages_applicationProcessNamingInfo_t_init_zero i) ((filledNaming name).fields i)
      ((filledNaming name).sent.fields i) i.bound := by
  cases i with
  | applicationProcessName =>
    exact REQUIRED_carries (STRING_normal (by decide) _ ⟨_, h, rfl⟩) (by decide) (by decide)
  | _ => exact OPTIONAL_unset _ _ _ _

theorem connectionId_carries (qosId sourceCEPId destinationCEPId : UInt32)
    (i : ConnectionIdField) :
    let id : PbConnectionId := ⟨⟨true, qosId⟩, ⟨true, sourceCEPId⟩, ⟨true, destinationCEPId⟩⟩
    (rina_messages_connectionId_t.field i).Carries (rina_messages_connectionId_t_init_zero i)
      (id.fields i) (id.fields i) i.bound := by
  cases i <;> exact OPTIONAL_set (UINT32_carries _ _) (by decide) (by decide)

theorem filledString_carries {s : Option CString} (h : FitsIn sizeFlowString s) :
    STRING.Carries (zeros sizeFlowString) (filledString s).chars (filledString s).chars
      sizeFlowString :=
  STRING_normal (by decide) _ ⟨orEmpty s, h, splice_terminated h⟩

theorem qos_carries (h : FitsIn sizeFlowString flow.xQosSpec.pcQosName)
    (i : QosSpecificationField) : (rina_messages_qosSpecification_t.field i).Carries
      (rina_messages_qosSpecification_t_init_zero i) ((filledFlow flow).qosParameters.fields i)
      ((filledFlow flow).qosParameters.sent.fields i) i.bound := by
  cases i with
  | name => exact OPTIONAL_set (filledString_carries h) (by decide) (by decide)
  | qosid => exact OPTIONAL_set (UINT32_carries _ _) (by decide) (by decide)
  | partialDelivery | order => exact OPTIONAL_set (BOOL_carries _ _) (by decide) (by decide)
  | extraParameters => exact CALLBACK_carries 13
  | _ => exact OPTIONAL_unset _ _ _ _

theorem PbPolicyDescriptor.zero_fields :
    PbPolicyDescriptor.zero.fields = rina_messages_policyDescriptor_t_init_zero :=
  funext fun i => by cases i <;> rfl

theorem dtp_carries (flow : FlowInfo Rname) (i : DtpConfigField) :
    (rina_messages_dtpConfig_t.field i).Carries (rina_messages_dtpConfig_t_init_zero i)
      ((filledFlow flow).dtpConfig.fields i) ((filledFlow flow).dtpConfig.sent.fields i)
      i.bound := by
  cases i with
  | dtcpPresent => exact OPTIONAL_set (BOOL_carries _ _) (by decide) (by decide)
  | initialATimer => exact OPTIONAL_set (UINT32_carries _ _) (by decide) (by decide)
  | dtppolicyset =>
    change (OPTIONAL 8 _).Carries _ _ ⟨false, PbPolicyDescriptor.zero.fields⟩ 0
    rw [PbPolicyDescriptor.zero_fields]
    exact OPTIONAL_unset _ _ _ _
  | _ => exact OPTIONAL_unset _ _ _ _

theorem connectionIds_carries (qosId sourceCEPId destinationCEPId : UInt32) :
    let id : PbConnectionId := ⟨⟨true, qosId⟩, ⟨true, sourceCEPId⟩, ⟨true, destinationCEPId⟩⟩
    (REPEATED 7 (ITEM rina_messages_connectionId_t rina_messages_connectionId_t_init_zero)).Carries
      ⟨0, [rina_messages_connectionId_t_init_zero]⟩ ⟨1, [id.fields]⟩ ⟨1, [id.fields]⟩
      FlowField.connectionIds.bound := by
  intro ids
  let most := (rina_messages_connectionId_t.order.map ConnectionIdField.bound).sum
  have hitem : ∀ a ∈ [ids.fields].take 1, (ITEM rina_messages_connectionId_t
      rina_messages_connectionId_t_init_zero).Carries rina_messages_connectionId_t_init_zero a
      (id a) (2 + most) := by
    intro a ha
    obtain rfl : a = ids.fields := by simpa using ha
    exact ITEM_carries connectionId_valid (connectionId_carries _ _ _) (by decide) _
  have hbound : FlowField.connectionIds.bound = 1 * (tagSize 7 + (2 + most)) := by decide
  rw [hbound]
  exact REPEATED_carries (x := ⟨1, [ids.fields]⟩) (k := 1) rfl (Nat.le_refl 1) hitem (by decide)
    (by decide)

theorem flow_carries (hfits : flow.Fits) (i : FlowField) :
    ((rina_messages_Flow dtcp).field i).Carries (rina_messages_Flow_init_zero zero i)
      ((filledFlow flow).fields zero i) ((filledFlow flow).sent.fields zero i) i.bound := by
  cases i with
  | sourceNamingInfo =>
    exact REQUIRED_carries (MESSAGE_carries naming_valid (naming_carries hfits.source.1)
      (by decide)) (by decide) (by decide)
  | destinationNamingInfo =>
    exact REQUIRED_carries (MESSAGE_carries naming_valid (naming_carries hfits.destination.1)
      (by decide)) (by decide) (by decide)
  | sourcePortId | sourceAddress =>
    exact REQUIRED_carries (UINT64_carries _ _) (by decide) (by decide)
  | connectionIds => exact connectionIds_carries _ _ _
  | qosParameters =>
    have hqos := MESSAGE_carries qosSpecification_valid (qos_carries hfits.qosName) (by decide)
    exact OPTIONAL_set hqos (by decide) (by decide)
  | dtpConfig =>
    have hdtp := MESSAGE_carries dtpConfig_valid (dtp_carries flow) (by decide)
    exact OPTIONAL_set hdtp (by decide) (by decide)
  | hopCount => exact OPTIONAL_set (UINT32_carries _ _) (by decide) (by decide)
  | accessControl => exact CALLBACK_carries 14
  | _ => exact OPTIONAL_unset _ _ _ _

theorem flowBound_le : ((rina_messages_Flow dtcp).order.map FlowField.bound).sum ≤ maxFlowWire :=
  show ([FlowField.sourceNamingInfo, .destinationNamingInfo, .sourcePortId, .destinationPortId,
    .sourceAddress, .destinationAddress, .connectionIds, .currentConnectionIdIndex, .state,
    .qosParameters, .dtpConfig, .dtcpConfig, .accessControl, .maxCreateFlowRetries,
    .createFlowRetries, .hopCount].map FlowField.bound).sum ≤ maxFlowWire by decide

/-- What is sent of a flow comes back, from any bytes with the fields which were encoded. -/
theorem flow_comes_back (hfits : flow.Fits) :
    ∃ cs, encodeFlow dtcp zero (filledFlow flow) = some (chunkWires cs) ∧
      (chunkWires cs).length ≤ maxFlowWire ∧ (rina_messages_Flow dtcp).SameFields cs cs ∧
      ∀ cs', (rina_messages_Flow dtcp).SameFields cs cs' →
        decodeFlow dtcp zero (chunkWires cs') = some (filledFlow flow).sent := by
  obtain ⟨cs, hlen, hwrites, hself, hdecode⟩ :=
    PbMsgdesc.carries (flow_valid dtcp) (flow_carries dtcp zero hfits)
  have hmax := hlen.trans (flowBound_le dtcp)
  have hroom : (chunkWires cs).length ≤ sizeofFlow := hmax.trans (by decide)
  refine ⟨cs, ?_, hmax, hself, fun cs' hcs' => ?_⟩
  · rw [encodeFlow, hwrites, pb_write_from_buffer, if_pos hroom]
    rfl
  · rw [decodeFlow, hdecode cs' hcs']
    exact congrArg some (PbFlow.ofFields_fields zero _)

theorem encodeFlow_faithful (hfits : flow.Fits) :
    FaithfulFlow (encodeFlow dtcp zero) (decodeFlow dtcp zero) flow := by
  intro pb hfill
  obtain ⟨-, rfl⟩ := (fillFlow_eq_ok hfits).mp hfill
  obtain ⟨cs, hencode, hlen, hself, hdecode⟩ := flow_comes_back dtcp zero hfits
  exact ⟨chunkWires cs, hencode, hlen, hdecode cs hself⟩

def NamingField.Sound : (i : NamingField) → i.Slot → Prop
  | .applicationProcessName, (x : Bytes) => Terminated sizeFlowString x
  | .applicationProcessInstance, (x : PbSlot Bytes) => Terminated sizeFlowString x.val
  | .applicationEntityName, (x : PbSlot Bytes) => Terminated sizeFlowString x.val
  | .applicationEntityInstance, (x : PbSlot Bytes) => Terminated sizeFlowString x.val

def FlowField.Sound : (i : FlowField) → i.Slot δ → Prop
  | .sourceNamingInfo, (x : ∀ i, NamingField.Slot i) => ∀ i, NamingField.Sound i (x i)
  | .destinationNamingInfo, (x : ∀ i, NamingField.Slot i) => ∀ i, NamingField.Sound i (x i)
  | .connectionIds, (x : PbArray (∀ i, ConnectionIdField.Slot i)) => x.Within 1 fun _ => True
  | _, _ => True

theorem naming_keeps (i : NamingField) :
    (rina_messages_applicationProcessNamingInfo_t.field i).Keeps (NamingField.Sound i) := by
  cases i with
  | applicationProcessName => exact REQUIRED_keeps (STRING_keeps sizeFlowString) _
  | _ => exact OPTIONAL_keeps (STRING_keeps sizeFlowString) _

theorem connectionId_keeps (i : ConnectionIdField) :
    (rina_messages_connectionId_t.field i).Keeps fun _ => True := by
  cases i <;> exact OPTIONAL_safe UINT32_keeps _

theorem qosSpecification_keeps (i : QosSpecificationField) :
    (rina_messages_qosSpecification_t.field i).Keeps fun _ => True := by
  cases i with
  | name => exact OPTIONAL_safe STRING_safe _
  | averageBandwidth | averageSDUBandwidth => exact OPTIONAL_safe UINT64_keeps _
  | undetectedBitErrorRate => exact OPTIONAL_safe FIXED64_keeps _
  | partialDelivery | order | msg_boundaries => exact OPTIONAL_safe BOOL_keeps _
  | maxAllowableGapSdu => exact OPTIONAL_safe (VARINT_keeps _) _
  | extraParameters => exact CALLBACK_keeps _ _
  | _ => exact OPTIONAL_safe UINT32_keeps _

theorem policyDescriptor_keeps (i : PolicyDescriptorField) :
    (rina_messages_policyDescriptor_t.field i).Keeps fun _ => True := by
  cases i with
  | policyParameters => exact CALLBACK_keeps _ _
  | _ => exact OPTIONAL_safe STRING_safe _

theorem dtpConfig_keeps (i : DtpConfigField) :
    (rina_messages_dtpConfig_t.field i).Keeps fun _ => True := by
  cases i with
  | dtcpPresent => exact OPTIONAL_safe BOOL_keeps _
  | seqnumrolloverthreshold => exact OPTIONAL_safe UINT64_keeps _
  | initialATimer => exact OPTIONAL_safe UINT32_keeps _
  | _ => exact OPTIONAL_safe (MESSAGE_safe policyDescriptor_keeps) _

variable {dtcp}

theorem flow_keeps (hdtcp : dtcp.Keeps fun _ => True) (i : FlowField) :
    ((rina_messages_Flow dtcp).field i).Keeps (FlowField.Sound i) := by
  cases i with
  | sourceNamingInfo | destinationNamingInfo =>
    exact REQUIRED_keeps (MESSAGE_keeps naming_keeps) _
  | sourcePortId | sourceAddress => exact REQUIRED_keeps UINT64_keeps _
  | destinationPortId | destinationAddress => exact OPTIONAL_safe UINT64_keeps _
  | connectionIds =>
    have hitem : (ITEM rina_messages_connectionId_t
        rina_messages_connectionId_t_init_zero).Keeps fun _ => True :=
      fun wire_type stream _ _ =>
        MESSAGE_safe connectionId_keeps wire_type stream rina_messages_connectionId_t_init_zero
          trivial
    exact REPEATED_keeps hitem _ 1
  | qosParameters => exact OPTIONAL_safe (MESSAGE_safe qosSpecification_keeps) _
  | dtpConfig => exact OPTIONAL_safe (MESSAGE_safe dtpConfig_keeps) _
  | dtcpConfig => exact OPTIONAL_safe hdtcp _
  | accessControl => exact CALLBACK_keeps _ _
  | _ => exact OPTIONAL_safe UINT32_keeps _

theorem flow_init_zero_sound (zero : δ) (i : FlowField) :
    FlowField.Sound i (rina_messages_Flow_init_zero zero i) := by
  cases i with
  | sourceNamingInfo | destinationNamingInfo =>
    intro i
    cases i <;> exact zeros_terminated (by decide)
  | connectionIds => exact ⟨rfl, Nat.zero_le _, fun _ _ => trivial⟩
  | _ => exact trivial

theorem naming_parts {x : ∀ i, NamingField.Slot i} (hx : ∀ i, NamingField.Sound i (x i)) :
    PartsTerminated ⟨true, (PbNaming.ofFields x).applicationProcessName⟩
      (PbNaming.ofFields x).applicationProcessInstance
      (PbNaming.ofFields x).applicationEntityName
      (PbNaming.ofFields x).applicationEntityInstance :=
  ⟨hx .applicationProcessName, hx .applicationProcessInstance, hx .applicationEntityName,
    hx .applicationEntityInstance⟩

end RinaSense.SerDes
