import RinaSense.Common.NamePrint
import RinaSense.Flow.Request
import RinaSense.Rib.Adding
import RinaSense.SerDes.FlowMessage

/-!
# New flows and copied names

`prvFlowAllocatorNewFlow`, which copies the two names of a request into a new flow, and the
copies of names everywhere. Both functions of `common/rina_name.c` which copy a name take the
process instance for the entity instance, so that a copy is the same name when these two agree.
-/

namespace RinaSense.Flow

open Common Efcp Rib SerDes Library.Memory

/-- `eFlowAllocationState_t`. -/
inductive FlowAllocationState
  | eFA_EMPTY
  | eFA_ALLOCATION_IN_PROGRESS
  | eFA_ALLOCATED
  | eFA_WAITING_2_MPL_BEFORE_TEARING_DOWN
  | eFA_DEALLOCATED
deriving DecidableEq, Repr

/-- `flow_t` with the fields which only the flow allocator uses. -/
structure FlowObject extends FlowInfo OwnedName where
  eState : FlowAllocationState
  ulMaxCreateFlowRetries : UInt32
  ulCurrentConnectionId : UInt32
deriving DecidableEq

/-- `unreliable` -/
def qosCubeBytes : Bytes := [117, 110, 114, 101, 108, 105, 97, 98, 108, 101]

theorem qosCubeBytes_noZero : (0 : UInt8) ∉ qosCubeBytes := by decide

def CFG_QoS_CUBE_NAME : CString := ⟨qosCubeBytes, qosCubeBytes_noZero⟩

def CFG_QoS_CUBE_PARTIAL_DELIVERY : Bool := false

def CFG_QoS_CUBE_ORDERED_DELIVERY : Bool := true

def CFG_DTP_INITIAL_A_TIMER : UInt32 := 300

/-- `default` -/
def policySetBytes : Bytes := [100, 101, 102, 97, 117, 108, 116]

theorem policySetBytes_noZero : (0 : UInt8) ∉ policySetBytes := by decide

def CFG_DTP_POLICY_SET_NAME : CString := ⟨policySetBytes, policySetBytes_noZero⟩

/-- `0` -/
def versionBytes : Bytes := [48]

theorem versionBytes_noZero : (0 : UInt8) ∉ versionBytes := by decide

def CFG_DTP_POLICY_SET_VERSION : CString := ⟨versionBytes, versionBytes_noZero⟩

def prvFlowAllocatorSelectQoSCube (pxQosSpec : QosSpec) : QosSpec :=
  { pxQosSpec with
    xQosId := CFG_QoS_CUBE_ID
    pcQosName := some CFG_QoS_CUBE_NAME
    xFlowSpec := { pxQosSpec.xFlowSpec with
      xPartialDelivery := CFG_QoS_CUBE_PARTIAL_DELIVERY
      xOrderedDelivery := CFG_QoS_CUBE_ORDERED_DELIVERY } }

/-- The flow with its names and what is set after them. -/
def FlowObject.started (pxFlow : FlowObject) (xSourceInfo xDestInfo : OwnedName) : FlowObject :=
  { pxFlow with
    xSourceInfo := xSourceInfo
    xDestInfo := xDestInfo
    ulHopCount := 4
    ulMaxCreateFlowRetries := 1
    eState := .eFA_ALLOCATION_IN_PROGRESS
    xSourceAddress := CFG_LOCAL_ADDRESS
    ulCurrentConnectionId := 0
    xQosSpec := prvFlowAllocatorSelectQoSCube pxFlow.xQosSpec
    xDtpConfig := { pxFlow.xDtpConfig with
      xInitialATimer := CFG_DTP_INITIAL_A_TIMER
      xDtpPolicySet := ⟨some CFG_DTP_POLICY_SET_NAME, some CFG_DTP_POLICY_SET_VERSION⟩ } }

/-- The structure of the flow lies outside the blocks of the heap, and `pxFlow` is what its
memory holds at first. -/
def prvFlowAllocatorNewFlow (h : Heap) (pxFlow : FlowObject) (pxFlowRequest : FlowRequest) :
    Exec (Option FlowObject × Heap) :=
  if h.mallocOk h.calls = false then .ok (none, h.called)
  else do
    let (good, xSourceInfo, h) ←
      Common.xNameAssignDup h.called pxFlow.xSourceInfo pxFlowRequest.xLocal.toName
    if good = false then return (none, h)
    else do
      let (good, xDestInfo, h) ←
        Common.xNameAssignDup h pxFlow.xDestInfo pxFlowRequest.xRemote.toName
      if good = false then return (none, h)
      else return (some (pxFlow.started xSourceInfo xDestInfo), h)

/-! ### The same name -/

/-- The parts of the second name read as those of the first. A missing part is empty. -/
structure SameName (h h' : Heap) (nm nm' : Name) : Prop where
  processName : h'.stringOr nm'.pcProcessName = h.stringOr nm.pcProcessName
  processInstance : h'.stringOr nm'.pcProcessInstance = h.stringOr nm.pcProcessInstance
  entityName : h'.stringOr nm'.pcEntityName = h.stringOr nm.pcEntityName
  entityInstance : h'.stringOr nm'.pcEntityInstance = h.stringOr nm.pcEntityInstance

/-- Both instances of the name read the same. -/
def OneInstance (h : Heap) (nm : Name) : Prop :=
  h.stringOr nm.pcEntityInstance = h.stringOr nm.pcProcessInstance

/-- The places where a name is copied: by itself, into a flow and into a connection. -/
inductive NameCopy
  | xNameAssignDup (pxDst : OwnedName) (pxSrc : Name)
  | vNameAssignStatic (pxSrc : Name)
  | prvFlowAllocatorNewFlow (pxFlow : FlowObject) (pxFlowRequest : FlowRequest)
  | xRibConnectionAdd (t : ConnectionTable) (pxSrc pxDst : Name) (unPort : PortId)

/-- The names which the caller gives. -/
def NameCopy.given : NameCopy → List Name
  | .xNameAssignDup _ pxSrc => [pxSrc]
  | .vNameAssignStatic pxSrc => [pxSrc]
  | .prvFlowAllocatorNewFlow _ pxFlowRequest =>
    [pxFlowRequest.xLocal.toName, pxFlowRequest.xRemote.toName]
  | .xRibConnectionAdd _ pxSrc pxDst _ => [pxSrc, pxDst]

/-- What is stored when the call succeeds are the names which were given. A connection is stored
in the first row which is free. -/
def NameCopy.Preserves (h : Heap) : NameCopy → Prop
  | .xNameAssignDup pxDst pxSrc => ∀ nm h',
    Common.xNameAssignDup h pxDst pxSrc = .ok (true, nm, h') → SameName h h' pxSrc nm.toName
  | .vNameAssignStatic pxSrc => SameName h h pxSrc (Common.vNameAssignStatic pxSrc).toName
  | .prvFlowAllocatorNewFlow pxFlow r => ∀ flow h',
    Flow.prvFlowAllocatorNewFlow h pxFlow r = .ok (some flow, h') →
      SameName h h' r.xLocal.toName flow.xSourceInfo.toName ∧
        SameName h h' r.xRemote.toName flow.xDestInfo.toName
  | .xRibConnectionAdd t pxSrc pxDst unPort => ∀ t' h' x,
    t.xRibConnectionAdd h pxSrc pxDst unPort = .ok (.SUCCESS, t', h') → t.releasedRow = some x →
      SameName h h' pxSrc (t'.xAppConnections x).xSourceInfo.toName ∧
        SameName h h' pxDst (t'.xAppConnections x).xDestinationInfo.toName

/-- The call gets as far as to store something: there is memory, and for a connection a free
row and no one who holds the lock. -/
def NameCopy.Served (h : Heap) : NameCopy → Prop
  | .xNameAssignDup _ _ => h.mallocOk h.calls = true
  | .vNameAssignStatic _ => True
  | .prvFlowAllocatorNewFlow _ _ => h.mallocOk h.calls = true ∧ CopiesBoth h.called
  | .xRibConnectionAdd t _ _ _ =>
    (t.xDoLock && t.xMutex) = false ∧ (∃ x, t.releasedRow = some x) ∧ CopiesBoth h

variable {h h' : Heap} {nm nm' : Name} {name : Rname}

/-- A copy as `xNameAssignDup` makes it. -/
theorem sameName_dup_iff (hn : ShowsName h nm name)
    (hdup : ShowsName h' nm' (Rib.xNameAssignDup name)) : SameName h h' nm nm' ↔
      OneInstance h nm := by
  have hpn := stringOr_of_rel hdup.processName
  have hpi := stringOr_of_rel hdup.processInstance
  have hen := stringOr_of_rel hdup.entityName
  have hei := stringOr_of_rel hdup.entityInstance
  have hcrossed : h'.stringOr nm'.pcEntityInstance = h.stringOr nm.pcProcessInstance :=
    hei.trans (stringOr_of_rel hn.processInstance).symm
  constructor
  · intro hs
    exact hs.entityInstance.symm.trans hcrossed
  · intro hone
    exact ⟨hpn.trans (stringOr_of_rel hn.processName).symm,
      hpi.trans (stringOr_of_rel hn.processInstance).symm,
      hen.trans (stringOr_of_rel hn.entityName).symm, hcrossed.trans hone.symm⟩

theorem sameName_static_iff :
    SameName h h nm (Common.vNameAssignStatic nm).toName ↔ OneInstance h nm :=
  ⟨fun hs => hs.entityInstance.symm, fun hone => ⟨rfl, rfl, rfl, hone.symm⟩⟩

theorem dup_preserves_iff (pxDst : OwnedName) (hf : h.Fresh) (hn : ShowsName h nm name) :
    (NameCopy.xNameAssignDup pxDst nm).Preserves h ↔
      (h.mallocOk h.calls = true → OneInstance h nm) := by
  rcases xNameAssignDup_total pxDst hf hn with ⟨nm', h', hrun, -, hres⟩
  cases hm : h.mallocOk h.calls with
  | false =>
    refine iff_of_true ?_ (fun hfalse => by cases hfalse)
    intro copied h'' hrun'
    rw [hrun, hm] at hrun'
    cases hrun'
  | true =>
    rw [hm, if_pos rfl] at hres
    rw [hm] at hrun
    have hiff := sameName_dup_iff hn hres
    constructor
    · intro hp _
      exact hiff.mp (hp nm' h' hrun)
    · intro hone copied h'' hrun'
      cases hrun.symm.trans hrun'
      exact hiff.mpr (hone rfl)

/-! ### New flows -/

section NewFlow

variable {r : FlowRequest} {src dst : Rname}

/-- A flow is made exactly when there is memory for it and for its names. -/
theorem prvFlowAllocatorNewFlow_total (pxFlow : FlowObject) (hf : h.Fresh)
    (hs : ShowsName h r.xLocal.toName src) (hd : ShowsName h r.xRemote.toName dst) :
    ∃ flow h', prvFlowAllocatorNewFlow h pxFlow r = .ok (flow, h') ∧
      (flow.isSome ↔ h.mallocOk h.calls = true ∧ CopiesBoth h.called) ∧
      ∀ f, flow = some f → ShowsName h' f.xSourceInfo.toName (Rib.xNameAssignDup src) ∧
        ShowsName h' f.xDestInfo.toName (Rib.xNameAssignDup dst) := by
  have hcalled := hf.later_called
  cases hm : h.mallocOk h.calls with
  | false =>
    refine ⟨none, h.called, ?_, by simp, fun f hnone => by cases hnone⟩
    rw [prvFlowAllocatorNewFlow, if_pos hm]
  | true =>
    have hgranted : ¬ h.mallocOk h.calls = false := by simp [hm]
    rcases xNameAssignDup_total pxFlow.xSourceInfo hcalled.fresh (hs.later hcalled) with
      ⟨nm₁, h₁, hrun₁, hl₁, hres₁⟩
    cases hm₁ : h.called.mallocOk h.called.calls with
    | false =>
      rw [hm₁] at hrun₁
      refine ⟨none, h₁, ?_, by simp [CopiesBoth, hm₁], fun f hnone => by cases hnone⟩
      rw [prvFlowAllocatorNewFlow, if_neg hgranted, hrun₁]
      rfl
    | true =>
      rw [hm₁] at hrun₁ hres₁
      rcases xNameAssignDup_total pxFlow.xDestInfo hl₁.fresh ((hd.later hcalled).later hl₁) with
        ⟨nm₂, h₂, hrun₂, hl₂, hres₂⟩
      rw [hl₁.mallocOk, hl₁.calls] at hrun₂ hres₂
      have hboth : CopiesBoth h.called ↔ h.called.mallocOk (h.called.calls + 1) = true :=
        and_iff_right hm₁
      cases hm₂ : h.called.mallocOk (h.called.calls + 1) with
      | false =>
        rw [hm₂] at hrun₂
        refine ⟨none, h₂, ?_, by simp [hboth, hm₂], fun f hnone => by cases hnone⟩
        rw [prvFlowAllocatorNewFlow, if_neg hgranted, hrun₁]
        simp only [Exec.ok_bind, Bool.true_eq_false, if_false, hrun₂]
        rfl
      | true =>
        rw [hm₂] at hrun₂ hres₂
        refine ⟨some (pxFlow.started nm₁ nm₂), h₂, ?_, ?_, ?_⟩
        · rw [prvFlowAllocatorNewFlow, if_neg hgranted, hrun₁]
          simp only [Exec.ok_bind, Bool.true_eq_false, if_false, hrun₂]
          rfl
        · simp [hboth, hm₂]
        · rintro f hsome
          cases hsome
          exact ⟨ShowsName.later hres₁ hl₂, hres₂⟩

theorem newFlow_preserves_iff (pxFlow : FlowObject) (hf : h.Fresh)
    (hs : ShowsName h r.xLocal.toName src) (hd : ShowsName h r.xRemote.toName dst) :
    (NameCopy.prvFlowAllocatorNewFlow pxFlow r).Preserves h ↔
      (h.mallocOk h.calls = true ∧ CopiesBoth h.called →
        OneInstance h r.xLocal.toName ∧ OneInstance h r.xRemote.toName) := by
  rcases prvFlowAllocatorNewFlow_total pxFlow hf hs hd with ⟨flow, h', hrun, hserved, hnames⟩
  rw [← hserved]
  cases flow with
  | none =>
    refine iff_of_true ?_ (fun hfalse => by cases hfalse)
    intro f h'' hrun'
    cases hrun.symm.trans hrun'
  | some f =>
    rcases hnames f rfl with ⟨hsrc, hdst⟩
    have hiff := and_congr (sameName_dup_iff hs hsrc) (sameName_dup_iff hd hdst)
    constructor
    · intro hp _
      exact hiff.mp (hp f h' hrun)
    · intro hone f' h'' hrun'
      cases hrun.symm.trans hrun'
      exact hiff.mpr (hone rfl)

end NewFlow

/-! ### New connections -/

section NewConnection

variable {t : ConnectionTable} {pxSrc pxDst : Name} {src dst : Rname} {unPort : PortId}

/-- A connection which cannot be added stores nothing. -/
theorem connectionAdd_fails (hf : h.Fresh) (hs : ShowsName h pxSrc src)
    (hd : ShowsName h pxDst dst)
    (hserved : ¬ (NameCopy.xRibConnectionAdd t pxSrc pxDst unPort).Served h) :
    (NameCopy.xRibConnectionAdd t pxSrc pxDst unPort).Preserves h := by
  intro t' h' x hrun hx
  cases hl : t.xDoLock && t.xMutex with
  | true =>
    rw [ConnectionTable.xRibConnectionAdd_blocked hl] at hrun
    cases hrun
  | false =>
    rcases ConnectionTable.xRibConnectionAdd_new unPort hf hs hd hl hx with
      ⟨row, h'', hadd, -⟩
    have hboth : ¬ CopiesBoth h := fun hboth => hserved ⟨hl, ⟨x, hx⟩, hboth⟩
    rw [if_neg hboth] at hadd
    cases hadd.symm.trans hrun

theorem connectionAdd_preserves_iff (hf : h.Fresh) (hs : ShowsName h pxSrc src)
    (hd : ShowsName h pxDst dst) :
    (NameCopy.xRibConnectionAdd t pxSrc pxDst unPort).Preserves h ↔
      ((NameCopy.xRibConnectionAdd t pxSrc pxDst unPort).Served h →
        OneInstance h pxSrc ∧ OneInstance h pxDst) := by
  by_cases hserved : (NameCopy.xRibConnectionAdd t pxSrc pxDst unPort).Served h
  · rcases hserved with ⟨hl, ⟨x, hx⟩, hboth⟩
    rcases ConnectionTable.xRibConnectionAdd_new unPort hf hs hd hl hx with
      ⟨row, h', hrun, hadd⟩
    have hsource := hadd.source
    have hdestination := hadd.destination
    rw [if_pos hboth.1] at hsource
    rw [if_pos hboth] at hrun hdestination
    have hrow : (t.setRow x row).xAppConnections x = row := Function.update_self ..
    have hiff := and_congr (sameName_dup_iff hs hsource) (sameName_dup_iff hd hdestination)
    constructor
    · intro hp _
      have hstored := hp _ _ x hrun hx
      rw [hrow] at hstored
      exact hiff.mp hstored
    · intro hone t' h'' x' hrun' hx'
      cases hrun.symm.trans hrun'
      cases hx.symm.trans hx'
      rw [hrow]
      exact hiff.mpr (hone ⟨hl, ⟨x, hx⟩, hboth⟩)
  · exact iff_of_true (connectionAdd_fails hf hs hd hserved) fun h => absurd h hserved

end NewConnection

/-- Copies of names whose parts can be read are these names exactly when both instances of
each agree, or nothing is stored. -/
theorem nameCopy_preserves_iff (copy : NameCopy) (hf : h.Fresh)
    (hn : ∀ nm ∈ copy.given, ∃ name, ShowsName h nm name) :
    copy.Preserves h ↔ (copy.Served h → ∀ nm ∈ copy.given, OneInstance h nm) := by
  cases copy with
  | xNameAssignDup pxDst pxSrc =>
    rcases hn pxSrc (List.mem_singleton_self _) with ⟨name, hname⟩
    rw [dup_preserves_iff pxDst hf hname]
    simp only [NameCopy.Served, NameCopy.given, List.forall_mem_singleton]
  | vNameAssignStatic pxSrc =>
    simp only [NameCopy.Preserves, NameCopy.Served, NameCopy.given, List.forall_mem_singleton,
      sameName_static_iff, true_imp_iff]
  | prvFlowAllocatorNewFlow pxFlow r =>
    rw [NameCopy.given, List.forall_mem_cons, List.forall_mem_singleton] at hn
    rcases hn with ⟨⟨src, hs⟩, dst, hd⟩
    rw [newFlow_preserves_iff pxFlow hf hs hd, NameCopy.Served, NameCopy.given,
      List.forall_mem_cons, List.forall_mem_singleton]
  | xRibConnectionAdd t pxSrc pxDst unPort =>
    rw [NameCopy.given, List.forall_mem_cons, List.forall_mem_singleton] at hn
    rcases hn with ⟨⟨src, hs⟩, dst, hd⟩
    rw [connectionAdd_preserves_iff hf hs hd, NameCopy.given, List.forall_mem_cons,
      List.forall_mem_singleton]

/-- The name `e1/e2/e3/e2`. -/
def sameInstances : Name := { partsName with pcEntityInstance := some ⟨0, 3⟩ }

theorem sameInstances_reads : ∃ s₁ s₂ s₃ s₄,
    Reads partsHeap sameInstances.strings [s₁, s₂, s₃, s₄] := by
  have hreads := partsHeap_reads
  simp only [exampleParts, Reads, List.forall₂_cons, List.forall₂_nil_left_iff, and_true] at hreads
  rcases hreads with ⟨hs₁, hs₂, hs₃, -⟩
  exact ⟨_, _, _, _, .cons hs₁ (.cons hs₂ (.cons hs₃ (.cons hs₂ .nil)))⟩

/-- A connection between two processes of this name. -/
def sameConnection : NameCopy := .xRibConnectionAdd (.init true) sameInstances sameInstances 1

theorem sameConnection_given {nm : Name} (hnm : nm ∈ sameConnection.given) :
    nm = sameInstances := by
  rcases List.mem_pair.mp hnm with rfl | rfl
  · rfl
  · rfl

theorem connection_preserved : sameConnection.Preserves partsHeap := by
  rcases sameInstances_reads with ⟨s₁, s₂, s₃, s₄, hreads⟩
  refine Iff.mpr (nameCopy_preserves_iff sameConnection partsHeap_fresh fun nm hnm => ?_)
    fun _ nm hnm => ?_
  · rw [sameConnection_given hnm]
    exact ⟨_, showsName_of_reads hreads⟩
  · rw [sameConnection_given hnm]
    rfl

/-- The copy of `e1/e2/e3/e4` is `e1/e2/e3/e2`. -/
theorem instance_crossed : ¬ (NameCopy.xNameAssignDup .zero partsName).Preserves partsHeap := by
  intro hp
  have hone := (dup_preserves_iff .zero partsHeap_fresh (showsName_of_reads partsName_reads)).mp
    hp rfl
  have hreads := partsHeap_reads
  simp only [exampleParts, Reads, List.forall₂_cons, List.forall₂_nil_left_iff, and_true] at hreads
  rcases hreads with ⟨-, hs₂, -, hs₄⟩
  have hsame := hs₄.symm.trans (hone.trans hs₂)
  exact absurd (Except.ok.inj hsame) (by decide)

end RinaSense.Flow
