import RinaSense.Common.Ids
import RinaSense.Common.Name
import RinaSense.Library.Runs
import RinaSense.Shim.Arp826

/-!
# Flows of a shim

The flow table of `ShimIPCP.c`. It has a place for each port below 256 and is searched by
port and by the hardware address of the other end. A flow which was freed is gone, and what
still points to it must not be followed.
-/

namespace RinaSense.Shim

open Common Library.Memory Library.Filler Library.Runs

/-- The flow states of `ePortidState_t`. -/
inductive PortIdState
  | eNULL
  | ePENDING
  | eALLOCATED
deriving DecidableEq, Repr

abbrev FlowPtr := ℕ

/-- A flow. The addresses are missing where nothing has set them yet. -/
structure ShimFlow where
  pxDestHa : Option (Option GHA)
  pxDestPa : Option GPA
  unPort : PortId
  ePortIdState : PortIdState
deriving DecidableEq

def MTU : ℕ := 1500

/-- The data of a shim, with the flows which are allocated. -/
structure ShimData where
  /-- Missing until the shim is started. -/
  xARP : Option ARP
  xPhyDev : MACAddress
  pxNbPool : PoolPtr
  pxEthPool : PoolPtr
  xFlows : Vector (Option FlowPtr) 256
  flows : FlowPtr → Option ShimFlow
  /-- Where the next flow is allocated. -/
  brk : FlowPtr

def pxShimWiFiCreate (pxNbPool pxEthPool : PoolPtr) : ShimData where
  xARP := none
  xPhyDev := ⟨List.replicate 6 0, rfl⟩
  pxNbPool := pxNbPool
  pxEthPool := pxEthPool
  xFlows := Vector.replicate 256 none
  flows := fun _ => none
  brk := 0

variable (pf : Platform)

/-- The string is copied with its terminator. -/
def pxNameToGPA (h : Heap) (pxName : Name) : Exec (Option GPA × Heap) := do
  match ← pcNameToString h pxName with
  | (none, h) => return (none, h)
  | (some pcTmp, h) => do
    let b ← inBounds (h.mem pcTmp)
    let s ← inBounds (cstring b)
    let (pxGpa, h) ← pxCreateGPA h b 0 (s.length + 1)
    let h ← vRsMemFree h (some ⟨pcTmp, 0⟩)
    return (pxGpa, h)

/-- The address for a name whose strings were not allocated with it. -/
theorem pxNameToGPA_parts {h : Heap} (hm : h.MemoryAvailable) (hbrk : h.mem h.brk = none)
    {nm : Name} (hn : nm.unPostLn = 0) {strings : List CString}
    (hr : Reads h nm.strings strings) :
    ∃ h', pxNameToGPA h nm = .ok (some ⟨joined strings⟩, h') := by
  rcases pcNameToString_parts hn hr (hm _) hbrk with ⟨h₁, hprint, hsame, hblock⟩
  cases strings with
  | nil => cases hr
  | cons s strings =>
    rcases joined_terminated s strings with ⟨t, ht⟩
    have hm₁ : h₁.MemoryAvailable := fun n => (congrFun hsame n).trans (hm n)
    have hstring : cstring (joined (s :: strings)) = some t := by
      rw [ht]
      exact cstring_append t []
    have hslice : slice (joined (s :: strings)) 0 (t.length + 1) =
        some (joined (s :: strings)) := by
      rw [slice_eq_some, ht, CString.terminated_length, List.drop_zero, ← t.terminated_length,
        List.take_length]
      exact ⟨Nat.le_of_eq (Nat.zero_add _), rfl⟩
    have hgpa := pxCreateGPA_available hm₁ (Nat.succ_ne_zero t.length) hslice
    have hlive : ((h₁.afterCalls 2).mem h.brk).isSome := by
      rw [Heap.afterCalls, hblock]
      rfl
    refine ⟨(h₁.afterCalls 2).setBlock h.brk none, ?_⟩
    simp [pxNameToGPA, hprint, hblock, hstring, hgpa, vRsMemFree, hlive, pure, Except.pure]

def xGHACmp (pxHa1 pxHa2 : Option GHA) : Bool :=
  match pxHa1, pxHa2 with
  | some ha1, some ha2 => ha1.xAddress.ucBytes == ha2.xAddress.ucBytes
  | _, _ => false

def pxARPLookupGHA (pxARP : ARP) (pxPa : GPA) : Option GHA :=
  pxARPCacheLookupGHA pxARP.pxCache pxPa

namespace ShimData

def flow (d : ShimData) (p : FlowPtr) : Exec ShimFlow := inBounds (d.flows p)

def setFlow (d : ShimData) (p : FlowPtr) (f : Option ShimFlow) : ShimData :=
  { d with flows := Function.update d.flows p f }

@[simp] theorem setFlow_self (d : ShimData) (p : FlowPtr) (f : Option ShimFlow) :
    (d.setFlow p f).flows p = f := Function.update_self _ _ _

theorem setFlow_of_ne (d : ShimData) {p q : FlowPtr} (f : Option ShimFlow) (hq : q ≠ p) :
    (d.setFlow p f).flows q = d.flows q := Function.update_of_ne hq _ _

@[simp] theorem setFlow_xFlows (d : ShimData) (p : FlowPtr) (f : Option ShimFlow) :
    (d.setFlow p f).xFlows = d.xFlows := rfl

@[simp] theorem setFlow_brk (d : ShimData) (p : FlowPtr) (f : Option ShimFlow) :
    (d.setFlow p f).brk = d.brk := rfl

/-- The data with one more flow. -/
def addFlow (d : ShimData) (f : ShimFlow) : ShimData :=
  { d.setFlow d.brk (some f) with brk := d.brk + 1 }

/-- A flow from `malloc`, which its caller fills in. -/
def pvRsMemAllocFlow (d : ShimData) (h : Heap) (f : ShimFlow) : Option FlowPtr × ShimData × Heap :=
  match requestMemory h with
  | (false, h) => (none, d, h)
  | (true, h) => (some d.brk, d.addFlow f, h)

def prvShimFindFlowByPortId (d : ShimData) (unPort : PortId) : Exec (Option FlowPtr) :=
  inBounds d.xFlows[unPort.toNat]?

/-- The loop of `prvShimFindFlowByGHA`. -/
def findByGHA (d : ShimData) (pxHa : Option GHA) : List (Option FlowPtr) → Exec (Option FlowPtr)
  | [] => .ok none
  | none :: entries => findByGHA d pxHa entries
  | some p :: entries => do
    let f ← d.flow p
    let pxDestHa ← initialised f.pxDestHa
    if xGHACmp pxDestHa pxHa then return some p
    findByGHA d pxHa entries

def prvShimFindFlowByGHA (d : ShimData) (pxHa : Option GHA) : Exec (Option FlowPtr) :=
  d.findByGHA pxHa d.xFlows.toList

/-- The table keeps its pointer to the flow. -/
def prvShimFlowDestroy (d : ShimData) (xFlow : FlowPtr) : Exec (Bool × ShimData) := do
  let _ ← d.flow xFlow
  return (true, d.setFlow xFlow none)

/-- The success of the release is taken for a failure. -/
def prvShimUnbindDestroyFlow (d : ShimData) (xFlow : FlowPtr) : Exec (Bool × ShimData) := do
  let (destroyed, d) ← d.prvShimFlowDestroy xFlow
  if destroyed then return (false, d)
  return (true, d)

/-- The write to the place of a port in the table. -/
def setEntry (d : ShimData) (unPort : PortId) (xFlow : FlowPtr) : Exec ShimData :=
  if hp : unPort.toNat < 256 then
    .ok { d with xFlows := d.xFlows.set unPort.toNat (some xFlow) }
  else .error .outOfBounds

end ShimData

/-- A request for a flow. Whether its queue could be made is given. -/
def xShimFlowAllocateRequest (h : Heap) (d : ShimData) (pxSourceInfo pxDestinationInfo : Name)
    (unPort : PortId) (xQueueInit : Bool) : Exec (Bool × ShimData × Heap) := do
  rsAssert pf (is_port_id_ok unPort)
  let _ ← vNameToStringBuf h pxSourceInfo (h.stale h.brk 64) 64
  match ← d.prvShimFindFlowByPortId unPort with
  | some p => do
    let pxFlow ← d.flow p
    return (pxFlow.ePortIdState == .ePENDING, d, h)
  | none =>
    match d.pvRsMemAllocFlow h ⟨none, none, unPort, .ePENDING⟩ with
    | (none, d, h) => return (false, d, h)
    | (some p, d, h) => do
      match ← pxNameToGPA h pxDestinationInfo with
      | (none, h) => do
        let (_, d) ← d.prvShimUnbindDestroyFlow p
        return (false, d, h)
      | (some pxDestPa, h) =>
        let d := d.setFlow p (some ⟨none, some pxDestPa, unPort, .ePENDING⟩)
        if xQueueInit then return (true, d, h)
        else do
          let (_, d) ← d.prvShimUnbindDestroyFlow p
          return (false, d, h)

def xShimFlowAllocateResponse (d : ShimData) (unPort : PortId) : Exec (Bool × ShimData) := do
  rsAssert pf (is_port_id_ok unPort)
  match ← d.prvShimFindFlowByPortId unPort with
  | none => return (false, d)
  | some p => do
    let pxFlow ← d.flow p
    if pxFlow.ePortIdState ≠ .ePENDING then return (false, d)
    let xARP ← deref d.xARP
    let pxDestPa ← initialised pxFlow.pxDestPa
    return (true, d.setFlow p (some { pxFlow with
      ePortIdState := .eALLOCATED
      unPort := unPort
      pxDestHa := some (pxARPLookupGHA xARP pxDestPa) }))

def xShimFlowDeallocate (d : ShimData) (xId : PortId) : Exec (Bool × ShimData) := do
  rsAssert pf (is_port_id_ok xId)
  match ← d.prvShimFindFlowByPortId xId with
  | none => return (false, d)
  | some p => d.prvShimUnbindDestroyFlow p

/-- The normal IPC process, which a build without assertions never looks up, binds the new
flow. -/
def bindNewFlow (pxIpcp : Option (PortId → Bool)) (unPort : PortId) : Exec Bool := do
  rsAssert pf pxIpcp.isSome
  let flowBindingIpcp ← initialised (if pf.ndebug then none else pxIpcp)
  return flowBindingIpcp unPort

/-- The event which is posted for a frame, with the port of its flow and its data unit. -/
def postRinaFrame (h : Heap) (d : ShimData) (pxNbFrame : NbPtr) (p : FlowPtr) :
    Exec (Option (PortId × Option NbPtr) × Heap) := do
  let pxDu ← pxNetBufNext pf h pxNbFrame
  let h ← vNetBufFree pf h pxNbFrame
  let pxFlow ← d.flow p
  return (some (pxFlow.unPort, pxDu), h)

/-- A frame with a RINA PDU, the port which the IPC manager would reserve for it and the
normal IPC process. -/
def prvShimHandleRinaFrame (h : Heap) (d : ShimData) (pxNbFrame : NbPtr) (unReserved : PortId)
    (pxIpcp : Option (PortId → Bool)) :
    Exec (Option (PortId × Option NbPtr) × ShimData × Heap) := do
  let eth ← deref (← pvNetBufPtr pf h pxNbFrame)
  let b ← inBounds (h.mem eth.block)
  let (pxSrcHa, h) ← pxCreateGHA h .MAC_ADDR_802_3 b (eth.off + 6)
  match ← d.prvShimFindFlowByGHA pxSrcHa with
  | some p => do
    let (event, h) ← postRinaFrame pf h d pxNbFrame p
    return (event, d, h)
  | none =>
    match d.pvRsMemAllocFlow h ⟨some pxSrcHa, none, unReserved, .eALLOCATED⟩ with
    | (none, d, h) => return (none, d, h)
    | (some p, d, h) => do
      let d ← d.setEntry unReserved p
      let bound ← bindNewFlow pf pxIpcp unReserved
      if !bound then return (none, d, h)
      let (event, h) ← postRinaFrame pf h d pxNbFrame p
      return (event, d, h)

/-- A data unit which leaves on a flow; the driver is given. -/
def xShimSDUWrite (h : Heap) (d : ShimData) (unPort : PortId) (pxDu : NbPtr)
    (xNetworkInterfaceOutput : Heap → NbPtr → Exec (Bool × Heap)) : Exec (Bool × Heap) := do
  let uxLength ← unNetBufTotalSize h pxDu
  if MTU < uxLength then return (false, h)
  match ← d.prvShimFindFlowByPortId unPort with
  | none => return (false, h)
  | some p => do
    let pxFlow ← d.flow p
    if pxFlow.ePortIdState ≠ .eALLOCATED then return (false, h)
    match ← pxCreateGHA h .MAC_ADDR_802_3 d.xPhyDev.ucBytes 0 with
    | (none, h) => return (false, h)
    | (some pxSrcHw, h) => do
      match ← initialised pxFlow.pxDestHa with
      | none => return (false, h)
      | some pxDestHa => do
        match ← pxRsrcAlloc pf h (some d.pxEthPool) (some "xShimSDUWrite") with
        | (none, h) => return (false, h)
        | (some a, h) => do
          match ← pxNetBufNew pf h (some d.pxNbPool) .NB_ETH_HDR (some ⟨a, 0⟩)
            sizeofEthernetHeader (some .vNetBufFreePool) with
          | (none, h) => return (false, h)
          | (some pxNbFrame, h) => do
            let h ← vNetBufAppend pf h pxNbFrame pxDu
            let pxEthHdr ← pvNetBufPtr pf h pxNbFrame
            let h ← h.write pxEthHdr 12 (leBytes 2 (RsHtoNS ETH_P_RINA).toNat)
            let h ← h.write pxEthHdr 6 pxSrcHw.xAddress.ucBytes
            let h ← h.write pxEthHdr 0 pxDestHa.xAddress.ucBytes
            let (xStatus, h) ← xNetworkInterfaceOutput h pxNbFrame
            let h ← vNetBufFreeAll pf h pxNbFrame
            return (xStatus, h)

/-! ### Runs -/

/-- A call. It finds the memory as the rest of the program has left it. -/
inductive ShimOp
  | request (h : Heap) (pxSourceInfo pxDestinationInfo : Name) (unPort : PortId)
      (xQueueInit : Bool)
  | response (unPort : PortId)
  | deallocate (xId : PortId)
  | frame (h : Heap) (pxNbFrame : NbPtr) (unReserved : PortId) (pxIpcp : Option (PortId → Bool))
  | write (h : Heap) (unPort : PortId) (pxDu : NbPtr)
      (xNetworkInterfaceOutput : Heap → NbPtr → Exec (Bool × Heap))
  /-- The shim is started, or its ARP component changes. -/
  | setup (xARP : Option ARP) (xPhyDev : MACAddress)

/-- A call, unless it does not come back. -/
def ShimData.step (d : ShimData) : ShimOp → Option ShimData
  | .request h pxSourceInfo pxDestinationInfo unPort xQueueInit =>
    (xShimFlowAllocateRequest pf h d pxSourceInfo pxDestinationInfo unPort xQueueInit).toOption.map
      fun out => out.2.1
  | .response unPort => (xShimFlowAllocateResponse pf d unPort).toOption.map fun out => out.2
  | .deallocate xId => (xShimFlowDeallocate pf d xId).toOption.map fun out => out.2
  | .frame h pxNbFrame unReserved pxIpcp =>
    (prvShimHandleRinaFrame pf h d pxNbFrame unReserved pxIpcp).toOption.map fun out => out.2.1
  | .write h unPort pxDu xNetworkInterfaceOutput =>
    (xShimSDUWrite pf h d unPort pxDu xNetworkInterfaceOutput).toOption.map fun _ => d
  | .setup xARP xPhyDev => some { d with xARP := xARP, xPhyDev := xPhyDev }

/-- The table holds a pending flow for the port, with its destination address. -/
def ShimData.HoldsPending (d : ShimData) (unPort : PortId) (pxDestPa : GPA) : Prop :=
  ∃ p f, d.prvShimFindFlowByPortId unPort = .ok (some p) ∧ d.flows p = some f ∧
    f.unPort = unPort ∧ f.ePortIdState = .ePENDING ∧ f.pxDestPa = some pxDestPa

/-! ### The table -/

/-- The table points to the flow. -/
def ShimData.Registered (d : ShimData) (p : FlowPtr) : Prop := some p ∈ d.xFlows

section Table

variable {d d' : ShimData} {unPort : PortId} {p : FlowPtr}

theorem registered_of_find (hf : d.prvShimFindFlowByPortId unPort = .ok (some p)) :
    d.Registered p := by
  rw [ShimData.prvShimFindFlowByPortId] at hf
  cases he : d.xFlows[unPort.toNat]? with
  | none => simp [he] at hf
  | some entry =>
    rw [he, inBounds_some, Except.ok.injEq] at hf
    subst hf
    exact Vector.mem_of_getElem? he

/-- What a call can do to the table and to the flows. An entry is only made for a new flow
which is allocated, and a flow which was there is kept, freed, or left allocated. -/
structure Evolves (d d' : ShimData) : Prop where
  brk : d.brk ≤ d'.brk
  entry : ∀ p, d'.Registered p → d.Registered p ∨
    d.brk ≤ p ∧ p < d'.brk ∧ ∀ f, d'.flows p = some f → f.ePortIdState = .eALLOCATED
  flow : ∀ p < d.brk, ∀ f, d'.flows p = some f →
    d.flows p = some f ∨ f.ePortIdState = .eALLOCATED

/-- No pending flow is in the table. -/
structure ShimData.Inv (d : ShimData) : Prop where
  entry : ∀ p, d.Registered p → p < d.brk
  allocated : ∀ p, d.Registered p → ∀ f, d.flows p = some f → f.ePortIdState = .eALLOCATED

theorem inv_create (pxNbPool pxEthPool : PoolPtr) : (pxShimWiFiCreate pxNbPool pxEthPool).Inv where
  entry p hp := by simp [ShimData.Registered, pxShimWiFiCreate] at hp
  allocated p hp := by simp [ShimData.Registered, pxShimWiFiCreate] at hp

theorem ShimData.Inv.evolves (h : d.Inv) (he : Evolves d d') : d'.Inv where
  entry p hp := by
    rcases he.entry p hp with hold | ⟨-, hnew, -⟩
    · exact Nat.lt_of_lt_of_le (h.entry p hold) he.brk
    · exact hnew
  allocated p hp f hf := by
    rcases he.entry p hp with hold | ⟨-, -, hnew⟩
    · rcases he.flow p (h.entry p hold) f hf with hkept | halloc
      · exact h.allocated p hold f hkept
      · exact halloc
    · exact hnew f hf

/-- The table and the flows which were there are left. -/
structure Aside (d d' : ShimData) : Prop where
  xFlows : d'.xFlows = d.xFlows
  brk : d.brk ≤ d'.brk
  flows : ∀ p < d.brk, d'.flows p = d.flows p

theorem aside_refl (d : ShimData) : Aside d d := ⟨rfl, Nat.le_refl _, fun _ _ => rfl⟩

theorem Aside.evolves (h : Aside d d') : Evolves d d' where
  brk := h.brk
  entry p hp := by
    rw [ShimData.Registered, h.xFlows] at hp
    exact .inl hp
  flow p hp f hf := by
    rw [h.flows p hp] at hf
    exact .inl hf

theorem Aside.setNew (h : Aside d d') (f : Option ShimFlow) : Aside d (d'.setFlow d.brk f) where
  xFlows := h.xFlows
  brk := h.brk
  flows p hp := by
    rw [ShimData.setFlow_of_ne d' f (Nat.ne_of_lt hp)]
    exact h.flows p hp

/-- Calls which free a flow or leave it allocated. -/
theorem evolves_setFlow (p : FlowPtr) {f : Option ShimFlow}
    (hf : ∀ g, f = some g → g.ePortIdState = .eALLOCATED) : Evolves d (d.setFlow p f) where
  brk := Nat.le_refl _
  entry _ hq := .inl hq
  flow q _ g hg := by
    by_cases hq : q = p
    · subst hq
      rw [ShimData.setFlow_self] at hg
      exact .inr (hf g hg)
    · rw [ShimData.setFlow_of_ne d f hq] at hg
      exact .inl hg

theorem flow_eq_ok {f : ShimFlow} : d.flow p = .ok f ↔ d.flows p = some f := inBounds_eq_ok

/-- The flow is freed, and the caller is told that it was not. -/
theorem unbindDestroy_spec {ret : Bool} (hd : d.prvShimUnbindDestroyFlow p = .ok (ret, d')) :
    ret = false ∧ d' = d.setFlow p none := by
  cases hf : d.flow p with
  | error t => simp [ShimData.prvShimUnbindDestroyFlow, ShimData.prvShimFlowDestroy, hf] at hd
  | ok f =>
    simp only [ShimData.prvShimUnbindDestroyFlow, ShimData.prvShimFlowDestroy, hf,
      Exec.ok_bind] at hd
    cases hd
    exact ⟨rfl, rfl⟩

theorem aside_addFlow (d : ShimData) (f : ShimFlow) : Aside d (d.addFlow f) where
  xFlows := rfl
  brk := Nat.le_succ _
  flows _ hp := ShimData.setFlow_of_ne d (some f) (Nat.ne_of_lt hp)

theorem pvRsMemAllocFlow_cases (d : ShimData) (h : Heap) (f : ShimFlow) :
    (∃ h', d.pvRsMemAllocFlow h f = (none, d, h')) ∨
    ∃ h', d.pvRsMemAllocFlow h f = (some d.brk, d.addFlow f, h') := by
  rw [ShimData.pvRsMemAllocFlow]
  cases hm : requestMemory h with
  | mk granted h' =>
    cases granted with
    | false => exact .inl ⟨h', rfl⟩
    | true => exact .inr ⟨h', rfl⟩

variable {pf : Platform}

/-- A request meets a flow of the port and leaves everything, or there is none in the table
and the table stays as it is. -/
theorem request_cases {h h' : Heap} {src dst : Name} {queue ret : Bool}
    (hr : xShimFlowAllocateRequest pf h d src dst unPort queue = .ok (ret, d', h')) :
    (∃ p f, d.prvShimFindFlowByPortId unPort = .ok (some p) ∧ d.flows p = some f ∧
      ret = (f.ePortIdState == .ePENDING) ∧ d' = d) ∨
    d.prvShimFindFlowByPortId unPort = .ok none ∧ Aside d d' := by
  rw [xShimFlowAllocateRequest, Exec.bind_eq_ok] at hr
  obtain ⟨-, -, hr⟩ := hr
  obtain ⟨pcNameBuf, -, hr⟩ := Exec.bind_eq_ok.mp hr
  obtain ⟨found, hfind, hr⟩ := Exec.bind_eq_ok.mp hr
  cases found with
  | some p =>
    obtain ⟨f, hf, hr⟩ := Exec.bind_eq_ok.mp hr
    cases hr
    exact .inl ⟨p, f, hfind, flow_eq_ok.mp hf, rfl, rfl⟩
  | none =>
    refine .inr ⟨hfind, ?_⟩
    have haside := aside_addFlow d ⟨none, none, unPort, .ePENDING⟩
    rcases pvRsMemAllocFlow_cases d h ⟨none, none, unPort, .ePENDING⟩ with ⟨h₁, ha⟩ | ⟨h₁, ha⟩
    · simp only [ha] at hr
      cases hr
      exact aside_refl d
    · simp only [ha] at hr
      obtain ⟨⟨address, h₂⟩, -, hr⟩ := Exec.bind_eq_ok.mp hr
      cases address with
      | none =>
        obtain ⟨⟨destroyed, d₂⟩, hd, hr⟩ := Exec.bind_eq_ok.mp hr
        obtain ⟨-, rfl⟩ := unbindDestroy_spec hd
        cases hr
        exact haside.setNew none
      | some pxDestPa =>
        cases queue with
        | true =>
          cases hr
          exact haside.setNew _
        | false =>
          obtain ⟨⟨destroyed, d₂⟩, hd, hr⟩ := Exec.bind_eq_ok.mp hr
          obtain ⟨-, rfl⟩ := unbindDestroy_spec hd
          cases hr
          exact (haside.setNew _).setNew none

/-- A response meets no pending flow, or moves one. -/
theorem response_cases {ret : Bool} (hr : xShimFlowAllocateResponse pf d unPort = .ok (ret, d')) :
    (ret = false ∧ d' = d) ∨
    ∃ p f g, d.prvShimFindFlowByPortId unPort = .ok (some p) ∧ d.flows p = some f ∧
      f.ePortIdState = .ePENDING ∧ ret = true ∧ g.ePortIdState = .eALLOCATED ∧
      d' = d.setFlow p (some g) := by
  rw [xShimFlowAllocateResponse, Exec.bind_eq_ok] at hr
  obtain ⟨-, -, hr⟩ := hr
  obtain ⟨found, hfind, hr⟩ := Exec.bind_eq_ok.mp hr
  cases found with
  | none =>
    cases hr
    exact .inl ⟨rfl, rfl⟩
  | some p =>
    obtain ⟨f, hf, hr⟩ := Exec.bind_eq_ok.mp hr
    by_cases hs : f.ePortIdState = .ePENDING
    · rw [if_neg (not_not_intro hs)] at hr
      obtain ⟨xARP, -, hr⟩ := Exec.bind_eq_ok.mp hr
      obtain ⟨pxDestPa, -, hr⟩ := Exec.bind_eq_ok.mp hr
      cases hr
      exact .inr ⟨p, f, _, hfind, flow_eq_ok.mp hf, hs, rfl, rfl, rfl⟩
    · rw [if_pos hs] at hr
      cases hr
      exact .inl ⟨rfl, rfl⟩

theorem deallocate_cases {ret : Bool} (hd : xShimFlowDeallocate pf d unPort = .ok (ret, d')) :
    ret = false ∧ (d' = d ∨ ∃ p, d.prvShimFindFlowByPortId unPort = .ok (some p) ∧
      d' = d.setFlow p none) := by
  rw [xShimFlowDeallocate, Exec.bind_eq_ok] at hd
  obtain ⟨-, -, hd⟩ := hd
  obtain ⟨found, hfind, hd⟩ := Exec.bind_eq_ok.mp hd
  cases found with
  | none =>
    cases hd
    exact ⟨rfl, .inl rfl⟩
  | some p =>
    obtain ⟨rfl, rfl⟩ := unbindDestroy_spec hd
    exact ⟨rfl, .inr ⟨p, hfind, rfl⟩⟩

/-- The data with one more flow, which the table has at its port. -/
def ShimData.enterFlow (d : ShimData) (f : ShimFlow) (hp : f.unPort.toNat < 256) : ShimData :=
  { d.addFlow f with xFlows := d.xFlows.set f.unPort.toNat (some d.brk) }

/-- A frame changes nothing, or enters a new flow, which is allocated at the reserved port. -/
theorem frame_cases {h h' : Heap} {pxNbFrame : NbPtr} {unReserved : PortId}
    {pxIpcp : Option (PortId → Bool)} {event : Option (PortId × Option NbPtr)}
    (hf : prvShimHandleRinaFrame pf h d pxNbFrame unReserved pxIpcp = .ok (event, d', h')) :
    d' = d ∨ ∃ f hp, f.unPort = unReserved ∧ f.ePortIdState = .eALLOCATED ∧
      d' = d.enterFlow f hp := by
  rw [prvShimHandleRinaFrame, Exec.bind_eq_ok] at hf
  obtain ⟨pxBuf, -, hf⟩ := hf
  obtain ⟨eth, -, hf⟩ := Exec.bind_eq_ok.mp hf
  obtain ⟨b, -, hf⟩ := Exec.bind_eq_ok.mp hf
  obtain ⟨⟨pxSrcHa, h₁⟩, -, hf⟩ := Exec.bind_eq_ok.mp hf
  obtain ⟨found, -, hf⟩ := Exec.bind_eq_ok.mp hf
  cases found with
  | some p =>
    obtain ⟨⟨posted, h₂⟩, -, hf⟩ := Exec.bind_eq_ok.mp hf
    cases hf
    exact .inl rfl
  | none =>
    rcases pvRsMemAllocFlow_cases d h₁ ⟨some pxSrcHa, none, unReserved, .eALLOCATED⟩ with
      ⟨h₂, ha⟩ | ⟨h₂, ha⟩
    · simp only [ha] at hf
      cases hf
      exact .inl rfl
    · simp only [ha] at hf
      obtain ⟨d₁, hentry, hf⟩ := Exec.bind_eq_ok.mp hf
      rw [ShimData.setEntry] at hentry
      split at hentry
      case isFalse => cases hentry
      case isTrue hp =>
        cases hentry
        obtain ⟨bound, -, hf⟩ := Exec.bind_eq_ok.mp hf
        refine .inr ⟨⟨some pxSrcHa, none, unReserved, .eALLOCATED⟩, hp, rfl, rfl, ?_⟩
        cases bound with
        | false =>
          cases hf
          rfl
        | true =>
          obtain ⟨⟨posted, h₃⟩, -, hf⟩ := Exec.bind_eq_ok.mp hf
          cases hf
          rfl

theorem evolves_enterFlow {f : ShimFlow} (hp : f.unPort.toNat < 256)
    (hf : f.ePortIdState = .eALLOCATED) : Evolves d (d.enterFlow f hp) where
  brk := Nat.le_succ _
  entry p hreg := by
    have hset : some p ∈ d.xFlows.set f.unPort.toNat (some d.brk) := hreg
    rcases Vector.mem_or_eq_of_mem_set hset with hold | hnew
    · exact .inl hold
    · cases hnew
      refine .inr ⟨Nat.le_refl _, Nat.lt_succ_self _, fun g hg => ?_⟩
      have hself : (d.enterFlow f hp).flows d.brk = some f := ShimData.setFlow_self _ _ _
      rw [hself] at hg
      cases hg
      exact hf
  flow p hlt g hg := by
    have hkept : (d.enterFlow f hp).flows p = d.flows p :=
      ShimData.setFlow_of_ne d (some f) (Nat.ne_of_lt hlt)
    rw [hkept] at hg
    exact .inl hg

theorem step_evolves {op : ShimOp} (hst : d.step pf op = some d') : Evolves d d' := by
  cases op with
  | request h src dst unPort queue =>
    obtain ⟨⟨ret, d₁, h'⟩, hr, rfl⟩ := Exec.toOption_map_eq_some hst
    rcases request_cases hr with ⟨p, f, -, -, -, rfl⟩ | ⟨-, haside⟩
    · exact (aside_refl d₁).evolves
    · exact haside.evolves
  | response unPort =>
    obtain ⟨⟨ret, d₁⟩, hr, rfl⟩ := Exec.toOption_map_eq_some hst
    rcases response_cases hr with ⟨-, rfl⟩ | ⟨p, f, g, -, -, -, -, hg, rfl⟩
    · exact (aside_refl d₁).evolves
    · refine evolves_setFlow p ?_
      rintro _ ⟨⟩
      exact hg
  | deallocate xId =>
    obtain ⟨⟨ret, d₁⟩, hd, rfl⟩ := Exec.toOption_map_eq_some hst
    rcases deallocate_cases hd with ⟨-, rfl | ⟨p, -, rfl⟩⟩
    · exact (aside_refl d₁).evolves
    · exact evolves_setFlow p (by simp)
  | frame h pxNbFrame unReserved pxIpcp =>
    obtain ⟨⟨event, d₁, h'⟩, hf, rfl⟩ := Exec.toOption_map_eq_some hst
    rcases frame_cases hf with rfl | ⟨f, hp, -, hstate, rfl⟩
    · exact (aside_refl d₁).evolves
    · exact evolves_enterFlow hp hstate
  | write h unPort pxDu xNetworkInterfaceOutput =>
    obtain ⟨out, -, rfl⟩ := Exec.toOption_map_eq_some hst
    exact (aside_refl d).evolves
  | setup xARP xPhyDev =>
    cases hst
    exact ⟨Nat.le_refl _, fun _ hp => .inl hp, fun _ _ _ hf => .inl hf⟩

theorem ShimData.Inv.run (h : d.Inv) {ops : List ShimOp}
    (hrun : ops.foldlM (ShimData.step pf) d = some d') : d'.Inv :=
  foldlM_preserves (fun _ _ _ hi hst => hi.evolves (step_evolves hst)) h hrun

theorem ShimData.Inv.not_holdsPending (h : d.Inv) (pxDestPa : GPA) :
    ¬ d.HoldsPending unPort pxDestPa := by
  rintro ⟨p, f, hfind, hf, -, hpending, -⟩
  have halloc := h.allocated p (registered_of_find hfind) f hf
  rw [hpending] at halloc
  cases halloc

theorem ShimData.Inv.response_refused (h : d.Inv) (d₂ : ShimData) :
    xShimFlowAllocateResponse pf d unPort ≠ .ok (true, d₂) := by
  intro hr
  rcases response_cases hr with ⟨hret, -⟩ | ⟨p, f, g, hfind, hf, hpending, -, -, -⟩
  · cases hret
  · have halloc := h.allocated p (registered_of_find hfind) f hf
    rw [hpending] at halloc
    cases halloc

/-- A request which succeeds, at any time in the life of a shim, leaves no pending flow for
its port in the table, and whatever the shim does then, no response moves a flow of the
port. -/
theorem requested_flow_lost {pxNbPool pxEthPool : PoolPtr} {ops : List ShimOp}
    (hrun : ops.foldlM (ShimData.step pf) (pxShimWiFiCreate pxNbPool pxEthPool) = some d)
    {h h' : Heap} {src dst : Name} {queue : Bool}
    (hreq : xShimFlowAllocateRequest pf h d src dst unPort queue = .ok (true, d', h')) :
    (∀ pxDestPa, ¬ d'.HoldsPending unPort pxDestPa) ∧
      ∀ (rest : List ShimOp) (d₁ : ShimData), rest.foldlM (ShimData.step pf) d' = some d₁ →
        ∀ d₂, xShimFlowAllocateResponse pf d₁ unPort ≠ .ok (true, d₂) := by
  have hstep : d.step pf (.request h src dst unPort queue) = some d' := by
    rw [ShimData.step, hreq]
    rfl
  have hinv := ((inv_create pxNbPool pxEthPool).run hrun).evolves (step_evolves hstep)
  exact ⟨hinv.not_holdsPending, fun rest d₁ hrest => (hinv.run hrest).response_refused⟩

end Table

/-- Memory with the strings of a name. -/
def nameHeap : Heap where
  mem := fun a => if a = 0 then some [97, 0, 98, 0, 99, 0, 100, 0] else none
  netbufs := fun _ => none
  rsrcs := fun _ => none
  pools := fun _ => none
  brk := 1
  calls := 0
  mallocOk := fun _ => true
  junk := fun _ _ => 0

/-- The name a/b/c/d. -/
def nameInHeap : Name := ⟨0, some ⟨0, 0⟩, some ⟨0, 2⟩, some ⟨0, 4⟩, some ⟨0, 6⟩⟩

/-- A request on port 1 of a shim with a request on port 2 before, and what follows for any
run behind it. -/
theorem requested_flow_lost_second :
    ∃ d d' h', [ShimOp.request nameHeap nameInHeap nameInHeap 2 true].foldlM
        (ShimData.step ⟨false, false⟩) (pxShimWiFiCreate 0 1) = some d ∧
      xShimFlowAllocateRequest ⟨false, false⟩ nameHeap d nameInHeap nameInHeap 1 true =
        .ok (true, d', h') ∧
      (∀ pxDestPa, ¬ d'.HoldsPending 1 pxDestPa) ∧
      ∀ (rest : List ShimOp) (d₁ : ShimData),
        rest.foldlM (ShimData.step ⟨false, false⟩) d' = some d₁ →
          ∀ d₂, xShimFlowAllocateResponse ⟨false, false⟩ d₁ 1 ≠ .ok (true, d₂) :=
  ⟨_, _, _, rfl, rfl, requested_flow_lost
    (show [ShimOp.request nameHeap nameInHeap nameInHeap 2 true].foldlM
      (ShimData.step ⟨false, false⟩) (pxShimWiFiCreate 0 1) = some _ from rfl)
    (show xShimFlowAllocateRequest ⟨false, false⟩ nameHeap _ nameInHeap nameInHeap 1 true =
      .ok (true, _, _) from rfl)⟩

/-- The request makes a pending flow with the address of its destination, but the table is
as empty as before, and the response does not find the flow. -/
theorem response_finds_nothing :
    ∃ d' h', xShimFlowAllocateRequest ⟨false, false⟩ nameHeap (pxShimWiFiCreate 0 1) nameInHeap
        nameInHeap 1 true = .ok (true, d', h') ∧
      d'.flows 0 = some ⟨none, some ⟨[97, 47, 98, 47, 99, 47, 100, 0]⟩, 1, .ePENDING⟩ ∧
      d'.prvShimFindFlowByPortId 1 = .ok none ∧
      xShimFlowAllocateResponse ⟨false, false⟩ d' 1 = .ok (false, d') :=
  ⟨_, _, rfl, rfl, rfl, rfl⟩

end RinaSense.Shim
