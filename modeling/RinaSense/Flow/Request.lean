import RinaSense.Efcp.Connections
import RinaSense.Flow.Alloc
import RinaSense.Rib.Objects

/-!
# Flow requests

`vFlowAllocatorFlowRequest`, which enters an instance in the flow request table, has the EFCP
container create a connection, tells the normal IPC process its CEP-id and puts an object for the
flow into the RIB. It returns nothing: what fails on the way is at most logged, and what was
entered before stays.
-/

namespace RinaSense.Flow

open Common Efcp Rib Library.Memory Library.Slots

def CFG_QoS_CUBE_ID : QosId := 3

/-- A flow of the normal IPC process with the CEP-id of its connection. -/
structure ActiveFlow extends NormalFlow where
  xActive : CepId
deriving DecidableEq, Repr

/-- The data of a normal IPC process which the flow allocator works on, with the address of the
flow allocator. -/
structure FlowSystem where
  pxFA : ℕ
  xFA : FlowAllocator
  /-- Where the next instance of the flow allocator is allocated. -/
  brk : FaiPtr
  xEfcpContainer : EfcpContainer
  xFlowsList : List ActiveFlow
  pxRib : ObjectTable

/-- What the code outside does for a request. -/
structure FlowOutcomes where
  /-- There is memory for the flow and for the copies of its names. -/
  pxFlow : Bool
  pxFlowAllocatorInstance : Bool
  /-- The address of the neighbor which the search in the enrollment ends with. -/
  pxNeighbor : Exec (Option Address)
  connection : Supply
  /-- How the encoding of the flow ends, whose value is only released. -/
  pxObjVal : Exec Unit
  pxFlowRibObj : Bool
  /-- Where the buffer for the name lies in the frame of the call. -/
  flowObj : ℕ

/-! ### The steps of a request -/

/-- A new instance of the flow allocator, entered in the table unless that is full. -/
def FlowSystem.addInstance (s : FlowSystem) (xAppPortId : PortId)
    (pxFlowRequest : FlowAllocateHandle) : FlowSystem :=
  { s with
    xFA := prvAddFlowRequestEntry (s.xFA.setFai s.brk ⟨xAppPortId, .eFAI_NONE, pxFlowRequest⟩)
      s.brk
    brk := s.brk + 1 }

def xNormalConnectionCreateRequest (pf : Platform) (c : EfcpContainer) (xAppPortId : PortId)
    (xDest : Address) (mem : Supply) : Exec (CepId × EfcpContainer) := do
  rsAssert pf (xAppPortId != PORT_ID_WRONG)
  rsAssert pf (CFG_LOCAL_ADDRESS != ADDRESS_WRONG)
  rsAssert pf (xDest != ADDRESS_WRONG)
  rsAssert pf (CFG_QoS_CUBE_ID != QOS_ID_WRONG)
  let (xCepId, c) ← xEfcpConnectionCreate pf c
    ⟨xDest, xAppPortId, CFG_QoS_CUBE_ID, CEP_ID_WRONG, CEP_ID_WRONG⟩ mem
  if is_cep_id_ok xCepId then return (xCepId, c) else return (CEP_ID_WRONG, c)

/-- The first flow of the port is changed. -/
def updateFlow (f : ActiveFlow → ActiveFlow) (xPortId : PortId) :
    List ActiveFlow → List ActiveFlow
  | [] => []
  | flow :: flows =>
    if flow.xPortId = xPortId then f flow :: flows else flow :: updateFlow f xPortId flows

def xNormalUpdateCepIdFlow (xPortId : PortId) (xCepId : CepId) :
    List ActiveFlow → List ActiveFlow :=
  updateFlow (fun flow => { flow with xActive := xCepId }) xPortId

/-- The change of a state alone is the one which the flows are modelled with elsewhere. -/
theorem updateFlow_status (xPortId : PortId) (eState : PortState) (flows : List ActiveFlow) :
    (updateFlow (fun flow => { flow with eState := eState }) xPortId flows).map
        ActiveFlow.toNormalFlow =
      xNormalUpdateFlowStatus xPortId eState (flows.map ActiveFlow.toNormalFlow) := by
  induction flows with
  | nil => rfl
  | cons flow flows ih =>
    rw [updateFlow, List.map_cons, xNormalUpdateFlowStatus]
    split_ifs
    · rfl
    · rw [List.map_cons, ih]

/-- The container with the new connection, and its CEP-id at the flow. -/
def FlowSystem.connect (s : FlowSystem) (xAppPortId : PortId) (xCepSourceId : CepId)
    (c : EfcpContainer) : FlowSystem :=
  { s with
    xEfcpContainer := c
    xFlowsList := xNormalUpdateCepIdFlow xAppPortId xCepSourceId s.xFlowsList }

/-- `/fa/flows/key=` -/
def flowKeyBytes : Bytes := [47, 102, 97, 47, 102, 108, 111, 119, 115, 47, 107, 101, 121, 61]

theorem flowKeyBytes_noZero : (0 : UInt8) ∉ flowKeyBytes := by decide

theorem dash_noZero : (0 : UInt8) ∉ ([45] : Bytes) := by decide

/-- The name which is printed for a flow; the port is printed as a signed number. -/
def flowKey (xSourceAddress : Address) (xSourcePortId : PortId) : CString :=
  ((CString.append ⟨flowKeyBytes, flowKeyBytes_noZero⟩
    (.decimal xSourceAddress.toNat)).append ⟨[45], dash_noZero⟩).append
      (.decimal xSourcePortId.toInt32.toInt)

/-- The object of a flow, whose name stays in the frame of the caller. -/
def newFlowObject (t : ObjectTable) (flowObj : ℕ) (key : CString) : ObjectTable :=
  { t with
    objects := Function.update t.objects (.heap t.brk) ⟨.stack flowObj, none, none, none, false⟩
    stack := Function.update t.stack flowObj key
    brk := t.brk + 1 }

/-- A failure of the addition is only logged. -/
def FlowSystem.addFlowObject (s : FlowSystem) (xAppPortId : PortId) (flowObj : ℕ) : FlowSystem :=
  { s with
    pxRib := ((newFlowObject s.pxRib flowObj (flowKey CFG_LOCAL_ADDRESS xAppPortId)).xRibObjectAdd
      ⟨.SUCCESS, none⟩ (some s.pxFA) (.heap s.pxRib.brk)).2 }

def vFlowAllocatorFlowRequest (pf : Platform) (s : FlowSystem) (xAppPortId : PortId)
    (pxFlowRequest : FlowAllocateHandle) (o : FlowOutcomes) : Exec FlowSystem := do
  if o.pxFlowAllocatorInstance = false then return s
  else
    let s := s.addInstance xAppPortId pxFlowRequest
    match ← o.pxNeighbor with
    | none => return s
    | some xNeighborAddress =>
      if o.pxFlow = false then .error .nullPointer
      else
        let (xCepSourceId, c) ← xNormalConnectionCreateRequest pf s.xEfcpContainer xAppPortId
          xNeighborAddress o.connection
        let s := s.connect xAppPortId xCepSourceId c
        o.pxObjVal
        -- a block which could not be allocated is written to all the same
        if o.pxFlowRibObj = false then .error .nullPointer
        else return s.addFlowObject xAppPortId o.flowObj

theorem newFlowObject_of_ne {t : ObjectTable} {p : RibObjPtr} {flowObj : ℕ} {key : CString}
    (h : p ≠ .heap t.brk) : (newFlowObject t flowObj key).objects p = t.objects p :=
  Function.update_of_ne h ..

/-- The new object gets the first free row, if there is one. -/
theorem addFlowObject_cases (s : FlowSystem) (port : PortId) (flowObj : ℕ) :
    (firstFree s.pxRib.pxRibObjects = none ∧ (s.addFlowObject port flowObj).pxRib =
      newFlowObject s.pxRib flowObj (flowKey CFG_LOCAL_ADDRESS port)) ∨
    ∃ x, firstFree s.pxRib.pxRibObjects = some x ∧
      (s.addFlowObject port flowObj).pxRib.pxRibObjects =
        Function.update s.pxRib.pxRibObjects x (some (.heap s.pxRib.brk)) ∧
      (newFlowObject s.pxRib flowObj (flowKey CFG_LOCAL_ADDRESS port)).SameNames
        (s.addFlowObject port flowObj).pxRib := by
  obtain ⟨⟨status, t'⟩, hadd⟩ :
    ∃ r, (newFlowObject s.pxRib flowObj (flowKey CFG_LOCAL_ADDRESS port)).xRibObjectAdd
      ⟨.SUCCESS, none⟩ (some s.pxFA) (.heap s.pxRib.brk) = r := ⟨_, rfl⟩
  simp only [FlowSystem.addFlowObject, hadd]
  rcases ObjectTable.xRibObjectAdd_cases hadd with ⟨hfull, -, rfl⟩ | ⟨x, hfree, hrows, hn, -⟩
  · exact .inl ⟨hfull, rfl⟩
  · exact .inr ⟨x, hfree, hrows, hn⟩

/-! ### What a request can do -/

/-- The request gets as far as the object of the flow. -/
structure FlowOutcomes.Reaches (o : FlowOutcomes) (xNeighborAddress : Address) : Prop where
  instance_ : o.pxFlowAllocatorInstance = true
  neighbor : o.pxNeighbor = .ok (some xNeighborAddress)
  flow : o.pxFlow = true
  encoded : o.pxObjVal = .ok ()
  object : o.pxFlowRibObj = true

variable {pf : Platform} {s s' : FlowSystem} {port : PortId} {handle : FlowAllocateHandle}
  {o : FlowOutcomes}

/-- There was no memory for the instance, or no neighbor, or the request went through to its
end. -/
theorem vFlowAllocatorFlowRequest_cases
    (h : vFlowAllocatorFlowRequest pf s port handle o = .ok s') :
    (o.pxFlowAllocatorInstance = false ∧ s' = s) ∨
    (o.pxFlowAllocatorInstance = true ∧ o.pxNeighbor = .ok none ∧
      s' = s.addInstance port handle) ∨
    ∃ addr xCepId c, o.Reaches addr ∧
      xNormalConnectionCreateRequest pf s.xEfcpContainer port addr o.connection =
        .ok (xCepId, c) ∧
      s' = ((s.addInstance port handle).connect port xCepId c).addFlowObject port o.flowObj := by
  unfold vFlowAllocatorFlowRequest at h
  cases hinst : o.pxFlowAllocatorInstance with
  | false =>
    rw [if_pos hinst] at h
    cases h
    exact .inl ⟨rfl, rfl⟩
  | true =>
    simp only [hinst, Bool.true_eq_false, if_false] at h
    cases hn : o.pxNeighbor with
    | error t => simp [hn] at h
    | ok found =>
      simp only [hn, Exec.ok_bind] at h
      cases found with
      | none =>
        cases h
        exact .inr (.inl ⟨rfl, rfl, rfl⟩)
      | some addr =>
        refine .inr (.inr ⟨addr, ?_⟩)
        cases hflow : o.pxFlow with
        | false => simp [hflow] at h
        | true =>
          have hefcp : (s.addInstance port handle).xEfcpContainer = s.xEfcpContainer := rfl
          simp only [hflow, Bool.true_eq_false, if_false, hefcp] at h
          cases hc : xNormalConnectionCreateRequest pf s.xEfcpContainer port addr
              o.connection with
          | error t => simp [hc] at h
          | ok created =>
            obtain ⟨xCepId, c⟩ := created
            simp only [hc, Exec.ok_bind] at h
            cases hval : o.pxObjVal with
            | error t => simp [hval] at h
            | ok u =>
              simp only [hval, Exec.ok_bind] at h
              cases hobj : o.pxFlowRibObj with
              | false => simp [hobj] at h
              | true =>
                simp only [hobj, Bool.true_eq_false, if_false] at h
                cases h
                exact ⟨xCepId, c, ⟨hinst, hn, hflow, hval, hobj⟩, rfl, rfl⟩

end RinaSense.Flow
