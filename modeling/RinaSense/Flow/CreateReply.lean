import RinaSense.Efcp.Changes
import RinaSense.Flow.ObjectNames
import RinaSense.SerDes.FlowMessage

/-!
# Replies to flow requests

`xFlowAllocatorHandleCreateR`, which takes a decoded flow for the answer to a pending request. It
changes the addresses of the connection with the destination CEP-id, the destination of the
connection with the source CEP-id, the state of the flow with the destination port and the
instance of the first row.
-/

namespace RinaSense.Flow

open Common Efcp Ipcp SerDes

/-! ### The handler -/

def prvNormalFindActive (flows : List ActiveFlow) (xPortId : PortId) : Option ActiveFlow :=
  flows.find? fun flow => flow.xPortId = xPortId

def xNormalConnectionModify (s : FlowSystem) (xCepId : CepId) (xSrc xDst : Address) :
    Exec (Bool × FlowSystem) := do
  let (modified, c) ← xEfcpConnectionModify s.xEfcpContainer xCepId xSrc xDst
  return (modified, { s with xEfcpContainer := c })

def xNormalConnectionUpdate (s : FlowSystem) (xAppPortId : PortId) (xSrcCepId xDstCepId : CepId) :
    Exec (Bool × FlowSystem) := do
  let (updated, c) ← xEfcpConnectionUpdate s.xEfcpContainer xSrcCepId xDstCepId
  let s := { s with xEfcpContainer := c }
  if updated = false then return (false, s)
  else
    match prvNormalFindActive s.xFlowsList xAppPortId with
    | none => return (false, s)
    | some _ =>
      return (true, { s with
        xFlowsList := updateFlow (fun flow => { flow with eState := .ePORT_STATE_ALLOCATED })
          xAppPortId s.xFlowsList })

/-- The instance once its flow is allocated, and the waiter is told. -/
def FlowAllocatorInstance.allocated (fai : FlowAllocatorInstance) : FlowAllocatorInstance :=
  { fai with
    eFaiState := .eFAI_ALLOCATED
    pxFlowAllocatorHandle := { fai.pxFlowAllocatorHandle with
      nEventBits := fai.pxFlowAllocatorHandle.nEventBits ||| eFLOW_BOUND } }

/-- The flow is what the decoder makes of the value, if it makes anything of it. -/
def xFlowAllocatorHandleCreateR {ν : Type} (s : FlowSystem) (pxFlow : Option (FlowInfo ν))
    (result : ℤ) : Exec (Bool × FlowSystem) :=
  if result ≠ 0 then .ok (false, s)
  else
    match pxFlow with
    | none => .ok (false, s)
    | some pxFlow =>
      match pxFAFindInstance s.xFA pxFlow.xDestinationPortId with
      | none => .ok (false, s)
      | some pxFAI => do
        let (modified, s) ← xNormalConnectionModify s pxFlow.xConnectionId.xDestination
          pxFlow.xRemoteAddress pxFlow.xSourceAddress
        if modified = false then return (false, s)
        else
          let (updated, s) ← xNormalConnectionUpdate s pxFlow.xDestinationPortId
            pxFlow.xConnectionId.xSource pxFlow.xConnectionId.xDestination
          if updated = false then return (false, s)
          else
            return (true, { s with xFA := s.xFA.setFai pxFAI (s.xFA.fais pxFAI).allocated })

/-! ### Pending flows -/

def FlowSystem.portOf (s : FlowSystem) (p : FaiPtr) : PortId := (s.xFA.fais p).xPortId

/-- The flow of the port has its CEP-id, under which the instance is in the map. -/
def FlowConnection (s : FlowSystem) (xPortId : PortId) (e : EfcpPtr) : Prop :=
  ∃ flow, prvNormalFindActive s.xFlowsList xPortId = some flow ∧
    imapLookup s.xEfcpContainer.xEfcpImapTable flow.xActive = some e

/-- The flows in the table have each their own port and their own connection, from the local
address, and the map has no other instances than allocated ones. -/
structure PendingFlows (s : FlowSystem) : Prop where
  ports : (s.xFA.xFlowRequestTable.map s.portOf).Nodup
  connected : ∀ p ∈ s.xFA.xFlowRequestTable, ∃ e, FlowConnection s (s.portOf p) e
  own : ∀ p ∈ s.xFA.xFlowRequestTable, ∀ q ∈ s.xFA.xFlowRequestTable, ∀ e,
    FlowConnection s (s.portOf p) e → FlowConnection s (s.portOf q) e → p = q
  fromLocal : ∀ p ∈ s.xFA.xFlowRequestTable, ∀ e, FlowConnection s (s.portOf p) e →
    ∃ efcp, s.xEfcpContainer.efcps e = some efcp ∧
      efcp.pxConnection.xSourceAddress = CFG_LOCAL_ADDRESS
  live : s.xEfcpContainer.Live

/-- The flow of the port is allocated at the flow allocator and at the IPC process, no other
connection than its own has changed, and that is still from the local address. -/
def Allocates (s s' : FlowSystem) (xPortId : PortId) : Prop :=
  ∃ p e, p ∈ s.xFA.xFlowRequestTable ∧ s.portOf p = xPortId ∧ FlowConnection s xPortId e ∧
    (s'.xFA.fais p).eFaiState = .eFAI_ALLOCATED ∧
    (∃ flow, prvNormalFindActive s'.xFlowsList xPortId = some flow ∧
      flow.eState = .ePORT_STATE_ALLOCATED) ∧
    (∀ e', e' ≠ e → s'.xEfcpContainer.efcps e' = s.xEfcpContainer.efcps e') ∧
    ∃ efcp, s'.xEfcpContainer.efcps e = some efcp ∧
      efcp.pxConnection.xSourceAddress = CFG_LOCAL_ADDRESS

/-- No connection, no state of a flow and no event bit has changed. -/
def Untouched (s s' : FlowSystem) : Prop :=
  s'.xFA = s.xFA ∧ s'.xFlowsList = s.xFlowsList ∧ s'.xEfcpContainer.efcps = s.xEfcpContainer.efcps

/-- The reply is applied to the flow which it names by its destination port, or to none. -/
def AppliedToOne {ν : Type} (s : FlowSystem) (pxFlow : Option (FlowInfo ν)) (result : ℤ) : Prop :=
  ∃ applied s', xFlowAllocatorHandleCreateR s pxFlow result = .ok (applied, s') ∧
    if applied then ∃ flow, pxFlow = some flow ∧ Allocates s s' flow.xDestinationPortId
    else Untouched s s'

/-- The first update meets the instance `e₁`: either this is the connection `e` of the flow, whose
source stays the local address, or it has the addresses already; and so it is with the destination
of the instance which the second update meets, if it is made at all. -/
def Fits {ν : Type} (c : EfcpContainer) (flow : FlowInfo ν) (e e₁ : EfcpPtr) : Prop :=
  if c.Updates flow.xConnectionId.xSource flow.xConnectionId.xDestination then
    (if e₁ = e then flow.xRemoteAddress = CFG_LOCAL_ADDRESS
      else c.HasAddresses e₁ flow.xRemoteAddress flow.xSourceAddress) ∧
    ∀ e₂, imapLookup c.xEfcpImapTable flow.xConnectionId.xSource = some e₂ → e₂ ≠ e →
      c.HasDestination e₂ flow.xConnectionId.xDestination
  else c.HasAddresses e₁ flow.xRemoteAddress flow.xSourceAddress

variable {ν : Type} {s s' : FlowSystem} {flow : FlowInfo ν} {result : ℤ} {p : FaiPtr}
  {e e₁ e₂ : EfcpPtr} {port : PortId} {flows : List ActiveFlow}

/-! ### The flows of the IPC process -/

/-- The search is the one in the flows without their CEP-ids. -/
theorem find_active (flows : List ActiveFlow) (port : PortId) :
    (prvNormalFindActive flows port).map ActiveFlow.toNormalFlow =
      prvNormalFindFlow (flows.map ActiveFlow.toNormalFlow) port := by
  rw [prvNormalFindActive, prvNormalFindFlow, List.find?_map]
  rfl

/-- The first flow of the port is still that, with the change. -/
theorem find_updateFlow {f : ActiveFlow → ActiveFlow} {a : ActiveFlow}
    (hf : ∀ flow, (f flow).xPortId = flow.xPortId) (h : prvNormalFindActive flows port = some a) :
    prvNormalFindActive (updateFlow f port flows) port = some (f a) := by
  induction flows with
  | nil => cases h
  | cons flow flows ih =>
    unfold prvNormalFindActive at h ih ⊢
    rw [updateFlow]
    rw [List.find?_cons] at h
    by_cases hport : flow.xPortId = port
    · simp only [hport, decide_true] at h
      cases h
      simp [hport, hf a]
    · simp only [hport, decide_false] at h
      simpa [hport] using ih h

theorem FlowConnection.find (h : FlowConnection s port e) :
    ∃ a, prvNormalFindActive s.xFlowsList port = some a := by
  obtain ⟨a, ha, -⟩ := h
  exact ⟨a, ha⟩

theorem FlowConnection.eq (h : FlowConnection s port e) (h' : FlowConnection s port e₁) :
    e = e₁ := by
  obtain ⟨a, ha, he⟩ := h
  obtain ⟨b, hb, he'⟩ := h'
  rw [ha] at hb
  cases hb
  rw [he] at he'
  exact Option.some.inj he'

/-! ### What the handler does -/

theorem modify_eq {c : EfcpContainer} {xCepId : CepId} {src dst : Address} {modified : Bool}
    (h : xEfcpConnectionModify s.xEfcpContainer xCepId src dst = .ok (modified, c)) :
    xNormalConnectionModify s xCepId src dst = .ok (modified, { s with xEfcpContainer := c }) := by
  rw [xNormalConnectionModify, h]
  rfl

theorem update_eq_refused {c : EfcpContainer} {xFrom xTo : CepId}
    (h : xEfcpConnectionUpdate s.xEfcpContainer xFrom xTo = .ok (false, c)) :
    xNormalConnectionUpdate s port xFrom xTo = .ok (false, { s with xEfcpContainer := c }) := by
  rw [xNormalConnectionUpdate, h]
  rfl

theorem update_eq_done {c : EfcpContainer} {xFrom xTo : CepId} {a : ActiveFlow}
    (h : xEfcpConnectionUpdate s.xEfcpContainer xFrom xTo = .ok (true, c))
    (ha : prvNormalFindActive s.xFlowsList port = some a) :
    xNormalConnectionUpdate s port xFrom xTo = .ok (true, { s with
      xEfcpContainer := c
      xFlowsList := updateFlow (fun flow => { flow with eState := .ePORT_STATE_ALLOCATED })
        port s.xFlowsList }) := by
  rw [xNormalConnectionUpdate, h, Exec.ok_bind]
  simp only [Bool.true_eq_false, if_false, ha]
  rfl

/-- The system once the addresses of the connection were changed. -/
def FlowSystem.modified {ν : Type} (s : FlowSystem) (flow : FlowInfo ν) (e : EfcpPtr) :
    FlowSystem :=
  { s with
    xEfcpContainer := (s.xEfcpContainer.searched flow.xConnectionId.xDestination).changeAt e
      (.addressed flow.xRemoteAddress flow.xSourceAddress) }

@[simp] theorem modified_lookup (xCepId : CepId) :
    imapLookup (s.modified flow e).xEfcpContainer.xEfcpImapTable xCepId =
      imapLookup s.xEfcpContainer.xEfcpImapTable xCepId := searched_lookup ..

theorem modified_updates_iff {xFrom xTo : CepId} :
    (s.modified flow e).xEfcpContainer.Updates xFrom xTo ↔ s.xEfcpContainer.Updates xFrom xTo := by
  rw [EfcpContainer.Updates, modified_lookup, EfcpContainer.Updates]

theorem modified_live (hlive : s.xEfcpContainer.Live) (flow : FlowInfo ν) (e : EfcpPtr) :
    (s.modified flow e).xEfcpContainer.Live :=
  (hlive.searched _).changeAt (fun efcp => by rw [EfcpInstance.addressed]) e

section Handler

variable (hp : pxFAFindInstance s.xFA flow.xDestinationPortId = some p)

include hp

theorem handler_unknown
    (hnone : imapLookup s.xEfcpContainer.xEfcpImapTable flow.xConnectionId.xDestination = none) :
    ∃ s', xFlowAllocatorHandleCreateR s (some flow) 0 = .ok (false, s') ∧ Untouched s s' := by
  refine ⟨{ s with
    xEfcpContainer := s.xEfcpContainer.searched flow.xConnectionId.xDestination },
    ?_, rfl, rfl, rfl⟩
  simp only [xFlowAllocatorHandleCreateR, ne_eq, not_true_eq_false, if_false, hp,
    modify_eq (changeConnection_none hnone), Exec.ok_bind, if_true]
  rfl

/-- With a connection in the map the second update decides. -/
theorem handler_modified (hlive : s.xEfcpContainer.Live)
    (he₁ : imapLookup s.xEfcpContainer.xEfcpImapTable flow.xConnectionId.xDestination = some e₁) :
    xFlowAllocatorHandleCreateR s (some flow) 0 = (do
      let (updated, s) ← xNormalConnectionUpdate (s.modified flow e₁) flow.xDestinationPortId
        flow.xConnectionId.xSource flow.xConnectionId.xDestination
      if updated = false then return (false, s)
      else return (true, { s with xFA := s.xFA.setFai p (s.xFA.fais p).allocated })) := by
  simp only [xFlowAllocatorHandleCreateR, ne_eq, not_true_eq_false, if_false, hp,
    modify_eq (changeConnection_some hlive he₁), Exec.ok_bind, Bool.true_eq_false]
  rfl

/-- The addresses are changed before the second update is refused. -/
theorem handler_refused (hlive : s.xEfcpContainer.Live)
    (he₁ : imapLookup s.xEfcpContainer.xEfcpImapTable flow.xConnectionId.xDestination = some e₁)
    (hup : ¬ s.xEfcpContainer.Updates flow.xConnectionId.xSource flow.xConnectionId.xDestination) :
    ∃ s', xFlowAllocatorHandleCreateR s (some flow) 0 = .ok (false, s') ∧ s'.xFA = s.xFA ∧
      s'.xFlowsList = s.xFlowsList ∧
      s'.xEfcpContainer.efcps = (s.xEfcpContainer.changeAt e₁
        (.addressed flow.xRemoteAddress flow.xSourceAddress)).efcps := by
  have hup₁ : ¬ (s.modified flow e₁).xEfcpContainer.Updates flow.xConnectionId.xSource
      flow.xConnectionId.xDestination := mt modified_updates_iff.mp hup
  obtain ⟨c₂, hc₂, hsame⟩ := update_refused hup₁
  refine ⟨{ s.modified flow e₁ with xEfcpContainer := c₂ }, ?_, rfl, rfl, hsame⟩
  rw [handler_modified hp hlive he₁, update_eq_refused hc₂]
  rfl

theorem handler_done (hlive : s.xEfcpContainer.Live)
    (he₁ : imapLookup s.xEfcpContainer.xEfcpImapTable flow.xConnectionId.xDestination = some e₁)
    (hup : s.xEfcpContainer.Updates flow.xConnectionId.xSource flow.xConnectionId.xDestination)
    (he₂ : imapLookup s.xEfcpContainer.xEfcpImapTable flow.xConnectionId.xSource = some e₂)
    {a : ActiveFlow} (ha : prvNormalFindActive s.xFlowsList flow.xDestinationPortId = some a) :
    ∃ s', xFlowAllocatorHandleCreateR s (some flow) 0 = .ok (true, s') ∧
      s'.xFA = s.xFA.setFai p (s.xFA.fais p).allocated ∧
      s'.xFlowsList = updateFlow (fun flow => { flow with eState := .ePORT_STATE_ALLOCATED })
        flow.xDestinationPortId s.xFlowsList ∧
      s'.xEfcpContainer.efcps = (s.xEfcpContainer.changedBoth e₁ e₂ flow.xRemoteAddress
        flow.xSourceAddress flow.xConnectionId.xDestination).efcps := by
  have hupdated := update_done (modified_live hlive flow e₁) (modified_updates_iff.mpr hup)
    ((modified_lookup _).trans he₂)
  rw [handler_modified hp hlive he₁, update_eq_done hupdated ha]
  exact ⟨_, rfl, rfl, rfl, rfl⟩

end Handler

/-! ### Replies which are applied to one flow -/

/-- What was found at the port after the handler is what makes the flow allocated. -/
theorem allocates_iff (hp : pxFAFindInstance s.xFA port = some p)
    (he : FlowConnection s port e)
    (hfa : s'.xFA = s.xFA.setFai p (s.xFA.fais p).allocated)
    (hflows : s'.xFlowsList = updateFlow (fun flow => { flow with
      eState := .ePORT_STATE_ALLOCATED }) port s.xFlowsList) :
    Allocates s s' port ↔
      (∀ e', e' ≠ e → s'.xEfcpContainer.efcps e' = s.xEfcpContainer.efcps e') ∧
      ∃ efcp, s'.xEfcpContainer.efcps e = some efcp ∧
        efcp.pxConnection.xSourceAddress = CFG_LOCAL_ADDRESS := by
  constructor
  · rintro ⟨q, e', hq, hport, he', -, -, hothers, hsource⟩
    rw [← he'.eq he]
    exact ⟨hothers, hsource⟩
  · rintro ⟨hothers, hsource⟩
    obtain ⟨hhead, hport⟩ := pxFAFindInstance_eq_some.mp hp
    obtain ⟨a, ha⟩ := he.find
    refine ⟨p, e, List.mem_of_mem_head? hhead, hport, he, ?_, ?_, hothers, hsource⟩
    · rw [hfa]
      simp [FlowAllocator.setFai, FlowAllocatorInstance.allocated]
    · refine ⟨{ a with eState := .ePORT_STATE_ALLOCATED }, ?_, rfl⟩
      rw [hflows]
      exact find_updateFlow (fun _ => rfl) ha

/-- A reply which names a pending flow and a connection of the map. -/
theorem appliedToOne_found_iff (hs : PendingFlows s)
    (hp : pxFAFindInstance s.xFA flow.xDestinationPortId = some p)
    (he : FlowConnection s flow.xDestinationPortId e)
    (he₁ : imapLookup s.xEfcpContainer.xEfcpImapTable flow.xConnectionId.xDestination = some e₁) :
    AppliedToOne s (some flow) 0 ↔ Fits s.xEfcpContainer flow e e₁ := by
  obtain ⟨efcp₁, hefcp₁, -⟩ := hs.live _ _ he₁
  unfold Fits
  by_cases hup : s.xEfcpContainer.Updates flow.xConnectionId.xSource
      flow.xConnectionId.xDestination
  · obtain ⟨e₂, he₂⟩ := Option.isSome_iff_exists.mp hup.2.2
    obtain ⟨efcp₂, hefcp₂, -⟩ := hs.live _ _ he₂
    obtain ⟨a, ha⟩ := he.find
    obtain ⟨s', hdone, hfa, hflows, hefcps⟩ := handler_done hp hs.live he₁ hup he₂ ha
    have happlied : AppliedToOne s (some flow) 0 ↔ Allocates s s' flow.xDestinationPortId := by
      constructor
      · rintro ⟨applied, t, ht, hres⟩
        rw [hdone] at ht
        cases ht
        obtain ⟨flow', hflow, hall⟩ := hres
        cases hflow
        exact hall
      · exact fun h => ⟨true, s', hdone, flow, rfl, h⟩
    obtain ⟨hhead, hport⟩ := pxFAFindInstance_eq_some.mp hp
    have hport' : s.portOf p = flow.xDestinationPortId := hport
    obtain ⟨efcp, hefcp, hlocal⟩ := hs.fromLocal p (List.mem_of_mem_head? hhead) e
      (by rwa [hport'])
    obtain ⟨efcp', hefcp', hsource⟩ := source_after hefcp e₁ e₂ flow.xRemoteAddress
      flow.xSourceAddress flow.xConnectionId.xDestination
    rw [happlied, allocates_iff hp he hfa hflows, if_pos hup, hefcps,
      others_same_iff hefcp₁ hefcp₂, hefcp']
    simp only [Option.some.injEq, exists_eq_left', hsource, he₂, forall_eq']
    by_cases h1 : e₁ = e
    · simp [h1, and_comm]
    · simp [h1, hlocal]
  · obtain ⟨s', hrefused, hfa, hflows, hefcps⟩ := handler_refused hp hs.live he₁ hup
    rw [if_neg hup, ← all_same_iff hefcp₁, ← hefcps]
    constructor
    · rintro ⟨applied, t, ht, hres⟩
      rw [hrefused] at ht
      cases ht
      exact hres.2.2
    · exact fun hsame => ⟨false, s', hrefused, hfa, hflows, hsame⟩

/-- A reply is applied to the flow which it names, or to none, exactly when it fits wherever it is
not turned away before anything is changed: a result of zero, a flow which is decoded, the port of
the instance in the first row, and a destination CEP-id which is in the map. -/
theorem createR_appliedToOne_iff (hs : PendingFlows s) (pxFlow : Option (FlowInfo ν))
    (result : ℤ) :
    AppliedToOne s pxFlow result ↔
      ∀ flow p e e₁, result = 0 → pxFlow = some flow →
        pxFAFindInstance s.xFA flow.xDestinationPortId = some p →
        FlowConnection s flow.xDestinationPortId e →
        imapLookup s.xEfcpContainer.xEfcpImapTable flow.xConnectionId.xDestination = some e₁ →
        Fits s.xEfcpContainer flow e e₁ := by
  have huntouched : Untouched s s := ⟨rfl, rfl, rfl⟩
  constructor
  · rintro h flow p e e₁ rfl rfl hp he he₁
    exact (appliedToOne_found_iff hs hp he he₁).mp h
  · intro h
    by_cases hresult : result = 0
    · subst hresult
      cases pxFlow with
      | none => exact ⟨false, s, rfl, huntouched⟩
      | some flow =>
        cases hp : pxFAFindInstance s.xFA flow.xDestinationPortId with
        | none =>
          refine ⟨false, s, ?_, huntouched⟩
          simp [xFlowAllocatorHandleCreateR, hp]
        | some p =>
          cases he₁ : imapLookup s.xEfcpContainer.xEfcpImapTable
              flow.xConnectionId.xDestination with
          | none =>
            obtain ⟨s', hunknown, hsame⟩ := handler_unknown hp he₁
            exact ⟨false, s', hunknown, hsame⟩
          | some e₁ =>
            obtain ⟨hhead, hport⟩ := pxFAFindInstance_eq_some.mp hp
            obtain ⟨e, he⟩ := hs.connected p (List.mem_of_mem_head? hhead)
            have he' : FlowConnection s flow.xDestinationPortId e := by
              rwa [FlowSystem.portOf, hport] at he
            exact (appliedToOne_found_iff hs hp he' he₁).mpr
              (h flow p e e₁ rfl rfl hp he' he₁)
    · refine ⟨false, s, ?_, huntouched⟩
      unfold xFlowAllocatorHandleCreateR
      rw [if_pos hresult]

/-! ### Two flows -/

theorem port_one_ok : is_port_id_ok 1 = true := rfl

theorem port_two_ok : is_port_id_ok 2 = true := rfl

/-- The instances of two connections to the neighbor with the address 2. -/
def twoInstances : EfcpPtr → Option EfcpInstance
  | 0 => some (xEfcpContainerInit.newEfcp ⟨2, 1, CFG_QoS_CUBE_ID, CEP_ID_WRONG, CEP_ID_WRONG⟩ 1
      port_one_ok)
  | 1 => some (xEfcpContainerInit.newEfcp ⟨2, 2, CFG_QoS_CUBE_ID, CEP_ID_WRONG, CEP_ID_WRONG⟩ 2
      port_two_ok)
  | _ => none

/-- Two pending flows, on port 1 with CEP-id 1 and on port 2 with CEP-id 2. -/
def twoPending : FlowSystem where
  pxFA := 0
  xFA :=
    { xFlowRequestTable := [0, 1]
      fais := fun p => ⟨p.toUInt32 + 1, .eFAI_NONE, ⟨100, p.toUInt32 + 1, [], 0⟩⟩
      bounded := Nat.le_of_ble_eq_true rfl }
  brk := 2
  xEfcpContainer :=
    { pxRmt := false
      xEfcpImapTable := [⟨1, some 0, true⟩, ⟨2, some 1, true⟩, ⟨0, none, false⟩]
      efcps := twoInstances
      brk := 2 }
  xFlowsList := [⟨⟨1, .ePORT_STATE_PENDING⟩, 1⟩, ⟨⟨2, .ePORT_STATE_PENDING⟩, 2⟩]
  pxRib := Rib.initialTable .empty

theorem twoPending_connections :
    FlowConnection twoPending 1 0 ∧ FlowConnection twoPending 2 1 :=
  ⟨⟨_, rfl, rfl⟩, ⟨_, rfl, rfl⟩⟩

theorem twoPending_lookup {xCepId : CepId}
    (h : imapLookup twoPending.xEfcpContainer.xEfcpImapTable xCepId = some e) : e = 0 ∨ e = 1 := by
  simp only [twoPending, imapLookup, List.find?_cons, List.find?_nil] at h
  by_cases h1 : 1 = xCepId
  · simp only [h1, decide_true, Option.bind_some] at h
    cases h
    exact .inl rfl
  · by_cases h2 : 2 = xCepId
    · simp only [h1, h2, decide_true, decide_false, Option.bind_some] at h
      cases h
      exact .inr rfl
    · by_cases h0 : 0 = xCepId
      · simp only [h1, h2, h0, decide_true, decide_false, Option.bind_some] at h
        cases h
      · simp only [h1, h2, h0, decide_false, Option.bind_none] at h
        cases h

/-- The instance of a row has the connection of the port, from the local address. -/
theorem twoPending_row (hp : p ∈ twoPending.xFA.xFlowRequestTable) :
    FlowConnection twoPending (twoPending.portOf p) p ∧
      ∃ efcp, twoPending.xEfcpContainer.efcps p = some efcp ∧
        efcp.pxConnection.xSourceAddress = CFG_LOCAL_ADDRESS := by
  rcases List.mem_cons.mp hp with rfl | hp
  · exact ⟨twoPending_connections.1, _, rfl, rfl⟩
  · obtain rfl := List.mem_singleton.mp hp
    exact ⟨twoPending_connections.2, _, rfl, rfl⟩

theorem twoPending_pending : PendingFlows twoPending where
  ports := by decide
  connected p hp := ⟨p, (twoPending_row hp).1⟩
  own p hp q hq e he he' := by
    rw [← he.eq (twoPending_row hp).1]
    exact he'.eq (twoPending_row hq).1
  fromLocal p hp e he := by
    rw [he.eq (twoPending_row hp).1]
    exact (twoPending_row hp).2
  live xCepId e he := by
    rcases twoPending_lookup he with rfl | rfl
    · exact ⟨_, rfl, rfl⟩
    · exact ⟨_, rfl, rfl⟩

/-- An answer to the flow on port 1 from the peer's side of the connection. -/
def answer (xSource : CepId) (xSourceAddress : Address) : FlowInfo Unit where
  xSourceInfo := ()
  xDestInfo := ()
  ulHopCount := 4
  xSourceAddress := xSourceAddress
  xRemoteAddress := CFG_LOCAL_ADDRESS
  xConnectionId := ⟨CFG_QoS_CUBE_ID, 1, xSource⟩
  xQosSpec := ⟨none, CFG_QoS_CUBE_ID, flowSpecOf none⟩
  xDtpConfig := ⟨false, 0, ⟨none, none⟩⟩
  xSourcePortId := 7
  xDestinationPortId := 1

/-- The peer has given its side the CEP-id 1 as well. -/
theorem equal_cepIds_applied : AppliedToOne twoPending (some (answer 1 2)) 0 := by
  refine (createR_appliedToOne_iff twoPending_pending _ _).mpr ?_
  rintro flow p e e₁ - hflow - he he₁
  cases hflow
  cases he.eq twoPending_connections.1
  cases he₁
  have hup : twoPending.xEfcpContainer.Updates 1 1 := by decide
  refine (if_pos hup).mpr ⟨(if_pos rfl).mpr rfl, fun e₂ he₂ hne => ?_⟩
  cases he₂
  exact absurd rfl hne

/-- A single row, whose connection is the only one in the map. -/
theorem pending_single (hrow : s.xFA.xFlowRequestTable = [p])
    (hconn : FlowConnection s (s.portOf p) e)
    (hefcp : ∃ efcp, s.xEfcpContainer.efcps e = some efcp ∧
      efcp.pxConnection.xSourceAddress = CFG_LOCAL_ADDRESS ∧ efcp.xState = .eEfcpAllocated)
    (honly : ∀ xCepId e', imapLookup s.xEfcpContainer.xEfcpImapTable xCepId = some e' → e' = e) :
    PendingFlows s where
  ports := by
    rw [hrow]
    exact List.nodup_singleton _
  connected q hq := by
    rw [hrow, List.mem_singleton] at hq
    rw [hq]
    exact ⟨e, hconn⟩
  own q hq r hr _ _ _ := by
    rw [hrow, List.mem_singleton] at hq hr
    rw [hq, hr]
  fromLocal q hq e' he' := by
    rw [hrow, List.mem_singleton] at hq
    rw [hq] at he'
    obtain ⟨efcp, hsome, hlocal, -⟩ := hefcp
    rw [he'.eq hconn]
    exact ⟨efcp, hsome, hlocal⟩
  live xCepId e' he' := by
    obtain ⟨efcp, hsome, -, hstate⟩ := hefcp
    rw [honly xCepId e' he']
    exact ⟨efcp, hsome, hstate⟩

/-- Once the first connection was created no other instance is in the map. -/
theorem first_lookup {xCepId : CepId}
    (h : imapLookup (xEfcpImapAdd xEfcpImapCreate 1 0).2 xCepId = some e) : e = 0 := by
  have hfront : Front (xEfcpImapAdd xEfcpImapCreate 1 0).2 1 (some 0) :=
    ⟨true, List.replicate 4 ⟨0, none, false⟩, rfl, fun row hrow => by
      rw [List.eq_of_mem_replicate hrow]
      exact ⟨rfl, rfl⟩⟩
  rw [hfront.lookup xCepId] at h
  split_ifs at h
  cases h
  rfl

/-- The peer's side has the CEP-id 2, so that the connection of the other flow gets the
destination 1. After the first request to a new system, a reply with the CEP-id 3 is refused once
the address was changed. -/
theorem cepIds_swapped :
    (PendingFlows twoPending ∧ ¬ AppliedToOne twoPending (some (answer 2 2)) 0) ∧
      ∃ s, vFlowAllocatorFlowRequest ⟨true, false⟩ pendingSystem 1 (emptyHandle 1) allGranted =
          .ok s ∧ PendingFlows s ∧ ¬ AppliedToOne s (some (answer 3 9)) 0 := by
  refine ⟨⟨twoPending_pending, fun h => ?_⟩, _, rfl, ?_, fun h => ?_⟩
  · obtain ⟨applied, s', hs', hres⟩ := h
    cases hs'
    obtain ⟨flow, hflow, p, e, -, -, he, -, -, hothers, -⟩ := hres
    cases hflow
    cases he.eq twoPending_connections.1
    have hother := congrArg (Option.map fun efcp => efcp.pxConnection.xDestinationCepId)
      (hothers 1 (by decide))
    revert hother
    decide
  · exact pending_single (p := 0) (e := 0) rfl ⟨_, rfl, rfl⟩ ⟨_, rfl, rfl, rfl⟩
      fun _ _ he => first_lookup he
  · obtain ⟨applied, s', hs', hres⟩ := h
    cases hs'
    have hdst := congrArg (Option.map fun efcp => efcp.pxConnection.xDestinationAddress)
      (congrFun hres.2.2 0)
    revert hdst
    decide

end RinaSense.Flow
