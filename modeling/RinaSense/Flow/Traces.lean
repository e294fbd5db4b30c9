import RinaSense.Common.HandedOut
import RinaSense.Flow.ObjectNames

/-!
# What a failed flow allocation leaves

A whole call of `RINA_flow_alloc` on the ports of the IPC manager and the tables of the normal
IPC process. The port is reserved when the request is built and the tables are filled by the flow
allocator. What fails later is at most logged, and nothing that was entered before is taken back.
-/

namespace RinaSense.Flow

open Common Efcp Ipcp Rib Library.Memory Library.Slots

def MAX_PORT_ID : UInt64 := 2047

/-- What a call registers in. -/
structure AllocTables where
  pxPidm : NumMgr
  xIpcp : FlowSystem

/-- A call with what the code around it does. The port in the arguments gives way to the one
which is reserved. -/
structure AllocCall where
  args : AllocArgs
  /-- How the send of the bind event ends. -/
  bind : Queue.RsErr
  /-- The flow which the task allocates for the bind, with the CEP-id it happens to have. -/
  pxFlow : Option CepId
  /-- The event bits after the wait for the bind. -/
  nEventBits : UInt64
  request : FlowOutcomes
  /-- How the send of the timer event ends. -/
  timer : Queue.RsErr
  /-- The flow is allocated when the loop ends. -/
  allocated : Bool

/-- The normal IPC process gets a flow, if there is memory for it. -/
def FlowSystem.prebind (s : FlowSystem) (xPortId : PortId) : Option CepId → FlowSystem
  | none => s
  | some xActive =>
    { s with
      xFlowsList :=
        RsList.insertAfterFirst ⟨⟨xPortId, .ePORT_STATE_PENDING⟩, xActive⟩ s.xFlowsList }

def FlowRequest.handle (r : FlowRequest) (nEventBits : UInt64) : FlowAllocateHandle where
  xReceiveBlockTime := r.xReceiveBlockTime
  xPortId := r.xPortId
  xListWaitingPackets := []
  nEventBits := nEventBits

/-- The call after the reservation of its port. The timer event and the loop register nothing. -/
def flowAllocWith (pf : Platform) (h : Heap) (s : FlowSystem) (c : AllocCall)
    (xPortId : PortId) : Exec FlowSystem := do
  let (phase, _) ← RINA_flow_alloc h { c.args with xPortId := xPortId } c.bind
  match phase with
  | .binding r =>
    vFlowAllocatorFlowRequest pf (s.prebind r.xPortId c.pxFlow) r.xPortId
      (r.handle c.nEventBits) c.request
  | _ => return s

/-- A call, unless the search for a port does not come back. A call which traps before the
reservation never gets to it. -/
def flowAlloc (pf : Platform) (fuel : ℕ) (h : Heap) (w : AllocTables) (c : AllocCall) :
    Option (Exec AllocTables) :=
  (ulNumMgrAllocate fuel w.pxPidm).map fun reserved => do
    let xIpcp ← flowAllocWith pf h w.xIpcp c reserved.1
    return ⟨reserved.2, xIpcp⟩

/-- The tables of the normal IPC process have the same rows. -/
structure FlowSystem.SameRows (s s' : FlowSystem) : Prop where
  xFlowRequestTable : s'.xFA.xFlowRequestTable = s.xFA.xFlowRequestTable
  xEfcpImapTable : s'.xEfcpContainer.xEfcpImapTable = s.xEfcpContainer.xEfcpImapTable
  pxRibObjects : s'.pxRib.pxRibObjects = s.pxRib.pxRibObjects

/-- No table has changed and no port was reserved. -/
structure AllocTables.Same (w w' : AllocTables) : Prop where
  rows : w.xIpcp.SameRows w'.xIpcp
  ports : ∀ k, xNumMgrIsAllocated w'.pxPidm k = xNumMgrIsAllocated w.pxPidm k

/-- The call gets through every point at which it can fail. -/
structure AllocCall.Succeeds (pf : Platform) (h : Heap) (w : AllocTables) (c : AllocCall) :
    Prop where
  request : Buildable h c.args
  port : ¬ w.pxPidm.OthersTaken MAX_PORT_ID
  bind : c.bind = .SUCCESS
  flow : c.pxFlow.isSome
  row : w.xIpcp.xFA.xFlowRequestTable.length < CFG_FLOWS_REQUEST
  /-- There is memory for what the flow allocator allocates, and a neighbor with an address. -/
  neighbor : ∃ addr, c.request.Reaches addr ∧ (pf.ndebug || addr != ADDRESS_WRONG) = true
  connection : c.request.connection = ⟨true, true, true⟩
  rmt : (pf.ndebug || w.xIpcp.xEfcpContainer.pxRmt) = true
  imap : w.xIpcp.xEfcpContainer.xEfcpImapTable ≠ []
  object : HasRow w.xIpcp.pxRib
  ends : c.timer = .SUCCESS ∨ c.allocated = true

/-- Unless the call succeeds, it comes back with everything as it was. -/
def AllocCall.LeavesNoTrace (pf : Platform) (h : Heap) (w : AllocTables) (c : AllocCall)
    (r : Exec AllocTables) : Prop :=
  ¬ c.Succeeds pf h w → ∃ w', r = .ok w' ∧ w.Same w'

/-- A request without a port finds no memory or no row for its instance and, if there is a
neighbor, no memory for the connection and no row for its object. -/
def FlowOutcomes.StaysOut (pf : Platform) (s : FlowSystem) (o : FlowOutcomes) : Prop :=
  o.pxFlowAllocatorInstance = false ∨
    s.xFA.xFlowRequestTable.length = CFG_FLOWS_REQUEST ∧
      (o.pxNeighbor = .ok none ∨
        (∃ addr, o.Reaches addr) ∧ pf.ndebug = true ∧
          (o.connection.pxConnection = false ∨ o.connection.pxEfcp = false) ∧
          ¬ HasRow s.pxRib)

variable {pf : Platform} {h : Heap} {w w' : AllocTables} {c : AllocCall} {s s' : FlowSystem}
  {o : FlowOutcomes} {handle : FlowAllocateHandle} {port : PortId}

/-! ### The steps of the flow allocator -/

/-- Only the flows of the normal IPC process are others after the bind. -/
theorem prebind_eq (s : FlowSystem) (xPortId : PortId) (pxFlow : Option CepId) :
    ∃ flows, s.prebind xPortId pxFlow = { s with xFlowsList := flows } := by
  cases pxFlow with
  | none => exact ⟨s.xFlowsList, rfl⟩
  | some xActive => exact ⟨_, rfl⟩

/-- The task does the same to the flows in a run of the call. -/
theorem prebind_flows (s : FlowSystem) (xPortId : PortId) (pxFlow : Option CepId) (run : AllocRun)
    (hport : run.args.xPortId = xPortId)
    (hflows : run.xFlowsList = s.xFlowsList.map ActiveFlow.toNormalFlow) :
    ((prvIPCPTask ⟨.eFlowBindEvent, .PV none, .PV none⟩).foldl
        (AllocRun.taskCall pxFlow.isSome) run).xFlowsList =
      (s.prebind xPortId pxFlow).xFlowsList.map ActiveFlow.toNormalFlow := by
  cases pxFlow with
  | none => exact hflows
  | some xActive =>
    change RsList.insertAfterFirst ⟨run.args.xPortId, .ePORT_STATE_PENDING⟩ run.xFlowsList =
      (RsList.insertAfterFirst _ s.xFlowsList).map ActiveFlow.toNormalFlow
    rw [hport, hflows]
    cases s.xFlowsList with
    | nil => rfl
    | cons flow flows => rfl

theorem flows_sameRows_iff (flows : List ActiveFlow) :
    { s with xFlowsList := flows }.SameRows s' ↔ s.SameRows s' :=
  ⟨fun h => ⟨h.1, h.2, h.3⟩, fun h => ⟨h.1, h.2, h.3⟩⟩

theorem addInstance_table (s : FlowSystem) (port : PortId) (handle : FlowAllocateHandle) :
    (s.addInstance port handle).xFA.xFlowRequestTable =
      if s.xFA.xFlowRequestTable.length < CFG_FLOWS_REQUEST then
        s.xFA.xFlowRequestTable ++ [s.brk]
      else s.xFA.xFlowRequestTable := by
  have hset : (s.xFA.setFai s.brk ⟨port, .eFAI_NONE, handle⟩).xFlowRequestTable =
      s.xFA.xFlowRequestTable := rfl
  simp only [FlowSystem.addInstance, prvAddFlowRequestEntry, hset]
  split_ifs <;> rfl

/-- An entry stays out of the table exactly when the table is full. -/
theorem addInstance_table_iff (s : FlowSystem) (port : PortId) (handle : FlowAllocateHandle) :
    (s.addInstance port handle).xFA.xFlowRequestTable = s.xFA.xFlowRequestTable ↔
      s.xFA.xFlowRequestTable.length = CFG_FLOWS_REQUEST := by
  rw [addInstance_table]
  split_ifs with hlt
  · refine iff_of_false (fun heq => ?_) (Nat.ne_of_lt hlt)
    have hlength := congrArg List.length heq
    rw [List.length_append] at hlength
    exact Nat.succ_ne_self _ hlength
  · exact iff_of_true rfl (Nat.le_antisymm s.xFA.bounded (Nat.not_lt.mp hlt))

/-- The object stays out of the table exactly when the table is full. -/
theorem addFlowObject_table_iff (s : FlowSystem) (port : PortId) (flowObj : ℕ) :
    (s.addFlowObject port flowObj).pxRib.pxRibObjects = s.pxRib.pxRibObjects ↔
      ¬ HasRow s.pxRib := by
  rw [hasRow_iff, not_ne_iff]
  rcases addFlowObject_cases s port flowObj with ⟨hfull, hrib⟩ | ⟨x, hfree, hrows, -⟩
  · exact iff_of_true (by rw [hrib]; rfl) hfull
  · refine iff_of_false (fun heq => ?_) (by rw [hfree]; exact Option.some_ne_none x)
    have hx := congrFun (hrows.symm.trans heq) x
    rw [Function.update_self, firstFree_empty hfree] at hx
    cases hx

/-- Without a port a connection is refused for want of memory, or the call traps. -/
theorem createRequest_noPort_iff (e : EfcpContainer) (xDest : Address) {mem : Supply}
    {xCepId : CepId} {e' : EfcpContainer} :
    xNormalConnectionCreateRequest pf e PORT_ID_WRONG xDest mem = .ok (xCepId, e') ↔
      (pf.ndebug = true ∧ (mem.pxConnection = false ∨ mem.pxEfcp = false)) ∧
        xCepId = CEP_ID_WRONG ∧ e' = e := by
  cases hdebug : pf.ndebug with
  | false => simp [xNormalConnectionCreateRequest, rsAssert, hdebug]
  | true =>
    have hassert : ∀ b, rsAssert pf b = .ok () := fun b => by simp [rsAssert, hdebug]
    have hport : is_port_id_ok PORT_ID_WRONG = false := rfl
    have hcep : is_cep_id_ok CEP_ID_WRONG = false := rfl
    have hrefused : (Except.ok (CEP_ID_WRONG, e) : Exec (CepId × EfcpContainer)) =
        .ok (xCepId, e') ↔ xCepId = CEP_ID_WRONG ∧ e' = e := by
      rw [Except.ok.injEq, Prod.mk.injEq, eq_comm, @eq_comm _ e]
    simp only [xNormalConnectionCreateRequest, xEfcpConnectionCreate, hassert, Exec.ok_bind]
    cases hconn : mem.pxConnection with
    | false =>
      rw [← hrefused]
      exact (and_iff_right ⟨trivial, .inl rfl⟩).symm
    | true =>
      cases hefcp : mem.pxEfcp with
      | false =>
        rw [← hrefused]
        exact (and_iff_right ⟨trivial, .inr rfl⟩).symm
      | true => simp [hport, xEfcpDestroy]

/-- A request which gets as far as the object of the flow goes through to its end. -/
theorem vFlowAllocatorFlowRequest_of_reaches {addr : Address} {xCepId : CepId}
    {e : EfcpContainer} (hr : o.Reaches addr)
    (hc : xNormalConnectionCreateRequest pf s.xEfcpContainer port addr o.connection =
      .ok (xCepId, e)) :
    vFlowAllocatorFlowRequest pf s port handle o =
      .ok (((s.addInstance port handle).connect port xCepId e).addFlowObject port o.flowObj) := by
  have hefcp : (s.addInstance port handle).xEfcpContainer = s.xEfcpContainer := rfl
  simp [vFlowAllocatorFlowRequest, hr.instance_, hr.neighbor, hr.flow, hr.encoded, hr.object,
    hefcp, hc, pure, Except.pure]

/-- A request without a port comes back and changes no row exactly when it stays out. -/
theorem flowRequest_noPort_iff (handle : FlowAllocateHandle) :
    (∃ s', vFlowAllocatorFlowRequest pf s PORT_ID_WRONG handle o = .ok s' ∧ s.SameRows s') ↔
      o.StaysOut pf s := by
  have hadded := addInstance_table_iff s PORT_ID_WRONG handle
  constructor
  · rintro ⟨s', hrun, hsame⟩
    rcases vFlowAllocatorFlowRequest_cases hrun with ⟨hinst, -⟩ | ⟨-, hnone, rfl⟩ |
      ⟨addr, xCepId, e, hreaches, hcreate, rfl⟩
    · exact .inl hinst
    · exact .inr ⟨hadded.mp hsame.xFlowRequestTable, .inl hnone⟩
    · obtain ⟨hrefused, rfl, rfl⟩ := (createRequest_noPort_iff _ _).mp hcreate
      refine .inr ⟨hadded.mp hsame.xFlowRequestTable, .inr ⟨⟨addr, hreaches⟩, hrefused.1,
        hrefused.2, ?_⟩⟩
      exact (addFlowObject_table_iff _ PORT_ID_WRONG o.flowObj).mp hsame.pxRibObjects
  · intro hout
    cases hinst : o.pxFlowAllocatorInstance with
    | false =>
      exact ⟨s, by simp [vFlowAllocatorFlowRequest, hinst, pure, Except.pure], rfl, rfl, rfl⟩
    | true =>
      rcases hout.resolve_left (by simp [hinst]) with
        ⟨hfull, hnone | ⟨⟨addr, hreaches⟩, hdebug, hrefused, hrows⟩⟩
      · refine ⟨s.addInstance PORT_ID_WRONG handle, ?_, hadded.mpr hfull, rfl, rfl⟩
        simp [vFlowAllocatorFlowRequest, hinst, hnone, pure, Except.pure]
      · have hcreate := (createRequest_noPort_iff s.xEfcpContainer addr).mpr
          ⟨⟨hdebug, hrefused⟩, rfl, rfl⟩
        refine ⟨_, vFlowAllocatorFlowRequest_of_reaches hreaches hcreate, hadded.mpr hfull, rfl, ?_⟩
        exact (addFlowObject_table_iff _ PORT_ID_WRONG o.flowObj).mpr hrows

/-! ### The call -/

theorem buildable_port_iff {a : AllocArgs} (xPortId : PortId) :
    Buildable h { a with xPortId := xPortId } ↔ Buildable h a :=
  ⟨fun hb => ⟨hb.memory, hb.condOk, hb.mutexOk, hb.names⟩,
    fun hb => ⟨hb.memory, hb.condOk, hb.mutexOk, hb.names⟩⟩

/-- The request is built and the bind decides whether it gets to the flow allocator, or the call
traps. -/
theorem flowAllocWith_cases (pf : Platform) (s : FlowSystem) (port : PortId) (hf : h.Fresh)
    (hg : ∀ p ∈ c.args.names, NameGiven h p) :
    (Buildable h c.args ∧ ∃ handle, flowAllocWith pf h s c port =
      if c.bind = .SUCCESS then
        vFlowAllocatorFlowRequest pf (s.prebind port c.pxFlow) port handle c.request
      else .ok s) ∨
    (¬ Buildable h c.args ∧ ∃ t, flowAllocWith pf h s c port = .error t) := by
  rw [← buildable_port_iff port]
  rcases prvRINACreateFlowRequest_cases hf (a := { c.args with xPortId := port }) hg with
    ⟨hb, r, h', hrun, hr⟩ | ⟨hb, hno⟩
  · have hport : r.xPortId = port := hr.1
    refine .inl ⟨hb, r.handle c.nEventBits, ?_⟩
    by_cases hbind : c.bind = .SUCCESS
    · simp [flowAllocWith, RINA_flow_alloc, hrun, xRINA_bind, hbind, hport, pure, Except.pure]
    · simp [flowAllocWith, RINA_flow_alloc, hrun, xRINA_bind, hbind, pure, Except.pure]
  · refine .inr ⟨hb, ?_⟩
    rcases hno with ⟨t, ht⟩ | ⟨h', hnone⟩
    · exact ⟨t, by simp [flowAllocWith, RINA_flow_alloc, ht]⟩
    · exact ⟨.nullPointer, by simp [flowAllocWith, RINA_flow_alloc, hnone]⟩

/-- Without a port a call comes back and changes no row exactly when its request can be built
and, if the bind event is sent, stays out. -/
theorem flowAllocWith_noPort_iff (hf : h.Fresh) (hg : ∀ p ∈ c.args.names, NameGiven h p) :
    (∃ s', flowAllocWith pf h s c PORT_ID_WRONG = .ok s' ∧ s.SameRows s') ↔
      Buildable h c.args ∧ (c.bind = .SUCCESS → c.request.StaysOut pf s) := by
  rcases flowAllocWith_cases pf s PORT_ID_WRONG hf hg with ⟨hb, handle, hrun⟩ | ⟨hb, t, hrun⟩
  · rw [and_iff_right hb, hrun]
    split_ifs with hbind
    · obtain ⟨flows, hflows⟩ := prebind_eq s PORT_ID_WRONG c.pxFlow
      have hout : c.request.StaysOut pf { s with xFlowsList := flows } ↔ c.request.StaysOut pf s :=
        Iff.rfl
      rw [hflows, imp_iff_right hbind, ← hout, ← flowRequest_noPort_iff handle]
      simp only [flows_sameRows_iff]
    · exact iff_of_true ⟨s, rfl, rfl, rfl, rfl⟩ fun h => absurd h hbind
  · refine iff_of_false ?_ fun hall => hb hall.1
    rintro ⟨s', hs', -⟩
    rw [hrun] at hs'
    cases hs'

/-! ### The port -/

theorem maxPort_small : MAX_PORT_ID.toNat + 1 < 2 ^ 32 := by decide

/-- No port is reserved, or one that was free. -/
theorem reserve_cases (hi : w.pxPidm.Inv MAX_PORT_ID) {fuel : ℕ} {xPortId : PortId}
    {pxPidm : NumMgr} (ha : ulNumMgrAllocate fuel w.pxPidm = some (xPortId, pxPidm)) :
    (w.pxPidm.OthersTaken MAX_PORT_ID ∧ xPortId = PORT_ID_WRONG ∧ pxPidm = w.pxPidm) ∨
      (¬ w.pxPidm.OthersTaken MAX_PORT_ID ∧ xPortId ≠ PORT_ID_WRONG ∧
        xNumMgrIsAllocated w.pxPidm xPortId = false ∧
        xNumMgrIsAllocated pxPidm xPortId = true) := by
  by_cases hwrong : xPortId = PORT_ID_WRONG
  · rcases hi.outcome maxPort_small (by decide) ha with ⟨-, rfl, htaken⟩ | ⟨hfree, -, -⟩
    · exact .inl ⟨htaken, hwrong, rfl⟩
    · rw [hwrong] at hfree
      exact absurd hfree.2.1 (by decide)
  · obtain ⟨hothers, hfree, htaken⟩ := hi.hands_out maxPort_small (by decide) ha hwrong
    exact .inr ⟨hothers, hwrong, hfree, htaken⟩

/-! ### A call which succeeds -/

/-- A connection for which there is everything is entered in the first row of the map. -/
theorem createRequest_granted (e : EfcpContainer) {xDest : Address} (hport : port ≠ PORT_ID_WRONG)
    (hdest : (pf.ndebug || xDest != ADDRESS_WRONG) = true)
    (hrmt : (pf.ndebug || e.pxRmt) = true) (himap : e.xEfcpImapTable ≠ []) :
    ∃ e', xNormalConnectionCreateRequest pf e port xDest ⟨true, true, true⟩ = .ok (1, e') ∧
      imapLookup e'.xEfcpImapTable 1 = some e.brk := by
  have hok : is_port_id_ok port = true := by simpa [is_port_id_ok] using hport
  have hok' : (port != PORT_ID_WRONG) = true := hok
  have hdest' : rsAssert pf (xDest != ADDRESS_WRONG) = .ok () := by rw [rsAssert, if_pos hdest]
  have hrmt' : rsAssert pf e.pxRmt = .ok () := by rw [rsAssert, if_pos hrmt]
  have haddr : (CFG_LOCAL_ADDRESS != ADDRESS_WRONG) = true := by decide
  have hqos : (CFG_QoS_CUBE_ID != QOS_ID_WRONG) = true := by decide
  have hcep : is_cep_id_ok 1 = true := by decide
  obtain ⟨row, rows, hrows⟩ := List.exists_cons_of_ne_nil himap
  refine ⟨_, by
    simp only [xNormalConnectionCreateRequest, xEfcpConnectionCreate, xEfcpImapAdd, hok, hok',
      hdest', hrmt', haddr, hqos, hrows, rsAssert_true, Exec.ok_bind]
    rfl, ?_⟩
  simp [imapLookup]

/-- The instance, the connection and the object of a request are in their tables. -/
structure FlowSystem.Entered (s s' : FlowSystem) : Prop where
  instance_ : s'.xFA.xFlowRequestTable = s.xFA.xFlowRequestTable ++ [s.brk]
  connection : imapLookup s'.xEfcpContainer.xEfcpImapTable 1 = some s.xEfcpContainer.brk
  object : ∃ x, s.pxRib.pxRibObjects x = none ∧
    s'.pxRib.pxRibObjects x = some (.heap s.pxRib.brk)

theorem flowRequest_entered (s : FlowSystem) (handle : FlowAllocateHandle) {addr : Address}
    {xCepId : CepId} {e : EfcpContainer}
    (hroom : s.xFA.xFlowRequestTable.length < CFG_FLOWS_REQUEST) (hr : o.Reaches addr)
    (hc : xNormalConnectionCreateRequest pf s.xEfcpContainer port addr o.connection =
      .ok (xCepId, e))
    (hlookup : imapLookup e.xEfcpImapTable 1 = some s.xEfcpContainer.brk)
    (hrow : HasRow s.pxRib) :
    ∃ s', vFlowAllocatorFlowRequest pf s port handle o = .ok s' ∧ s.Entered s' := by
  refine ⟨_, vFlowAllocatorFlowRequest_of_reaches hr hc,
    (addInstance_table s port handle).trans (if_pos hroom), hlookup, ?_⟩
  rcases addFlowObject_cases ((s.addInstance port handle).connect port xCepId e) port o.flowObj with
    ⟨hfull, -⟩ | ⟨x, hfree, hrows, -⟩
  · exact absurd hfull (hasRow_iff.mp hrow)
  · refine ⟨x, firstFree_empty hfree, ?_⟩
    rw [hrows, Function.update_self]
    rfl

/-- A call which succeeds reserves a port and enters an instance, a connection and an object. -/
theorem AllocCall.Succeeds.entered (hs : c.Succeeds pf h w) {fuel : ℕ} {r : Exec AllocTables}
    (hf : h.Fresh) (hg : ∀ p ∈ c.args.names, NameGiven h p) (hi : w.pxPidm.Inv MAX_PORT_ID)
    (hrun : flowAlloc pf fuel h w c = some r) :
    ∃ w', r = .ok w' ∧ w.xIpcp.Entered w'.xIpcp ∧
      ∃ port, xNumMgrIsAllocated w.pxPidm port = false ∧
        xNumMgrIsAllocated w'.pxPidm port = true := by
  obtain ⟨⟨port, pxPidm⟩, ha, rfl⟩ := Option.map_eq_some_iff.mp hrun
  obtain ⟨-, hport, hfree, hout⟩ := (reserve_cases hi ha).resolve_left fun h => hs.port h.1
  obtain ⟨addr, hreaches, hdest⟩ := hs.neighbor
  obtain ⟨e', hcreate, hlookup⟩ :=
    createRequest_granted w.xIpcp.xEfcpContainer hport hdest hs.rmt hs.imap
  rw [← hs.connection] at hcreate
  obtain ⟨-, handle, hcall⟩ := (flowAllocWith_cases pf w.xIpcp port hf hg).resolve_right
    fun h => h.1 hs.request
  obtain ⟨flows, hflows⟩ := prebind_eq w.xIpcp port c.pxFlow
  obtain ⟨s', hs', hentered⟩ := flowRequest_entered { w.xIpcp with xFlowsList := flows } handle
    hs.row hreaches hcreate hlookup hs.object
  rw [if_pos hs.bind, hflows, hs'] at hcall
  refine ⟨⟨pxPidm, s'⟩, by simp [hcall, pure, Except.pure], ?_, port, hfree, hout⟩
  exact ⟨hentered.instance_, hentered.connection, hentered.object⟩

/-! ### Every call -/

/-- From every state of the ports and of the tables, and wherever the call fails, a failed call
leaves no trace if and only if the manager has no port for it, its request can be built, and it
sends no bind event or stays out of the tables. -/
theorem noTrace_iff {fuel : ℕ} {r : Exec AllocTables} (hf : h.Fresh)
    (hg : ∀ p ∈ c.args.names, NameGiven h p) (hi : w.pxPidm.Inv MAX_PORT_ID)
    (hrun : flowAlloc pf fuel h w c = some r) :
    c.LeavesNoTrace pf h w r ↔ c.Succeeds pf h w ∨
      (Buildable h c.args ∧ w.pxPidm.OthersTaken MAX_PORT_ID ∧
        (c.bind = .SUCCESS → c.request.StaysOut pf w.xIpcp)) := by
  obtain ⟨⟨xPortId, pxPidm⟩, ha, rfl⟩ := Option.map_eq_some_iff.mp hrun
  rw [AllocCall.LeavesNoTrace, ← or_iff_not_imp_left]
  refine or_congr_right ?_
  rcases reserve_cases hi ha with ⟨htaken, rfl, rfl⟩ | ⟨hnot, -, hfree, hout⟩
  · rw [and_left_comm, and_iff_right htaken, ← flowAllocWith_noPort_iff hf hg]
    cases hs : flowAllocWith pf h w.xIpcp c PORT_ID_WRONG with
    | error t => simp
    | ok s' =>
      constructor
      · rintro ⟨w', hw', hsame⟩
        cases hw'
        exact ⟨s', rfl, hsame.rows⟩
      · rintro ⟨s'', hs'', hsame⟩
        cases hs''
        exact ⟨⟨w.pxPidm, s'⟩, rfl, hsame, fun _ => rfl⟩
  · refine iff_of_false ?_ fun hall => hnot hall.2.1
    rintro ⟨w', hw', hsame⟩
    cases hs : flowAllocWith pf h w.xIpcp c xPortId with
    | error t => simp [hs] at hw'
    | ok s' =>
      simp only [hs, Exec.ok_bind] at hw'
      cases hw'
      have hbit := hsame.ports xPortId
      rw [hfree] at hbit
      exact Bool.false_ne_true (hbit.symm.trans hout)

/-! ### Example calls -/

/-- A call for the example's names. -/
def exampleCall (bind : Queue.RsErr) (pxNeighbor : Option Address) : AllocCall where
  args := exampleAlloc (some ⟨0, 0⟩)
  bind := bind
  pxFlow := some CEP_ID_WRONG
  nEventBits := 0
  request := { allGranted with pxNeighbor := .ok pxNeighbor }
  timer := .SUCCESS
  allocated := false

/-- The ports of a new IPC manager. -/
def newPorts : NumMgr := ⟨MAX_PORT_ID + 1, 0, pxBitArrayAlloc (MAX_PORT_ID + 1).toUInt32⟩

theorem newPorts_init : xNumMgrInit MAX_PORT_ID true = some newPorts := rfl

def newTables : AllocTables := ⟨newPorts, pendingSystem⟩

theorem exampleCall_succeeds :
    (exampleCall .SUCCESS (some 2)).Succeeds ⟨true, false⟩ allocHeap newTables where
  request := exampleAlloc_buildable
  port htaken := absurd htaken.1 (by decide)
  bind := rfl
  flow := rfl
  row := by decide
  neighbor := ⟨2, ⟨rfl, rfl, rfl, rfl, rfl⟩, rfl⟩
  connection := rfl
  rmt := rfl
  imap := by decide
  object := ⟨0, rfl⟩
  ends := .inl rfl

theorem noTrace_success :
    ∃ r, flowAlloc ⟨true, false⟩ 1 allocHeap newTables (exampleCall .SUCCESS (some 2)) = some r ∧
      (exampleCall .SUCCESS (some 2)).LeavesNoTrace ⟨true, false⟩ allocHeap newTables r :=
  ⟨_, rfl, (noTrace_iff allocHeap_fresh exampleAlloc_given (inv_init newPorts_init)
    (show flowAlloc _ 1 _ newTables _ = some _ from rfl)).mpr (.inl exampleCall_succeeds)⟩

/-- The port stays reserved when the bind event is not sent, and so does the instance in the
table when there is no neighbor. -/
theorem failed_call_registered :
    (∃ w', flowAlloc ⟨true, false⟩ 1 allocHeap newTables (exampleCall .FAIL (some 2)) =
        some (.ok w') ∧
      ¬ (exampleCall .FAIL (some 2)).LeavesNoTrace ⟨true, false⟩ allocHeap newTables (.ok w')) ∧
    ∃ w', flowAlloc ⟨true, false⟩ 1 allocHeap newTables (exampleCall .SUCCESS none) =
        some (.ok w') ∧
      ¬ (exampleCall .SUCCESS none).LeavesNoTrace ⟨true, false⟩ allocHeap newTables (.ok w') := by
  refine ⟨⟨_, rfl, fun h => ?_⟩, _, rfl, fun h => ?_⟩
  · obtain ⟨w', hw', hsame⟩ := h fun hs => nomatch hs.bind
    cases hw'
    have hport := hsame.ports 1
    revert hport
    decide
  · obtain ⟨w', hw', hsame⟩ := h fun hs => by
      obtain ⟨addr, hreaches, -⟩ := hs.neighbor
      nomatch hreaches.neighbor
    cases hw'
    exact nomatch hsame.rows.xFlowRequestTable

end RinaSense.Flow
