import RinaSense.Library.Runs
import RinaSense.Rib.Calls

/-!
# The lock of the RIB

What each entry point does to the connection table and to the mutex. Every path gives the
mutex back but one: adding a connection to a full table returns with it held.
-/

namespace RinaSense.Rib

open Common SerDes Library.Memory Library.Runs

variable {out : Outcomes} {r r' : Ribd} {o : RibOut}

theorem vRibUnlock_setConnection (r : Ribd) (x : Fin APP_CONNECTION_TABLE_SIZE)
    (row : AppConnection) :
    vRibUnlock (r.setConnection x row) = (vRibUnlock r).setConnection x row := by
  rw [vRibUnlock_eq, vRibUnlock_eq]
  rfl

theorem Ribd.locked_setConnection (h : (r.xDoLock && r.xMutex) = false)
    (x : Fin APP_CONNECTION_TABLE_SIZE) (row : AppConnection) :
    vRibUnlock (r.locked.setConnection x row) = r.setConnection x row := by
  rw [vRibUnlock_setConnection, vRibUnlock_locked h]

/-- The connections, the mutex and whether it is used are as before. -/
structure SameConnections (r r' : Ribd) : Prop where
  connections : r'.xAppConnections = r.xAppConnections
  mutex : r'.xMutex = r.xMutex
  doLock : r'.xDoLock = r.xDoLock

theorem SameConnections.refl (r : Ribd) : SameConnections r r := ⟨rfl, rfl, rfl⟩

theorem sameConnections_unlocked (h : (r.xDoLock && r.xMutex) = false) :
    SameConnections r (vRibUnlock r.locked) := by
  rw [vRibUnlock_locked h]
  exact .refl r

/-- The first free row of the connection table. -/
def Ribd.releasedRow (r : Ribd) : Option (Fin APP_CONNECTION_TABLE_SIZE) :=
  Fin.find? fun x => (r.xAppConnections x).xStatus == .CONNECTION_RELEASED

theorem xRibConnectionAdd_eq_ok {src dst : Rname} {unPort : PortId} {p : RsErr × Ribd} :
    xRibConnectionAdd out r src dst unPort = .ok p ↔
      (r.xDoLock && r.xMutex) = false ∧
        p = match r.releasedRow with
          | none => (.ERR_RIB_TOO_MANY_CONNECTIONS, r.locked)
          | some x =>
            (if out.sourceDup && out.destinationDup then .SUCCESS else .FAIL,
              r.setConnection x (newConnection out (r.xAppConnections x) src dst unPort)) := by
  unfold xRibConnectionAdd
  rw [Exec.bind_eq_ok]
  simp only [vRibLock_eq_ok]
  constructor
  · rintro ⟨r₁, ⟨hl, rfl⟩, h⟩
    refine ⟨hl, ?_⟩
    simp only [Ribd.releasedRow]
    cases hx : Fin.find? fun x => (r.xAppConnections x).xStatus == .CONNECTION_RELEASED with
    | none =>
      simp only [Ribd.locked_connections, hx] at h
      cases h
      rfl
    | some x =>
      simp only [Ribd.locked_connections, hx, Ribd.locked_setConnection hl] at h
      cases h
      rfl
  · rintro ⟨hl, rfl⟩
    refine ⟨r.locked, ⟨hl, rfl⟩, ?_⟩
    simp only [Ribd.releasedRow]
    cases hx : Fin.find? fun x => (r.xAppConnections x).xStatus == .CONNECTION_RELEASED with
    | none => simp only [Ribd.locked_connections, hx]; rfl
    | some x =>
      simp only [Ribd.locked_connections, hx, Ribd.locked_setConnection hl]
      rfl

theorem prvRibHandleConnect_known {unPort : PortId} {x : Fin APP_CONNECTION_TABLE_SIZE}
    {msg : IncomingCdap} (h : prvRibHandleConnect out r unPort (some x) msg = .ok o) :
    o = { xStatus := .ERR_RIB_CONNECTION_EXISTS, pxRibd := r } := by
  cases h
  rfl

/-- A connect finds the table full, or takes the first free row. -/
theorem prvRibHandleConnect_new {unPort : PortId} {msg : IncomingCdap}
    (h : prvRibHandleConnect out r unPort none msg = .ok o) :
    match r.releasedRow with
    | none => o.xStatus = .FAIL ∧ o.pxRibd = r.locked
    | some x =>
      o.pxRibd = r.setConnection x
        (newConnection out (r.xAppConnections x) msg.xSourceInfo msg.xDestinationInfo unPort) := by
  unfold prvRibHandleConnect at h
  obtain ⟨p, hadd, h⟩ := Exec.bind_eq_ok.mp h
  obtain ⟨hl, rfl⟩ := xRibConnectionAdd_eq_ok.mp hadd
  cases hrow : r.releasedRow with
  | none =>
    simp only [hrow] at h
    cases h
    exact ⟨rfl, rfl⟩
  | some x =>
    simp only [hrow] at h
    cases hdup : out.sourceDup && out.destinationDup with
    | false =>
      simp only [hdup, Bool.false_eq_true, if_false] at h
      cases h
      rfl
    | true =>
      simp only [hdup, if_true] at h
      obtain ⟨r₂, hl₂, h⟩ := Exec.bind_eq_ok.mp h
      obtain ⟨hl₂', rfl⟩ := vRibLock_eq_ok.mp hl₂
      cases hp : out.xMsgPool with
      | false => simp [hp] at h
      | true =>
        simp only [hp, Bool.not_true, Bool.false_eq_true, if_false] at h
        cases h
        exact vRibUnlock_locked hl₂'

theorem prvRibHandleRelease_cases {unPort : PortId} {x : Fin APP_CONNECTION_TABLE_SIZE}
    {msg : IncomingCdap} (hx : (r.xAppConnections x).xStatus ≠ .CONNECTION_RELEASED)
    (h : prvRibHandleRelease out r unPort (some x) msg = .ok o) :
    if msg.nInvokeID = 0 then o = { xStatus := .SUCCESS, pxRibd := vRibConnectionRelease r x }
    else (r.xDoLock && r.xMutex) = false ∧ o.xStatus = out.outputStatus ∧ o.pxRibd = r := by
  unfold prvRibHandleRelease at h
  by_cases hid : msg.nInvokeID = 0
  · simp only [hx, hid, if_false, ne_eq, not_true_eq_false] at h
    rw [if_pos hid]
    cases h
    rfl
  · simp only [hx, hid, if_false, ne_eq, not_false_eq_true, if_true] at h
    rw [if_neg hid]
    obtain ⟨hl, -, rfl⟩ := xRibObjectReply_eq_ok.mp h
    exact ⟨hl, rfl, vRibUnlock_locked hl⟩

theorem prvRibHandleAnyReply_connections {eOpCode : OpCode} {msg : IncomingCdap}
    (hop : msg.eOpCode = some eOpCode) (h : prvRibHandleAnyReply out r eOpCode msg = .ok o) :
    SameConnections r o.pxRibd := by
  have hspec := prvRibHandleAnyReply_eq_ok hop h
  cases hrow : r.acceptingRow out msg with
  | none =>
    rw [hrow] at hspec
    obtain ⟨xStatus, rfl⟩ := hspec
    exact .refl r
  | some x =>
    rw [hrow] at hspec
    obtain ⟨-, -, xStatus, resp, pxResp, rfl⟩ := hspec
    exact ⟨rfl, rfl, rfl⟩

theorem prvRibHandleAnyRequest_connections {eOpCode : OpCode} {msg : IncomingCdap}
    (h : prvRibHandleAnyRequest out r eOpCode msg = .ok o) : SameConnections r o.pxRibd := by
  unfold prvRibHandleAnyRequest at h
  obtain ⟨found, -, h⟩ := Exec.bind_eq_ok.mp h
  cases found with
  | none =>
    cases h
    exact .refl r
  | some obj =>
    obtain ⟨method, -, h⟩ := Exec.bind_eq_ok.mp h
    cases method <;> cases h <;> exact .refl r

theorem xRibObjectQuery_connections {obj : RibObject} {eOpCode : OpCode} {unPort : PortId}
    {info : RibQueryTypeInfo} (h : xRibObjectQuery out r obj eOpCode unPort info = .ok o) :
    SameConnections r o.pxRibd := by
  rcases xRibObjectQuery_changes h with hr | ⟨x, row, hr⟩
  · rw [hr]
    exact ⟨rfl, rfl, rfl⟩
  · rw [hr]
    exact ⟨rfl, rfl, rfl⟩

theorem pxRibConnectionFind_live {unPort : PortId} {x : Fin APP_CONNECTION_TABLE_SIZE}
    (h : pxRibConnectionFind r unPort = some x) : (r.xAppConnections x).live unPort = true :=
  Fin.eq_true_of_find?_eq_some h

theorem AppConnection.live_iff {row : AppConnection} {unPort : PortId} :
    row.live unPort = true ↔ row.xStatus ≠ .CONNECTION_RELEASED ∧ row.unPort = unPort := by
  simp [AppConnection.live]

/-- What an incoming message can do to the connections. -/
inductive ConnectionChange (r : Ribd) (out : Outcomes) (msg : IncomingCdap) (unPort : PortId)
    (o : RibOut) : Prop
  | full (hop : msg.eOpCode = some .M_CONNECT) (hnew : pxRibConnectionFind r unPort = none)
      (hrow : r.releasedRow = none) (hr : o.pxRibd = r.locked)
  | connect (x : Fin APP_CONNECTION_TABLE_SIZE) (hop : msg.eOpCode = some .M_CONNECT)
      (hnew : pxRibConnectionFind r unPort = none) (hrow : r.releasedRow = some x)
      (hr : o.pxRibd = r.setConnection x (newConnection out (r.xAppConnections x)
        msg.xSourceInfo msg.xDestinationInfo unPort))
  | connected (x : Fin APP_CONNECTION_TABLE_SIZE) (hop : msg.eOpCode = some .M_CONNECT_R)
      (hrow : pxRibConnectionFind r unPort = some x)
      (hr : o.pxRibd = r.setConnection x
        { r.xAppConnections x with xStatus := .CONNECTION_OK })
  | release (x : Fin APP_CONNECTION_TABLE_SIZE) (hop : msg.eOpCode = some .M_RELEASE)
      (hid : msg.nInvokeID = 0) (hrow : pxRibConnectionFind r unPort = some x)
      (hok : o.xStatus = .SUCCESS) (hr : o.pxRibd = vRibConnectionRelease r x)

section Incoming

variable {msg : IncomingCdap} {unPort : PortId}

theorem prvRibHandleConnect_connections (hop : msg.eOpCode = some .M_CONNECT)
    (h : prvRibHandleConnect out r unPort (pxRibConnectionFind r unPort) msg = .ok o) :
    SameConnections r o.pxRibd ∨ ConnectionChange r out msg unPort o := by
  cases hfind : pxRibConnectionFind r unPort with
  | some x =>
    rw [hfind] at h
    rw [prvRibHandleConnect_known h]
    exact .inl (.refl r)
  | none =>
    rw [hfind] at h
    have hnew := prvRibHandleConnect_new h
    right
    cases hrow : r.releasedRow with
    | none =>
      rw [hrow] at hnew
      exact .full hop hfind hrow hnew.2
    | some x =>
      rw [hrow] at hnew
      exact .connect x hop hfind hrow hnew

theorem prvRibHandleRelease_connections (hop : msg.eOpCode = some .M_RELEASE)
    (h : prvRibHandleRelease out r unPort (pxRibConnectionFind r unPort) msg = .ok o) :
    SameConnections r o.pxRibd ∨ ConnectionChange r out msg unPort o := by
  cases hfind : pxRibConnectionFind r unPort with
  | none =>
    rw [hfind] at h
    cases h
    exact .inl (.refl r)
  | some x =>
    rw [hfind] at h
    have hst := (AppConnection.live_iff.mp (pxRibConnectionFind_live hfind)).1
    have hcases := prvRibHandleRelease_cases hst h
    split_ifs at hcases with hid
    · right
      rw [hcases]
      exact .release x hop hid hfind rfl rfl
    · left
      rw [hcases.2.2]
      exact .refl r

theorem xRibNormalIncoming_connections (h : xRibNormalIncoming out r msg unPort = .ok o) :
    SameConnections r o.pxRibd ∨ ConnectionChange r out msg unPort o := by
  unfold xRibNormalIncoming at h
  cases hop : msg.eOpCode with
  | none => simp [hop] at h
  | some eOpCode =>
    simp only [hop] at h
    cases eOpCode with
    | M_CONNECT => exact prvRibHandleConnect_connections hop h
    | M_RELEASE => exact prvRibHandleRelease_connections hop h
    | M_CONNECT_R =>
      cases h
      cases hfind : pxRibConnectionFind r unPort with
      | none => exact .inl (.refl r)
      | some x =>
        by_cases hst : (r.xAppConnections x).xStatus = .CONNECTION_IN_PROGRESS
        · right
          exact .connected x hop hfind (by simp [prvRibHandleConnectReply, hst])
        · left
          simp only [prvRibHandleConnectReply, hst, ne_eq, not_false_eq_true, if_true]
          exact .refl r
    | M_RELEASE_R =>
      cases h
      left
      cases hfind : pxRibConnectionFind r unPort with
      | none => exact .refl r
      | some x =>
        have hst := (AppConnection.live_iff.mp (pxRibConnectionFind_live hfind)).1
        simp only [prvRibHandleReleaseReply, hst, ne_eq, not_false_eq_true, if_true]
        exact .refl r
    | M_CREATE | M_DELETE | M_READ | M_WRITE | M_START | M_STOP =>
      exact .inl (prvRibHandleAnyRequest_connections h)
    | M_CREATE_R | M_DELETE_R | M_READ_R | M_WRITE_R | M_START_R | M_STOP_R =>
      exact .inl (prvRibHandleAnyReply_connections hop h)
    | M_CANCELREAD | M_CANCELREAD_R =>
      cases h
      exact .inl (.refl r)

end Incoming

theorem xRibObjectAdd_connections (obj : RibObject) :
    SameConnections r (xRibObjectAdd out r obj).pxRibd := by
  unfold xRibObjectAdd
  split <;> exact ⟨rfl, rfl, rfl⟩

/-- Only incoming messages change the connections. -/
theorem call_connections {c : RibCall} (h : r.call out c = .ok o) :
    SameConnections r o.pxRibd ∨
      ∃ msg unPort, c = .incoming msg unPort ∧ ConnectionChange r out msg unPort o := by
  cases c with
  | query obj eOpCode unPort info => exact .inl (xRibObjectQuery_connections h)
  | reply eOpCode unPort unInvokeId =>
    obtain ⟨hl, -, rfl⟩ := xRibObjectReply_eq_ok.mp h
    exact .inl (sameConnections_unlocked hl)
  | objectAdd obj =>
    cases h
    exact .inl (xRibObjectAdd_connections obj)
  | incoming msg unPort =>
    rcases xRibNormalIncoming_connections h with hsame | hchange
    · exact .inl hsame
    · exact .inr ⟨msg, unPort, rfl, hchange⟩

/-! ### Every path but one gives the mutex back -/

/-- The calls, and the functions of the tables which take the lock on their own. -/
inductive EntryPoint
  | call (c : RibCall)
  | findPending (unInvokeID : InvokeId)
  | connectionAdd (pxSrc pxDst : Rname) (unPort : PortId)
  | connectionRelease (x : Fin APP_CONNECTION_TABLE_SIZE)
deriving DecidableEq

/-- The RIB after an entry point, unless it does not return. -/
def Ribd.enter (r : Ribd) (e : EntryPoint × Outcomes) : Option Ribd :=
  match e.1 with
  | .call c =>
    match r.call e.2 c with
    | .ok o => some o.pxRibd
    | .error _ => none
  | .findPending unInvokeID =>
    match xRibFindPendingResponse r unInvokeID with
    | .ok p => some p.2
    | .error _ => none
  | .connectionAdd pxSrc pxDst unPort =>
    match xRibConnectionAdd e.2 r pxSrc pxDst unPort with
    | .ok p => some p.2
    | .error _ => none
  | .connectionRelease x => some (vRibConnectionRelease r x)

/-- A connection is added while the table is full, to a RIB which locks. -/
def OverfillsTable (r : Ribd) (e : EntryPoint × Outcomes) : Prop :=
  r.xDoLock = true ∧ r.releasedRow = none ∧
    match e.1 with
    | .call (.incoming msg unPort) =>
      msg.eOpCode = some .M_CONNECT ∧ pxRibConnectionFind r unPort = none
    | .connectionAdd .. => True
    | _ => False

instance (r : Ribd) : ∀ e, Decidable (OverfillsTable r e)
  | (.call (.incoming msg unPort), _) => inferInstanceAs (Decidable
      (_ ∧ _ ∧ msg.eOpCode = some .M_CONNECT ∧ pxRibConnectionFind r unPort = none))
  | (.connectionAdd .., _) => inferInstanceAs (Decidable (_ ∧ _ ∧ True))
  | (.call (.query ..), _) | (.call (.reply ..), _) | (.call (.objectAdd _), _)
  | (.findPending _, _) | (.connectionRelease _, _) =>
    inferInstanceAs (Decidable (_ ∧ _ ∧ False))

theorem connect_full {msg : IncomingCdap} {unPort : PortId}
    (hop : msg.eOpCode = some .M_CONNECT) (hnew : pxRibConnectionFind r unPort = none)
    (hrow : r.releasedRow = none) (h : xRibNormalIncoming out r msg unPort = .ok o) :
    o.pxRibd = r.locked := by
  simp only [xRibNormalIncoming, hop, hnew] at h
  have hspec := prvRibHandleConnect_new h
  rw [hrow] at hspec
  exact hspec.2

theorem ConnectionChange.mutex {msg : IncomingCdap} {unPort : PortId}
    (h : ConnectionChange r out msg unPort o) (hfree : r.xMutex = false)
    (hover : ¬ OverfillsTable r (.call (.incoming msg unPort), out)) :
    o.pxRibd.xMutex = false := by
  cases h with
  | full hop hnew hrow hr =>
    have hlock : r.xDoLock = false := by
      by_contra hlock
      exact hover ⟨by simpa using hlock, hrow, hop, hnew⟩
    rw [hr, Ribd.locked, hfree, hlock]
    rfl
  | connect x hop hnew hrow hr =>
    rw [hr]
    exact hfree
  | connected x hop hrow hr =>
    rw [hr]
    exact hfree
  | release x hop hid hrow hok hr =>
    rw [hr]
    exact hfree

/-- An entry point which finds the mutex free gives it back unless it overfills the table. -/
theorem enter_mutex {e : EntryPoint × Outcomes} (hfree : r.xMutex = false)
    (h : r.enter e = some r') : r'.xMutex = false ↔ ¬ OverfillsTable r e := by
  obtain ⟨e, out⟩ := e
  cases e with
  | call c =>
    simp only [Ribd.enter] at h
    cases hcall : r.call out c with
    | error t => simp [hcall] at h
    | ok o =>
      simp only [hcall] at h
      cases h
      by_cases hover : OverfillsTable r (.call c, out)
      · refine iff_of_false ?_ (not_not.mpr hover)
        cases c with
        | incoming msg unPort =>
          obtain ⟨hlock, hrow, hop, hnew⟩ := hover
          rw [connect_full hop hnew hrow hcall, Ribd.locked, hlock]
          simp
        | _ => exact hover.2.2.elim
      · refine iff_of_true ?_ hover
        rcases call_connections hcall with hsame | ⟨msg, unPort, rfl, hchange⟩
        · exact hsame.mutex.trans hfree
        · exact hchange.mutex hfree hover
  | findPending unInvokeID =>
    simp only [Ribd.enter] at h
    cases hp : xRibFindPendingResponse r unInvokeID with
    | error t => simp [hp] at h
    | ok p =>
      simp only [hp] at h
      cases h
      obtain ⟨hl, rfl⟩ := xRibFindPendingResponse_eq_ok.mp hp
      refine iff_of_true ?_ fun hover => hover.2.2
      rw [vRibUnlock_locked hl]
      exact hfree
  | connectionAdd src dst unPort =>
    simp only [Ribd.enter] at h
    cases hp : xRibConnectionAdd out r src dst unPort with
    | error t => simp [hp] at h
    | ok p =>
      simp only [hp] at h
      cases h
      obtain ⟨hl, rfl⟩ := xRibConnectionAdd_eq_ok.mp hp
      cases hrow : r.releasedRow with
      | none => simp [OverfillsTable, hrow, Ribd.locked, hfree]
      | some x => exact iff_of_true hfree (by simp [OverfillsTable, hrow])
  | connectionRelease x =>
    cases h
    exact iff_of_true hfree fun hover => hover.2.2

/-- Throughout a run of entry points the RIB is unlocked between them if and only if none
overfills the connection table. -/
theorem unlocked_iff (xDoLock : Bool) {es : List (EntryPoint × Outcomes)} {r : Ribd}
    (hrun : es.foldlM Ribd.enter (Ribd.init xDoLock) = some r) :
    Throughout Ribd.enter (fun r => r.xMutex = false) (Ribd.init xDoLock) es ↔
      GuardedSteps Ribd.enter (fun r e => ¬ OverfillsTable r e) (Ribd.init xDoLock) es :=
  throughout_iff (fun _ _ _ _ _ => trivial) (fun _ _ _ _ hfree h => enter_mutex hfree h)
    trivial rfl hrun

/-! ### Connects from one port after the other -/

def exampleConnect (nInvokeID : InvokeId) : IncomingCdap where
  eOpCode := some .M_CONNECT
  xDestinationInfo := ⟨none, none, none, none⟩
  xSourceInfo := ⟨none, none, none, none⟩
  nInvokeID := nInvokeID
  pcObjName := .empty

/-- A connect from each of the ports below a number. -/
def connects (n : ℕ) : List (EntryPoint × Outcomes) :=
  (List.range n).map fun k : ℕ =>
    (.call (.incoming (exampleConnect 1) (UInt32.ofNat k)), .allWell)

/-- As many connects as the table has rows. -/
theorem unlocked_five :
    Throughout Ribd.enter (fun r => r.xMutex = false) (Ribd.init true) (connects 5) :=
  (unlocked_iff true rfl).mpr (by decide)

/-- The sixth connect leaves the RIB locked, and no call which locks returns after it. -/
theorem sixth_connect_locks :
    ∃ r, (connects 6).foldlM Ribd.enter (Ribd.init true) = some r ∧ r.xMutex = true ∧
      r.enter (.findPending 1, .allWell) = none :=
  ⟨_, rfl, rfl, rfl⟩

end RinaSense.Rib
