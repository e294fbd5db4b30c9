import RinaSense.Rib.Lock

/-!
# The life of a connection

When a port which was released is free again. A release with an invoke id is answered and
its connection stays; one without an invoke id clears the row.
-/

namespace RinaSense.Rib

open Common SerDes Library.Memory Library.Runs

variable {out : Outcomes} {r r' : Ribd} {o : RibOut}

/-! ### The rows of a port -/

/-- No two rows are in use for one port. -/
def Ribd.DistinctPorts (r : Ribd) : Prop :=
  ∀ x y unPort, (r.xAppConnections x).live unPort = true →
    (r.xAppConnections y).live unPort = true → x = y

/-- No row is in use for the port. -/
def Ribd.Unconnected (r : Ribd) (unPort : PortId) : Prop :=
  ∀ x, (r.xAppConnections x).live unPort = false

theorem unconnected_iff {unPort : PortId} :
    r.Unconnected unPort ↔ pxRibConnectionFind r unPort = none := by
  simp [Ribd.Unconnected, pxRibConnectionFind]

theorem newConnection_live (row : AppConnection) (src dst : Rname) (unPort port : PortId) :
    (newConnection out row src dst unPort).live port = (unPort == port) := by
  simp [newConnection, AppConnection.live]

theorem zero_live (port : PortId) : AppConnection.zero.live port = false := rfl

theorem setConnection_live (x y : Fin APP_CONNECTION_TABLE_SIZE) (row : AppConnection)
    (port : PortId) :
    ((r.setConnection x row).xAppConnections y).live port =
      if y = x then row.live port else (r.xAppConnections y).live port := by
  by_cases hyx : y = x
  · subst hyx
    simp [Ribd.setConnection]
  · simp [Ribd.setConnection, hyx]

/-- Updating the status of a row which is in use to another one in use. -/
theorem connected_live {x : Fin APP_CONNECTION_TABLE_SIZE} {unPort : PortId}
    (hrow : pxRibConnectionFind r unPort = some x) (y : Fin APP_CONNECTION_TABLE_SIZE)
    (port : PortId) :
    ((r.setConnection x { r.xAppConnections x with xStatus := .CONNECTION_OK }).xAppConnections
      y).live port = (r.xAppConnections y).live port := by
  have hst := bne_iff_ne.mpr (AppConnection.live_iff.mp (pxRibConnectionFind_live hrow)).1
  rw [setConnection_live]
  split_ifs with hyx
  · subst hyx
    simp only [AppConnection.live, hst]
    rfl
  · rfl

/-- A row which is in use after another one was cleared was in use before. -/
theorem release_live {x y : Fin APP_CONNECTION_TABLE_SIZE} {port : PortId}
    (h : ((vRibConnectionRelease r x).xAppConnections y).live port = true) :
    (r.xAppConnections y).live port = true := by
  rw [vRibConnectionRelease, setConnection_live] at h
  split_ifs at h with hyx
  · rw [zero_live] at h
    cases h
  · exact h

theorem Ribd.DistinctPorts.change {msg : IncomingCdap} {unPort : PortId}
    (h : r.DistinctPorts) (hc : ConnectionChange r out msg unPort o) :
    o.pxRibd.DistinctPorts := by
  cases hc with
  | full hop hnew hrow hr =>
    rw [hr]
    exact h
  | connect x hop hnew hrow hr =>
    rw [hr]
    have hun := unconnected_iff.mpr hnew
    intro y z port hy hz
    rw [setConnection_live, newConnection_live] at hy hz
    split_ifs at hy hz with hyx hzx hzx
    · exact hyx.trans hzx.symm
    · rw [← beq_iff_eq.mp hy, hun z] at hz
      cases hz
    · rw [← beq_iff_eq.mp hz, hun y] at hy
      cases hy
    · exact h y z port hy hz
  | connected x hop hrow hr =>
    rw [hr]
    intro y z port hy hz
    rw [connected_live hrow] at hy hz
    exact h y z port hy hz
  | release x hop hid hrow hok hr =>
    rw [hr]
    exact fun y z port hy hz => h y z port (release_live hy) (release_live hz)

/-- After its row was cleared no row is in use for the port. -/
theorem Ribd.DistinctPorts.release (h : r.DistinctPorts) {x : Fin APP_CONNECTION_TABLE_SIZE}
    {unPort : PortId} (hrow : pxRibConnectionFind r unPort = some x) :
    (vRibConnectionRelease r x).Unconnected unPort := by
  intro y
  rw [vRibConnectionRelease, setConnection_live]
  split_ifs with hyx
  · rfl
  · by_contra hy
    exact hyx (h y x unPort (by simpa using hy) (pxRibConnectionFind_live hrow))

/-! ### A connect which is accepted -/

/-- With memory for the names and the answer, a connect from the port is answered and gets a
row. -/
def Ribd.Accepts (r : Ribd) (unPort : PortId) : Prop :=
  ∀ out msg, out.sourceDup = true → out.destinationDup = true → out.xMsgPool = true →
    msg.eOpCode = some .M_CONNECT →
      ∃ o, xRibNormalIncoming out r msg unPort = .ok o ∧ o.xStatus = out.outputStatus ∧
        o.sent = [⟨.M_CONNECT_R, msg.nInvokeID, unPort⟩] ∧ ¬ o.pxRibd.Unconnected unPort

/-- A port without a row is accepted when there is a free row and the mutex is free. -/
theorem accepts_of_unconnected {unPort : PortId} (hun : r.Unconnected unPort)
    (hrow : r.releasedRow.isSome) (hl : (r.xDoLock && r.xMutex) = false) :
    r.Accepts unPort := by
  intro out msg hsrc hdst hpool hop
  obtain ⟨x, hx⟩ := Option.isSome_iff_exists.mp hrow
  have hadd : xRibConnectionAdd out r msg.xSourceInfo msg.xDestinationInfo unPort =
      .ok (.SUCCESS, r.setConnection x (newConnection out (r.xAppConnections x)
        msg.xSourceInfo msg.xDestinationInfo unPort)) := by
    rw [xRibConnectionAdd_eq_ok]
    exact ⟨hl, by simp [hx, hsrc, hdst]⟩
  refine ⟨{ xStatus := out.outputStatus,
            pxRibd := r.setConnection x (newConnection out (r.xAppConnections x)
              msg.xSourceInfo msg.xDestinationInfo unPort),
            sent := [⟨.M_CONNECT_R, msg.nInvokeID, unPort⟩] }, ?_, rfl, rfl, ?_⟩
  · have hlock : vRibLock (r.setConnection x (newConnection out (r.xAppConnections x)
        msg.xSourceInfo msg.xDestinationInfo unPort)) = .ok _ :=
      vRibLock_eq_ok.mpr ⟨hl, rfl⟩
    have hunlock := vRibUnlock_locked (r := r.setConnection x (newConnection out
      (r.xAppConnections x) msg.xSourceInfo msg.xDestinationInfo unPort)) hl
    simp only [xRibNormalIncoming, hop, unconnected_iff.mp hun, prvRibHandleConnect, hadd,
      Exec.ok_bind, hlock, hpool, hunlock]
    rfl
  · intro h
    have := h x
    rw [setConnection_live, newConnection_live] at this
    simp at this

/-- A connect only returns when it finds the mutex free. -/
theorem Ribd.Accepts.lockFree {unPort : PortId} (h : r.Accepts unPort)
    (hun : r.Unconnected unPort) : (r.xDoLock && r.xMutex) = false := by
  obtain ⟨o, ho, -⟩ := h .allWell (exampleConnect 1) rfl rfl rfl rfl
  simp only [xRibNormalIncoming, exampleConnect, unconnected_iff.mp hun,
    prvRibHandleConnect] at ho
  obtain ⟨p, hadd, -⟩ := Exec.bind_eq_ok.mp ho
  exact (xRibConnectionAdd_eq_ok.mp hadd).1

/-! ### Runs of calls -/

/-- The RIB with the ports whose last successful release no connect has followed. -/
structure ConnectionRun where
  pxRibd : Ribd
  ended : List PortId

def ConnectionRun.init (xDoLock : Bool) : ConnectionRun := ⟨.init xDoLock, []⟩

/-- A release for a port which is connected. -/
def Ribd.Releases (r : Ribd) (msg : IncomingCdap) (unPort : PortId) : Prop :=
  msg.eOpCode = some .M_RELEASE ∧ (pxRibConnectionFind r unPort).isSome

instance (r : Ribd) (msg : IncomingCdap) (unPort : PortId) :
    Decidable (r.Releases msg unPort) :=
  inferInstanceAs (Decidable (_ ∧ _))

def ConnectionRun.after (s : ConnectionRun) (c : RibCall) (o : RibOut) : ConnectionRun where
  pxRibd := o.pxRibd
  ended :=
    match c with
    | .incoming msg unPort =>
      if s.pxRibd.Releases msg unPort ∧ o.xStatus = .SUCCESS then unPort :: s.ended
      else if msg.eOpCode = some .M_CONNECT then s.ended.filter (· ≠ unPort)
      else s.ended
    | _ => s.ended

def ConnectionRun.step (s : ConnectionRun) (c : RibCall × Outcomes) : Option ConnectionRun :=
  match s.pxRibd.call c.2 c.1 with
  | .ok o => some (s.after c.1 o)
  | .error _ => none

variable {s s' : ConnectionRun} {c : RibCall × Outcomes}

theorem ConnectionRun.step_eq_some :
    s.step c = some s' ↔ ∃ o, s.pxRibd.call c.2 c.1 = .ok o ∧ s' = s.after c.1 o := by
  unfold ConnectionRun.step
  cases s.pxRibd.call c.2 c.1 with
  | error t => simp
  | ok o => simp [eq_comm]

/-- A port which was released has no row, and a connect from it is accepted while the table
has a free one. -/
def ConnectionRun.EndsReleased (s : ConnectionRun) : Prop :=
  ∀ unPort ∈ s.ended, s.pxRibd.Unconnected unPort ∧
    (s.pxRibd.releasedRow.isSome → s.pxRibd.Accepts unPort)

/-- A release of a connected port carries no invoke id and finds the RIB unlocked, or its
answer cannot be sent. -/
def ReleasedAtOnce (s : ConnectionRun) (c : RibCall × Outcomes) : Prop :=
  match c.1 with
  | .incoming msg unPort => s.pxRibd.Releases msg unPort →
      if msg.nInvokeID = 0 then (s.pxRibd.xDoLock && s.pxRibd.xMutex) = false
      else c.2.fnRibOutput = false
  | _ => True

instance (s : ConnectionRun) : ∀ c, Decidable (ReleasedAtOnce s c)
  | (.incoming msg unPort, out) => inferInstanceAs (Decidable (s.pxRibd.Releases msg unPort →
      if msg.nInvokeID = 0 then (s.pxRibd.xDoLock && s.pxRibd.xMutex) = false
      else out.fnRibOutput = false))
  | (.query .., _) | (.reply .., _) | (.objectAdd _, _) => .isTrue trivial

/-- What the law says of the tables and the mutex alone. -/
theorem ConnectionRun.endsReleased_iff :
    s.EndsReleased ↔ ∀ unPort ∈ s.ended, s.pxRibd.Unconnected unPort ∧
      (s.pxRibd.releasedRow.isSome → (s.pxRibd.xDoLock && s.pxRibd.xMutex) = false) := by
  constructor
  · intro h unPort hp
    obtain ⟨hun, hacc⟩ := h unPort hp
    exact ⟨hun, fun hrow => (hacc hrow).lockFree hun⟩
  · intro h unPort hp
    obtain ⟨hun, hlock⟩ := h unPort hp
    exact ⟨hun, fun hrow => accepts_of_unconnected hun hrow (hlock hrow)⟩

theorem SameConnections.unconnected (h : SameConnections r r') {unPort : PortId} :
    r'.Unconnected unPort ↔ r.Unconnected unPort := by
  simp only [Ribd.Unconnected, h.connections]

theorem SameConnections.releasedRow (h : SameConnections r r') :
    r'.releasedRow = r.releasedRow := by
  simp only [Ribd.releasedRow, h.connections]

theorem SameConnections.lock (h : SameConnections r r') :
    (r'.xDoLock && r'.xMutex) = (r.xDoLock && r.xMutex) := by
  rw [h.doLock, h.mutex]

/-- A call which leaves the connections alone keeps the law for ports which stay ended. -/
theorem ConnectionRun.EndsReleased.same {o : RibOut} (h : s.EndsReleased)
    (hsame : SameConnections s.pxRibd o.pxRibd) {ended : List PortId}
    (hsub : ∀ unPort ∈ ended, unPort ∈ s.ended) :
    ConnectionRun.EndsReleased ⟨o.pxRibd, ended⟩ := by
  rw [ConnectionRun.endsReleased_iff] at h ⊢
  intro unPort hp
  simp only [hsame.unconnected, hsame.releasedRow, hsame.lock]
  exact h unPort (hsub unPort hp)

theorem releasedRow_isSome : r.releasedRow.isSome ↔
    ∃ x, (r.xAppConnections x).xStatus = .CONNECTION_RELEASED := by
  simp [Ribd.releasedRow]

theorem Ribd.Unconnected.release {x : Fin APP_CONNECTION_TABLE_SIZE} {port : PortId}
    (h : r.Unconnected port) : (vRibConnectionRelease r x).Unconnected port := by
  intro y
  by_contra hy
  have := release_live (by simpa using hy)
  rw [h y] at this
  cases this

/-- A change which is no release keeps the law for the ports which it does not connect. -/
theorem ConnectionRun.EndsReleased.change {msg : IncomingCdap} {unPort : PortId} {o : RibOut}
    (h : s.EndsReleased) (hc : ConnectionChange s.pxRibd c.2 msg unPort o)
    (hrel : msg.eOpCode ≠ some .M_RELEASE) {ended : List PortId}
    (hsub : ∀ port ∈ ended, port ∈ s.ended ∧ (msg.eOpCode = some .M_CONNECT → port ≠ unPort)) :
    ConnectionRun.EndsReleased ⟨o.pxRibd, ended⟩ := by
  rw [ConnectionRun.endsReleased_iff] at h ⊢
  intro port hp
  obtain ⟨hmem, hne⟩ := hsub port hp
  obtain ⟨hun, hlock⟩ := h port hmem
  cases hc with
  | release x hop => exact absurd hop hrel
  | full hop hnew hrow hr =>
    dsimp only
    rw [hr]
    refine ⟨hun, fun hsome => ?_⟩
    change s.pxRibd.releasedRow.isSome at hsome
    rw [hrow] at hsome
    cases hsome
  | connect x hop hnew hrow hr =>
    dsimp only
    rw [hr]
    refine ⟨fun y => ?_, fun _ => hlock (by rw [hrow]; rfl)⟩
    rw [setConnection_live, newConnection_live]
    split_ifs
    · exact beq_eq_false_iff_ne.mpr (hne hop).symm
    · exact hun y
  | connected x hop hrow hr =>
    dsimp only
    rw [hr]
    refine ⟨fun y => by rw [connected_live hrow]; exact hun y, fun hsome => hlock ?_⟩
    obtain ⟨y, hy⟩ := releasedRow_isSome.mp hsome
    refine releasedRow_isSome.mpr ⟨y, ?_⟩
    by_cases hyx : y = x
    · subst hyx
      simp [Ribd.setConnection] at hy
    · simpa [Ribd.setConnection, hyx] using hy

/-- A release of a connected port keeps the law exactly when it ends the connection and
finds the RIB unlocked, or is not answered. -/
theorem ConnectionRun.EndsReleased.release {msg : IncomingCdap} {unPort : PortId}
    {out : Outcomes} {o : RibOut} (hd : s.pxRibd.DistinctPorts) (h : s.EndsReleased)
    (hrel : s.pxRibd.Releases msg unPort)
    (ho : xRibNormalIncoming out s.pxRibd msg unPort = .ok o) :
    (s.after (.incoming msg unPort) o).EndsReleased ↔
      ReleasedAtOnce s (.incoming msg unPort, out) := by
  obtain ⟨hop, hfind⟩ := id hrel
  obtain ⟨x, hx⟩ := Option.isSome_iff_exists.mp hfind
  have hst := (AppConnection.live_iff.mp (pxRibConnectionFind_live hx)).1
  simp only [xRibNormalIncoming, hop, hx] at ho
  have hcases := prvRibHandleRelease_cases hst ho
  simp only [ReleasedAtOnce, hrel, forall_const]
  split_ifs at hcases ⊢ with hid
  · rw [hcases, ConnectionRun.endsReleased_iff]
    simp only [ConnectionRun.after, hrel, true_and, if_true, List.mem_cons, forall_eq_or_imp]
    constructor
    · rintro ⟨⟨-, hlock⟩, -⟩
      exact hlock (releasedRow_isSome.mpr ⟨x, by
        simp [vRibConnectionRelease, Ribd.setConnection, AppConnection.zero]⟩)
    · intro hlock
      refine ⟨⟨hd.release hx, fun _ => hlock⟩, fun port hp => ⟨?_, fun _ => hlock⟩⟩
      exact (h port hp).1.release
  · obtain ⟨-, hstatus, hsame⟩ := hcases
    cases hout : out.fnRibOutput with
    | false =>
      refine iff_of_true ?_ rfl
      have hfail : o.xStatus ≠ .SUCCESS := by simp [hstatus, Outcomes.outputStatus, hout]
      simp only [ConnectionRun.after, hfail, and_false, if_false, hop, Option.some.injEq,
        reduceCtorEq, hsame]
      exact h
    | true =>
      refine iff_of_false (fun h' => ?_) (by simp)
      have hok : o.xStatus = .SUCCESS := by simp [hstatus, Outcomes.outputStatus, hout]
      have hun := (h' unPort (by simp [ConnectionRun.after, hrel, hok])).1
      simp only [ConnectionRun.after, hsame, unconnected_iff, hx] at hun
      cases hun

theorem ConnectionRun.EndsReleased.step_iff (hd : s.pxRibd.DistinctPorts) (h : s.EndsReleased)
    (hst : s.step c = some s') : s'.EndsReleased ↔ ReleasedAtOnce s c := by
  obtain ⟨o, hcall, rfl⟩ := ConnectionRun.step_eq_some.mp hst
  obtain ⟨call, out⟩ := c
  cases call with
  | incoming msg unPort =>
    by_cases hrel : s.pxRibd.Releases msg unPort
    · exact h.release hd hrel hcall
    · refine iff_of_true ?_ fun hrel' => absurd hrel' hrel
      have hsub : ∀ port ∈ (s.after (.incoming msg unPort) o).ended,
          port ∈ s.ended ∧ (msg.eOpCode = some .M_CONNECT → port ≠ unPort) := by
        intro port hp
        simp only [ConnectionRun.after, hrel, false_and, if_false] at hp
        split_ifs at hp with hop
        · simpa [hop] using hp
        · exact ⟨hp, fun hop' => absurd hop' hop⟩
      rcases xRibNormalIncoming_connections hcall with hsame | hchange
      · exact h.same hsame fun port hp => (hsub port hp).1
      · refine h.change (c := (.incoming msg unPort, out)) hchange (fun hop => ?_) hsub
        cases hchange with
        | release x hop' hid hrow => exact hrel ⟨hop', by rw [hrow]; rfl⟩
        | full hop' | connect x hop' | connected x hop' =>
          rw [hop] at hop'
          cases hop'
  | query obj eOpCode unPort info =>
    exact iff_of_true (h.same (xRibObjectQuery_connections hcall) fun _ hp => hp) trivial
  | reply eOpCode unPort unInvokeId =>
    obtain ⟨hl, -, rfl⟩ := xRibObjectReply_eq_ok.mp hcall
    exact iff_of_true (h.same (sameConnections_unlocked hl) fun _ hp => hp) trivial
  | objectAdd obj =>
    cases hcall
    exact iff_of_true (h.same (xRibObjectAdd_connections obj) fun _ hp => hp) trivial

/-- The RIB after a call which returns. -/
def Ribd.step (r : Ribd) (c : RibCall × Outcomes) : Option Ribd :=
  (r.call c.2 c.1).toOption.map (·.pxRibd)

/-- The row is not released and belongs to the port. -/
def Ribd.InUse (r : Ribd) (x : Fin APP_CONNECTION_TABLE_SIZE) (unPort : PortId) : Prop :=
  (r.xAppConnections x).xStatus ≠ .CONNECTION_RELEASED ∧ (r.xAppConnections x).unPort = unPort

theorem Ribd.distinctPorts_init (xDoLock : Bool) : (Ribd.init xDoLock).DistinctPorts := by
  intro x y unPort hx
  rw [AppConnection.live_iff] at hx
  exact absurd rfl hx.1

/-- A call keeps the rows of each port distinct. -/
theorem Ribd.DistinctPorts.call {c : RibCall} (h : r.DistinctPorts) (hcall : r.call out c = .ok o) :
    o.pxRibd.DistinctPorts := by
  rcases call_connections hcall with hsame | ⟨msg, unPort, -, hchange⟩
  · intro x y port
    simp only [hsame.connections]
    exact h x y port
  · exact h.change hchange

theorem Ribd.DistinctPorts.step {c : RibCall × Outcomes} (h : r.DistinctPorts)
    (hst : r.step c = some r') : r'.DistinctPorts := by
  obtain ⟨o, hcall, rfl⟩ := Exec.toOption_map_eq_some hst
  exact h.call hcall

theorem distinctPorts_step (hd : s.pxRibd.DistinctPorts) (hst : s.step c = some s') :
    s'.pxRibd.DistinctPorts := by
  obtain ⟨o, hcall, rfl⟩ := ConnectionRun.step_eq_some.mp hst
  exact hd.call hcall

/-- With distinct rows the search finds the row which is in use for the port. -/
theorem Ribd.DistinctPorts.find_iff (h : r.DistinctPorts) {unPort : PortId}
    {x : Fin APP_CONNECTION_TABLE_SIZE} :
    pxRibConnectionFind r unPort = some x ↔ r.InUse x unPort := by
  rw [Ribd.InUse, ← AppConnection.live_iff]
  constructor
  · exact pxRibConnectionFind_live
  · intro hx
    cases hfind : pxRibConnectionFind r unPort with
    | none =>
      rw [unconnected_iff.mpr hfind x] at hx
      cases hx
    | some y => rw [h x y unPort hx (pxRibConnectionFind_live hfind)]

/-- In every state that calls lead to, a port has at most one row in use, which is the one that
the search finds. -/
theorem connections_unique (xDoLock : Bool) {calls : List (RibCall × Outcomes)}
    (hrun : calls.foldlM Ribd.step (.init xDoLock) = some r) (unPort : PortId) :
    (∀ x y, r.InUse x unPort → r.InUse y unPort → x = y) ∧
      ∀ x, pxRibConnectionFind r unPort = some x ↔ r.InUse x unPort := by
  have hd : r.DistinctPorts := foldlM_preserves
    (fun (r : Ribd) _ _ (h : r.DistinctPorts) hst => h.step hst)
    (Ribd.distinctPorts_init xDoLock) hrun
  refine ⟨fun x y hx hy => ?_, fun x => hd.find_iff⟩
  exact hd x y unPort (AppConnection.live_iff.mpr hx) (AppConnection.live_iff.mpr hy)

/-- Two connects from port 1. -/
def connectTwice : List (RibCall × Outcomes) :=
  [(.incoming (exampleConnect 1) 1, .allWell), (.incoming (exampleConnect 2) 1, .allWell)]

theorem connections_unique_twice :
    ∃ r, connectTwice.foldlM Ribd.step (.init true) = some r ∧ r.InUse 0 1 ∧
      ∀ x, pxRibConnectionFind r 1 = some x ↔ r.InUse x 1 := by
  have hrun : connectTwice.foldlM Ribd.step (.init true) = some _ := rfl
  exact ⟨_, hrun, ⟨by decide, rfl⟩, (connections_unique true hrun 1).2⟩

/-- Throughout a run every released port is free for a connect if and only if every release
of a connected port ends its connection and finds the RIB unlocked, or is not answered. -/
theorem endsReleased_iff_releasedAtOnce (xDoLock : Bool) {calls : List (RibCall × Outcomes)}
    {s : ConnectionRun} (hrun : calls.foldlM ConnectionRun.step (.init xDoLock) = some s) :
    Throughout ConnectionRun.step ConnectionRun.EndsReleased (.init xDoLock) calls ↔
      GuardedSteps ConnectionRun.step ReleasedAtOnce (.init xDoLock) calls :=
  throughout_iff
    (fun (s : ConnectionRun) _ _ (hd : s.pxRibd.DistinctPorts) hst => distinctPorts_step hd hst)
    (fun _ _ _ hd h hst => ConnectionRun.EndsReleased.step_iff hd h hst)
    (fun _ _ _ h => by cases h) (fun _ hp => by cases hp) hrun

/-! ### A port which is connected and released -/

def exampleRelease (nInvokeID : InvokeId) : IncomingCdap :=
  { exampleConnect nInvokeID with eOpCode := some .M_RELEASE }

/-- A connect from port 1 and its release. -/
def connectAndRelease (nInvokeID : InvokeId) : List (RibCall × Outcomes) :=
  [(.incoming (exampleConnect 1) 1, .allWell),
    (.incoming (exampleRelease nInvokeID) 1, .allWell)]

/-- A port which is released without an invoke id and connects again. -/
theorem endsReleased_reconnect :
    Throughout ConnectionRun.step ConnectionRun.EndsReleased (.init true)
      (connectAndRelease 0 ++ connectAndRelease 0) :=
  (endsReleased_iff_releasedAtOnce true rfl).mpr (by decide)

/-- A release with an invoke id is handled successfully, the port stays connected, and its
next connect is refused although the table has free rows. -/
theorem release_with_id_stays :
    ∃ s, (connectAndRelease 2).foldlM ConnectionRun.step (.init true) = some s ∧
      s.ended = [1] ∧ ¬ s.pxRibd.Unconnected 1 ∧ s.pxRibd.releasedRow.isSome ∧
      ∃ o, xRibNormalIncoming .allWell s.pxRibd (exampleConnect 3) 1 = .ok o ∧
        o.xStatus = .ERR_RIB_CONNECTION_EXISTS :=
  ⟨_, rfl, rfl, fun h => absurd (h 0) (by decide), rfl, _, rfl, rfl⟩

end RinaSense.Rib
