import RinaSense.Library.Runs
import RinaSense.Rib.Connections
import RinaSense.Rib.QueryErrors
import RinaSense.SerDes.NeighborTrip

/-!
# Requests and the methods of the objects

The objects of the program with their methods for requests. The dispatcher looks the
connection of the port up for every message and leaves the check for its absence to the
methods, and the two which read it do not check.
-/

namespace RinaSense.Rib

open Common SerDes Library.Memory Library.Runs

/-! ### The objects -/

/-- The methods for requests which the objects have. -/
inductive RequestMethod
  | prvEnrollmentObjectStart
  | prvEnrollmentObjectStop
  | prvEnrollmentHandleOperationalStart
  | xFlowAllocatorHandleDelete
deriving DecidableEq, Repr

/-- Where the methods lie. -/
def RequestMethod.addr : RequestMethod → FnPtr
  | .prvEnrollmentObjectStart => 1
  | .prvEnrollmentObjectStop => 2
  | .prvEnrollmentHandleOperationalStart => 3
  | .xFlowAllocatorHandleDelete => 4

def prvEnrollmentObjectStopReplyAddr : FnPtr := 5

def prvEnrollmentObjectInitAddr : FnPtr := 6

/-- The method at an address. -/
def requestMethodAt : FnPtr → Option RequestMethod
  | 1 => some .prvEnrollmentObjectStart
  | 2 => some .prvEnrollmentObjectStop
  | 3 => some .prvEnrollmentHandleOperationalStart
  | 4 => some .xFlowAllocatorHandleDelete
  | _ => none

/-- An object without methods. -/
def RibObject.plain (ucObjName : CString) : RibObject where
  ucObjName := ucObjName
  fnStart := none
  fnStop := none
  fnCreate := none
  fnDelete := none
  fnRead := none
  fnWrite := none
  fnStartReply := none
  fnStopReply := none
  fnCreateReply := none
  fnDeleteReply := none
  fnReadReply := none
  fnWriteReply := none
  fnInit := none

/-- The name is `/difm/enr`. -/
def xEnrollmentRibObject : RibObject :=
  { RibObject.plain ⟨[47, 100, 105, 102, 109, 47, 101, 110, 114], by decide⟩ with
    fnStart := some RequestMethod.prvEnrollmentObjectStart.addr
    fnStop := some RequestMethod.prvEnrollmentObjectStop.addr
    fnStopReply := some prvEnrollmentObjectStopReplyAddr
    fnInit := some prvEnrollmentObjectInitAddr }

/-- The name is `/difm/enr/neighs`. -/
def xEnrollmentNeighborsObject : RibObject :=
  .plain ⟨[47, 100, 105, 102, 109, 47, 101, 110, 114, 47, 110, 101, 105, 103, 104, 115], by decide⟩

/-- The name is `/difm/ops`. -/
def xOperationalStatus : RibObject :=
  { RibObject.plain ⟨[47, 100, 105, 102, 109, 47, 111, 112, 115], by decide⟩ with
    fnStart := some RequestMethod.prvEnrollmentHandleOperationalStart.addr }

/-- The object of a flow. Its name lies on the stack of the function which adds it, so that it
can read as anything. -/
def flowRibObject (ucObjName : CString) : RibObject :=
  { RibObject.plain ucObjName with
    fnDelete := some RequestMethod.xFlowAllocatorHandleDelete.addr }

/-- The objects which the program adds. -/
inductive ProgramObject
  | xEnrollmentRibObject
  | xOperationalStatus
  | xEnrollmentNeighborsObject
  | flow (ucObjName : CString)
deriving DecidableEq

def ProgramObject.ribObject : ProgramObject → RibObject
  | .xEnrollmentRibObject => Rib.xEnrollmentRibObject
  | .xOperationalStatus => Rib.xOperationalStatus
  | .xEnrollmentNeighborsObject => Rib.xEnrollmentNeighborsObject
  | .flow ucObjName => flowRibObject ucObjName

/-! ### What the methods work on -/

def NEIGHBOR_TABLE_SIZE : ℕ := 5

structure NeighborInfo where
  /-- A copy which may have failed. -/
  pcApName : Option CString
  pcToken : Option CString
deriving DecidableEq

/-- The data block of the object of the enrollment. -/
structure EnrollmentObjectData where
  unPort : PortId
  unStartInvokeId : InvokeId
deriving DecidableEq

/-- A neighbor message as it comes from the heap, as far as nothing is written to it. -/
structure UnclearedNeighbor where
  ullAddress : UInt64
  unSupportingDifCount : ℕ
deriving DecidableEq

/-- The RIB with the data of the enrollment. -/
structure EnrollmentRib where
  pxRibd : Ribd
  pvPriv : Option EnrollmentObjectData
  /-- The neighbors in the valid rows. -/
  xNeighborsTable : Fin NEIGHBOR_TABLE_SIZE → Option NeighborInfo

def EnrollmentRib.init (xDoLock : Bool) : EnrollmentRib where
  pxRibd := .init xDoLock
  pvPriv := none
  xNeighborsTable := fun _ => none

/-- What the code outside the methods does for a call. -/
structure RequestOutcomes where
  pf : Platform
  pools : SerDesPools
  /-- The memory for the data block of the object. -/
  pvPriv : Option EnrollmentObjectData
  /-- The memory for the neighbor message. -/
  pxNeighborMsg : Option UnclearedNeighbor
  pthread_attr_init : Bool
  pthread_attr_setstacksize : Bool
  pthread_create : Bool
  out : Outcomes

/-! ### Neighbors -/

/-- The loop of `pxEnrollmentFindNeighbor` over the rows that are left. -/
def findNeighbor (pcRemoteApName : Option CString) :
    List (Option NeighborInfo) → Exec (Option NeighborInfo)
  | [] => .ok none
  | none :: rows => findNeighbor pcRemoteApName rows
  | some pxNeighbor :: rows => do
    let pcApName ← deref pxNeighbor.pcApName
    let remote ← deref pcRemoteApName
    if pcApName = remote then return some pxNeighbor else findNeighbor pcRemoteApName rows

def pxEnrollmentFindNeighbor (s : EnrollmentRib) (pcRemoteApName : Option CString) :
    Exec (Option NeighborInfo) :=
  findNeighbor pcRemoteApName (List.ofFn s.xNeighborsTable)

/-- A new neighbor goes to the first row which is not valid. -/
def xEnrollmentAddNeighborEntry (s : EnrollmentRib) (pxNeighbor : NeighborInfo) : EnrollmentRib :=
  match Fin.find? fun x => (s.xNeighborsTable x).isNone with
  | some x =>
    { s with xNeighborsTable := Function.update s.xNeighborsTable x (some pxNeighbor) }
  | none => s

def pxEnrollmentCreateNeighInfo (s : EnrollmentRib) (pcApName : Option CString) : EnrollmentRib :=
  xEnrollmentAddNeighborEntry s ⟨pcApName, none⟩

/-- `CFG_NORMAL_PROCESS_NAME`, ue1.mobile.DIF. -/
def CFG_NORMAL_PROCESS_NAME : CString :=
  ⟨[117, 101, 49, 46, 109, 111, 98, 105, 108, 101, 46, 68, 73, 70], by decide⟩

/-- `CFG_NORMAL_PROCESS_INSTANCE`, 1. -/
def CFG_NORMAL_PROCESS_INSTANCE : CString := ⟨[49], by decide⟩

/-- The message with the fields which are written. -/
def operationalNeighbor (pxNeighborMsg : UnclearedNeighbor) (pxNeighborInfo : NeighborInfo) :
    NeighborMessage where
  pcApName := some CFG_NORMAL_PROCESS_NAME
  pcApInstance := some CFG_NORMAL_PROCESS_INSTANCE
  pcAeName := some CFG_MANAGEMENT_AE
  pcAeInstance := pxNeighborInfo.pcToken
  ullAddress := pxNeighborMsg.ullAddress
  pcSupportingDifs := []

/-- The count of DIFs is not written. Their encoder comes behind the other fields, and there is
no DIF behind the message which it could read. -/
def encodeOperationalNeighbor (o : RequestOutcomes) (pxNeighborMsg : UnclearedNeighbor)
    (pxNeighborInfo : NeighborInfo) : Exec (Option Bytes) := do
  match ← xSerDesNeighborEncode o.pf o.pools (operationalNeighbor pxNeighborMsg pxNeighborInfo) with
  | none => return none
  | some buffer =>
    if pxNeighborMsg.unSupportingDifCount = 0 then return some buffer else .error .outOfBounds

/-! ### The methods -/

section Methods

variable (o : RequestOutcomes) (s : EnrollmentRib)
  (pxAppCon : Option (Fin APP_CONNECTION_TABLE_SIZE)) (pxMsg : IncomingCdap)

def prvEnrollmentObjectStart : Exec (RsErr × EnrollmentRib) := do
  let pxEnrollmentData ← deref s.pvPriv
  let x ← deref pxAppCon
  let pxEnrollmentData :=
    { pxEnrollmentData with
      unPort := (s.pxRibd.xAppConnections x).unPort
      unStartInvokeId := pxMsg.nInvokeID }
  let s := { s with pvPriv := some pxEnrollmentData }
  if !o.pthread_attr_init then return (.ERR_PTHREAD, s)
  else
    return (if o.pthread_attr_setstacksize && o.pthread_create then .SUCCESS else .ERR_PTHREAD, s)

/-- The rest of the method for a neighbor which was found. The memory for its message is used
without a check. -/
def answerNeighbor (row : AppConnection) (pxNeighborInfo : NeighborInfo) :
    Exec (RsErr × EnrollmentRib) := do
  let pxNeighborMsg ← deref o.pxNeighborMsg
  match ← encodeOperationalNeighbor o pxNeighborMsg pxNeighborInfo with
  | none => return (.FAIL, s)
  | some _ =>
    let reply ← xRibObjectReply o.out s.pxRibd .M_START_R row.unPort pxMsg.nInvokeID
    return (reply.xStatus, { s with pxRibd := reply.pxRibd })

def prvEnrollmentHandleOperationalStart : Exec (RsErr × EnrollmentRib) := do
  let x ← deref pxAppCon
  let row := s.pxRibd.xAppConnections x
  match ← pxEnrollmentFindNeighbor s row.xDestinationInfo.pcProcessName with
  | none => return (.ERR_RIB_NEIGHBOR_NOT_FOUND, s)
  | some pxNeighborInfo => answerNeighbor o s pxMsg row pxNeighborInfo

/-- A call of a method by its address. -/
def xRibObjCb (fn : FnPtr) : Exec (RsErr × EnrollmentRib) :=
  match requestMethodAt fn with
  | some .prvEnrollmentObjectStart => prvEnrollmentObjectStart o s pxAppCon pxMsg
  | some .prvEnrollmentObjectStop => .ok (.FAIL, s)
  | some .prvEnrollmentHandleOperationalStart =>
    prvEnrollmentHandleOperationalStart o s pxAppCon pxMsg
  | some .xFlowAllocatorHandleDelete => .ok (.FAIL, s)
  | none => .error .abort

/-- `prvRibHandleAnyRequest` with the methods. -/
def EnrollmentRib.prvRibHandleAnyRequest (eOpCode : OpCode) : Exec (RsErr × EnrollmentRib) := do
  match ← pxRibObjectFind s.pxRibd (some pxMsg.pcObjName) with
  | none => return (.ERR_RIB_OBJECT_UNSUPPORTED, s)
  | some pxRibObj =>
    match ← xRibGetObjectMethod pxRibObj eOpCode with
    | none => return (.ERR_RIB_OBJECT_UNSUP_METHOD, s)
    | some fn => xRibObjCb o s pxAppCon pxMsg fn

end Methods

/-! ### Runs -/

/-- The operations of a request. -/
def IncomingCdap.request (pxMsg : IncomingCdap) : Option OpCode :=
  match pxMsg.eOpCode with
  | some .M_CREATE => some .M_CREATE
  | some .M_DELETE => some .M_DELETE
  | some .M_READ => some .M_READ
  | some .M_WRITE => some .M_WRITE
  | some .M_START => some .M_START
  | some .M_STOP => some .M_STOP
  | _ => none

/-- A call of an entry point, or a neighbor which is found. -/
inductive EnrollmentCall
  | query (pxRibObj : RibObject) (eOpCode : OpCode) (unPort : PortId)
      (xRibQueryTypeInfo : RibQueryTypeInfo)
  | reply (eOpCode : OpCode) (unPort : PortId) (unInvokeId : InvokeId)
  | objectAdd (pxRibObject : ProgramObject)
  | incoming (pxDecodeCdap : IncomingCdap) (unPort : PortId)
  | createNeighInfo (pcApName : Option CString)
deriving DecidableEq

namespace EnrollmentRib

variable (s : EnrollmentRib) (o : RequestOutcomes)

/-- The object of the enrollment gets its data block when it is put into the table. -/
def xRibObjectAdd (pxRibObject : RibObject) : EnrollmentRib :=
  let out := { o.out with fnInit := if o.pvPriv.isSome then .SUCCESS else .FAIL }
  { s with
    pxRibd := (Rib.xRibObjectAdd out s.pxRibd pxRibObject).pxRibd
    pvPriv :=
      if pxRibObject.fnInit = some prvEnrollmentObjectInitAddr ∧
          ∃ x, s.pxRibd.pxRibObjects x = none then o.pvPriv
      else s.pvPriv }

/-- A call which leaves the data of the enrollment alone. -/
def ribCall (c : RibCall) : Exec EnrollmentRib := do
  let r ← s.pxRibd.call o.out c
  return { s with pxRibd := r.pxRibd }

def incoming (pxMsg : IncomingCdap) (unPort : PortId) : Exec EnrollmentRib :=
  match pxMsg.request with
  | some eOpCode => do
    let (_, s) ← s.prvRibHandleAnyRequest o (pxRibConnectionFind s.pxRibd unPort) pxMsg eOpCode
    return s
  | none => s.ribCall o (.incoming pxMsg unPort)

def call : EnrollmentCall → Exec EnrollmentRib
  | .query pxRibObj eOpCode unPort info => s.ribCall o (.query pxRibObj eOpCode unPort info)
  | .reply eOpCode unPort unInvokeId => s.ribCall o (.reply eOpCode unPort unInvokeId)
  | .objectAdd pxRibObject => .ok (s.xRibObjectAdd o pxRibObject.ribObject)
  | .incoming pxMsg unPort => s.incoming o pxMsg unPort
  | .createNeighInfo pcApName => .ok (pxEnrollmentCreateNeighInfo s pcApName)

end EnrollmentRib

/-- The RIB after a call which returns. -/
def EnrollmentRib.step (s : EnrollmentRib) (c : EnrollmentCall × RequestOutcomes) :
    Option EnrollmentRib :=
  (s.call c.2 c.1).toOption

/-- The handler of a request returns. -/
def EnrollmentRib.Completes (s : EnrollmentRib) (c : EnrollmentCall × RequestOutcomes) : Prop :=
  ∀ msg unPort eOpCode, c.1 = .incoming msg unPort → msg.request = some eOpCode →
    ∃ status s', s.prvRibHandleAnyRequest c.2 (pxRibConnectionFind s.pxRibd unPort) msg eOpCode =
      .ok (status, s')

/-- The rows which are compared with the name have one, and so has the message. -/
structure Searchable (pcRemoteApName : Option CString) (rows : List (Option NeighborInfo)) :
    Prop where
  remote : ∀ n, some n ∈ rows → pcRemoteApName.isSome
  named : ∀ pre n post, rows = pre ++ some n :: post → n.pcApName = none →
    ∃ m, some m ∈ pre ∧ m.pcApName = pcRemoteApName

/-- The neighbor is answered: its message is made and encoded without DIFs, and the reply finds
the RIB unlocked. A pool which is empty only aborts where it is no heap. -/
def RequestOutcomes.Answers (o : RequestOutcomes) (r : Ribd) : Prop :=
  ∃ pxNeighborMsg, o.pxNeighborMsg = some pxNeighborMsg ∧
    if o.pools.encPool then
      pxNeighborMsg.unSupportingDifCount = 0 ∧ (r.xDoLock && r.xMutex) = false ∧
        o.out.xMsgPool = true
    else o.pf.valgrind = true

/-- What M_START needs on the operational status, on a connection. -/
structure EnrollmentRib.Answerable (s : EnrollmentRib) (o : RequestOutcomes)
    (x : Fin APP_CONNECTION_TABLE_SIZE) : Prop where
  searchable : Searchable (s.pxRibd.xAppConnections x).xDestinationInfo.pcProcessName
    (List.ofFn s.xNeighborsTable)
  answers : (∃ n, some n ∈ List.ofFn s.xNeighborsTable ∧
      n.pcApName = (s.pxRibd.xAppConnections x).xDestinationInfo.pcProcessName) →
    o.Answers s.pxRibd

/-- An M_START on the object of the enrollment comes on a connected port when the object has
its data block, and one on the operational status comes on a connected port whose neighbor can
be searched and answered. -/
def EnrollmentRib.Ready (s : EnrollmentRib) (c : EnrollmentCall × RequestOutcomes) : Prop :=
  ∀ msg unPort, c.1 = .incoming msg unPort → msg.request = some .M_START →
    (pxRibObjectFind s.pxRibd (some msg.pcObjName) = .ok (some xEnrollmentRibObject) →
      s.pvPriv.isSome ∧ ¬ s.pxRibd.Unconnected unPort) ∧
    (pxRibObjectFind s.pxRibd (some msg.pcObjName) = .ok (some xOperationalStatus) →
      ∃ x, pxRibConnectionFind s.pxRibd unPort = some x ∧ s.Answerable c.2 x)

/-- Every object is one of the program, and no neighbor has a token. -/
structure EnrollmentRib.Registered (s : EnrollmentRib) : Prop where
  objects : ∀ x obj, s.pxRibd.pxRibObjects x = some obj → ∃ p : ProgramObject, p.ribObject = obj
  tokens : ∀ x n, s.xNeighborsTable x = some n → n.pcToken = none

/-! ### What the calls keep -/

section Calls

variable {r : Ribd} {out : Outcomes} {p : RibOut} {msg : IncomingCdap} {unPort : PortId}

theorem xRibObjectQuery_objects {obj : RibObject} {eOpCode : OpCode} {info : RibQueryTypeInfo}
    (h : xRibObjectQuery out r obj eOpCode unPort info = .ok p) :
    p.pxRibd.pxRibObjects = r.pxRibObjects := by
  rcases xRibObjectQuery_changes h with hr | ⟨x, row, hr⟩
  · rw [hr]
    rfl
  · rw [hr]
    rfl

theorem xRibObjectReply_same {eOpCode : OpCode} {unInvokeId : InvokeId}
    (h : xRibObjectReply out r eOpCode unPort unInvokeId = .ok p) : p.pxRibd = r := by
  obtain ⟨hl, -, rfl⟩ := xRibObjectReply_eq_ok.mp h
  exact vRibUnlock_locked hl

theorem prvRibHandleConnect_objects {x : Option (Fin APP_CONNECTION_TABLE_SIZE)}
    (h : prvRibHandleConnect out r unPort x msg = .ok p) :
    p.pxRibd.pxRibObjects = r.pxRibObjects := by
  cases x with
  | some x => rw [prvRibHandleConnect_known h]
  | none =>
    have hnew := prvRibHandleConnect_new h
    cases hrow : r.releasedRow with
    | none =>
      rw [hrow] at hnew
      rw [hnew.2]
      rfl
    | some x =>
      rw [hrow] at hnew
      rw [hnew]
      rfl

theorem prvRibHandleRelease_objects
    (h : prvRibHandleRelease out r unPort (pxRibConnectionFind r unPort) msg = .ok p) :
    p.pxRibd.pxRibObjects = r.pxRibObjects := by
  cases hfind : pxRibConnectionFind r unPort with
  | none =>
    rw [hfind] at h
    cases h
    rfl
  | some x =>
    rw [hfind] at h
    have hcases :=
      prvRibHandleRelease_cases (AppConnection.live_iff.mp (pxRibConnectionFind_live hfind)).1 h
    split_ifs at hcases
    · rw [hcases]
      rfl
    · rw [hcases.2.2]

theorem prvRibHandleAnyReply_objects {eOpCode : OpCode} (hop : msg.eOpCode = some eOpCode)
    (h : prvRibHandleAnyReply out r eOpCode msg = .ok p) :
    p.pxRibd.pxRibObjects = r.pxRibObjects := by
  have hspec := prvRibHandleAnyReply_eq_ok hop h
  cases hrow : r.acceptingRow out msg with
  | none =>
    rw [hrow] at hspec
    obtain ⟨xStatus, rfl⟩ := hspec
    rfl
  | some x =>
    rw [hrow] at hspec
    obtain ⟨-, -, xStatus, resp, pxResp, rfl⟩ := hspec
    rfl

/-- A message which is no request does not change the objects. -/
theorem xRibNormalIncoming_objects (hreq : msg.request = none)
    (h : xRibNormalIncoming out r msg unPort = .ok p) :
    p.pxRibd.pxRibObjects = r.pxRibObjects := by
  unfold xRibNormalIncoming at h
  cases hop : msg.eOpCode with
  | none => simp [hop] at h
  | some eOpCode =>
    simp only [hop] at h
    simp only [IncomingCdap.request, hop] at hreq
    cases eOpCode with
    | M_CONNECT => exact prvRibHandleConnect_objects h
    | M_RELEASE => exact prvRibHandleRelease_objects h
    | M_CONNECT_R =>
      cases h
      unfold prvRibHandleConnectReply
      split
      · rfl
      · split_ifs <;> rfl
    | M_RELEASE_R =>
      cases h
      unfold prvRibHandleReleaseReply
      split
      · rfl
      · split_ifs <;> rfl
    | M_CREATE | M_DELETE | M_READ | M_WRITE | M_START | M_STOP => cases hreq
    | M_CREATE_R | M_DELETE_R | M_READ_R | M_WRITE_R | M_START_R | M_STOP_R =>
      exact prvRibHandleAnyReply_objects hop h
    | M_CANCELREAD | M_CANCELREAD_R =>
      cases h
      rfl

end Calls

/-! ### The methods in full -/

variable {s s' : EnrollmentRib} {o : RequestOutcomes} {msg : IncomingCdap} {unPort : PortId}
  {status : RsErr}

theorem searchable_none {name : Option CString} {rows : List (Option NeighborInfo)} :
    Searchable name (none :: rows) ↔ Searchable name rows := by
  constructor
  · rintro ⟨hremote, hnamed⟩
    refine ⟨fun n hn => hremote n (List.mem_cons_of_mem _ hn), fun pre n post hsplit hn => ?_⟩
    obtain ⟨m, hm, heq⟩ := hnamed (none :: pre) n post (by rw [hsplit]; rfl) hn
    have hmem : some m ∈ pre := by simpa using hm
    exact ⟨m, hmem, heq⟩
  · rintro ⟨hremote, hnamed⟩
    refine ⟨fun n hn => hremote n (by simpa using hn), fun pre n post hsplit hn => ?_⟩
    cases pre with
    | nil => cases hsplit
    | cons row pre =>
      obtain ⟨rfl, hrows⟩ := List.cons.inj hsplit
      obtain ⟨m, hm, heq⟩ := hnamed pre n post hrows hn
      exact ⟨m, List.mem_cons_of_mem _ hm, heq⟩

/-- The first valid row is compared, and the others if it has another name. -/
theorem searchable_some {name : Option CString} {n : NeighborInfo}
    {rows : List (Option NeighborInfo)} :
    Searchable name (some n :: rows) ↔
      name.isSome ∧ n.pcApName.isSome ∧ (n.pcApName ≠ name → Searchable name rows) := by
  constructor
  · rintro ⟨hremote, hnamed⟩
    refine ⟨hremote n (List.mem_cons_self ..), ?_, fun hne => ⟨fun m hm => ?_, ?_⟩⟩
    · rw [Option.isSome_iff_ne_none]
      intro hn
      obtain ⟨m, hm, -⟩ := hnamed [] n rows rfl hn
      cases hm
    · exact hremote m (List.mem_cons_of_mem _ hm)
    · intro pre m post hsplit hm
      obtain ⟨k, hk, heq⟩ := hnamed (some n :: pre) m post (by rw [hsplit]; rfl) hm
      rcases List.mem_cons.mp hk with hk | hk
      · cases hk
        exact absurd heq hne
      · exact ⟨k, hk, heq⟩
  · rintro ⟨hname, hn, hrest⟩
    refine ⟨fun _ _ => hname, fun pre m post hsplit hm => ?_⟩
    cases pre with
    | nil =>
      cases hsplit
      rw [hm] at hn
      cases hn
    | cons row pre =>
      obtain ⟨rfl, hrows⟩ := List.cons.inj hsplit
      by_cases hne : n.pcApName = name
      · exact ⟨n, List.mem_cons_self .., hne⟩
      · obtain ⟨k, hk, heq⟩ := (hrest hne).named pre m post hrows hm
        exact ⟨k, List.mem_cons_of_mem _ hk, heq⟩

/-- The neighbor in the first valid row of the name. -/
def firstNamed (name : Option CString) (rows : List (Option NeighborInfo)) :
    Option NeighborInfo :=
  rows.findSome? fun row => row.filter fun n => n.pcApName = name

theorem firstNamed_mem {name : Option CString} {rows : List (Option NeighborInfo)}
    {n : NeighborInfo} (h : firstNamed name rows = some n) :
    some n ∈ rows ∧ n.pcApName = name := by
  obtain ⟨row, hrow, hfilter⟩ := List.exists_of_findSome?_eq_some h
  obtain ⟨hsome, hname⟩ := Option.filter_eq_some_iff.mp hfilter
  rw [hsome] at hrow
  exact ⟨hrow, by simpa using hname⟩

theorem firstNamed_eq_none {name : Option CString} {rows : List (Option NeighborInfo)} :
    firstNamed name rows = none ↔ ¬ ∃ n, some n ∈ rows ∧ n.pcApName = name := by
  simp only [firstNamed, List.findSome?_eq_none_iff, Option.filter_eq_none_iff]
  constructor
  · rintro h ⟨n, hn, hname⟩
    exact h (some n) hn n rfl (decide_eq_true hname)
  · intro h row hrow n hsome hname
    rw [hsome] at hrow
    exact h ⟨n, hrow, of_decide_eq_true hname⟩

/-- The search returns exactly when every comparison has both its strings. -/
theorem findNeighbor_eq_ok {name : Option CString} {rows : List (Option NeighborInfo)}
    {res : Option NeighborInfo} :
    findNeighbor name rows = .ok res ↔ Searchable name rows ∧ res = firstNamed name rows := by
  unfold firstNamed
  induction rows with
  | nil =>
    have hempty : Searchable name [] := ⟨by simp, by simp⟩
    simp [findNeighbor, hempty, eq_comm]
  | cons row rows ih =>
    cases row with
    | none =>
      rw [searchable_none, findNeighbor, ih]
      rfl
    | some n =>
      rw [searchable_some, findNeighbor, List.findSome?_cons]
      cases hn : n.pcApName with
      | none => simp
      | some a =>
        cases name with
        | none => simp
        | some b =>
          by_cases hab : a = b
          · simp [hab, hn, Option.filter, pure, Except.pure, eq_comm]
          · simp [hab, hn, Option.filter, ih]

/-- A neighbor without a token is encoded, if there is room. -/
theorem xSerDesNeighborEncode_operational (pf : Platform) (pools : SerDesPools)
    (msg : UnclearedNeighbor) {n : NeighborInfo} (hn : n.pcToken = none) :
    xSerDesNeighborEncode pf pools (operationalNeighbor msg n) =
      if pools.encPool then
        .ok (some (wires (neighborRecords (operationalNeighbor msg n))))
      else if pf.valgrind then .ok none else .error .abort := by
  cases henc : pools.encPool with
  | true =>
    have hclosed : (operationalNeighbor ⟨0, 0⟩ ⟨none, none⟩).Fits := by decide
    have hfits : (operationalNeighbor msg n).Fits := by
      rw [operationalNeighbor, hn]
      exact hclosed
    have hsize : neighborSize (operationalNeighbor msg n) ≤ ENROLLMENT_MSG_SIZE := by
      have hclosed : neighborSize (operationalNeighbor ⟨0, 0⟩ ⟨none, none⟩) ≤ 1500 := by decide
      rw [operationalNeighbor, hn]
      exact hclosed
    exact (xSerDesNeighborEncode_eq_some pf pools hfits).mpr ⟨henc, hsize, rfl⟩
  | false =>
    simp only [xSerDesNeighborEncode, henc, outOfMemory]
    cases pf.valgrind <;> rfl

theorem encodeOperationalNeighbor_returns (msg : UnclearedNeighbor) {n : NeighborInfo}
    (hn : n.pcToken = none) :
    (∃ buf, encodeOperationalNeighbor o msg n = .ok buf) ↔
      if o.pools.encPool then msg.unSupportingDifCount = 0 else o.pf.valgrind = true := by
  rw [encodeOperationalNeighbor, xSerDesNeighborEncode_operational o.pf o.pools msg hn]
  cases o.pools.encPool with
  | true =>
    by_cases hcount : msg.unSupportingDifCount = 0
    · simp [hcount]
      exact ⟨_, rfl⟩
    · simp [hcount]
  | false =>
    cases o.pf.valgrind with
    | true => exact iff_of_true ⟨none, rfl⟩ rfl
    | false => simp

theorem encodeOperationalNeighbor_isSome {msg : UnclearedNeighbor} {n : NeighborInfo}
    (hn : n.pcToken = none) {buf : Option Bytes}
    (h : encodeOperationalNeighbor o msg n = .ok buf) : buf.isSome = o.pools.encPool := by
  rw [encodeOperationalNeighbor, xSerDesNeighborEncode_operational o.pf o.pools msg hn] at h
  cases henc : o.pools.encPool with
  | true =>
    by_cases hcount : msg.unSupportingDifCount = 0
    · simp [henc, hcount] at h
      cases h
      rfl
    · simp [henc, hcount] at h
  | false =>
    cases hv : o.pf.valgrind with
    | true =>
      simp [henc, hv] at h
      cases h
      rfl
    | false => simp [henc, hv] at h

theorem prvEnrollmentObjectStart_returns {x : Option (Fin APP_CONNECTION_TABLE_SIZE)} :
    (∃ status s', prvEnrollmentObjectStart o s x msg = .ok (status, s')) ↔
      s.pvPriv.isSome ∧ x.isSome := by
  unfold prvEnrollmentObjectStart
  cases s.pvPriv with
  | none => simp
  | some data =>
    cases x with
    | none => simp
    | some x =>
      refine iff_of_true ?_ ⟨rfl, rfl⟩
      cases o.pthread_attr_init with
      | false => exact ⟨_, _, rfl⟩
      | true => exact ⟨_, _, rfl⟩

theorem answerNeighbor_returns {row : AppConnection} {n : NeighborInfo} (hn : n.pcToken = none) :
    (∃ status s', answerNeighbor o s msg row n = .ok (status, s')) ↔ o.Answers s.pxRibd := by
  unfold answerNeighbor RequestOutcomes.Answers
  cases o.pxNeighborMsg with
  | none => simp
  | some neighborMsg =>
    have hreturns := encodeOperationalNeighbor_returns (o := o) neighborMsg hn
    simp only [deref_some, Exec.ok_bind, Option.some.injEq, exists_eq_left']
    constructor
    · rintro ⟨status, s', h⟩
      obtain ⟨buf, hbuf, h⟩ := Exec.bind_eq_ok.mp h
      have hsome := encodeOperationalNeighbor_isSome hn hbuf
      have hok := hreturns.mp ⟨buf, hbuf⟩
      cases buf with
      | none =>
        rw [← hsome] at hok ⊢
        exact hok
      | some buf =>
        rw [← hsome] at hok ⊢
        obtain ⟨reply, hreply, -⟩ := Exec.bind_eq_ok.mp h
        obtain ⟨hl, hp, -⟩ := xRibObjectReply_eq_ok.mp hreply
        exact ⟨hok, hl, hp⟩
    · intro h
      have hok : if o.pools.encPool then neighborMsg.unSupportingDifCount = 0
          else o.pf.valgrind = true := by
        split_ifs at h ⊢
        · exact h.1
        · exact h
      obtain ⟨buf, hbuf⟩ := hreturns.mpr hok
      have hsome := encodeOperationalNeighbor_isSome hn hbuf
      rw [hbuf, Exec.ok_bind]
      cases buf with
      | none => exact ⟨_, _, rfl⟩
      | some buf =>
        rw [← hsome] at h
        have hreply : ∃ reply,
            xRibObjectReply o.out s.pxRibd .M_START_R row.unPort msg.nInvokeID = .ok reply :=
          ⟨_, xRibObjectReply_eq_ok.mpr ⟨h.2.1, h.2.2, rfl⟩⟩
        obtain ⟨reply, hreply⟩ := hreply
        simp only [hreply, Exec.ok_bind]
        exact ⟨_, _, rfl⟩

theorem prvEnrollmentHandleOperationalStart_returns (hs : s.Registered)
    {x : Option (Fin APP_CONNECTION_TABLE_SIZE)} :
    (∃ status s', prvEnrollmentHandleOperationalStart o s x msg = .ok (status, s')) ↔
      ∃ y, x = some y ∧ s.Answerable o y := by
  unfold prvEnrollmentHandleOperationalStart
  cases x with
  | none => simp
  | some x =>
    simp only [deref_some, Exec.ok_bind, Option.some.injEq, exists_eq_left']
    have htoken : ∀ n, some n ∈ List.ofFn s.xNeighborsTable → n.pcToken = none := by
      intro n hn
      obtain ⟨y, hy⟩ := List.mem_ofFn.mp hn
      exact hs.tokens y n hy
    constructor
    · rintro ⟨status, s', h⟩
      obtain ⟨res, hfind, h⟩ := Exec.bind_eq_ok.mp h
      obtain ⟨hsearch, rfl⟩ := findNeighbor_eq_ok.mp hfind
      refine ⟨hsearch, fun hknown => ?_⟩
      cases hn : firstNamed (s.pxRibd.xAppConnections x).xDestinationInfo.pcProcessName
          (List.ofFn s.xNeighborsTable) with
      | none => exact absurd hknown (firstNamed_eq_none.mp hn)
      | some n =>
        rw [hn] at h
        exact (answerNeighbor_returns (htoken n (firstNamed_mem hn).1)).mp ⟨status, s', h⟩
    · rintro ⟨hsearch, hanswers⟩
      have hfind := findNeighbor_eq_ok.mpr ⟨hsearch, rfl⟩
      rw [pxEnrollmentFindNeighbor, hfind, Exec.ok_bind]
      cases hn : firstNamed (s.pxRibd.xAppConnections x).xDestinationInfo.pcProcessName
          (List.ofFn s.xNeighborsTable) with
      | none => exact ⟨_, _, rfl⟩
      | some n =>
        have hmem := firstNamed_mem hn
        exact (answerNeighbor_returns (htoken n hmem.1)).mpr (hanswers ⟨n, hmem⟩)

/-! ### Requests -/

theorem pxRibObjectFind_program (hs : s.Registered) {name : Option CString}
    {obj : RibObject} (h : pxRibObjectFind s.pxRibd name = .ok (some obj)) :
    ∃ p : ProgramObject, p.ribObject = obj := by
  unfold pxRibObjectFind at h
  split at h
  · cases h
  · obtain ⟨a, -, h⟩ := Exec.bind_eq_ok.mp h
    have hfind := Except.ok.inj h
    obtain ⟨x, hx⟩ := Fin.exists_eq_some_of_findSome?_eq_some hfind
    cases hobj : s.pxRibd.pxRibObjects x with
    | none => simp [hobj] at hx
    | some obj' =>
      simp only [hobj, Option.ite_none_right_eq_some, Option.some.injEq] at hx
      rw [hx.2] at hobj
      exact hs.objects x obj hobj

theorem pxRibObjectFind_returns (r : Ribd) (name : CString) :
    ∃ found, pxRibObjectFind r (some name) = .ok found := by
  unfold pxRibObjectFind
  split
  · exact ⟨none, rfl⟩
  · exact ⟨_, rfl⟩

theorem IncomingCdap.request_cases {eOpCode : OpCode} (h : msg.request = some eOpCode) :
    eOpCode ∈ [OpCode.M_CREATE, .M_DELETE, .M_READ, .M_WRITE, .M_START, .M_STOP] := by
  unfold IncomingCdap.request at h
  split at h <;> cases h <;> decide

/-- What is not a start fails or is not supported. -/
theorem ProgramObject.method_fails (p : ProgramObject) {eOpCode : OpCode}
    (hreq : msg.request = some eOpCode) (hstart : eOpCode ≠ .M_START) :
    ∃ method, xRibGetObjectMethod p.ribObject eOpCode = .ok method ∧
      ∀ fn, method = some fn → ∀ s o x, xRibObjCb o s x msg fn = .ok (.FAIL, s) := by
  have hop := IncomingCdap.request_cases hreq
  simp only [List.mem_cons, List.not_mem_nil, or_false] at hop
  rcases hop with rfl | rfl | rfl | rfl | rfl | rfl
  all_goals first | exact absurd rfl hstart | skip
  all_goals
    refine ⟨_, rfl, fun fn hfn => ?_⟩
    cases p <;> cases hfn <;> (intros; rfl)

/-- A request is dispatched to a method which returns, unless it is an M_START on one of two
objects. -/
theorem EnrollmentRib.request_returns (hs : s.Registered) {eOpCode : OpCode}
    (hreq : msg.request = some eOpCode) {x : Option (Fin APP_CONNECTION_TABLE_SIZE)} :
    (∃ status s', s.prvRibHandleAnyRequest o x msg eOpCode = .ok (status, s')) ↔
      (eOpCode = .M_START →
        (pxRibObjectFind s.pxRibd (some msg.pcObjName) = .ok (some xEnrollmentRibObject) →
          s.pvPriv.isSome ∧ x.isSome) ∧
        (pxRibObjectFind s.pxRibd (some msg.pcObjName) = .ok (some xOperationalStatus) →
          ∃ y, x = some y ∧ s.Answerable o y)) := by
  obtain ⟨found, hfound⟩ := pxRibObjectFind_returns s.pxRibd msg.pcObjName
  rw [EnrollmentRib.prvRibHandleAnyRequest, hfound, Exec.ok_bind]
  cases found with
  | none => exact iff_of_true ⟨_, _, rfl⟩ (by simp)
  | some obj =>
    obtain ⟨p, rfl⟩ := pxRibObjectFind_program hs hfound
    by_cases hstart : eOpCode = .M_START
    · subst hstart
      have hne : Rib.xOperationalStatus ≠ Rib.xEnrollmentRibObject := by decide
      simp only [forall_const, Except.ok.injEq, Option.some.injEq]
      cases p with
      | xEnrollmentRibObject =>
        have hstarts : (∃ status s', prvEnrollmentObjectStart o s x msg = .ok (status, s')) ↔ _ :=
          prvEnrollmentObjectStart_returns
        simp only [ProgramObject.ribObject, hne.symm, false_implies, and_true, forall_const]
        exact hstarts
      | xOperationalStatus =>
        simp only [ProgramObject.ribObject, hne, false_implies, true_and, forall_const]
        exact prvEnrollmentHandleOperationalStart_returns hs
      | xEnrollmentNeighborsObject =>
        refine iff_of_true ⟨_, _, rfl⟩ ⟨fun h => ?_, fun h => ?_⟩
        · exact absurd h (by decide)
        · exact absurd h (by decide)
      | flow name =>
        refine iff_of_true ⟨_, _, rfl⟩ ⟨fun h => ?_, fun h => ?_⟩
        · cases congrArg RibObject.fnDelete h
        · cases congrArg RibObject.fnDelete h
    · refine iff_of_true ?_ fun h => absurd h hstart
      obtain ⟨method, hmethod, hfails⟩ := p.method_fails hreq hstart
      simp only [hmethod, Exec.ok_bind]
      cases method with
      | none => exact ⟨_, _, rfl⟩
      | some fn => exact ⟨_, _, hfails fn rfl s o x⟩

theorem EnrollmentRib.completes_iff_ready (hs : s.Registered)
    (c : EnrollmentCall × RequestOutcomes) : s.Completes c ↔ s.Ready c := by
  have hconnected : ∀ unPort, ¬ s.pxRibd.Unconnected unPort ↔
      (pxRibConnectionFind s.pxRibd unPort).isSome := by
    intro unPort
    rw [unconnected_iff, ← ne_eq, Option.isSome_iff_ne_none]
  constructor
  · intro h msg unPort hc hreq
    have hready := (request_returns hs hreq).mp (h msg unPort .M_START hc hreq) rfl
    rw [hconnected]
    exact hready
  · intro h msg unPort eOpCode hc hreq
    apply (request_returns hs hreq).mpr
    rintro rfl
    have hready := h msg unPort hc hreq
    rw [hconnected] at hready
    exact hready

/-! ### The invariant -/

theorem EnrollmentRib.registered_init (xDoLock : Bool) : (init xDoLock).Registered where
  objects x obj h := by cases h
  tokens x n h := by cases h

/-- The methods leave the RIB and the neighbors as they are. -/
theorem xRibObjCb_keeps {x : Option (Fin APP_CONNECTION_TABLE_SIZE)} {fn : FnPtr}
    (h : xRibObjCb o s x msg fn = .ok (status, s')) :
    s'.pxRibd = s.pxRibd ∧ s'.xNeighborsTable = s.xNeighborsTable := by
  unfold xRibObjCb at h
  split at h
  · obtain ⟨data, -, h⟩ := Exec.bind_eq_ok.mp h
    obtain ⟨y, -, h⟩ := Exec.bind_eq_ok.mp h
    dsimp only at h
    split at h
    · cases h
      exact ⟨rfl, rfl⟩
    · cases h
      exact ⟨rfl, rfl⟩
  · cases h
    exact ⟨rfl, rfl⟩
  · obtain ⟨y, -, h⟩ := Exec.bind_eq_ok.mp h
    obtain ⟨res, -, h⟩ := Exec.bind_eq_ok.mp h
    cases res with
    | none =>
      cases h
      exact ⟨rfl, rfl⟩
    | some n =>
      obtain ⟨neighborMsg, -, h⟩ := Exec.bind_eq_ok.mp h
      obtain ⟨buf, -, h⟩ := Exec.bind_eq_ok.mp h
      cases buf with
      | none =>
        cases h
        exact ⟨rfl, rfl⟩
      | some buf =>
        obtain ⟨reply, hreply, h⟩ := Exec.bind_eq_ok.mp h
        cases h
        exact ⟨xRibObjectReply_same hreply, rfl⟩
  · cases h
    exact ⟨rfl, rfl⟩
  · cases h

/-- A request which returns has its status from its method, and changes nothing else. -/
theorem EnrollmentRib.prvRibHandleAnyRequest_refines
    {x : Option (Fin APP_CONNECTION_TABLE_SIZE)} {eOpCode : OpCode}
    (h : s.prvRibHandleAnyRequest o x msg eOpCode = .ok (status, s')) :
    Rib.prvRibHandleAnyRequest { o.out with requestMethod := status } s.pxRibd eOpCode msg =
        .ok { xStatus := status, pxRibd := s.pxRibd } ∧
      s'.pxRibd = s.pxRibd ∧ s'.xNeighborsTable = s.xNeighborsTable := by
  unfold EnrollmentRib.prvRibHandleAnyRequest at h
  unfold Rib.prvRibHandleAnyRequest
  obtain ⟨found, hfound, h⟩ := Exec.bind_eq_ok.mp h
  rw [hfound, Exec.ok_bind]
  cases found with
  | none =>
    cases h
    exact ⟨rfl, rfl, rfl⟩
  | some obj =>
    obtain ⟨method, hmethod, h⟩ := Exec.bind_eq_ok.mp h
    simp only [hmethod, Exec.ok_bind]
    cases method with
    | none =>
      cases h
      exact ⟨rfl, rfl, rfl⟩
    | some fn => exact ⟨rfl, xRibObjCb_keeps h⟩

theorem EnrollmentRib.Registered.same (hs : s.Registered)
    (hobjs : s'.pxRibd.pxRibObjects = s.pxRibd.pxRibObjects)
    (hrows : s'.xNeighborsTable = s.xNeighborsTable) : s'.Registered where
  objects x obj h := hs.objects x obj (by rw [← hobjs]; exact h)
  tokens x n h := hs.tokens x n (by rw [← hrows]; exact h)

theorem EnrollmentRib.Registered.xRibObjectAdd (hs : s.Registered) (p : ProgramObject) :
    (s.xRibObjectAdd o p.ribObject).Registered where
  objects x obj h := by
    unfold EnrollmentRib.xRibObjectAdd Rib.xRibObjectAdd at h
    dsimp only at h
    split at h
    · rename_i y _
      dsimp only at h
      rw [Function.update_apply] at h
      split_ifs at h
      · exact ⟨p, Option.some.inj h⟩
      · exact hs.objects x obj h
    · exact hs.objects x obj h
  tokens := hs.tokens

theorem EnrollmentRib.Registered.createNeighInfo (hs : s.Registered)
    (pcApName : Option CString) : (pxEnrollmentCreateNeighInfo s pcApName).Registered := by
  unfold pxEnrollmentCreateNeighInfo xEnrollmentAddNeighborEntry
  split
  · rename_i y _
    refine ⟨hs.objects, fun x n h => ?_⟩
    dsimp only at h
    rw [Function.update_apply] at h
    split_ifs at h
    · rw [← Option.some.inj h]
    · exact hs.tokens x n h
  · exact hs

theorem EnrollmentRib.Registered.ribCall (hs : s.Registered) {c : RibCall}
    (hobjs : ∀ p, s.pxRibd.call o.out c = .ok p → p.pxRibd.pxRibObjects = s.pxRibd.pxRibObjects)
    (h : s.ribCall o c = .ok s') : s'.Registered := by
  obtain ⟨p, hp, h⟩ := Exec.bind_eq_ok.mp h
  cases h
  exact hs.same (hobjs p hp) rfl

theorem EnrollmentRib.Registered.step {c : EnrollmentCall × RequestOutcomes} (hs : s.Registered)
    (hst : s.step c = some s') : s'.Registered := by
  obtain ⟨call, o⟩ := c
  have h : s.call o call = .ok s' := by
    unfold EnrollmentRib.step at hst
    cases hcall : s.call o call with
    | error t => simp [hcall, Except.toOption] at hst
    | ok t =>
      simp only [hcall, Except.toOption, Option.some.injEq] at hst
      rw [hst]
  cases call with
  | query obj eOpCode unPort info =>
    have hobjs : ∀ p, s.pxRibd.call o.out (.query obj eOpCode unPort info) = .ok p →
        p.pxRibd.pxRibObjects = s.pxRibd.pxRibObjects := fun p hp => xRibObjectQuery_objects hp
    exact hs.ribCall hobjs h
  | reply eOpCode unPort unInvokeId =>
    have hobjs : ∀ p, s.pxRibd.call o.out (.reply eOpCode unPort unInvokeId) = .ok p →
        p.pxRibd.pxRibObjects = s.pxRibd.pxRibObjects :=
      fun p hp => by rw [xRibObjectReply_same hp]
    exact hs.ribCall hobjs h
  | objectAdd p =>
    cases h
    exact hs.xRibObjectAdd p
  | createNeighInfo pcApName =>
    cases h
    exact hs.createNeighInfo pcApName
  | incoming msg unPort =>
    simp only [EnrollmentRib.call, EnrollmentRib.incoming] at h
    cases hreq : msg.request with
    | none =>
      rw [hreq] at h
      have hobjs : ∀ p, s.pxRibd.call o.out (.incoming msg unPort) = .ok p →
          p.pxRibd.pxRibObjects = s.pxRibd.pxRibObjects :=
        fun p hp => xRibNormalIncoming_objects hreq hp
      exact hs.ribCall hobjs h
    | some eOpCode =>
      rw [hreq] at h
      obtain ⟨⟨status, t⟩, hret, h⟩ := Exec.bind_eq_ok.mp h
      cases h
      obtain ⟨-, hr, hn⟩ := prvRibHandleAnyRequest_refines hret
      exact hs.same (by rw [hr]) hn

/-- Over every run, with connections, releases and requests in any order, the handler of each
request returns if and only if each M_START finds what its object needs. -/
theorem requestsComplete_iff_ready (xDoLock : Bool)
    (calls : List (EnrollmentCall × RequestOutcomes)) :
    GuardedSteps EnrollmentRib.step EnrollmentRib.Completes (.init xDoLock) calls ↔
      GuardedSteps EnrollmentRib.step EnrollmentRib.Ready (.init xDoLock) calls :=
  guardedSteps_congr EnrollmentRib.Registered (fun _ c hs => EnrollmentRib.completes_iff_ready hs c)
    (fun _ _ _ hs _ hst => hs.step hst) (EnrollmentRib.registered_init xDoLock)

/-- Everything outside works, and what is allocated is zero. -/
def exampleRequestOutcomes : RequestOutcomes where
  pf := ⟨false, false⟩
  pools := ⟨true, fun _ => true, fun _ => ⟨none, 0, fun _ => 0⟩⟩
  pvPriv := some ⟨0, 0⟩
  pxNeighborMsg := some ⟨0, 0⟩
  pthread_attr_init := true
  pthread_attr_setstacksize := true
  pthread_create := true
  out := .allWell

/-- An M_START on the object of the enrollment. -/
def exampleStart : IncomingCdap where
  eOpCode := some .M_START
  xDestinationInfo := ⟨none, none, none, none⟩
  xSourceInfo := ⟨none, none, none, none⟩
  nInvokeID := 1
  pcObjName := xEnrollmentRibObject.ucObjName

/-- An M_START which comes before any connect. -/
theorem requestsComplete_unconnected :
    ∃ s, EnrollmentRib.step (.init true)
        (.objectAdd .xEnrollmentRibObject, exampleRequestOutcomes) = some s ∧
      s.pxRibd.Unconnected 1 ∧
      s.prvRibHandleAnyRequest exampleRequestOutcomes (pxRibConnectionFind s.pxRibd 1)
        exampleStart .M_START = .error .nullPointer ∧
      ¬ GuardedSteps EnrollmentRib.step EnrollmentRib.Completes (.init true)
        [(.objectAdd .xEnrollmentRibObject, exampleRequestOutcomes),
          (.incoming exampleStart 1, exampleRequestOutcomes)] := by
  refine ⟨_, rfl, fun x => rfl, rfl, ?_⟩
  rintro ⟨-, h, -⟩
  obtain ⟨status, s', hret⟩ := h exampleStart 1 .M_START rfl rfl
  cases hret

end RinaSense.Rib
