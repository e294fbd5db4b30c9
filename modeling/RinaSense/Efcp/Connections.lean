import RinaSense.Efcp.Container
import RinaSense.Library.Runs

/-!
# Creation and destruction of connections

The connections of an EFCP container and its instance map. The CEP-id of a connection is
the one with which it is entered in the map, and the map has one row for it.
-/

namespace RinaSense.Efcp

open Common Library.Runs

def CFG_LOCAL_ADDRESS : Address := 1

/-- A container, with the instances which are allocated. -/
structure EfcpContainer where
  pxRmt : Bool
  xEfcpImapTable : List EfcpImapRow
  efcps : EfcpPtr → Option EfcpInstance
  /-- Where the next instance is allocated. -/
  brk : EfcpPtr

def xEfcpImapCreate : List EfcpImapRow :=
  List.replicate CFG_EFCP_IMAP_ENTRIES ⟨0, none, false⟩

/-- The container of a new IPC process. Nothing ever sets its RMT. -/
def xEfcpContainerInit : EfcpContainer where
  pxRmt := false
  xEfcpImapTable := xEfcpImapCreate
  efcps := fun _ => none
  brk := 0

/-- The loop over the rows returns from its first round. -/
def xEfcpImapAdd (rows : List EfcpImapRow) (xCepId : CepId) (pxEfcp : EfcpPtr) :
    Bool × List EfcpImapRow :=
  match rows with
  | [] => (false, [])
  | _ :: rest => (true, ⟨xCepId, some pxEfcp, true⟩ :: rest)

def xEfcpImapRemove (rows : List EfcpImapRow) (xCepId : CepId) : Bool × List EfcpImapRow :=
  (true, rows.replaceF fun row =>
    if row.xCepIdKey = xCepId then some ⟨0, none, false⟩ else none)

def EfcpContainer.pxEfcpImapFind (c : EfcpContainer) (xCepIdKey : CepId) :
    Option EfcpPtr × EfcpContainer :=
  (imapLookup c.xEfcpImapTable xCepIdKey,
    { c with xEfcpImapTable := markValid xCepIdKey c.xEfcpImapTable })

/-- An instance is released through its user, which is not set when it is made and which
nothing sets later. -/
def xEfcpDestroy : Exec Bool := .error .uninitialised

/-- What the caller asks for. -/
structure ConnectionRequest where
  xDstAddr : Address
  xPortId : PortId
  xQosId : QosId
  xSrcCepId : CepId
  xDstCepId : CepId
deriving DecidableEq, Repr

/-- Which of its three requests for memory a creation gets. -/
structure Supply where
  pxConnection : Bool
  pxEfcp : Bool
  pxDtp : Bool
deriving DecidableEq, Repr

variable (pf : Platform)

/-- The instance with its data transfer protocol. -/
def EfcpContainer.newEfcp (c : EfcpContainer) (req : ConnectionRequest) (xCepId : CepId)
    (hp : is_port_id_ok req.xPortId = true) : EfcpInstance where
  pxConnection := {
    xPortId := req.xPortId
    xSourceAddress := CFG_LOCAL_ADDRESS
    xDestinationAddress := req.xDstAddr
    xSourceCepId := xCepId
    xDestinationCepId := req.xDstCepId
    xQosId := req.xQosId
    portOk := hp }
  xDtpStateVector := vDtpStateVectorInit
  pxRmt := c.pxRmt
  xState := .eEfcpAllocated

/-- The source CEP-id which the caller gives is not used. -/
def xEfcpConnectionCreate (c : EfcpContainer) (req : ConnectionRequest) (mem : Supply) :
    Exec (CepId × EfcpContainer) := do
  rsAssert pf mem.pxConnection
  if mem.pxConnection = false then return (CEP_ID_WRONG, c)
  if mem.pxEfcp = false then return (CEP_ID_WRONG, c)
  let xCepId : CepId := 1
  if hp : is_port_id_ok req.xPortId = true then
    rsAssert pf c.pxRmt
    if mem.pxDtp = false then
      let _ ← xEfcpDestroy
      return (CEP_ID_WRONG, c)
    let (added, rows) := xEfcpImapAdd c.xEfcpImapTable xCepId c.brk
    if added = false then
      let _ ← xEfcpDestroy
      return (CEP_ID_WRONG, c)
    return (xCepId, { c with
      xEfcpImapTable := rows
      efcps := Function.update c.efcps c.brk (some (c.newEfcp req xCepId hp))
      brk := c.brk + 1 })
  else
    let _ ← xEfcpDestroy
    return (CEP_ID_WRONG, c)

/-- The removal tells of its success, which is taken for a failure. -/
def xEfcpConnectionDestroy (c : EfcpContainer) (xId : CepId) : Exec (Bool × EfcpContainer) :=
  if is_cep_id_ok xId = false then .ok (false, c)
  else
    let (pxEfcp, c) := c.pxEfcpImapFind xId
    match pxEfcp with
    | none => .ok (false, c)
    | some e =>
      let (removed, rows) := xEfcpImapRemove c.xEfcpImapTable xId
      let c := { c with xEfcpImapTable := rows }
      if removed then .ok (false, c)
      else do
        let efcp := (c.efcps e).map fun efcp => { efcp with xState := .eEfcpDeallocated }
        let c := { c with efcps := Function.update c.efcps e efcp }
        let destroyed ← xEfcpDestroy
        return (!destroyed, c)

/-! ### Runs -/

inductive ConnectionOp
  | create (req : ConnectionRequest) (mem : Supply)
  | destroy (xId : CepId)
  | find (xCepIdKey : CepId)
deriving DecidableEq, Repr

/-- A container and its live connections: those which were created, with the CEP-id that
was returned, and which no call for destruction has met. -/
structure Connections where
  container : EfcpContainer
  live : List (CepId × EfcpPtr)

def Connections.init : Connections := ⟨xEfcpContainerInit, []⟩

/-- The instance which a call for destruction meets. -/
def EfcpContainer.meets (c : EfcpContainer) (xId : CepId) : Option EfcpPtr :=
  if is_cep_id_ok xId then imapLookup c.xEfcpImapTable xId else none

/-- A call, unless it does not come back. -/
def Connections.step (w : Connections) : ConnectionOp → Option Connections
  | .create req mem =>
    match xEfcpConnectionCreate pf w.container req mem with
    | .error _ => none
    | .ok (xCepId, c) =>
      some ⟨c, if is_cep_id_ok xCepId then (xCepId, w.container.brk) :: w.live else w.live⟩
  | .destroy xId =>
    match xEfcpConnectionDestroy w.container xId with
    | .error _ => none
    | .ok (_, c) => some ⟨c, w.live.filter fun l => w.container.meets xId ≠ some l.2⟩
  | .find xCepIdKey => some { w with container := (w.container.pxEfcpImapFind xCepIdKey).2 }

def Connections.sourceCepId (w : Connections) (l : CepId × EfcpPtr) : Option CepId :=
  (w.container.efcps l.2).map fun efcp => efcp.pxConnection.xSourceCepId

/-- The live connections have different source CEP-ids, and each is found by the CEP-id
which its creation returned. -/
structure Connections.Identified (w : Connections) : Prop where
  distinct : (w.live.map w.sourceCepId).Nodup
  found : ∀ l ∈ w.live, (w.container.pxEfcpImapFind l.1).1 = some l.2

/-- The creation gets its memory and has a valid port. -/
def Succeeds (req : ConnectionRequest) (mem : Supply) : Prop :=
  mem.pxConnection = true ∧ mem.pxEfcp = true ∧ is_port_id_ok req.xPortId = true ∧
    mem.pxDtp = true

instance (req : ConnectionRequest) (mem : Supply) : Decidable (Succeeds req mem) :=
  inferInstanceAs (Decidable (_ ∧ _))

/-- A connection is created only when none is live. -/
def OneAtATime (w : Connections) : ConnectionOp → Prop
  | .create req mem => Succeeds req mem → w.live = []
  | _ => True

instance (w : Connections) : ∀ op, Decidable (OneAtATime w op)
  | .create req mem => inferInstanceAs (Decidable (Succeeds req mem → w.live = []))
  | .destroy _ | .find _ => .isTrue trivial

/-! ### The table -/

/-- A row without an instance, whether or not it is marked. -/
def EfcpImapRow.Empty (row : EfcpImapRow) : Prop :=
  row.xCepIdKey = 0 ∧ row.xEfcpValue = none

/-- All rows are empty but the first, which has the key and the instance. -/
def Front (rows : List EfcpImapRow) (key : CepId) (top : Option EfcpPtr) : Prop :=
  ∃ valid rest, rows = ⟨key, top, valid⟩ :: rest ∧ ∀ row ∈ rest, row.Empty

/-- All rows are empty but the first, which may hold the instance for CEP-id 1. -/
def Holds (rows : List EfcpImapRow) (top : Option EfcpPtr) : Prop :=
  ∃ valid rest, rows = ⟨if top.isSome then 1 else 0, top, valid⟩ :: rest ∧
    ∀ row ∈ rest, row.xCepIdKey = 0 ∧ row.xEfcpValue = none

theorem front_create : Front xEfcpImapCreate 0 none :=
  ⟨false, List.replicate 4 ⟨0, none, false⟩, rfl, fun row hrow => by
    rw [List.eq_of_mem_replicate hrow]
    exact ⟨rfl, rfl⟩⟩

theorem holds_create : Holds xEfcpImapCreate none := front_create

variable {rows : List EfcpImapRow} {key : CepId} {top : Option EfcpPtr}

theorem lookup_empty {rest : List EfcpImapRow} (hrest : ∀ row ∈ rest, row.Empty)
    (xCepIdKey : CepId) :
    imapLookup rest xCepIdKey = none := by
  rw [imapLookup]
  cases hf : rest.find? fun row => row.xCepIdKey = xCepIdKey with
  | none => rfl
  | some row => exact (hrest row (List.mem_of_find?_eq_some hf)).2

theorem Front.lookup (h : Front rows key top) (xCepIdKey : CepId) :
    imapLookup rows xCepIdKey = if xCepIdKey = key then top else none := by
  rcases h with ⟨valid, rest, rfl, hrest⟩
  have hempty := lookup_empty hrest xCepIdKey
  rw [imapLookup] at hempty ⊢
  rw [List.find?_cons]
  by_cases hk : key = xCepIdKey
  · simp [hk]
  · simp [hk, Ne.symm hk, hempty]

theorem Holds.lookup (h : Holds rows top) (xCepIdKey : CepId) :
    imapLookup rows xCepIdKey = if xCepIdKey = 1 then top else none := by
  rw [Front.lookup h]
  cases top <;> simp

theorem empty_replaceF {rest : List EfcpImapRow} {f : EfcpImapRow → Option EfcpImapRow}
    (hrest : ∀ row ∈ rest, row.Empty)
    (hf : ∀ row row', f row = some row' → row.Empty → row'.Empty) :
    ∀ row ∈ rest.replaceF f, row.Empty := by
  induction rest with
  | nil => exact hrest
  | cons r rest ih =>
    have hr := hrest r List.mem_cons_self
    have hrest' := fun row hrow => hrest row (List.mem_cons_of_mem r hrow)
    intro row hrow
    rw [List.replaceF_cons] at hrow
    cases hfr : f r with
    | none =>
      rw [hfr] at hrow
      rcases List.mem_cons.mp hrow with rfl | hrow
      · exact hr
      · exact ih hrest' row hrow
    | some r' =>
      rw [hfr] at hrow
      rcases List.mem_cons.mp hrow with rfl | hrow
      · exact hf r row hfr hr
      · exact hrest' row hrow

theorem Front.markValid (h : Front rows key top) (xCepIdKey : CepId) :
    Front (Efcp.markValid xCepIdKey rows) key top := by
  rcases h with ⟨valid, rest, rfl, hrest⟩
  have hkeep : ∀ row row' : EfcpImapRow, (if row.xCepIdKey = xCepIdKey then
      some { row with ucValid := true } else none) = some row' → row.Empty → row'.Empty := by
    intro row row' hrow he
    split_ifs at hrow
    cases hrow
    exact he
  rw [Efcp.markValid, List.replaceF_cons]
  by_cases hk : key = xCepIdKey
  · simp only [hk, if_true]
    exact ⟨true, rest, rfl, hrest⟩
  · simp only [hk, if_false]
    exact ⟨valid, _, rfl, empty_replaceF hrest hkeep⟩

theorem Holds.markValid (h : Holds rows top) (xCepIdKey : CepId) :
    Holds (Efcp.markValid xCepIdKey rows) top := Front.markValid h xCepIdKey

theorem Front.remove (h : Front rows key top) (xCepId : CepId) :
    Front (xEfcpImapRemove rows xCepId).2 (if xCepId = key then 0 else key)
      (if xCepId = key then none else top) := by
  rcases h with ⟨valid, rest, rfl, hrest⟩
  have hkeep : ∀ row row' : EfcpImapRow, (if row.xCepIdKey = xCepId then
      some (⟨0, none, false⟩ : EfcpImapRow) else none) = some row' → row.Empty → row'.Empty := by
    intro row row' hrow _
    split_ifs at hrow
    cases hrow
    exact ⟨rfl, rfl⟩
  rw [xEfcpImapRemove, List.replaceF_cons]
  by_cases hk : key = xCepId
  · exact ⟨false, rest, by simp [hk], hrest⟩
  · exact ⟨valid, _, by simp [hk, Ne.symm hk], empty_replaceF hrest hkeep⟩

theorem Holds.remove (h : Holds rows top) (xCepId : CepId) :
    Holds (xEfcpImapRemove rows xCepId).2 (if xCepId = 1 then none else top) := by
  have hfront := Front.remove h xCepId
  change Front _ (if (if xCepId = 1 then none else top).isSome then 1 else 0) _
  cases top with
  | none => simpa using hfront
  | some e =>
    by_cases h1 : xCepId = 1
    · simpa [h1] using hfront
    · simpa [h1] using hfront

theorem Front.add (h : Front rows key top) (xCepId : CepId) (e : EfcpPtr) :
    ∃ rows', xEfcpImapAdd rows xCepId e = (true, rows') ∧ Front rows' xCepId (some e) := by
  rcases h with ⟨valid, rest, rfl, hrest⟩
  exact ⟨_, rfl, true, rest, rfl, hrest⟩

theorem Holds.add (h : Holds rows top) (e : EfcpPtr) :
    ∃ rows', xEfcpImapAdd rows 1 e = (true, rows') ∧ Holds rows' (some e) := Front.add h 1 e

/-! ### The calls -/

section Calls

variable {pf} {c : EfcpContainer}

/-- What a creation which goes through leaves: the new instance in the first row, under
CEP-id 1. -/
structure Created (c c' : EfcpContainer) : Prop where
  holds : Holds c'.xEfcpImapTable (some c.brk)
  brk : c'.brk = c.brk + 1
  sourceCepId : (c'.efcps c.brk).map (fun efcp => efcp.pxConnection.xSourceCepId) = some 1
  other : ∀ e, e ≠ c.brk → c'.efcps e = c.efcps e

theorem create_succeeds (h : Holds c.xEfcpImapTable top) {req : ConnectionRequest}
    {mem : Supply} (hs : Succeeds req mem) {xCepId : CepId} {c' : EfcpContainer}
    (hc : xEfcpConnectionCreate pf c req mem = .ok (xCepId, c')) :
    xCepId = 1 ∧ Created c c' := by
  rcases h.add c.brk with ⟨rows', hadd, hrows⟩
  simp only [xEfcpConnectionCreate, hs.1, hs.2.1, hs.2.2.1, hs.2.2.2, hadd, rsAssert_true] at hc
  cases hr : rsAssert pf c.pxRmt with
  | error t => simp [hr] at hc
  | ok u =>
    simp only [hr, Exec.ok_bind] at hc
    cases hc
    refine ⟨rfl, hrows, rfl, ?_, fun e he => Function.update_of_ne he _ _⟩
    simp [EfcpContainer.newEfcp]

/-- A creation which does not go through returns no CEP-id and changes nothing. -/
theorem create_fails {req : ConnectionRequest} {mem : Supply} (hs : ¬ Succeeds req mem)
    {xCepId : CepId} {c' : EfcpContainer}
    (hc : xEfcpConnectionCreate pf c req mem = .ok (xCepId, c')) :
    xCepId = CEP_ID_WRONG ∧ c' = c := by
  cases ha : rsAssert pf mem.pxConnection with
  | error t => simp [xEfcpConnectionCreate, ha] at hc
  | ok u =>
    cases hconn : mem.pxConnection with
    | false =>
      rw [hconn] at ha
      simp only [xEfcpConnectionCreate, hconn, ha, Exec.ok_bind, if_true] at hc
      cases hc
      exact ⟨rfl, rfl⟩
    | true =>
      cases hefcp : mem.pxEfcp with
      | false =>
        simp only [xEfcpConnectionCreate, hconn, hefcp, rsAssert_true, Exec.ok_bind] at hc
        cases hc
        exact ⟨rfl, rfl⟩
      | true =>
        -- the other ways to fail release an instance whose user is not set
        exfalso
        by_cases hp : is_port_id_ok req.xPortId = true
        · cases hr : rsAssert pf c.pxRmt with
          | error t => simp [xEfcpConnectionCreate, hconn, hefcp, hp, hr] at hc
          | ok u' =>
            have hdtp : mem.pxDtp = false := by
              by_contra hd
              exact hs ⟨hconn, hefcp, hp, by simpa using hd⟩
            simp [xEfcpConnectionCreate, hconn, hefcp, hp, hr, hdtp, xEfcpDestroy] at hc
        · simp [xEfcpConnectionCreate, hconn, hefcp, hp, xEfcpDestroy] at hc

theorem Holds.meets (h : Holds c.xEfcpImapTable top) (xId : CepId) :
    c.meets xId = if xId = 1 then top else none := by
  rw [EfcpContainer.meets, h.lookup xId]
  by_cases h1 : xId = 1
  · subst h1
    rfl
  · simp [h1]

theorem destroy_spec (h : Holds c.xEfcpImapTable top) (xId : CepId) :
    ∃ ret c', xEfcpConnectionDestroy c xId = .ok (ret, c') ∧
      Holds c'.xEfcpImapTable (if xId = 1 then none else top) ∧ c'.efcps = c.efcps ∧
      c'.brk = c.brk := by
  rw [xEfcpConnectionDestroy]
  by_cases hok : is_cep_id_ok xId = false
  · rw [if_pos hok]
    have hne : xId ≠ 1 := by
      rintro rfl
      cases hok
    rw [if_neg hne]
    exact ⟨false, c, rfl, h, rfl, rfl⟩
  · rw [if_neg hok]
    have hmark := h.markValid xId
    simp only [EfcpContainer.pxEfcpImapFind, h.lookup xId]
    by_cases h1 : xId = 1
    · cases top with
      | none =>
        simp only [h1, if_true] at hmark ⊢
        exact ⟨false, _, rfl, hmark, rfl, rfl⟩
      | some e =>
        have hremove := hmark.remove xId
        simp only [h1, if_true] at hremove ⊢
        exact ⟨false, _, rfl, hremove, rfl, rfl⟩
    · simp only [h1, if_false]
      exact ⟨false, _, rfl, hmark, rfl, rfl⟩

end Calls

/-! ### The runs -/

/-- What holds in every state of every run. -/
structure Connections.Inv (w : Connections) (top : Option EfcpPtr) : Prop where
  holds : Holds w.container.xEfcpImapTable top
  top : ∀ e, top = some e → (1, e) ∈ w.live
  cepId : ∀ l ∈ w.live, l.1 = 1
  fresh : ∀ l ∈ w.live, l.2 < w.container.brk
  source : ∀ l ∈ w.live, w.sourceCepId l = some 1

theorem inv_connections_init : Connections.init.Inv none where
  holds := holds_create
  top := by simp
  cepId := by simp [Connections.init]
  fresh := by simp [Connections.init]
  source := by simp [Connections.init]

variable {pf} {w w' : Connections} {op : ConnectionOp}

/-- With one row for all, the connections are told apart when there is at most one and the
row holds it. -/
theorem identified_iff (h : w.Inv top) :
    w.Identified ↔ w.live = [] ∨ ∃ e, w.live = [(1, e)] ∧ top = some e := by
  constructor
  · intro hi
    cases hl : w.live with
    | nil => exact .inl rfl
    | cons l rest =>
      have hmem : l ∈ w.live := by simp [hl]
      cases rest with
      | cons l' rest =>
        have hmem' : l' ∈ w.live := by simp [hl]
        have hd := hi.distinct
        rw [hl] at hd
        simp [h.source l hmem, h.source l' hmem'] at hd
      | nil =>
        have hfound := hi.found l hmem
        have hid := h.cepId l hmem
        rw [EfcpContainer.pxEfcpImapFind, h.holds.lookup, if_pos hid] at hfound
        exact .inr ⟨l.2, by rw [← hid], hfound⟩
  · rintro (hl | ⟨e, hl, ht⟩)
    · exact ⟨by simp [hl], by simp [hl]⟩
    · refine ⟨by simp [hl], fun l hmem => ?_⟩
      rw [hl, List.mem_singleton] at hmem
      subst hmem
      rw [EfcpContainer.pxEfcpImapFind, h.holds.lookup, if_pos rfl, ht]

theorem Connections.Inv.created (h : w.Inv top) {c' : EfcpContainer}
    (hc : Created w.container c') :
    Connections.Inv ⟨c', (1, w.container.brk) :: w.live⟩ (some w.container.brk) where
  holds := hc.holds
  top e he := by
    cases he
    exact List.mem_cons_self
  cepId l hl := by
    rcases List.mem_cons.mp hl with rfl | hl
    · rfl
    · exact h.cepId l hl
  fresh l hl := by
    rw [hc.brk]
    rcases List.mem_cons.mp hl with rfl | hl
    · exact Nat.lt_succ_self _
    · exact Nat.lt_succ_of_lt (h.fresh l hl)
  source l hl := by
    rcases List.mem_cons.mp hl with rfl | hl
    · exact hc.sourceCepId
    · have hsource := h.source l hl
      rwa [Connections.sourceCepId, hc.other l.2 (Nat.ne_of_lt (h.fresh l hl))]

/-- Calls which keep the instances. -/
theorem Connections.Inv.kept (h : w.Inv top) {c' : EfcpContainer} {top' : Option EfcpPtr}
    {live' : List (CepId × EfcpPtr)} (hholds : Holds c'.xEfcpImapTable top')
    (hefcps : c'.efcps = w.container.efcps) (hbrk : c'.brk = w.container.brk)
    (hsub : ∀ l ∈ live', l ∈ w.live) (htop : ∀ e, top' = some e → (1, e) ∈ live') :
    Connections.Inv ⟨c', live'⟩ top' where
  holds := hholds
  top := htop
  cepId l hl := h.cepId l (hsub l hl)
  fresh l hl := by
    rw [hbrk]
    exact h.fresh l (hsub l hl)
  source l hl := by
    rw [Connections.sourceCepId, hefcps]
    exact h.source l (hsub l hl)

/-- Every call is a creation which goes through, a destruction, or changes no more than the
marks of the table. -/
theorem connections_step_cases (h : w.Inv top) (hst : w.step pf op = some w') :
    (∃ req mem c', op = .create req mem ∧ Succeeds req mem ∧ Created w.container c' ∧
      w' = ⟨c', (1, w.container.brk) :: w.live⟩) ∨
    (∃ xId c', op = .destroy xId ∧ Holds c'.xEfcpImapTable (if xId = 1 then none else top) ∧
      c'.efcps = w.container.efcps ∧ c'.brk = w.container.brk ∧
      w' = ⟨c', w.live.filter fun l => (if xId = 1 then top else none) ≠ some l.2⟩) ∨
    (∃ c', Holds c'.xEfcpImapTable top ∧ c'.efcps = w.container.efcps ∧
      c'.brk = w.container.brk ∧ w' = ⟨c', w.live⟩ ∧
      ∀ req mem, op = .create req mem → ¬ Succeeds req mem) := by
  cases op with
  | create req mem =>
    simp only [Connections.step] at hst
    cases hc : xEfcpConnectionCreate pf w.container req mem with
    | error t => simp [hc] at hst
    | ok out =>
      obtain ⟨xCepId, c'⟩ := out
      rw [hc] at hst
      cases hst
      by_cases hs : Succeeds req mem
      · obtain ⟨rfl, hcreated⟩ := create_succeeds h.holds hs hc
        exact .inl ⟨req, mem, c', rfl, hs, hcreated, rfl⟩
      · obtain ⟨rfl, rfl⟩ := create_fails hs hc
        refine .inr (.inr ⟨_, h.holds, rfl, rfl, rfl, ?_⟩)
        rintro req' mem' ⟨⟩
        exact hs
  | destroy xId =>
    rcases destroy_spec h.holds xId with ⟨ret, c', hd, hholds, hefcps, hbrk⟩
    simp only [Connections.step, hd, h.holds.meets] at hst
    cases hst
    exact .inr (.inl ⟨xId, c', rfl, hholds, hefcps, hbrk, rfl⟩)
  | find xCepIdKey =>
    cases hst
    exact .inr (.inr ⟨(w.container.pxEfcpImapFind xCepIdKey).2, h.holds.markValid xCepIdKey, rfl,
      rfl, rfl, by simp⟩)

theorem destroyed_top (h : w.Inv top) (xId : CepId) :
    ∀ e, (if xId = 1 then none else top) = some e →
      (1, e) ∈ w.live.filter fun l => (if xId = 1 then top else none) ≠ some l.2 := by
  intro e he
  by_cases h1 : xId = 1
  · rw [if_pos h1] at he
    cases he
  · rw [if_neg h1] at he
    simpa [h1] using h.top e he

theorem Connections.Inv.step (h : w.Inv top) (hst : w.step pf op = some w') :
    ∃ top', w'.Inv top' := by
  rcases connections_step_cases h hst with ⟨req, mem, c', -, -, hcreated, rfl⟩ |
    ⟨xId, c', -, hholds, hefcps, hbrk, rfl⟩ | ⟨c', hholds, hefcps, hbrk, rfl, -⟩
  · exact ⟨_, h.created hcreated⟩
  · exact ⟨_, h.kept hholds hefcps hbrk (fun l hl => (List.mem_filter.mp hl).1)
      (destroyed_top h xId)⟩
  · exact ⟨top, h.kept hholds hefcps hbrk (fun l hl => hl) h.top⟩

theorem identified_step (h : w.Inv top) (hi : w.Identified) (hst : w.step pf op = some w') :
    w'.Identified ↔ OneAtATime w op := by
  have hone := (identified_iff h).mp hi
  rcases connections_step_cases h hst with ⟨req, mem, c', rfl, hs, hcreated, rfl⟩ |
    ⟨xId, c', rfl, hholds, hefcps, hbrk, rfl⟩ | ⟨c', hholds, hefcps, hbrk, rfl, hnone⟩
  · rw [identified_iff (h.created hcreated)]
    constructor
    · rintro (hnil | ⟨e, hl, -⟩) -
      · cases hnil
      · exact (List.cons.inj hl).2
    · intro hg
      rw [hg hs]
      exact .inr ⟨_, rfl, rfl⟩
  · refine iff_of_true ?_ trivial
    have hinv := h.kept hholds hefcps hbrk (fun l hl => (List.mem_filter.mp hl).1)
      (destroyed_top h xId)
    rw [identified_iff hinv]
    by_cases h1 : xId = 1
    · rcases hone with hl | ⟨e, hl, ht⟩
      · exact .inl (by simp [hl])
      · exact .inl (by simp [hl, ht, h1])
    · simpa [h1] using hone
  · refine iff_of_true ?_ ?_
    · rw [identified_iff (h.kept hholds hefcps hbrk (fun l hl => hl) h.top)]
      exact hone
    · cases op with
      | create req mem => exact fun hs => absurd hs (hnone req mem rfl)
      | _ => trivial

/-- In every sequence of creations, destructions and searches on a new container the live
connections have different source CEP-ids and each is found by the one which its creation
returned if and only if every creation which goes through is made while no connection is
live. -/
theorem identified_iff_oneAtATime {ops : List ConnectionOp}
    (hrun : ops.foldlM (Connections.step pf) Connections.init = some w) :
    Throughout (Connections.step pf) Connections.Identified Connections.init ops ↔
      GuardedSteps (Connections.step pf) OneAtATime Connections.init ops := by
  have hinv : ∀ w op w', (∃ top, Connections.Inv w top) → w.step pf op = some w' →
      ∃ top, w'.Inv top := by
    rintro w op w' ⟨top, h⟩ hst
    exact h.step hst
  have hstep : ∀ w op w', (∃ top, Connections.Inv w top) → w.Identified →
      w.step pf op = some w' → (w'.Identified ↔ OneAtATime w op) := by
    rintro w op w' ⟨top, h⟩ hi hst
    exact identified_step h hi hst
  have hinit : Connections.init.Identified := (identified_iff inv_connections_init).mpr (.inl rfl)
  exact throughout_iff hinv hstep ⟨none, inv_connections_init⟩ hinit hrun

/-- Two connections, the second created when the first is destroyed. -/
theorem identified_reused :
    Throughout (Connections.step ⟨true, false⟩) Connections.Identified Connections.init
      [.create ⟨2, 7, 1, 255, 255⟩ ⟨true, true, true⟩, .find 1, .destroy 1,
        .create ⟨3, 8, 1, 255, 255⟩ ⟨true, true, true⟩] :=
  (identified_iff_oneAtATime rfl).mpr (by decide)

/-- Two live connections with one CEP-id, by which the first is no longer found. -/
theorem second_connection_clashes :
    ∃ w, [ConnectionOp.create ⟨2, 7, 1, 255, 255⟩ ⟨true, true, true⟩,
        .create ⟨3, 8, 1, 255, 255⟩ ⟨true, true, true⟩].foldlM
        (Connections.step ⟨true, false⟩) Connections.init = some w ∧
      w.live = [(1, 1), (1, 0)] ∧ (w.container.pxEfcpImapFind 1).1 = some 1 ∧
      w.live.map w.sourceCepId = [some 1, some 1] ∧ ¬ w.Identified :=
  ⟨_, rfl, rfl, rfl, rfl, fun h => absurd h.distinct (by decide)⟩

end RinaSense.Efcp
