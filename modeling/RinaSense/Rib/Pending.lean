import Mathlib.Data.Set.Function
import RinaSense.Library.Runs
import RinaSense.Rib.Calls

/-!
# The table of pending queries

Runs of calls, with the tracked queries numbered in the order in which they took a row and
the responses which were given to them. A reply is matched by its invoke id alone, and the
row of a query which was answered stays in use.
-/

namespace RinaSense.Rib

open Common SerDes Library.Memory Library.Runs

/-- A tracked query which took a row, with the status its caller saw. -/
structure Query where
  eReqOpCode : OpCode
  unInvokeID : InvokeId
  xStatus : RsErr
deriving DecidableEq

/-- A response given to the callback or the waiter of a query. -/
structure Response where
  query : ℕ
  eOpCode : OpCode
  nInvokeID : InvokeId
deriving DecidableEq

structure RibRun where
  pxRibd : Ribd
  queries : List Query
  /-- The number of the query which took a row last. -/
  owner : Fin RESPONSE_HANDLER_TABLE_SIZE → ℕ
  responses : List Response

def RibRun.init (xDoLock : Bool) : RibRun where
  pxRibd := .init xDoLock
  queries := []
  owner := fun _ => 0
  responses := []

def RibRun.after (s : RibRun) (o : RibOut) : RibRun where
  pxRibd := o.pxRibd
  queries :=
    match o.claimed with
    | some x =>
      let row := o.pxRibd.xPendingReqs x
      s.queries ++ [⟨row.eReqOpCode, row.unInvokeID, o.xStatus⟩]
    | none => s.queries
  owner :=
    match o.claimed with
    | some x => Function.update s.owner x s.queries.length
    | none => s.owner
  responses :=
    match o.delivered with
    | some d => s.responses ++ [⟨s.owner d.row, d.eOpCode, d.nInvokeID⟩]
    | none => s.responses

/-- A call, unless it does not return. -/
def RibRun.step (s : RibRun) (c : RibCall × Outcomes) : Option RibRun :=
  match s.pxRibd.call c.2 c.1 with
  | .ok o => some (s.after o)
  | .error _ => none

variable {s s' : RibRun} {c : RibCall × Outcomes} {o : RibOut}

theorem RibRun.step_eq_some :
    s.step c = some s' ↔ ∃ o, s.pxRibd.call c.2 c.1 = .ok o ∧ s' = s.after o := by
  unfold RibRun.step
  cases s.pxRibd.call c.2 c.1 with
  | error t => simp
  | ok o => simp [eq_comm]

/-- The row is in use. -/
def RibRun.Occupied (s : RibRun) (x : Fin RESPONSE_HANDLER_TABLE_SIZE) : Prop :=
  (s.pxRibd.xPendingReqs x).unInvokeID ≠ 0

/-- The query was issued and has had no response. -/
def RibRun.Unanswered (s : RibRun) (k : ℕ) : Prop :=
  (∃ q, s.queries[k]? = some q ∧ q.xStatus = .SUCCESS) ∧ ∀ a ∈ s.responses, a.query ≠ k

/-! ### What each kind of call does to the numbered queries -/

theorem RibRun.after_same (h : SamePending s.pxRibd o) :
    s.after o = { s with pxRibd := o.pxRibd } := by
  simp [RibRun.after, h.claimed, h.delivered]

theorem RibRun.after_claims {x : Fin RESPONSE_HANDLER_TABLE_SIZE} (h : Claims s.pxRibd o x) :
    s.after o =
      { pxRibd := o.pxRibd
        queries := s.queries ++
          [⟨(o.pxRibd.xPendingReqs x).eReqOpCode, (o.pxRibd.xPendingReqs x).unInvokeID,
            o.xStatus⟩]
        owner := Function.update s.owner x s.queries.length
        responses := s.responses } := by
  simp [RibRun.after, h.claimed, h.delivered]

theorem RibRun.after_delivers {d : Delivery} (h : Delivers s.pxRibd o d) :
    s.after o =
      { s with
        pxRibd := o.pxRibd
        responses := s.responses ++ [⟨s.owner d.row, d.eOpCode, d.nInvokeID⟩] } := by
  simp [RibRun.after, h.claimed, h.delivered]

/-- Free rows name no object, rows in use carry what their owner asked for, and responses
go to queries there are. -/
structure RibRun.Inv (s : RibRun) : Prop where
  free : ∀ x, (s.pxRibd.xPendingReqs x).unInvokeID = 0 →
    (s.pxRibd.xPendingReqs x).pcObjName = none
  owned : ∀ x, s.Occupied x → ∃ q, s.queries[s.owner x]? = some q ∧
    q.eReqOpCode = (s.pxRibd.xPendingReqs x).eReqOpCode ∧
    q.unInvokeID = (s.pxRibd.xPendingReqs x).unInvokeID
  known : ∀ a ∈ s.responses, a.query < s.queries.length

theorem RibRun.inv_init (xDoLock : Bool) : (RibRun.init xDoLock).Inv where
  free := fun _ _ => rfl
  owned := fun _ h => absurd rfl h
  known := by simp [RibRun.init]

/-- A row which gets a response is in use. -/
theorem RibRun.Inv.occupied (h : s.Inv) {d : Delivery} (hd : Delivers s.pxRibd o d) :
    s.Occupied d.row := by
  intro hfree
  have := hd.named
  rw [h.free _ hfree] at this
  cases this

theorem RibRun.Inv.owner_lt (h : s.Inv) {x : Fin RESPONSE_HANDLER_TABLE_SIZE}
    (hx : s.Occupied x) : s.owner x < s.queries.length := by
  obtain ⟨q, hq, -⟩ := h.owned x hx
  exact (List.getElem?_eq_some_iff.mp hq).1

theorem RibRun.Inv.step (h : s.Inv) (hst : s.step c = some s') : s'.Inv := by
  obtain ⟨o, hcall, rfl⟩ := RibRun.step_eq_some.mp hst
  rcases call_cases hcall with hsame | ⟨x, hclaim⟩ | ⟨d, hdel⟩
  · rw [RibRun.after_same hsame]
    refine ⟨?_, ?_, h.known⟩
    · simpa only [hsame.rows] using h.free
    · simpa only [RibRun.Occupied, hsame.rows] using h.owned
  · rw [RibRun.after_claims hclaim]
    constructor
    case free =>
      intro y hy
      by_cases hyx : y = x
      · subst hyx
        exact absurd hy hclaim.inUse
      · simp only [hclaim.others y hyx] at hy ⊢
        exact h.free y hy
    case owned =>
      intro y hy
      by_cases hyx : y = x
      · subst hyx
        simp
      · simp only [RibRun.Occupied, hclaim.others y hyx] at hy
        obtain ⟨q, hq, hop, hid⟩ := h.owned y hy
        refine ⟨q, ?_, by simpa [hclaim.others y hyx] using hop,
          by simpa [hclaim.others y hyx] using hid⟩
        simp only [Function.update_of_ne hyx]
        rw [List.getElem?_append_left (h.owner_lt hy)]
        exact hq
    case known =>
      intro a ha
      have := h.known a ha
      simp only [List.length_append, List.length_singleton]
      omega
  · rw [RibRun.after_delivers hdel]
    constructor
    case free =>
      intro y hy
      rw [hdel.unInvokeID] at hy
      rw [hdel.pcObjName]
      exact h.free y hy
    case owned =>
      intro y hy
      simp only [RibRun.Occupied, hdel.unInvokeID] at hy
      simp only [hdel.unInvokeID, hdel.eReqOpCode]
      exact h.owned y hy
    case known =>
      intro a ha
      rcases List.mem_append.mp ha with ha | ha
      · exact h.known a ha
      · rw [List.mem_singleton.mp ha]
        exact h.owner_lt (h.occupied hdel)

/-! ### Rows in use and unanswered queries -/

/-- The rows in use are exactly those of the unanswered queries, so that a query finds room
whenever all are answered. -/
structure RibRun.ExactlyOpen (s : RibRun) : Prop where
  rows : Set.BijOn s.owner {x | s.Occupied x} {k | s.Unanswered k}
  room : (∀ k, ¬ s.Unanswered k) → ∀ out obj eOpCode unPort info o,
    s.pxRibd.call out (.query obj eOpCode unPort info) = .ok o →
      o.xStatus ≠ .ERR_RIB_TABLE_FULL

/-- A tracked query which takes a row does not fail afterwards, and no reply is accepted by
a row. -/
def KeepsOpen (s : RibRun) (c : RibCall × Outcomes) : Prop :=
  match c.1 with
  | .query _ _ _ info =>
    info.tracked.isSome → s.pxRibd.freeRow.isSome → c.2.waitInit ∧ c.2.fnRibOutput
  | .incoming msg _ => s.pxRibd.acceptingRow c.2 msg = none
  | _ => True

instance (s : RibRun) : ∀ c, Decidable (KeepsOpen s c)
  | (.query _ _ _ info, out) => inferInstanceAs (Decidable
      (info.tracked.isSome → s.pxRibd.freeRow.isSome → out.waitInit ∧ out.fnRibOutput))
  | (.incoming msg _, out) => inferInstanceAs (Decidable (s.pxRibd.acceptingRow out msg = none))
  | (.reply .., _) | (.objectAdd _, _) => .isTrue trivial

theorem Outcomes.outputStatus_ne_full (out : Outcomes) :
    out.outputStatus ≠ .ERR_RIB_TABLE_FULL := by
  unfold Outcomes.outputStatus
  split_ifs <;> decide

theorem RibRun.exactlyOpen_of_rows
    (h : Set.BijOn s.owner {x | s.Occupied x} {k | s.Unanswered k}) : s.ExactlyOpen where
  rows := h
  room := by
    intro hall out obj eOpCode unPort info o ho
    have hfree : ∀ x, (s.pxRibd.xPendingReqs x).unInvokeID = 0 := by
      intro x
      by_contra hx
      exact hall _ (h.mapsTo hx)
    cases ht : info.tracked with
    | none =>
      rw [xRibObjectQuery_status ht ho]
      exact out.outputStatus_ne_full
    | some fnCb =>
      have hspec := xRibObjectQuery_tracked ht ho
      have hrow : s.pxRibd.freeRow.isSome :=
        Fin.isSome_find?_iff.mpr ⟨0, by simp [hfree]⟩
      obtain ⟨x, hx⟩ := Option.isSome_iff_exists.mp hrow
      rw [hx] at hspec
      rw [hspec.2.2]
      split_ifs
      · exact out.outputStatus_ne_full
      · decide

theorem RibRun.occupied_init (xDoLock : Bool) :
    {x | (RibRun.init xDoLock).Occupied x} = ∅ := by
  ext x
  simp [RibRun.Occupied, RibRun.init, Ribd.init, RibPendingReq.zero]

theorem RibRun.exactlyOpen_init (xDoLock : Bool) : (RibRun.init xDoLock).ExactlyOpen := by
  apply RibRun.exactlyOpen_of_rows
  have hopen : {k | (RibRun.init xDoLock).Unanswered k} = ∅ := by
    ext k
    simp [RibRun.Unanswered, RibRun.init]
  rw [RibRun.occupied_init, hopen]
  exact Set.bijOn_empty _

theorem RibRun.unanswered_lt {k : ℕ} (h : s.Unanswered k) : k < s.queries.length := by
  obtain ⟨⟨q, hq, -⟩, -⟩ := h
  exact (List.getElem?_eq_some_iff.mp hq).1

theorem RibRun.occupied_after {x : Fin RESPONSE_HANDLER_TABLE_SIZE}
    (hclaim : Claims s.pxRibd o x) :
    {y | (s.after o).Occupied y} = insert x {y | s.Occupied y} := by
  ext y
  by_cases hyx : y = x
  · subst hyx
    simpa [RibRun.Occupied, RibRun.after] using hclaim.inUse
  · simp [RibRun.Occupied, RibRun.after, hclaim.others y hyx, hyx]

theorem RibRun.owner_after {x : Fin RESPONSE_HANDLER_TABLE_SIZE}
    (hclaim : Claims s.pxRibd o x) : (s.after o).owner x = s.queries.length := by
  rw [RibRun.after_claims hclaim]
  simp

/-- A query which took a row keeps the count exactly when its caller sees a success. -/
theorem RibRun.ExactlyOpen.claims {x : Fin RESPONSE_HANDLER_TABLE_SIZE} (hi : s.Inv)
    (h : s.ExactlyOpen) (hclaim : Claims s.pxRibd o x) :
    (s.after o).ExactlyOpen ↔ o.xStatus = .SUCCESS := by
  have hocc := RibRun.occupied_after hclaim
  have hlast := RibRun.owner_after hclaim
  have hnew : ∀ a ∈ s.responses, a.query ≠ s.queries.length := fun a ha =>
    Nat.ne_of_lt (hi.known a ha)
  have hunans : ∀ k, (s.after o).Unanswered k ↔
      s.Unanswered k ∨ (k = s.queries.length ∧ o.xStatus = .SUCCESS) := by
    intro k
    rw [RibRun.after_claims hclaim]
    simp only [RibRun.Unanswered]
    rcases Nat.lt_trichotomy k s.queries.length with hk | rfl | hk
    · simp [List.getElem?_append_left hk, Nat.ne_of_lt hk]
    · simpa using fun _ => hnew
    · have hold : s.queries[k]? = none := List.getElem?_eq_none (Nat.le_of_lt hk)
      have hout : ∀ q, (s.queries ++ [q])[k]? = none := fun q =>
        List.getElem?_eq_none (by rw [List.length_append]; exact hk)
      simp [hold, hout, Nat.ne_of_gt hk]
  constructor
  · intro h'
    have hx : x ∈ {y | (s.after o).Occupied y} := by
      rw [hocc]
      exact Set.mem_insert _ _
    have hk := (hunans _).mp (hlast ▸ h'.rows.mapsTo hx)
    rcases hk with hk | hk
    · exact absurd (RibRun.unanswered_lt hk) (Nat.lt_irrefl _)
    · exact hk.2
  · intro hok
    have hset : {k | (s.after o).Unanswered k} =
        insert ((s.after o).owner x) {k | s.Unanswered k} := by
      ext k
      rw [hlast]
      simp [hunans, hok, or_comm]
    apply RibRun.exactlyOpen_of_rows
    rw [hocc, hset]
    refine Set.BijOn.insert (h.rows.congr fun y hy => ?_) ?_
    · rw [RibRun.after_claims hclaim]
      have hyx : y ≠ x := by
        rintro rfl
        exact hy hclaim.free
      simp [hyx]
    · rw [hlast]
      exact fun hk => Nat.lt_irrefl _ (RibRun.unanswered_lt hk)

/-- A response leaves its row in use without a query to be answered. -/
theorem RibRun.ExactlyOpen.delivers {d : Delivery} (hi : s.Inv)
    (hdel : Delivers s.pxRibd o d) : ¬ (s.after o).ExactlyOpen := by
  intro h'
  have hrow : d.row ∈ {y | (s.after o).Occupied y} := by
    have := hi.occupied hdel
    simp only [RibRun.Occupied] at this
    simpa [RibRun.Occupied, RibRun.after, hdel.unInvokeID] using this
  have hk : (s.after o).Unanswered ((s.after o).owner d.row) := h'.rows.mapsTo hrow
  rw [RibRun.after_delivers hdel] at hk
  exact hk.2 ⟨s.owner d.row, d.eOpCode, d.nInvokeID⟩ (by simp) rfl

theorem RibRun.ExactlyOpen.same (h : s.ExactlyOpen) (hsame : SamePending s.pxRibd o) :
    (s.after o).ExactlyOpen := by
  rw [RibRun.after_same hsame]
  apply RibRun.exactlyOpen_of_rows
  simpa only [RibRun.Occupied, RibRun.Unanswered, hsame.rows] using h.rows

theorem RibRun.ExactlyOpen.step_iff (hi : s.Inv) (h : s.ExactlyOpen)
    (hst : s.step c = some s') : s'.ExactlyOpen ↔ KeepsOpen s c := by
  obtain ⟨o, hcall, rfl⟩ := RibRun.step_eq_some.mp hst
  obtain ⟨call, out⟩ := c
  cases call with
  | reply eOpCode unPort unInvokeId =>
    obtain ⟨-, -, rfl⟩ := xRibObjectReply_eq_ok.mp hcall
    exact iff_of_true (h.same samePending_locked) trivial
  | objectAdd obj =>
    cases hcall
    exact iff_of_true (h.same (xRibObjectAdd_same obj)) trivial
  | query obj eOpCode unPort info =>
    cases ht : info.tracked with
    | none =>
      refine iff_of_true (h.same (xRibObjectQuery_untracked ht hcall)) ?_
      simp [KeepsOpen, ht]
    | some fnCb =>
      have hspec := xRibObjectQuery_tracked ht hcall
      cases hf : s.pxRibd.freeRow with
      | none =>
        rw [hf] at hspec
        refine iff_of_true (h.same hspec.1) ?_
        simp [KeepsOpen, hf]
      | some x =>
        rw [hf] at hspec
        rw [h.claims hi hspec.1, hspec.2.2]
        simp only [KeepsOpen, ht, hf, Option.isSome_some, forall_const,
          Outcomes.outputStatus]
        cases out.waitInit <;> cases out.fnRibOutput <;> simp
  | incoming msg unPort =>
    have hspec := xRibNormalIncoming_spec hcall
    cases hrow : s.pxRibd.acceptingRow out msg with
    | none =>
      rw [hrow] at hspec
      exact iff_of_true (h.same hspec) hrow
    | some x =>
      rw [hrow] at hspec
      obtain ⟨eOpCode, resp, -, hdel⟩ := hspec
      refine iff_of_false (RibRun.ExactlyOpen.delivers hi hdel) ?_
      simp [KeepsOpen, hrow]

/-- Throughout a run the rows in use are exactly those of the unanswered queries if and
only if no query fails after it took its row and no reply is accepted. -/
theorem exactlyOpen_iff (xDoLock : Bool) {calls : List (RibCall × Outcomes)} {s : RibRun}
    (hrun : calls.foldlM RibRun.step (RibRun.init xDoLock) = some s) :
    Throughout RibRun.step RibRun.ExactlyOpen (RibRun.init xDoLock) calls ↔
      GuardedSteps RibRun.step KeepsOpen (RibRun.init xDoLock) calls :=
  throughout_iff (fun _ _ _ hi hst => RibRun.Inv.step hi hst)
    (fun _ _ _ hi h hst => RibRun.ExactlyOpen.step_iff hi h hst)
    (RibRun.inv_init xDoLock) (RibRun.exactlyOpen_init xDoLock) hrun

/-! ### An object with a method for the replies to M_START and M_STOP -/

def exampleObject : RibObject where
  ucObjName := ⟨[0x65], by decide⟩
  fnStart := some 1
  fnStop := some 2
  fnCreate := none
  fnDelete := none
  fnRead := none
  fnWrite := none
  fnStartReply := some 3
  fnStopReply := some 4
  fnCreateReply := none
  fnDeleteReply := none
  fnReadReply := none
  fnWriteReply := none
  fnInit := some 5

def exampleReply (eOpCode : OpCode) (nInvokeID : InvokeId) : IncomingCdap where
  eOpCode := some eOpCode
  xDestinationInfo := ⟨none, none, none, none⟩
  xSourceInfo := ⟨none, none, none, none⟩
  nInvokeID := nInvokeID
  pcObjName := .empty

def stopQuery : RibCall := .query exampleObject .M_STOP 1 .RIB_QUERY_TYPE_SYNC

/-- As many queries, each answered before the next is issued. -/
def exchanges (n : ℕ) : List (RibCall × Outcomes) :=
  (.objectAdd exampleObject, .allWell) ::
    (List.range n).flatMap fun k : ℕ =>
      [(stopQuery, .allWell), (.incoming (exampleReply .M_STOP_R ((k : ℤ) + 1)) 1, .allWell)]

/-- Two queries and a reply to neither of them. -/
theorem exactlyOpen_two :
    Throughout RibRun.step RibRun.ExactlyOpen (RibRun.init true)
      [(.objectAdd exampleObject, .allWell), (stopQuery, .allWell), (stopQuery, .allWell),
        (.incoming (exampleReply .M_STOP_R 7) 1, .allWell)] :=
  (exactlyOpen_iff true rfl).mpr (by decide)

/-- After ten exchanges no query is left to be answered, and the next one is refused. -/
theorem exchanges_tableFull :
    ∃ s, (exchanges 10).foldlM RibRun.step (RibRun.init true) = some s ∧
      (∀ k, ¬ s.Unanswered k) ∧
      ∃ o, s.pxRibd.call .allWell stopQuery = .ok o ∧ o.xStatus = .ERR_RIB_TABLE_FULL := by
  refine ⟨_, rfl, ?_, _, rfl, by decide⟩
  generalize hs : RibRun.after _ _ = s
  have hresponses : s.responses.map Response.query = List.range 10 := by
    rw [← hs]
    rfl
  have hqueries : s.queries.length = 10 := by
    rw [← hs]
    rfl
  intro k hk
  have hk' : k ∈ s.responses.map Response.query := by
    rw [hresponses, List.mem_range, ← hqueries]
    exact RibRun.unanswered_lt hk
  obtain ⟨a, ha, rfl⟩ := List.mem_map.mp hk'
  exact hk.2 a ha rfl

end RinaSense.Rib
