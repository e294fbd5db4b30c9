import Mathlib.Data.Set.Card
import RinaSense.Rib.Connections
import RinaSense.Rib.Pending

/-!
# Replies which the RIB takes or refuses

A reply to a release is never accepted: the lookup leaves out the released rows, and the
handler takes no others. A reply to a query is refused when no row has its invoke id. The
rows of answered queries keep theirs, and the free rows have the id 0.
-/

namespace RinaSense.Rib

open Common SerDes Library.Memory Library.Runs

variable {out : Outcomes} {r r' : Ribd} {o : RibOut}

/-! ### Replies to a release -/

/-- A release reply is accepted exactly on a connected port, which it disconnects. -/
def Ribd.ReleaseReplied (r : Ribd) (c : RibCall × Outcomes) : Prop :=
  ∀ msg unPort, c.1 = .incoming msg unPort → msg.eOpCode = some .M_RELEASE_R →
    ∃ o, xRibNormalIncoming c.2 r msg unPort = .ok o ∧
      (o.xStatus = .SUCCESS ↔ ¬ r.Unconnected unPort) ∧
      (o.xStatus = .SUCCESS → o.pxRibd.Unconnected unPort)

/-- A release reply comes on a port which is not connected. -/
def Ribd.RepliesUnconnected (r : Ribd) (c : RibCall × Outcomes) : Prop :=
  ∀ msg unPort, c.1 = .incoming msg unPort → msg.eOpCode = some .M_RELEASE_R →
    r.Unconnected unPort

/-- Whatever the lookup finds is in use, which is not what the handler asks for. -/
theorem prvRibHandleReleaseReply_refuses (r : Ribd) (unPort : PortId) :
    (prvRibHandleReleaseReply r (pxRibConnectionFind r unPort)).xStatus ≠ .SUCCESS := by
  unfold prvRibHandleReleaseReply
  cases hx : pxRibConnectionFind r unPort with
  | none =>
    dsimp only
    decide
  | some x =>
    have hst := (AppConnection.live_iff.mp (pxRibConnectionFind_live hx)).1
    simp only [hst, ne_eq, not_false_eq_true, if_true]
    decide

theorem Ribd.releaseReplied_iff (r : Ribd) (c : RibCall × Outcomes) :
    r.ReleaseReplied c ↔ r.RepliesUnconnected c := by
  apply forall_congr'
  intro msg
  apply forall_congr'
  intro unPort
  apply imp_congr_right
  intro _
  apply imp_congr_right
  intro hop
  have hno := prvRibHandleReleaseReply_refuses r unPort
  have hcall : xRibNormalIncoming c.2 r msg unPort =
      .ok (prvRibHandleReleaseReply r (pxRibConnectionFind r unPort)) := by
    simp only [xRibNormalIncoming, hop]
  rw [hcall]
  constructor
  · rintro ⟨o, ho, hiff, -⟩
    cases ho
    by_contra hcon
    exact hno (hiff.mpr hcon)
  · intro hun
    exact ⟨_, rfl, iff_of_false hno (not_not.mpr hun), fun h => absurd h hno⟩

/-- In a run every release reply takes effect if and only if each comes on a port which is
not connected. -/
theorem releaseReplied_iff_unconnected (xDoLock : Bool) (calls : List (RibCall × Outcomes)) :
    GuardedSteps Ribd.step Ribd.ReleaseReplied (.init xDoLock) calls ↔
      GuardedSteps Ribd.step Ribd.RepliesUnconnected (.init xDoLock) calls :=
  guardedSteps_congr (fun _ => True) (fun r c _ => r.releaseReplied_iff c)
    (fun _ _ _ _ _ _ => trivial) trivial

def exampleReleaseReply : IncomingCdap where
  eOpCode := some .M_RELEASE_R
  xDestinationInfo := ⟨none, none, none, none⟩
  xSourceInfo := ⟨none, none, none, none⟩
  nInvokeID := 0
  pcObjName := .empty

/-- The reply to a release on the port of the only connection. -/
theorem releaseReply_refused :
    ¬ GuardedSteps Ribd.step Ribd.ReleaseReplied (.init true)
      [(.incoming (exampleConnect 1) 1, .allWell),
        (.incoming exampleReleaseReply 1, .allWell)] := by
  rintro ⟨-, h, -⟩
  obtain ⟨o, ho, hiff, -⟩ := h exampleReleaseReply 1 rfl rfl
  cases ho
  refine absurd (hiff.mpr fun hun => ?_) (by decide)
  exact absurd (hun 0) (by decide)

/-! ### Replies to a query -/

/-- The reply is refused, and nothing else happens. -/
def Ribd.Refuses (r : Ribd) (out : Outcomes) (eOpCode : OpCode) (pxMsg : IncomingCdap) : Prop :=
  prvRibHandleAnyReply out r eOpCode pxMsg =
    .ok { xStatus := .ERR_RIB_NOT_PENDING, pxRibd := r }

theorem Ribd.refuses_iff {eOpCode : OpCode} {msg : IncomingCdap} :
    r.Refuses out eOpCode msg ↔
      (∀ x, (r.xPendingReqs x).unInvokeID ≠ msg.nInvokeID) ∧
        (r.xDoLock && r.xMutex) = false := by
  have hnone : (∀ x, (r.xPendingReqs x).unInvokeID ≠ msg.nInvokeID) ↔
      (Fin.find? fun x => (r.xPendingReqs x).unInvokeID == msg.nInvokeID) = none := by
    simp
  rw [hnone]
  unfold Ribd.Refuses prvRibHandleAnyReply
  constructor
  · intro h
    obtain ⟨p, hp, h⟩ := Exec.bind_eq_ok.mp h
    obtain ⟨hl, rfl⟩ := xRibFindPendingResponse_eq_ok.mp hp
    refine ⟨?_, hl⟩
    cases hx : Fin.find? fun x => (r.xPendingReqs x).unInvokeID == msg.nInvokeID with
    | none => rfl
    | some x =>
      simp only [hx] at h
      obtain ⟨found, -, h⟩ := Exec.bind_eq_ok.mp h
      cases found with
      | none => cases h
      | some obj =>
        obtain ⟨method, -, h⟩ := Exec.bind_eq_ok.mp h
        cases method with
        | none => cases h
        | some fn =>
          cases hreply : out.replyMethod with
          | none =>
            simp only [hreply] at h
            cases h
          | some resp =>
            simp only [hreply] at h
            split at h <;> simp [pure, Except.pure] at h
  · rintro ⟨hx, hl⟩
    rw [xRibFindPendingResponse_eq_ok.mpr ⟨hl, rfl⟩, Exec.ok_bind, hx]
    dsimp only
    rw [vRibUnlock_locked hl]
    rfl

variable {s s' : RibRun} {c : RibCall × Outcomes}

/-- An unanswered query has the invoke id. -/
def RibRun.Awaits (s : RibRun) (id : InvokeId) : Prop :=
  ∃ k q, s.Unanswered k ∧ s.queries[k]? = some q ∧ q.unInvokeID = id

/-- No query which took a row has the invoke id, and it is not the id of free rows while
there are any. -/
def RibRun.Unknown (s : RibRun) (id : InvokeId) : Prop :=
  (∀ q ∈ s.queries, q.unInvokeID ≠ id) ∧
    (id = 0 → s.queries.length = RESPONSE_HANDLER_TABLE_SIZE)

/-- The rows in use are those of the queries which took one, answered or not. -/
structure RibRun.Kept (s : RibRun) : Prop extends s.Inv where
  rows : Set.BijOn s.owner {x | s.Occupied x} {k | k < s.queries.length}

theorem RibRun.kept_init (xDoLock : Bool) : (RibRun.init xDoLock).Kept := by
  refine ⟨RibRun.inv_init xDoLock, ?_⟩
  have hzero : {k | k < (RibRun.init xDoLock).queries.length} = ∅ := by
    ext k
    simp [RibRun.init]
  rw [RibRun.occupied_init, hzero]
  exact Set.bijOn_empty _

/-- A query which takes a row is the last one. -/
theorem RibRun.Kept.claims {x : Fin RESPONSE_HANDLER_TABLE_SIZE} (h : s.Kept)
    (hclaim : Claims s.pxRibd o x) :
    Set.BijOn (s.after o).owner {y | (s.after o).Occupied y}
      {k | k < (s.after o).queries.length} := by
  have hlast := RibRun.owner_after hclaim
  have hset : {k | k < (s.after o).queries.length} =
      insert ((s.after o).owner x) {k | k < s.queries.length} := by
    ext k
    rw [hlast, RibRun.after_claims hclaim]
    change k < _ ↔ k = _ ∨ k < _
    rw [List.length_append, List.length_singleton]
    omega
  rw [RibRun.occupied_after hclaim, hset]
  apply Set.BijOn.insert
  · apply h.rows.congr
    intro y hy
    rw [RibRun.after_claims hclaim]
    have hyx : y ≠ x := by
      rintro rfl
      exact hy hclaim.free
    simp [hyx]
  · rw [hlast]
    exact Nat.lt_irrefl _

theorem RibRun.Kept.step (h : s.Kept) (hst : s.step c = some s') : s'.Kept := by
  refine ⟨h.toInv.step hst, ?_⟩
  obtain ⟨o, hcall, rfl⟩ := RibRun.step_eq_some.mp hst
  rcases call_cases hcall with hsame | ⟨x, hclaim⟩ | ⟨d, hdel⟩
  · rw [RibRun.after_same hsame]
    simpa only [RibRun.Occupied, hsame.rows] using h.rows
  · exact h.claims hclaim
  · rw [RibRun.after_delivers hdel]
    simpa only [RibRun.Occupied, hdel.unInvokeID] using h.rows

/-- All rows are in use when ten queries took one. -/
theorem RibRun.Kept.full_iff (h : s.Kept) :
    s.queries.length = RESPONSE_HANDLER_TABLE_SIZE ↔ ∀ x, s.Occupied x := by
  have hcard : {x | s.Occupied x}.ncard = s.queries.length := by
    have hrange : {k | k < s.queries.length} = ↑(Finset.range s.queries.length) := by
      ext k
      simp
    rw [← h.rows.injOn.ncard_image, h.rows.image_eq, hrange, Set.ncard_coe_finset,
      Finset.card_range]
  rw [← hcard]
  constructor
  · intro hfull x
    have huniv : {x | s.Occupied x} = Set.univ := by
      apply Set.eq_of_subset_of_ncard_le (Set.subset_univ _)
      rw [hfull, Set.ncard_univ, Nat.card_fin]
    have hx := Set.mem_univ x
    rw [← huniv] at hx
    exact hx
  · intro hall
    have huniv : {x | s.Occupied x} = Set.univ := Set.eq_univ_of_forall hall
    rw [huniv, Set.ncard_univ, Nat.card_fin]

theorem RibRun.Kept.unknown_iff (h : s.Kept) (id : InvokeId) :
    s.Unknown id ↔ ∀ x, (s.pxRibd.xPendingReqs x).unInvokeID ≠ id := by
  unfold RibRun.Unknown
  rw [h.full_iff]
  constructor
  · rintro ⟨hnone, hfull⟩ x rfl
    obtain ⟨q, hq, -, hid⟩ := h.owned x (fun h0 => hfull h0 x h0)
    exact hnone q (List.mem_of_getElem? hq) hid
  · intro hno
    constructor
    · intro q hq hid
      obtain ⟨k, hk⟩ := List.getElem?_of_mem hq
      obtain ⟨x, hx, rfl⟩ := h.rows.surjOn (List.getElem?_eq_some_iff.mp hk).1
      obtain ⟨q', hq', -, hid'⟩ := h.owned x hx
      rw [hk] at hq'
      cases hq'
      exact hno x (hid'.symm.trans hid)
    · rintro rfl x
      exact hno x

/-- In a state which a run reaches, a reply to no unanswered query is refused without effect
if and only if no query ever took a row with its invoke id, the id is not 0 while a row is
free, and the mutex is free. -/
theorem strayReply_refused_iff (xDoLock : Bool) {calls : List (RibCall × Outcomes)}
    {s : RibRun} (hrun : calls.foldlM RibRun.step (RibRun.init xDoLock) = some s)
    (out : Outcomes) (eOpCode : OpCode) (msg : IncomingCdap) :
    (¬ s.Awaits msg.nInvokeID → s.pxRibd.Refuses out eOpCode msg) ↔
      s.Awaits msg.nInvokeID ∨
        s.Unknown msg.nInvokeID ∧ (s.pxRibd.xDoLock && s.pxRibd.xMutex) = false := by
  have hkept : s.Kept := foldlM_preserves
    (fun (s : RibRun) _ _ (h : s.Kept) hst => h.step hst) (RibRun.kept_init xDoLock) hrun
  rw [Ribd.refuses_iff, ← hkept.unknown_iff]
  exact or_iff_not_imp_left.symm

/-- One query waits for its reply, and another reply comes. -/
theorem strayReply_refused_seven :
    ∃ s, [(.objectAdd exampleObject, .allWell), (stopQuery, .allWell)].foldlM RibRun.step
        (RibRun.init true) = some s ∧
      s.pxRibd.Refuses .allWell .M_STOP_R (exampleReply .M_STOP_R 7) := by
  have hrun : [(.objectAdd exampleObject, .allWell), (stopQuery, .allWell)].foldlM RibRun.step
      (RibRun.init true) = some _ := rfl
  refine ⟨_, hrun, (strayReply_refused_iff true hrun .allWell .M_STOP_R
    (exampleReply .M_STOP_R 7)).mpr (.inr ⟨⟨?_, ?_⟩, rfl⟩) ?_⟩
  · intro q hq
    cases List.mem_singleton.mp hq
    decide
  · intro h
    exact absurd h (by decide)
  · rintro ⟨k, q, -, hq, hid⟩
    cases List.mem_singleton.mp (List.mem_of_getElem? hq)
    exact absurd hid (by decide)

/-- A reply with the id 0 is taken for one to a free row, whose object name is null. -/
theorem strayReply_taken :
    ∃ s, [(.objectAdd exampleObject, .allWell)].foldlM RibRun.step (RibRun.init true) = some s ∧
      ¬ s.Awaits 0 ∧ ¬ s.pxRibd.Refuses .allWell .M_STOP_R (exampleReply .M_STOP_R 0) ∧
      prvRibHandleAnyReply .allWell s.pxRibd .M_STOP_R (exampleReply .M_STOP_R 0) =
        .error .nullPointer := by
  refine ⟨_, rfl, ?_, ?_, rfl⟩
  · rintro ⟨k, q, -, hq, -⟩
    cases hq
  · intro h
    cases h

end RinaSense.Rib
