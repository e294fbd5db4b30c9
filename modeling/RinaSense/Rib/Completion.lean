import RinaSense.Rib.Pending

/-!
# Completion of tracked queries

When every query is given at most one response, by the reply to its own operation. The
invoke id of the reply always agrees, the operation is not looked at.
-/

namespace RinaSense.Rib

open Common SerDes Library.Memory Library.Runs

/-- The reply to an operation. -/
def replyTo : OpCode → Option OpCode
  | .M_CONNECT => some .M_CONNECT_R
  | .M_RELEASE => some .M_RELEASE_R
  | .M_CREATE => some .M_CREATE_R
  | .M_DELETE => some .M_DELETE_R
  | .M_READ => some .M_READ_R
  | .M_CANCELREAD => some .M_CANCELREAD_R
  | .M_WRITE => some .M_WRITE_R
  | .M_START => some .M_START_R
  | .M_STOP => some .M_STOP_R
  | _ => none

variable {s s' : RibRun} {c : RibCall × Outcomes} {o : RibOut}

/-- No query had two responses, and every response came from the reply to the operation and
the invoke id of its query. -/
structure RibRun.CompletesOnce (s : RibRun) : Prop where
  once : (s.responses.map Response.query).Nodup
  asked : ∀ a ∈ s.responses, ∃ q, s.queries[a.query]? = some q ∧
    replyTo q.eReqOpCode = some a.eOpCode ∧ q.unInvokeID = a.nInvokeID

/-- A reply which a row accepts is the reply to the operation of the row and the first one
its query gets. -/
def OwnReply (s : RibRun) (c : RibCall × Outcomes) : Prop :=
  match c.1 with
  | .incoming msg _ => ∀ x, s.pxRibd.acceptingRow c.2 msg = some x →
      replyTo (s.pxRibd.xPendingReqs x).eReqOpCode = msg.eOpCode ∧
        s.owner x ∉ s.responses.map Response.query
  | _ => True

instance (s : RibRun) : ∀ c, Decidable (OwnReply s c)
  | (.incoming msg _, out) => inferInstanceAs (Decidable
      (∀ x, s.pxRibd.acceptingRow out msg = some x →
        replyTo (s.pxRibd.xPendingReqs x).eReqOpCode = msg.eOpCode ∧
          s.owner x ∉ s.responses.map Response.query))
  | (.query .., _) | (.reply .., _) | (.objectAdd _, _) => .isTrue trivial

theorem RibRun.completesOnce_init (xDoLock : Bool) : (RibRun.init xDoLock).CompletesOnce where
  once := List.nodup_nil
  asked := by simp [RibRun.init]

theorem RibRun.CompletesOnce.same (h : s.CompletesOnce) (hsame : SamePending s.pxRibd o) :
    (s.after o).CompletesOnce := by
  rw [RibRun.after_same hsame]
  exact ⟨h.once, h.asked⟩

/-- A query which takes a row adds itself behind those which were there. -/
theorem RibRun.CompletesOnce.claims {x : Fin RESPONSE_HANDLER_TABLE_SIZE}
    (h : s.CompletesOnce) (hclaim : Claims s.pxRibd o x) : (s.after o).CompletesOnce := by
  rw [RibRun.after_claims hclaim]
  refine ⟨h.once, fun a ha => ?_⟩
  obtain ⟨q, hq, hop, hid⟩ := h.asked a ha
  refine ⟨q, ?_, hop, hid⟩
  rw [List.getElem?_append_left (List.getElem?_eq_some_iff.mp hq).1]
  exact hq

/-- A response keeps the law exactly when its query had none and asked for its operation. -/
theorem RibRun.CompletesOnce.delivers {d : Delivery} (hi : s.Inv) (h : s.CompletesOnce)
    (hdel : Delivers s.pxRibd o d) :
    (s.after o).CompletesOnce ↔
      replyTo (s.pxRibd.xPendingReqs d.row).eReqOpCode = some d.eOpCode ∧
        s.owner d.row ∉ s.responses.map Response.query := by
  obtain ⟨q, hq, hop, hid⟩ := hi.owned d.row (hi.occupied hdel)
  rw [RibRun.after_delivers hdel]
  constructor
  · intro h'
    constructor
    · obtain ⟨q', hq', hop', -⟩ :=
        h'.asked ⟨s.owner d.row, d.eOpCode, d.nInvokeID⟩ (by simp)
      cases hq.symm.trans hq'
      rw [← hop]
      exact hop'
    · have honce := h'.once
      rw [List.map_append, List.nodup_append] at honce
      intro hmem
      exact honce.2.2 _ hmem _ (by simp) rfl
  · rintro ⟨hreply, hfirst⟩
    constructor
    case once =>
      rw [List.map_append, List.nodup_append]
      refine ⟨h.once, by simp, ?_⟩
      intro k hk j hj
      rw [List.map_singleton, List.mem_singleton] at hj
      rintro rfl
      rw [hj] at hk
      exact hfirst hk
    case asked =>
      intro a ha
      rcases List.mem_append.mp ha with ha | ha
      · exact h.asked a ha
      · rw [List.mem_singleton.mp ha]
        exact ⟨q, hq, hop ▸ hreply, hid.trans hdel.found⟩

theorem RibRun.CompletesOnce.step_iff (hi : s.Inv) (h : s.CompletesOnce)
    (hst : s.step c = some s') : s'.CompletesOnce ↔ OwnReply s c := by
  obtain ⟨o, hcall, rfl⟩ := RibRun.step_eq_some.mp hst
  obtain ⟨call, out⟩ := c
  cases call with
  | reply eOpCode unPort unInvokeId =>
    obtain ⟨-, -, rfl⟩ := xRibObjectReply_eq_ok.mp hcall
    exact iff_of_true (h.same samePending_locked) trivial
  | objectAdd obj =>
    cases hcall
    exact iff_of_true (h.same (xRibObjectAdd_same obj)) trivial
  | query obj eOpCode unPort info =>
    refine iff_of_true ?_ trivial
    rcases xRibObjectQuery_cases hcall with hsame | ⟨x, hclaim⟩
    · exact h.same hsame
    · exact h.claims hclaim
  | incoming msg unPort =>
    have hspec := xRibNormalIncoming_spec hcall
    cases hrow : s.pxRibd.acceptingRow out msg with
    | none =>
      rw [hrow] at hspec
      refine iff_of_true (h.same hspec) ?_
      intro x hx
      rw [hrow] at hx
      cases hx
    | some x =>
      rw [hrow] at hspec
      obtain ⟨eOpCode, resp, hop, hdel⟩ := hspec
      rw [h.delivers hi hdel]
      simp only [OwnReply, hrow, Option.some.injEq, forall_eq', hop]

/-- Throughout a run each tracked query is completed at most once and by the reply it asked
for if and only if every reply which a row accepts is of that kind and the first one. -/
theorem completesOnce_iff (xDoLock : Bool) {calls : List (RibCall × Outcomes)} {s : RibRun}
    (hrun : calls.foldlM RibRun.step (RibRun.init xDoLock) = some s) :
    Throughout RibRun.step RibRun.CompletesOnce (RibRun.init xDoLock) calls ↔
      GuardedSteps RibRun.step OwnReply (RibRun.init xDoLock) calls :=
  throughout_iff (fun _ _ _ hi hst => RibRun.Inv.step hi hst)
    (fun _ _ _ hi h hst => RibRun.CompletesOnce.step_iff hi h hst)
    (RibRun.inv_init xDoLock) (RibRun.completesOnce_init xDoLock) hrun

/-- Three queries, each answered once. -/
theorem completesOnce_three :
    Throughout RibRun.step RibRun.CompletesOnce (RibRun.init true) (exchanges 3) :=
  (completesOnce_iff true rfl).mpr (by decide)

/-- A reply to M_START completes a query with M_STOP, and a second reply completes it once
more. -/
theorem stopQuery_completed_twice :
    ∃ s, [(.objectAdd exampleObject, .allWell), (stopQuery, .allWell),
        (.incoming (exampleReply .M_START_R 1) 1, .allWell),
        (.incoming (exampleReply .M_STOP_R 1) 2, .allWell)].foldlM RibRun.step
          (RibRun.init true) = some s ∧
      s.responses = [⟨0, .M_START_R, 1⟩, ⟨0, .M_STOP_R, 1⟩] ∧ ¬ s.CompletesOnce :=
  ⟨_, rfl, rfl, fun h => absurd h.once (by decide)⟩

end RinaSense.Rib
