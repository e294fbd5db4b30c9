import RinaSense.Efcp.Changes

/-!
# What the connection calls report

The boolean which a destruction, a modification or an update of a connection returns, held
against what was done. The container is any one, also one which no run leads to.
-/

namespace RinaSense.Efcp

open Common

/-- The instance is gone, the others and what other CEP-ids find are left. An instance is there
until it is released, and only once. -/
structure EfcpContainer.Destroyed (c c' : EfcpContainer) (xId : CepId) (e : EfcpPtr) : Prop where
  notFound : imapLookup c'.xEfcpImapTable xId = none
  released : c'.efcps e = none
  otherEfcps : ∀ e', e' ≠ e → c'.efcps e' = c.efcps e'
  otherCepIds : ∀ key, key ≠ xId →
    imapLookup c'.xEfcpImapTable key = imapLookup c.xEfcpImapTable key

/-- A destruction tells whether there was a connection, which is then gone. -/
def EfcpContainer.DestroyReports (c : EfcpContainer) (xId : CepId) : Prop :=
  ∃ ret c', xEfcpConnectionDestroy c xId = .ok (ret, c') ∧
    match imapLookup c.xEfcpImapTable xId with
    | some e => ret = true ∧ c.Destroyed c' xId e
    | none => ret = false ∧ c' = c

/-- A change which is asked for with valid arguments tells whether there was a connection, which
then has the new values. Without one, or when it is refused, no instance is touched. -/
structure EfcpContainer.ChangeReports (c c' : EfcpContainer) (valid : Bool) (xCepId : CepId)
    (f : EfcpInstance → EfcpInstance) (ret : Bool) : Prop where
  returned : ret = true ↔ valid = true ∧ (imapLookup c.xEfcpImapTable xCepId).isSome
  changed : ret = true → ∃ e efcp, imapLookup c.xEfcpImapTable xCepId = some e ∧
    c.efcps e = some efcp ∧ c'.efcps = Function.update c.efcps e (some (f efcp))
  refused : ret = false → c'.efcps = c.efcps
  found : ∀ key, imapLookup c'.xEfcpImapTable key = imapLookup c.xEfcpImapTable key

def EfcpContainer.ModifyReports (c : EfcpContainer) (xCepId : CepId) (xSrc xDst : Address) :
    Prop :=
  ∃ ret c', xEfcpConnectionModify c xCepId xSrc xDst = .ok (ret, c') ∧
    c.ChangeReports c' true xCepId (.addressed xSrc xDst) ret

def EfcpContainer.UpdateReports (c : EfcpContainer) (xFrom xTo : CepId) : Prop :=
  ∃ ret c', xEfcpConnectionUpdate c xFrom xTo = .ok (ret, c') ∧
    c.ChangeReports c' (is_cep_id_ok xFrom && is_cep_id_ok xTo) xFrom (.redirected xTo) ret

/-- The row which a search finds has its mark. -/
def EfcpContainer.Marked (c : EfcpContainer) (xCepId : CepId) : Prop :=
  ∀ row ∈ c.xEfcpImapTable.find? (fun row => row.xCepIdKey = xCepId), row.ucValid = true

/-- An instance which is found is allocated, and no call for its destruction has met it. -/
def EfcpContainer.Usable (c : EfcpContainer) (xCepId : CepId) : Prop :=
  ∀ e ∈ imapLookup c.xEfcpImapTable xCepId,
    ∃ efcp, c.efcps e = some efcp ∧ efcp.xState = .eEfcpAllocated

variable {c : EfcpContainer} {xCepId xId : CepId} {rows : List EfcpImapRow} {e : EfcpPtr}
  {f : EfcpInstance → EfcpInstance}

/-- A search leaves the table exactly when the row it finds has its mark. -/
theorem markValid_eq_iff :
    markValid xCepId rows = rows ↔
      ∀ row ∈ rows.find? (fun row => row.xCepIdKey = xCepId), row.ucValid = true := by
  induction rows with
  | nil => simp [markValid]
  | cons row rows ih =>
    rw [markValid] at ih
    rw [markValid, List.replaceF_cons]
    by_cases hkey : row.xCepIdKey = xCepId
    · simp only [hkey, if_true, List.find?_cons, decide_true, Option.mem_def, Option.some.injEq,
        List.cons.injEq, and_true, forall_eq']
      obtain ⟨key, value, valid⟩ := row
      subst hkey
      simp [eq_comm]
    · simpa [hkey] using ih

theorem searched_eq_iff : c.searched xCepId = c ↔ c.Marked xCepId := by
  rw [EfcpContainer.Marked, ← markValid_eq_iff]
  constructor
  · exact congrArg EfcpContainer.xEfcpImapTable
  · intro hrows
    obtain ⟨rmt, table, efcps, brk⟩ := c
    exact congrArg (EfcpContainer.mk rmt · efcps brk) hrows

/-- The removal from the map is taken for a failure, so that a connection which is there is
never reported as destroyed. -/
theorem destroy_found (h : imapLookup c.xEfcpImapTable xId = some e) :
    ∃ c', xEfcpConnectionDestroy c xId = .ok (false, c') ∧ c'.efcps = c.efcps := by
  rw [xEfcpConnectionDestroy]
  cases hok : is_cep_id_ok xId with
  | false => exact ⟨c, rfl, rfl⟩
  | true =>
    simp only [EfcpContainer.pxEfcpImapFind, h]
    exact ⟨_, rfl, rfl⟩

theorem destroy_unknown (h : imapLookup c.xEfcpImapTable xId = none) :
    xEfcpConnectionDestroy c xId =
      .ok (false, if is_cep_id_ok xId = true then c.searched xId else c) := by
  rw [xEfcpConnectionDestroy]
  cases hok : is_cep_id_ok xId with
  | false => rfl
  | true =>
    simp only [EfcpContainer.pxEfcpImapFind, h]
    rfl

theorem destroyReports_iff (c : EfcpContainer) (xId : CepId) :
    c.DestroyReports xId ↔ imapLookup c.xEfcpImapTable xId = none ∧
      (is_cep_id_ok xId = true → c.Marked xId) := by
  unfold EfcpContainer.DestroyReports
  cases hfind : imapLookup c.xEfcpImapTable xId with
  | some e =>
    obtain ⟨c₁, hcall, -⟩ := destroy_found hfind
    rw [hcall]
    constructor
    · rintro ⟨ret, c', hout, hret, -⟩
      cases hout
      cases hret
    · rintro ⟨hnone, -⟩
      cases hnone
  | none =>
    rw [destroy_unknown hfind, ← searched_eq_iff]
    constructor
    · rintro ⟨ret, c', hout, -, hsame⟩
      cases hout
      refine ⟨rfl, fun hok => ?_⟩
      rwa [if_pos hok] at hsame
    · rintro ⟨-, hmarked⟩
      refine ⟨_, _, rfl, rfl, ?_⟩
      by_cases hok : is_cep_id_ok xId = true
      · rw [if_pos hok, hmarked hok]
      · rw [if_neg hok]

/-- With an instance which was deallocated the call goes on to its destruction, which does not
come back. -/
theorem changeReports_iff (c : EfcpContainer) (xCepId : CepId)
    (f : EfcpInstance → EfcpInstance) :
    (∃ ret c', changeConnection c xCepId f = .ok (ret, c') ∧
      c.ChangeReports c' true xCepId f ret) ↔ c.Usable xCepId := by
  cases hfind : imapLookup c.xEfcpImapTable xCepId with
  | none =>
    refine iff_of_true ⟨_, _, changeConnection_none hfind, ?_⟩ ?_
    · constructor
      · simp [hfind]
      · intro hret
        cases hret
      · exact fun _ => rfl
      · exact fun key => searched_lookup c xCepId key
    · intro e he
      rw [hfind] at he
      cases he
  | some e =>
    have husable : c.Usable xCepId ↔
        ∃ efcp, c.efcps e = some efcp ∧ efcp.xState = .eEfcpAllocated := by
      simp [EfcpContainer.Usable, hfind]
    rw [husable]
    simp only [changeConnection, EfcpContainer.pxEfcpImapFind, hfind]
    cases hefcp : c.efcps e with
    | none =>
      constructor
      · rintro ⟨ret, c', hout, -⟩
        cases hout
      · rintro ⟨efcp, hnone, -⟩
        cases hnone
    | some efcp =>
      simp only [inBounds_some, Exec.ok_bind, Option.some.injEq, exists_eq_left']
      cases hstate : efcp.xState with
      | eEfcpDeallocated =>
        refine iff_of_false ?_ (by simp)
        rintro ⟨ret, c', hout, -⟩
        cases hout
      | eEfcpAllocated =>
        refine iff_of_true ⟨true, (c.searched xCepId).changeAt e f, rfl, ?_⟩ rfl
        constructor
        · simp [hfind]
        · intro _
          refine ⟨e, efcp, hfind, hefcp, ?_⟩
          rw [EfcpContainer.changeAt, searched_efcps, hefcp, Option.map_some]
        · intro hret
          cases hret
        · exact fun key => searched_lookup c xCepId key

theorem updateReports_iff (c : EfcpContainer) (xFrom xTo : CepId) :
    c.UpdateReports xFrom xTo ↔
      (is_cep_id_ok xFrom = true → is_cep_id_ok xTo = true → c.Usable xFrom) := by
  have hrefused : c.ChangeReports c false xFrom (.redirected xTo) false := by
    constructor
    · simp
    · intro hret
      cases hret
    · exact fun _ => rfl
    · exact fun _ => rfl
  unfold EfcpContainer.UpdateReports xEfcpConnectionUpdate
  cases hfrom : is_cep_id_ok xFrom with
  | false => exact iff_of_true ⟨false, c, rfl, hrefused⟩ (by simp)
  | true =>
    cases hto : is_cep_id_ok xTo with
    | false => exact iff_of_true ⟨false, c, rfl, hrefused⟩ (by simp)
    | true => simpa using changeReports_iff c xFrom (.redirected xTo)

/-- A destruction reports what it did exactly when there is nothing to destroy and the search for
it leaves the table. A change does unless it meets an instance which was deallocated. -/
theorem connection_reports_iff (c : EfcpContainer) :
    (∀ xId, c.DestroyReports xId ↔ imapLookup c.xEfcpImapTable xId = none ∧
        (is_cep_id_ok xId = true → c.Marked xId)) ∧
      (∀ xCepId xSrc xDst, c.ModifyReports xCepId xSrc xDst ↔ c.Usable xCepId) ∧
      ∀ xFrom xTo, c.UpdateReports xFrom xTo ↔
        (is_cep_id_ok xFrom = true → is_cep_id_ok xTo = true → c.Usable xFrom) :=
  ⟨destroyReports_iff c, fun xCepId xSrc xDst => changeReports_iff c xCepId (.addressed xSrc xDst),
    updateReports_iff c⟩

/-- The connection of a container is destroyed: the call reports a failure, the CEP-id is no
longer found and the instance stays allocated. -/
theorem destroy_leaks :
    ∃ w c' e, [ConnectionOp.create ⟨2, 7, 1, 255, 255⟩ ⟨true, true, true⟩].foldlM
        (Connections.step ⟨true, false⟩) Connections.init = some w ∧
      imapLookup w.container.xEfcpImapTable 1 = some e ∧
      xEfcpConnectionDestroy w.container 1 = .ok (false, c') ∧
      imapLookup c'.xEfcpImapTable 1 = none ∧ (c'.efcps e).isSome = true ∧
      ¬ w.container.DestroyReports 1 :=
  ⟨_, _, _, rfl, rfl, rfl, rfl, rfl, fun h => by
    have hnone := ((destroyReports_iff _ 1).mp h).1
    cases hnone⟩

end RinaSense.Efcp
