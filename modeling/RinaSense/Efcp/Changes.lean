import RinaSense.Efcp.Connections

/-!
# Changes of a connection

`xEfcpConnectionModify` and `xEfcpConnectionUpdate`, which look up an instance by a CEP-id and
give its connection other addresses or another destination CEP-id.
-/

namespace RinaSense.Efcp

open Common

def EfcpInstance.addressed (xSrc xDst : Address) (efcp : EfcpInstance) : EfcpInstance :=
  { efcp with
    pxConnection := { efcp.pxConnection with
      xSourceAddress := xSrc
      xDestinationAddress := xDst } }

def EfcpInstance.redirected (xTo : CepId) (efcp : EfcpInstance) : EfcpInstance :=
  { efcp with pxConnection := { efcp.pxConnection with xDestinationCepId := xTo } }

/-- The instance at an address is changed. -/
def EfcpContainer.changeAt (c : EfcpContainer) (e : EfcpPtr) (f : EfcpInstance → EfcpInstance) :
    EfcpContainer :=
  { c with efcps := Function.update c.efcps e ((c.efcps e).map f) }

/-- A deallocated instance is destroyed instead, and the success of that is taken for a
failure. -/
def changeConnection (c : EfcpContainer) (xCepId : CepId) (f : EfcpInstance → EfcpInstance) :
    Exec (Bool × EfcpContainer) :=
  let (pxEfcp, c) := c.pxEfcpImapFind xCepId
  match pxEfcp with
  | none => .ok (false, c)
  | some e => do
    let efcp ← inBounds (c.efcps e)
    if efcp.xState = .eEfcpDeallocated then
      let destroyed ← xEfcpDestroy
      return (!destroyed, c)
    else return (true, c.changeAt e f)

def xEfcpConnectionModify (c : EfcpContainer) (xCepId : CepId) (xSrc xDst : Address) :
    Exec (Bool × EfcpContainer) :=
  changeConnection c xCepId (.addressed xSrc xDst)

def xEfcpConnectionUpdate (c : EfcpContainer) (xFrom xTo : CepId) : Exec (Bool × EfcpContainer) :=
  if is_cep_id_ok xFrom = false then .ok (false, c)
  else if is_cep_id_ok xTo = false then .ok (false, c)
  else changeConnection c xFrom (.redirected xTo)

/-- The instances which are entered in the map are allocated. -/
def EfcpContainer.Live (c : EfcpContainer) : Prop :=
  ∀ xCepId e, imapLookup c.xEfcpImapTable xCepId = some e →
    ∃ efcp, c.efcps e = some efcp ∧ efcp.xState = .eEfcpAllocated

variable {c : EfcpContainer} {e e' : EfcpPtr} {f : EfcpInstance → EfcpInstance}
  {rows : List EfcpImapRow} {xCepId key : CepId} {efcp : EfcpInstance} {src dst : Address}
  {xTo : CepId}

/-! ### The map -/

/-- A search leaves what is found. -/
theorem lookup_markValid (rows : List EfcpImapRow) (key xCepId : CepId) :
    imapLookup (markValid key rows) xCepId = imapLookup rows xCepId := by
  induction rows with
  | nil => rfl
  | cons row rows ih =>
    rw [imapLookup, imapLookup, markValid] at ih
    rw [imapLookup, imapLookup, markValid, List.replaceF_cons]
    by_cases hkey : row.xCepIdKey = key
    · simp only [hkey, if_true, List.find?_cons]
      by_cases hc : key = xCepId
      · simp [hc]
      · simp [hc]
    · simp only [hkey, if_false, List.find?_cons]
      by_cases hc : row.xCepIdKey = xCepId
      · simp [hc]
      · simpa [hc] using ih

/-- The container after a search. -/
def EfcpContainer.searched (c : EfcpContainer) (xCepId : CepId) : EfcpContainer :=
  (c.pxEfcpImapFind xCepId).2

@[simp] theorem searched_lookup (c : EfcpContainer) (key xCepId : CepId) :
    imapLookup (c.searched key).xEfcpImapTable xCepId = imapLookup c.xEfcpImapTable xCepId :=
  lookup_markValid _ key xCepId

@[simp] theorem searched_efcps (c : EfcpContainer) (key : CepId) :
    (c.searched key).efcps = c.efcps := rfl

/-! ### Changes -/

theorem changeAt_self : (c.changeAt e f).efcps e = (c.efcps e).map f := Function.update_self ..

theorem changeAt_of_ne (h : e' ≠ e) : (c.changeAt e f).efcps e' = c.efcps e' :=
  Function.update_of_ne h ..

@[simp] theorem changeAt_table :
    (c.changeAt e f).xEfcpImapTable = c.xEfcpImapTable := rfl

theorem EfcpContainer.Live.searched (h : c.Live) (key : CepId) : (c.searched key).Live := by
  intro xCepId e he
  rw [searched_lookup] at he
  exact h xCepId e he

/-- A change which leaves the state of the instance alone. -/
theorem EfcpContainer.Live.changeAt (h : c.Live) (hf : ∀ efcp, (f efcp).xState = efcp.xState)
    (e : EfcpPtr) : (c.changeAt e f).Live := by
  intro xCepId e' he'
  obtain ⟨efcp, hefcp, hstate⟩ := h xCepId e' he'
  by_cases hee : e' = e
  · subst hee
    refine ⟨f efcp, ?_, (hf efcp).trans hstate⟩
    rw [changeAt_self, hefcp, Option.map_some]
  · exact ⟨efcp, by rw [changeAt_of_ne hee, hefcp], hstate⟩

theorem changeConnection_none (h : imapLookup c.xEfcpImapTable xCepId = none) :
    changeConnection c xCepId f = .ok (false, c.searched xCepId) := by
  simp only [changeConnection, EfcpContainer.pxEfcpImapFind, h]
  rfl

theorem changeConnection_some (hlive : c.Live)
    (h : imapLookup c.xEfcpImapTable xCepId = some e) :
    changeConnection c xCepId f = .ok (true, (c.searched xCepId).changeAt e f) := by
  obtain ⟨efcp, hefcp, hstate⟩ := hlive xCepId e h
  simp only [changeConnection, EfcpContainer.pxEfcpImapFind, h, hefcp, inBounds_some,
    Exec.ok_bind, hstate, reduceCtorEq, if_false]
  rfl

/-- The update goes through for valid CEP-ids of which the first is in the map. -/
def EfcpContainer.Updates (c : EfcpContainer) (xFrom xTo : CepId) : Prop :=
  is_cep_id_ok xFrom = true ∧ is_cep_id_ok xTo = true ∧
    (imapLookup c.xEfcpImapTable xFrom).isSome

instance (c : EfcpContainer) (xFrom xTo : CepId) : Decidable (c.Updates xFrom xTo) :=
  inferInstanceAs (Decidable (_ ∧ _))

theorem update_refused (h : ¬ c.Updates xCepId xTo) :
    ∃ c', xEfcpConnectionUpdate c xCepId xTo = .ok (false, c') ∧ c'.efcps = c.efcps := by
  unfold xEfcpConnectionUpdate
  cases hsource : is_cep_id_ok xCepId with
  | false => exact ⟨c, rfl, rfl⟩
  | true =>
    cases hto : is_cep_id_ok xTo with
    | false => exact ⟨c, rfl, rfl⟩
    | true =>
      have hnone : imapLookup c.xEfcpImapTable xCepId = none := by
        rw [← Option.not_isSome_iff_eq_none]
        exact fun hsome => h ⟨hsource, hto, hsome⟩
      exact ⟨c.searched xCepId, changeConnection_none hnone, rfl⟩

theorem update_done (hlive : c.Live) (h : c.Updates xCepId xTo)
    (he : imapLookup c.xEfcpImapTable xCepId = some e) :
    xEfcpConnectionUpdate c xCepId xTo =
      .ok (true, (c.searched xCepId).changeAt e (.redirected xTo)) := by
  rw [xEfcpConnectionUpdate, h.1, h.2.1]
  exact changeConnection_some hlive he

/-! ### Changes which change nothing -/

/-- The connection of the instance has the addresses. -/
def EfcpContainer.HasAddresses (c : EfcpContainer) (e : EfcpPtr) (src dst : Address) : Prop :=
  ∃ efcp, c.efcps e = some efcp ∧ efcp.pxConnection.xSourceAddress = src ∧
    efcp.pxConnection.xDestinationAddress = dst

/-- The connection of the instance leads to the CEP-id. -/
def EfcpContainer.HasDestination (c : EfcpContainer) (e : EfcpPtr) (xTo : CepId) : Prop :=
  ∃ efcp, c.efcps e = some efcp ∧ efcp.pxConnection.xDestinationCepId = xTo

theorem addressed_eq_iff :
    efcp.addressed src dst = efcp ↔
      efcp.pxConnection.xSourceAddress = src ∧ efcp.pxConnection.xDestinationAddress = dst := by
  obtain ⟨⟨port, source, destination, sourceCep, destCep, qos, hp⟩, sv, rmt, state⟩ := efcp
  simp [EfcpInstance.addressed, eq_comm]

theorem redirected_eq_iff :
    efcp.redirected xTo = efcp ↔ efcp.pxConnection.xDestinationCepId = xTo := by
  obtain ⟨⟨port, source, destination, sourceCep, destCep, qos, hp⟩, sv, rmt, state⟩ := efcp
  simp [EfcpInstance.redirected, eq_comm]

/-- The two changes touch different fields. -/
theorem both_eq_iff :
    (efcp.addressed src dst).redirected xTo = efcp ↔
      efcp.addressed src dst = efcp ∧ efcp.redirected xTo = efcp := by
  obtain ⟨⟨port, source, destination, sourceCep, destCep, qos, hp⟩, sv, rmt, state⟩ := efcp
  simp [EfcpInstance.redirected, EfcpInstance.addressed, and_assoc]

theorem addressed_same_iff (h : c.efcps e = some efcp) :
    (c.efcps e).map (.addressed src dst) = c.efcps e ↔ c.HasAddresses e src dst := by
  rw [EfcpContainer.HasAddresses, h]
  simp only [Option.map_some, Option.some.injEq, exists_eq_left', addressed_eq_iff]

theorem redirected_same_iff (h : c.efcps e = some efcp) :
    (c.efcps e).map (.redirected xTo) = c.efcps e ↔ c.HasDestination e xTo := by
  rw [EfcpContainer.HasDestination, h]
  simp only [Option.map_some, Option.some.injEq, exists_eq_left', redirected_eq_iff]

/-! ### Two changes -/

variable {e₁ e₂ : EfcpPtr}

/-- The container after the changes of the addresses of one instance and of the destination of
another one. -/
def EfcpContainer.changedBoth (c : EfcpContainer) (e₁ e₂ : EfcpPtr) (src dst : Address)
    (xTo : CepId) : EfcpContainer :=
  (c.changeAt e₁ (.addressed src dst)).changeAt e₂ (.redirected xTo)

/-- All instances but one are as before exactly when a change of another one changes nothing. -/
theorem others_same_iff {efcp₁ efcp₂ : EfcpInstance} (h₁ : c.efcps e₁ = some efcp₁)
    (h₂ : c.efcps e₂ = some efcp₂) :
    (∀ e', e' ≠ e → (c.changedBoth e₁ e₂ src dst xTo).efcps e' = c.efcps e') ↔
      (e₁ ≠ e → c.HasAddresses e₁ src dst) ∧ (e₂ ≠ e → c.HasDestination e₂ xTo) := by
  unfold EfcpContainer.changedBoth
  rw [← addressed_same_iff h₁, ← redirected_same_iff h₂]
  by_cases h12 : e₂ = e₁
  · subst h12
    have hboth : (c.efcps e₂).map (fun efcp => (efcp.addressed src dst).redirected xTo) =
        c.efcps e₂ ↔ (c.efcps e₂).map (.addressed src dst) = c.efcps e₂ ∧
          (c.efcps e₂).map (.redirected xTo) = c.efcps e₂ := by
      rw [h₁]
      simp only [Option.map_some, Option.some.injEq, both_eq_iff]
    have hself : ((c.changeAt e₂ (.addressed src dst)).changeAt e₂ (.redirected xTo)).efcps e₂ =
        (c.efcps e₂).map fun efcp => (efcp.addressed src dst).redirected xTo := by
      rw [changeAt_self, changeAt_self, Option.map_map]
      rfl
    rw [← imp_and, ← hboth, ← hself]
    constructor
    · intro h hne
      exact h e₂ hne
    · intro h e' he'
      by_cases he2 : e' = e₂
      · subst he2
        exact h he'
      · rw [changeAt_of_ne he2, changeAt_of_ne he2]
  · have hat₁ : ((c.changeAt e₁ (.addressed src dst)).changeAt e₂ (.redirected xTo)).efcps e₁ =
        (c.efcps e₁).map (.addressed src dst) := by
      rw [changeAt_of_ne (Ne.symm h12), changeAt_self]
    have hat₂ : ((c.changeAt e₁ (.addressed src dst)).changeAt e₂ (.redirected xTo)).efcps e₂ =
        (c.efcps e₂).map (.redirected xTo) := by
      rw [changeAt_self, changeAt_of_ne h12]
    rw [← hat₁, ← hat₂]
    constructor
    · intro h
      exact ⟨fun hne => h e₁ hne, fun hne => h e₂ hne⟩
    · rintro ⟨hsame₁, hsame₂⟩ e' he'
      by_cases he2 : e' = e₂
      · subst he2
        exact hsame₂ he'
      · by_cases he1 : e' = e₁
        · subst he1
          exact hsame₁ he'
        · rw [changeAt_of_ne he2, changeAt_of_ne he1]

/-- The source address of an instance is the new one if its addresses were changed. -/
theorem source_after (h : c.efcps e = some efcp) (e₁ e₂ : EfcpPtr) (src dst : Address)
    (xTo : CepId) :
    ∃ efcp', (c.changedBoth e₁ e₂ src dst xTo).efcps e = some efcp' ∧
      efcp'.pxConnection.xSourceAddress =
        if e₁ = e then src else efcp.pxConnection.xSourceAddress := by
  obtain ⟨efcp₁, hefcp₁, hsource⟩ : ∃ efcp₁, (c.changeAt e₁ (.addressed src dst)).efcps e =
      some efcp₁ ∧ efcp₁.pxConnection.xSourceAddress =
        if e₁ = e then src else efcp.pxConnection.xSourceAddress := by
    by_cases h1 : e₁ = e
    · subst h1
      exact ⟨efcp.addressed src dst, by rw [changeAt_self, h, Option.map_some], (if_pos rfl).symm⟩
    · exact ⟨efcp, by rw [changeAt_of_ne (Ne.symm h1), h], (if_neg h1).symm⟩
  unfold EfcpContainer.changedBoth
  by_cases h2 : e = e₂
  · subst h2
    refine ⟨efcp₁.redirected xTo, by rw [changeAt_self, hefcp₁, Option.map_some], ?_⟩
    exact hsource
  · exact ⟨efcp₁, by rw [changeAt_of_ne h2, hefcp₁], hsource⟩

/-- One change leaves all instances as before exactly when it changes nothing. -/
theorem all_same_iff (h : c.efcps e = some efcp) :
    (c.changeAt e (.addressed src dst)).efcps = c.efcps ↔ c.HasAddresses e src dst := by
  rw [← addressed_same_iff h]
  constructor
  · intro hsame
    have hat := congrFun hsame e
    rwa [changeAt_self] at hat
  · intro hsame
    funext e'
    by_cases he' : e' = e
    · subst he'
      rw [changeAt_self, hsame]
    · rw [changeAt_of_ne he']

end RinaSense.Efcp
