import RinaSense.Common.NameBuild
import RinaSense.Rib.Lock

/-!
# Adding a connection

`xRibConnectionAdd` on a table whose names own the memory of their strings, so that `malloc`
decides whether they can be copied. The row is put in use before the copies and stays so when
one of them fails.
-/

namespace RinaSense.Rib

open Common SerDes Library.Memory

/-- A row whose names own the memory of their strings. -/
structure ConnectionRow where
  xSourceInfo : OwnedName
  xDestinationInfo : OwnedName
  uCdapVersion : UInt8
  uRibVersion : UInt8
  xStatus : ConnectionStatus
  unPort : PortId
deriving DecidableEq

/-- A row whose bytes are all zero. -/
def ConnectionRow.zero : ConnectionRow := ⟨.zero, .zero, 0, 0, .CONNECTION_RELEASED, 0⟩

/-- The row as it is before its names are copied. -/
def ConnectionRow.started (row : ConnectionRow) (unPort : PortId) : ConnectionRow :=
  { row with
    uCdapVersion := 0x01
    uRibVersion := 0x01
    unPort := unPort
    xStatus := .CONNECTION_IN_PROGRESS }

/-- The connections of a RIB with the mutex which guards them. -/
structure ConnectionTable where
  xDoLock : Bool
  xMutex : Bool
  xAppConnections : Fin APP_CONNECTION_TABLE_SIZE → ConnectionRow

namespace ConnectionTable

def vRibLock (t : ConnectionTable) : Exec ConnectionTable :=
  if t.xDoLock then
    if t.xMutex then .error .endless else .ok { t with xMutex := true }
  else .ok t

def vRibUnlock (t : ConnectionTable) : ConnectionTable :=
  if t.xDoLock then { t with xMutex := false } else t

def setRow (t : ConnectionTable) (x : Fin APP_CONNECTION_TABLE_SIZE) (row : ConnectionRow) :
    ConnectionTable :=
  { t with xAppConnections := Function.update t.xAppConnections x row }

def xRibConnectionAdd (h : Heap) (t : ConnectionTable) (pxSrc pxDst : Name) (unPort : PortId) :
    Exec (RsErr × ConnectionTable × Heap) := do
  let t ← t.vRibLock
  match Fin.find? fun x => (t.xAppConnections x).xStatus == .CONNECTION_RELEASED with
  | some x =>
    let pxAppCon := (t.xAppConnections x).started unPort
    let (good, nm, h) ← Common.xNameAssignDup h pxAppCon.xSourceInfo pxSrc
    let pxAppCon := { pxAppCon with xSourceInfo := nm }
    if !good then return (.FAIL, (t.setRow x pxAppCon).vRibUnlock, h)
    else
      let (good, nm, h) ← Common.xNameAssignDup h pxAppCon.xDestinationInfo pxDst
      let pxAppCon := { pxAppCon with xDestinationInfo := nm }
      return (if good then .SUCCESS else .FAIL, (t.setRow x pxAppCon).vRibUnlock, h)
  | none => return (.ERR_RIB_TOO_MANY_CONNECTIONS, t, h)

end ConnectionTable

/-! ### What the rows show -/

section Shows

variable {h h' : Heap} {nm nm' : Name} {name : Rname}

/-- The parts which are there can be read, the others are null. -/
structure ShowsName (h : Heap) (nm : Name) (name : Rname) : Prop where
  processName : Option.Rel (fun p s => h.string (some p) = .ok s) nm.pcProcessName
    name.pcProcessName
  processInstance : Option.Rel (fun p s => h.string (some p) = .ok s) nm.pcProcessInstance
    name.pcProcessInstance
  entityName : Option.Rel (fun p s => h.string (some p) = .ok s) nm.pcEntityName
    name.pcEntityName
  entityInstance : Option.Rel (fun p s => h.string (some p) = .ok s) nm.pcEntityInstance
    name.pcEntityInstance

theorem rel_string_later (hl : Later h h') {p : Option Ptr} {s : Option CString}
    (hr : Option.Rel (fun p s => h.string (some p) = .ok s) p s) :
    Option.Rel (fun p s => h'.string (some p) = .ok s) p s := by
  cases hr with
  | none => exact .none
  | some hs => exact .some (hl.string _ _ hs)

theorem ShowsName.later (hn : ShowsName h nm name) (hl : Later h h') : ShowsName h' nm name where
  processName := rel_string_later hl hn.processName
  processInstance := rel_string_later hl hn.processInstance
  entityName := rel_string_later hl hn.entityName
  entityInstance := rel_string_later hl hn.entityInstance

theorem stringOr_of_rel {p : Option Ptr} {s : Option CString}
    (hr : Option.Rel (fun p s => h.string (some p) = .ok s) p s) :
    h.stringOr p = .ok (s.getD .empty) := by
  cases hr with
  | none => rfl
  | some hs => exact hs

/-- A part which can be read is not null. -/
theorem rel_of_string {p : Option Ptr} {s : CString} (hs : h.string p = .ok s) :
    Option.Rel (fun p s => h.string (some p) = .ok s) p (some s) := by
  cases p with
  | none => cases hs
  | some p => exact .some hs

theorem showsName_of_reads {s₁ s₂ s₃ s₄ : CString} (hr : Reads h nm.strings [s₁, s₂, s₃, s₄]) :
    ShowsName h nm ⟨some s₁, some s₂, some s₃, some s₄⟩ := by
  simp only [Reads, Name.strings, List.forall₂_cons, List.forall₂_nil_left_iff, and_true] at hr
  obtain ⟨hs₁, hs₂, hs₃, hs₄⟩ := hr
  exact ⟨rel_of_string hs₁, rel_of_string hs₂, rel_of_string hs₃, rel_of_string hs₄⟩

/-- A copy is made exactly when there is memory for it. Otherwise only the block of the name is
forgotten. -/
theorem xNameAssignDup_total (pxDst : OwnedName) (hf : h.Fresh) (hn : ShowsName h nm name) :
    ∃ nm' h', Common.xNameAssignDup h pxDst nm = .ok (h.mallocOk h.calls, nm', h') ∧
      Later h h' ∧
      if h.mallocOk h.calls then ShowsName h' nm'.toName (xNameAssignDup name)
      else nm' = { pxDst with pxFree := none } := by
  obtain ⟨nm', h', hrun, hl, hres⟩ := xNameAssignFromPartsDup_total pxDst hf
    (stringOr_of_rel hn.processName) (stringOr_of_rel hn.processInstance)
    (stringOr_of_rel hn.entityName) (stringOr_of_rel hn.processInstance)
  refine ⟨nm', h', hrun, hl, ?_⟩
  split_ifs at hres ⊢
  · exact showsName_of_reads hres
  · exact hres

/-- The row is that of the model without memory. -/
structure ConnectionRow.Shows (h : Heap) (row : ConnectionRow) (a : AppConnection) : Prop where
  source : ShowsName h row.xSourceInfo.toName a.xSourceInfo
  destination : ShowsName h row.xDestinationInfo.toName a.xDestinationInfo
  cdapVersion : a.uCdapVersion = row.uCdapVersion
  ribVersion : a.uRibVersion = row.uRibVersion
  status : a.xStatus = row.xStatus
  port : a.unPort = row.unPort

theorem ConnectionRow.Shows.later {row : ConnectionRow} {a : AppConnection}
    (hr : row.Shows h a) (hl : Later h h') : row.Shows h' a :=
  { hr with
    source := hr.source.later hl
    destination := hr.destination.later hl }

structure ConnectionTable.Shows (h : Heap) (t : ConnectionTable) (r : Ribd) : Prop where
  doLock : r.xDoLock = t.xDoLock
  mutex : r.xMutex = t.xMutex
  rows : ∀ x, (t.xAppConnections x).Shows h (r.xAppConnections x)

theorem ConnectionTable.Shows.setRow {t : ConnectionTable} {r : Ribd} {row : ConnectionRow}
    {a : AppConnection} (ht : t.Shows h r) (hr : row.Shows h a)
    (x : Fin APP_CONNECTION_TABLE_SIZE) : (t.setRow x row).Shows h (r.setConnection x a) where
  doLock := ht.doLock
  mutex := ht.mutex
  rows y := by
    by_cases hy : y = x
    · subst hy
      simpa [ConnectionTable.setRow, Ribd.setConnection] using hr
    · simpa [ConnectionTable.setRow, Ribd.setConnection, hy] using ht.rows y

theorem ConnectionTable.Shows.later {t : ConnectionTable} {r : Ribd} (ht : t.Shows h r)
    (hl : Later h h') : t.Shows h' r :=
  { ht with rows := fun x => (ht.rows x).later hl }

end Shows

/-! ### What an addition does -/

section Added

variable {h h' : Heap} {t t' : ConnectionTable} {r : Ribd} {src dst : Name} {s d : Rname}
  {unPort : PortId} {x : Fin APP_CONNECTION_TABLE_SIZE}

def ConnectionTable.locked (t : ConnectionTable) : ConnectionTable :=
  { t with xMutex := t.xMutex || t.xDoLock }

@[simp] theorem ConnectionTable.locked_rows (t : ConnectionTable) :
    t.locked.xAppConnections = t.xAppConnections := rfl

theorem ConnectionTable.vRibLock_eq_ok :
    t.vRibLock = .ok t' ↔ (t.xDoLock && t.xMutex) = false ∧ t' = t.locked := by
  cases t with
  | mk xDoLock xMutex rows =>
    cases xDoLock <;> cases xMutex <;>
      simp [ConnectionTable.vRibLock, ConnectionTable.locked, eq_comm]

theorem ConnectionTable.vRibUnlock_locked (hl : (t.xDoLock && t.xMutex) = false)
    (x : Fin APP_CONNECTION_TABLE_SIZE) (row : ConnectionRow) :
    (t.locked.setRow x row).vRibUnlock = t.setRow x row := by
  cases t with
  | mk xDoLock xMutex rows =>
    cases xDoLock with
    | false => cases xMutex <;> rfl
    | true =>
      cases xMutex with
      | false => rfl
      | true => cases hl

def ConnectionTable.releasedRow (t : ConnectionTable) : Option (Fin APP_CONNECTION_TABLE_SIZE) :=
  Fin.find? fun x => (t.xAppConnections x).xStatus == .CONNECTION_RELEASED

theorem ConnectionTable.releasedRow_eq_none :
    t.releasedRow = none ↔ ∀ x, (t.xAppConnections x).xStatus ≠ .CONNECTION_RELEASED := by
  simp [ConnectionTable.releasedRow]

/-- Both names can be copied. -/
def CopiesBoth (h : Heap) : Prop :=
  h.mallocOk h.calls = true ∧ h.mallocOk (h.calls + 1) = true

instance (h : Heap) : Decidable (CopiesBoth h) := inferInstanceAs (Decidable (_ ∧ _))

/-- A row which was put in use, with the names as far as they could be copied. -/
structure ConnectionRow.Added (h h' : Heap) (row old : ConnectionRow) (s d : Rname)
    (unPort : PortId) : Prop where
  cdapVersion : row.uCdapVersion = 0x01
  ribVersion : row.uRibVersion = 0x01
  status : row.xStatus = .CONNECTION_IN_PROGRESS
  port : row.unPort = unPort
  source : if h.mallocOk h.calls then ShowsName h' row.xSourceInfo.toName (xNameAssignDup s)
    else row.xSourceInfo.toName = old.xSourceInfo.toName
  destination : if CopiesBoth h then ShowsName h' row.xDestinationInfo.toName (xNameAssignDup d)
    else row.xDestinationInfo.toName = old.xDestinationInfo.toName
  kept : ∀ nm name, ShowsName h nm name → ShowsName h' nm name

variable (unPort) in
/-- The first free row is put in use, whether or not the names can be copied. -/
theorem ConnectionTable.xRibConnectionAdd_new (hf : h.Fresh) (hs : ShowsName h src s)
    (hd : ShowsName h dst d) (hl : (t.xDoLock && t.xMutex) = false)
    (hx : t.releasedRow = some x) :
    ∃ row h', t.xRibConnectionAdd h src dst unPort =
        .ok (if CopiesBoth h then .SUCCESS else .FAIL, t.setRow x row, h') ∧
      row.Added h h' (t.xAppConnections x) s d unPort := by
  obtain ⟨nm₁, h₁, hdup₁, hl₁, hres₁⟩ :=
    xNameAssignDup_total (t.xAppConnections x).xSourceInfo hf hs
  have hlock := ConnectionTable.vRibLock_eq_ok.mpr ⟨hl, rfl⟩
  have hfree : (Fin.find? fun x => (t.xAppConnections x).xStatus ==
      .CONNECTION_RELEASED) = some x := hx
  cases hm₁ : h.mallocOk h.calls with
  | false =>
    have hboth : ¬ CopiesBoth h := by simp [CopiesBoth, hm₁]
    rw [hm₁] at hdup₁ hres₁
    refine ⟨{ (t.xAppConnections x).started unPort with xSourceInfo := nm₁ }, h₁, ?_,
      rfl, rfl, rfl, rfl, ?_, ?_, fun nm name hn => hn.later hl₁⟩
    · rw [if_neg hboth, ConnectionTable.xRibConnectionAdd, hlock]
      simp only [ConnectionTable.locked_rows, ConnectionRow.started, hfree, hdup₁, Exec.ok_bind,
        Bool.not_false, if_true]
      rw [ConnectionTable.vRibUnlock_locked hl]
      rfl
    · rw [if_neg Bool.false_ne_true] at hres₁
      rw [hm₁, if_neg Bool.false_ne_true]
      change nm₁.toName = _
      rw [hres₁]
    · rw [if_neg hboth]
      rfl
  | true =>
    rw [hm₁] at hdup₁ hres₁
    obtain ⟨nm₂, h₂, hdup₂, hl₂, hres₂⟩ :=
      xNameAssignDup_total (t.xAppConnections x).xDestinationInfo hl₁.fresh (hd.later hl₁)
    rw [hl₁.mallocOk, hl₁.calls] at hdup₂ hres₂
    have hboth : CopiesBoth h ↔ h.mallocOk (h.calls + 1) = true := and_iff_right hm₁
    refine ⟨{ (t.xAppConnections x).started unPort with
        xSourceInfo := nm₁, xDestinationInfo := nm₂ }, h₂, ?_,
      rfl, rfl, rfl, rfl, ?_, ?_, fun nm name hn => (hn.later hl₁).later hl₂⟩
    · rw [ConnectionTable.xRibConnectionAdd, hlock]
      simp only [ConnectionTable.locked_rows, ConnectionRow.started, hfree, hdup₁, hdup₂,
        Exec.ok_bind, Bool.not_true, Bool.false_eq_true, if_false, hboth]
      rw [ConnectionTable.vRibUnlock_locked hl]
      rfl
    · rw [hm₁, if_pos rfl]
      rw [if_pos rfl] at hres₁
      exact hres₁.later hl₂
    · simp only [hboth]
      split_ifs at hres₂ ⊢ with hm₂
      · exact hres₂
      · rw [hres₂]

theorem ConnectionTable.xRibConnectionAdd_full (hl : (t.xDoLock && t.xMutex) = false)
    (hx : t.releasedRow = none) :
    t.xRibConnectionAdd h src dst unPort = .ok (.ERR_RIB_TOO_MANY_CONNECTIONS, t.locked, h) := by
  have hnone : (Fin.find? fun x => (t.xAppConnections x).xStatus ==
      .CONNECTION_RELEASED) = none := hx
  rw [ConnectionTable.xRibConnectionAdd, ConnectionTable.vRibLock_eq_ok.mpr ⟨hl, rfl⟩]
  simp only [Exec.ok_bind, ConnectionTable.locked_rows, hnone]
  rfl

theorem ConnectionTable.xRibConnectionAdd_blocked (hl : (t.xDoLock && t.xMutex) = true) :
    t.xRibConnectionAdd h src dst unPort = .error .endless := by
  rw [Bool.and_eq_true] at hl
  simp only [ConnectionTable.xRibConnectionAdd, ConnectionTable.vRibLock, hl.1, hl.2, if_true]
  rfl

/-! ### The model without memory -/

/-- The outcomes of a call whose names are copied as far as there is memory for them. -/
def copyOutcomes (h : Heap) : Outcomes :=
  { Outcomes.allWell with
    sourceDup := h.mallocOk h.calls
    destinationDup := h.mallocOk (h.calls + 1) }

theorem ConnectionTable.Shows.released (ht : t.Shows h r) : t.releasedRow = r.releasedRow := by
  unfold ConnectionTable.releasedRow Ribd.releasedRow
  congr 1
  funext x
  rw [(ht.rows x).status]

/-- An addition only ends without returning when it waits for the mutex. -/
theorem xRibConnectionAdd_eq_error {out : Outcomes} {e : Trap}
    (he : xRibConnectionAdd out r s d unPort = .error e) :
    (r.xDoLock && r.xMutex) = true ∧ e = .endless := by
  cases hl : r.xDoLock && r.xMutex with
  | true =>
    refine ⟨rfl, ?_⟩
    rw [Bool.and_eq_true] at hl
    simp only [xRibConnectionAdd, vRibLock, hl.1, hl.2, if_true] at he
    cases he
    rfl
  | false =>
    rw [xRibConnectionAdd_eq_ok.mpr ⟨hl, rfl⟩] at he
    cases he

theorem copies_iff (h : Heap) :
    ((copyOutcomes h).sourceDup && (copyOutcomes h).destinationDup) = true ↔ CopiesBoth h := by
  simp [copyOutcomes, CopiesBoth]

/-- The row which was added is the new row of the model without memory. -/
theorem ConnectionRow.Added.shows {row old : ConnectionRow} {a : AppConnection}
    (hadd : row.Added h h' old s d unPort) (hold : old.Shows h a) :
    row.Shows h' (newConnection (copyOutcomes h) a s d unPort) where
  source := by
    have hsource := hadd.source
    have hdup : (copyOutcomes h).sourceDup = h.mallocOk h.calls := rfl
    simp only [newConnection]
    rw [← hdup] at hsource
    split_ifs at hsource with hm
    · rw [if_pos hm]
      exact hsource
    · rw [if_neg hm, hsource]
      exact hadd.kept _ _ hold.source
  destination := by
    have hdestination := hadd.destination
    simp only [newConnection, copies_iff]
    split_ifs at hdestination with hboth
    · rw [if_pos hboth]
      exact hdestination
    · rw [if_neg hboth, hdestination]
      exact hadd.kept _ _ hold.destination
  cdapVersion := hadd.cdapVersion.symm
  ribVersion := hadd.ribVersion.symm
  status := hadd.status.symm
  port := hadd.port.symm

theorem ConnectionTable.Shows.of_kept (ht : t.Shows h r)
    (hkept : ∀ nm name, ShowsName h nm name → ShowsName h' nm name) : t.Shows h' r :=
  { ht with
    rows := fun x =>
      { ht.rows x with
        source := hkept _ _ (ht.rows x).source
        destination := hkept _ _ (ht.rows x).destination } }

/-- The addition is the one of the model without memory, whose outcomes `malloc` decides. -/
theorem ConnectionTable.xRibConnectionAdd_refines (hf : h.Fresh) (ht : t.Shows h r)
    (hs : ShowsName h src s) (hd : ShowsName h dst d) :
    (∀ e, Rib.xRibConnectionAdd (copyOutcomes h) r s d unPort = .error e →
      t.xRibConnectionAdd h src dst unPort = .error e) ∧
    ∀ xStatus r', Rib.xRibConnectionAdd (copyOutcomes h) r s d unPort = .ok (xStatus, r') →
      ∃ t' h', t.xRibConnectionAdd h src dst unPort = .ok (xStatus, t', h') ∧ t'.Shows h' r' := by
  constructor
  · intro e he
    obtain ⟨hl, rfl⟩ := xRibConnectionAdd_eq_error he
    rw [ht.doLock, ht.mutex] at hl
    exact ConnectionTable.xRibConnectionAdd_blocked hl
  · intro xStatus r' hr
    obtain ⟨hl, hres⟩ := xRibConnectionAdd_eq_ok.mp hr
    rw [ht.doLock, ht.mutex] at hl
    cases hx : r.releasedRow with
    | none =>
      simp only [hx] at hres
      cases hres
      refine ⟨t.locked, h, ConnectionTable.xRibConnectionAdd_full hl (ht.released.trans hx), ?_⟩
      exact { doLock := ht.doLock, mutex := by simp [Ribd.locked, locked, ht.doLock, ht.mutex],
              rows := ht.rows }
    | some x =>
      simp only [hx, copies_iff] at hres
      cases hres
      obtain ⟨row, h', hrun, hadd⟩ := ConnectionTable.xRibConnectionAdd_new unPort hf hs
        hd hl (ht.released.trans hx)
      exact ⟨_, h', hrun, (ht.of_kept hadd.kept).setRow (hadd.shows (ht.rows x)) x⟩

/-! ### Errors -/

/-- A call which returns an error leaves all rows as they were. -/
def ConnectionTable.AddsAtomically (h : Heap) (t : ConnectionTable) (src dst : Name)
    (unPort : PortId) : Prop :=
  ∀ xStatus t' h', t.xRibConnectionAdd h src dst unPort = .ok (xStatus, t', h') →
    xStatus ≠ .SUCCESS → t'.xAppConnections = t.xAppConnections

/-- An error leaves the rows as they were if and only if the table is full, both names can be
copied, or the call does not get past the lock. -/
theorem connectionAdd_atomic_iff (hf : h.Fresh) (hs : ShowsName h src s)
    (hd : ShowsName h dst d) (t : ConnectionTable) (unPort : PortId) :
    t.AddsAtomically h src dst unPort ↔
      (t.xDoLock && t.xMutex) = true ∨
        (∀ x, (t.xAppConnections x).xStatus ≠ .CONNECTION_RELEASED) ∨ CopiesBoth h := by
  rw [← ConnectionTable.releasedRow_eq_none]
  unfold ConnectionTable.AddsAtomically
  cases hl : t.xDoLock && t.xMutex with
  | true =>
    refine iff_of_true ?_ (.inl rfl)
    rw [ConnectionTable.xRibConnectionAdd_blocked hl]
    intro xStatus t' h' hrun
    cases hrun
  | false =>
    cases hx : t.releasedRow with
    | none =>
      refine iff_of_true ?_ (.inr (.inl rfl))
      rw [ConnectionTable.xRibConnectionAdd_full hl hx]
      intro xStatus t' h' hrun _
      cases hrun
      rfl
    | some x =>
      obtain ⟨row, h', hrun, hadd⟩ :=
        ConnectionTable.xRibConnectionAdd_new unPort hf hs hd hl hx
      rw [hrun]
      by_cases hboth : CopiesBoth h
      · refine iff_of_true ?_ (.inr (.inr hboth))
        intro xStatus t' h'' hrun' hne
        rw [if_pos hboth] at hrun'
        cases hrun'
        exact absurd rfl hne
      · refine iff_of_false (fun hall => ?_) (by simp [hboth])
        have hsame := congrFun (hall _ _ _ rfl (by rw [if_neg hboth]; decide)) x
        have hstatus : (t.xAppConnections x).xStatus = .CONNECTION_RELEASED := by
          simpa using Fin.eq_true_of_find?_eq_some hx
        simp only [ConnectionTable.setRow, Function.update_self] at hsame
        rw [← hsame, hadd.status] at hstatus
        cases hstatus

end Added

/-- A heap without blocks whose `malloc` refuses the requests in the list. -/
def refusingHeap (refused : List ℕ) : Heap where
  mem _ := none
  netbufs _ := none
  rsrcs _ := none
  pools _ := none
  brk := 0
  calls := 0
  mallocOk n := n ∉ refused
  junk _ _ := 0

theorem refusingHeap_fresh (refused : List ℕ) : (refusingHeap refused).Fresh :=
  fun _ _ => ⟨rfl, rfl⟩

/-- A table after `xRibCommonInit`. -/
def ConnectionTable.init (xDoLock : Bool) : ConnectionTable := ⟨xDoLock, false, fun _ => .zero⟩

/-- A name without parts. -/
theorem showsName_zero (h : Heap) :
    ShowsName h OwnedName.zero.toName ⟨none, none, none, none⟩ :=
  ⟨.none, .none, .none, .none⟩

/-- Both names are copied into the first row. -/
theorem connectionAdd_atomic_init :
    (ConnectionTable.init true).AddsAtomically (refusingHeap []) OwnedName.zero.toName
      OwnedName.zero.toName 1 :=
  (connectionAdd_atomic_iff (refusingHeap_fresh []) (showsName_zero _) (showsName_zero _)
    (.init true) 1).mpr (.inr (.inr (by decide)))

/-- There is no memory for the name of the source, and the first row stays in progress. -/
theorem connectionAdd_left :
    ¬ (ConnectionTable.init true).AddsAtomically (refusingHeap [0]) OwnedName.zero.toName
      OwnedName.zero.toName 1 := by
  intro h
  have hsame := congrFun (h .FAIL _ _ rfl (by decide)) 0
  exact absurd (congrArg ConnectionRow.xStatus hsame) (by decide)

end RinaSense.Rib
