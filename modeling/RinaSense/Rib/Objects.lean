import RinaSense.Library.Slots
import RinaSense.Rib.Daemon

/-!
# The object table in memory

`xRibObjectAdd` and `pxRibObjectFind` on objects which the callers own: the table holds their
addresses and an object holds the address of its name, so that a name is read again at every
comparison. An addition takes a row, calls the init method of the object, which may fail, and
fills in the owner at the end.
-/

namespace RinaSense.Rib

open Common Library.Memory Library.Slots

/-! ### Objects and their names -/

/-- The address of a string: of a literal, or of a buffer on the stack. -/
inductive StrPtr
  | literal (text : CString)
  | stack (a : ℕ)
deriving DecidableEq

/-- The address of an object: of a static variable, or of a block of the heap. -/
inductive RibObjPtr
  | static (n : ℕ)
  | heap (n : ℕ)
deriving DecidableEq, Repr

/-- `ribObject_t`, as far as an addition reads or writes it. -/
structure StoredObject where
  ucObjName : StrPtr
  fnInit : Option FnPtr
  pvOwner : Option ℕ
  pvPriv : Option ℕ
  /-- The object is told which RIB it is in. -/
  pxRibd : Bool
deriving DecidableEq

/-- The table of a RIB, with the objects and with the strings which buffers on the stack hold. -/
structure ObjectTable where
  pxRibObjects : Fin RIB_TABLE_SIZE → Option RibObjPtr
  objects : RibObjPtr → StoredObject
  stack : ℕ → CString
  /-- Where the next object is allocated. -/
  brk : ℕ

/-- What the init method of an object makes of its private data, and its status. -/
structure InitOutcome where
  status : RsErr
  pvPriv : Option ℕ
deriving DecidableEq

namespace ObjectTable

def string (t : ObjectTable) : StrPtr → CString
  | .literal text => text
  | .stack a => t.stack a

/-- The name of an object as it reads now. -/
def name (t : ObjectTable) (p : RibObjPtr) : CString := t.string (t.objects p).ucObjName

def setObject (t : ObjectTable) (p : RibObjPtr) (obj : StoredObject) : ObjectTable :=
  { t with objects := Function.update t.objects p obj }

def setRow (t : ObjectTable) (x : Fin RIB_TABLE_SIZE) (p : RibObjPtr) : ObjectTable :=
  { t with pxRibObjects := Function.update t.pxRibObjects x (some p) }

/-- The object with what its init method made of its private data. -/
def setPriv (t : ObjectTable) (pvPriv : Option ℕ) (p : RibObjPtr) : ObjectTable :=
  t.setObject p { t.objects p with pvPriv := pvPriv }

/-- The object once it is told its owner and its RIB. -/
def own (t : ObjectTable) (pvOwner : Option ℕ) (p : RibObjPtr) : ObjectTable :=
  t.setObject p { t.objects p with pvOwner := pvOwner, pxRibd := true }

def xRibObjectAdd (t : ObjectTable) (init : InitOutcome) (pvOwner : Option ℕ) (p : RibObjPtr) :
    RsErr × ObjectTable :=
  match firstFree t.pxRibObjects with
  | none => (.ERR_RIB_TABLE_FULL, t)
  | some x =>
    let t := t.setRow x p
    if (t.objects p).fnInit.isSome then
      let t := t.setPriv init.pvPriv p
      if init.status ≠ .SUCCESS then (.FAIL, t) else (.SUCCESS, t.own pvOwner p)
    else (.SUCCESS, t.own pvOwner p)

def pxRibObjectFind (t : ObjectTable) (ucRibObjectName : CString) : Option RibObjPtr :=
  lookup t.name t.pxRibObjects ucRibObjectName

end ObjectTable

/-- The object has no init method, or its init method succeeds. -/
def StoredObject.Inits (obj : StoredObject) (init : InitOutcome) : Prop :=
  obj.fnInit = none ∨ init.status = .SUCCESS

instance (obj : StoredObject) (init : InitOutcome) : Decidable (obj.Inits init) :=
  inferInstanceAs (Decidable (_ ∨ _))

/-- A failed addition leaves the table alone and its object is not found; after one which
succeeds the object is found, and so is every object which was found before. -/
structure AddsAtomically (t : ObjectTable) (init : InitOutcome) (pvOwner : Option ℕ)
    (p : RibObjPtr) : Prop where
  failed : (t.xRibObjectAdd init pvOwner p).1 ≠ .SUCCESS →
    (t.xRibObjectAdd init pvOwner p).2.pxRibObjects = t.pxRibObjects ∧
      (t.xRibObjectAdd init pvOwner p).2.pxRibObjectFind (t.name p) ≠ some p
  added : (t.xRibObjectAdd init pvOwner p).1 = .SUCCESS →
    (t.xRibObjectAdd init pvOwner p).2.pxRibObjectFind (t.name p) = some p ∧
      ∀ q, t.pxRibObjectFind (t.name q) = some q →
        (t.xRibObjectAdd init pvOwner p).2.pxRibObjectFind (t.name q) = some q

variable {t t' : ObjectTable} {init : InitOutcome} {pvOwner : Option ℕ} {p q : RibObjPtr}
  {x : Fin RIB_TABLE_SIZE} {status : RsErr}

namespace ObjectTable

/-! ### What an addition does -/

theorem setObject_self (p : RibObjPtr) (obj : StoredObject) :
    (t.setObject p obj).objects p = obj := Function.update_self ..

theorem setObject_of_ne (h : q ≠ p) (obj : StoredObject) :
    (t.setObject p obj).objects q = t.objects q := Function.update_of_ne h ..

/-- The names and the init methods of the objects and the place for the next one are as
before. -/
structure SameNames (t t' : ObjectTable) : Prop where
  names : ∀ q, (t'.objects q).ucObjName = (t.objects q).ucObjName
  inits : ∀ q, (t'.objects q).fnInit = (t.objects q).fnInit
  stack : t'.stack = t.stack
  brk : t'.brk = t.brk

theorem SameNames.trans {t'' : ObjectTable} (h : t.SameNames t') (h' : t'.SameNames t'') :
    t.SameNames t'' :=
  ⟨fun q => (h'.names q).trans (h.names q), fun q => (h'.inits q).trans (h.inits q),
    h'.stack.trans h.stack, h'.brk.trans h.brk⟩

theorem SameNames.name (h : t.SameNames t') : t'.name = t.name := by
  funext q
  unfold ObjectTable.name
  rw [h.names q]
  cases (t.objects q).ucObjName with
  | literal text => rfl
  | stack a => exact congrFun h.stack a

theorem sameNames_setRow (x : Fin RIB_TABLE_SIZE) (p : RibObjPtr) : t.SameNames (t.setRow x p) :=
  ⟨fun _ => rfl, fun _ => rfl, rfl, rfl⟩

theorem sameNames_setObject {obj : StoredObject}
    (hname : obj.ucObjName = (t.objects p).ucObjName)
    (hinit : obj.fnInit = (t.objects p).fnInit) : t.SameNames (t.setObject p obj) where
  names q := by
    by_cases hq : q = p
    · subst hq
      rw [setObject_self, hname]
    · rw [setObject_of_ne hq]
  inits q := by
    by_cases hq : q = p
    · subst hq
      rw [setObject_self, hinit]
    · rw [setObject_of_ne hq]
  stack := rfl
  brk := rfl

theorem sameNames_setPriv (pvPriv : Option ℕ) (p : RibObjPtr) :
    t.SameNames (t.setPriv pvPriv p) :=
  sameNames_setObject rfl rfl

theorem sameNames_own (pvOwner : Option ℕ) (p : RibObjPtr) : t.SameNames (t.own pvOwner p) :=
  sameNames_setObject rfl rfl

/-- The table was full and nothing has changed, or the object is in the first free row, whatever
its init method returned. -/
theorem xRibObjectAdd_cases (h : t.xRibObjectAdd init pvOwner p = (status, t')) :
    (firstFree t.pxRibObjects = none ∧ status = .ERR_RIB_TABLE_FULL ∧ t' = t) ∨
      ∃ x, firstFree t.pxRibObjects = some x ∧
        t'.pxRibObjects = Function.update t.pxRibObjects x (some p) ∧ t.SameNames t' ∧
        status = if (t.objects p).Inits init then .SUCCESS else .FAIL := by
  unfold xRibObjectAdd at h
  cases hx : firstFree t.pxRibObjects with
  | none =>
    rw [hx] at h
    cases h
    exact .inl ⟨rfl, rfl, rfl⟩
  | some x =>
    have hrow := sameNames_setRow (t := t) x p
    have hpriv := hrow.trans (sameNames_setPriv init.pvPriv p)
    have hobj : (t.setRow x p).objects p = t.objects p := rfl
    simp only [hx] at h
    refine .inr ⟨x, rfl, ?_⟩
    cases hinit : (t.objects p).fnInit with
    | none =>
      simp only [hobj, hinit, Option.isSome_none, Bool.false_eq_true, if_false] at h
      cases h
      exact ⟨rfl, hrow.trans (sameNames_own pvOwner p), (if_pos (.inl hinit)).symm⟩
    | some fn =>
      simp only [hobj, hinit, Option.isSome_some, if_true] at h
      by_cases hstatus : init.status = .SUCCESS
      · simp only [hstatus, ne_eq, not_true_eq_false, if_false] at h
        cases h
        exact ⟨rfl, hpriv.trans (sameNames_own pvOwner p), (if_pos (.inr hstatus)).symm⟩
      · simp only [ne_eq, hstatus, not_false_eq_true, if_true] at h
        cases h
        refine ⟨rfl, hpriv, (if_neg ?_).symm⟩
        rintro (hnone | hs)
        · rw [hinit] at hnone
          cases hnone
        · exact hstatus hs

theorem find_eq (hn : t.SameNames t') (hr : t'.pxRibObjects = Function.update t.pxRibObjects x
    (some p)) (name : CString) :
    t'.pxRibObjectFind name =
      lookup t.name (Function.update t.pxRibObjects x (some p)) name := by
  rw [pxRibObjectFind, hn.name, hr]

end ObjectTable

/-! ### The table of the daemon -/

/-- The table of the daemon shows the objects at the addresses with the names they have now. -/
structure Shows (view : RibObjPtr → RibObject) (t : ObjectTable) (r : Ribd) : Prop where
  rows : ∀ x, r.pxRibObjects x = (t.pxRibObjects x).map view
  names : ∀ p, (view p).ucObjName = t.name p
  inits : ∀ p, (view p).fnInit = (t.objects p).fnInit

variable {view : RibObjPtr → RibObject} {r : Ribd}

/-- A search finds the object at the address which is found. -/
theorem Shows.find (h : Shows view t r) (name : CString) :
    pxRibObjectFind r (some name) = .ok ((t.pxRibObjectFind name).map view) := by
  unfold pxRibObjectFind
  cases hany : Fin.findSome? r.pxRibObjects with
  | none =>
    have hempty : t.pxRibObjectFind name = none := by
      refine lookup_eq_none.mpr fun x p hp => ?_
      have hx := Fin.findSome?_eq_none_iff.mp hany x
      rw [h.rows x, hp] at hx
      cases hx
    simp only [hempty, Option.map_none]
  | some obj =>
    simp only [deref_some, Exec.ok_bind]
    refine congrArg Except.ok ?_
    rw [ObjectTable.pxRibObjectFind, lookup, Fin.map_findSome?]
    congr 1
    funext x
    rw [h.rows x]
    cases t.pxRibObjects x with
    | none => rfl
    | some p =>
      simp only [Option.map_some, Option.filter_some, h.names p]
      by_cases hp : t.name p = name
      · simp [hp]
      · simp [hp]

/-- An addition to the table of the daemon is one of the object at the address. -/
theorem Shows.add (h : Shows view t r) (out : Outcomes) (pvPriv pvOwner : Option ℕ)
    (p : RibObjPtr) :
    (xRibObjectAdd out r (view p)).xStatus =
        (t.xRibObjectAdd ⟨out.fnInit, pvPriv⟩ pvOwner p).1 ∧
      Shows view (t.xRibObjectAdd ⟨out.fnInit, pvPriv⟩ pvOwner p).2
        (xRibObjectAdd out r (view p)).pxRibd := by
  have hfree : (Fin.find? fun x => (r.pxRibObjects x).isNone) = firstFree t.pxRibObjects := by
    unfold firstFree
    congr 1
    funext x
    rw [h.rows x, Option.isNone_map]
  obtain ⟨⟨status, t'⟩, hadd⟩ : ∃ c, t.xRibObjectAdd ⟨out.fnInit, pvPriv⟩ pvOwner p = c :=
    ⟨_, rfl⟩
  unfold xRibObjectAdd
  rw [hadd, hfree]
  rcases ObjectTable.xRibObjectAdd_cases hadd with ⟨hfull, rfl, rfl⟩ | ⟨x, hx, hrows, hn, hst⟩
  · rw [hfull]
    exact ⟨rfl, h⟩
  · rw [hx]
    refine ⟨?_, fun y => ?_, fun q => ?_, fun q => (h.inits q).trans (hn.inits q).symm⟩
    · rw [hst]
      have hi := h.inits p
      cases hinit : (view p).fnInit with
      | none => simp [StoredObject.Inits, ← hi, hinit]
      | some fn =>
        by_cases hs : out.fnInit = .SUCCESS
        · simp [StoredObject.Inits, hs]
        · simp [StoredObject.Inits, ← hi, hinit, hs]
    · simp only [hrows]
      by_cases hy : y = x
      · subst hy
        rw [Function.update_self, Function.update_self, Option.map_some]
      · rw [Function.update_of_ne hy, Function.update_of_ne hy, h.rows y]
    · rw [hn.name, h.names q]

/-! ### Additions which are all or nothing -/

/-- An addition is atomic exactly when the table is full and the object was not already found in
it, or when there is a free row, the object has no init method which fails, and no other object
is found under its name. -/
theorem objectAdd_atomic_iff (t : ObjectTable) (init : InitOutcome) (pvOwner : Option ℕ)
    (p : RibObjPtr) :
    AddsAtomically t init pvOwner p ↔
      if ∀ x, (t.pxRibObjects x).isSome then t.pxRibObjectFind (t.name p) ≠ some p
      else (t.objects p).Inits init ∧ ∀ q, t.pxRibObjectFind (t.name p) = some q → q = p := by
  obtain ⟨⟨status, t'⟩, hadd⟩ : ∃ r, t.xRibObjectAdd init pvOwner p = r := ⟨_, rfl⟩
  rcases ObjectTable.xRibObjectAdd_cases hadd with ⟨hfull, rfl, rfl⟩ | ⟨x, hfree, hrows, hn, hst⟩
  · rw [if_pos (firstFree_eq_none.mp hfull)]
    constructor
    · intro h
      have hfailed := h.failed (by simp [hadd])
      rw [hadd] at hfailed
      exact hfailed.2
    · refine fun h => ⟨fun _ => ?_, fun hs => ?_⟩
      · rw [hadd]
        exact ⟨rfl, h⟩
      · rw [hadd] at hs
        cases hs
  · have hempty := firstFree_empty hfree
    have hnfull : ¬ ∀ x, (t.pxRibObjects x).isSome := fun hall => by
      have hx := hall x
      rw [hempty] at hx
      cases hx
    have hlookup := lookup_update_iff hempty t.name p
    have hinits : (t.objects p).Inits init ↔ status = .SUCCESS := by
      rw [hst]
      split_ifs with hi
      · exact iff_of_true hi rfl
      · exact iff_of_false hi (fun h => nomatch h)
    rw [if_neg hnfull, ObjectTable.pxRibObjectFind, hinits]
    constructor
    · intro h
      have hs : status = .SUCCESS := by
        by_contra hs
        have hrow := (h.failed (by rw [hadd]; exact hs)).1
        rw [hadd] at hrow
        have hrowx := congrFun (hrows.symm.trans hrow) x
        rw [Function.update_self, hempty] at hrowx
        cases hrowx
      have hadded := h.added (by rw [hadd]; exact hs)
      simp only [hadd, ObjectTable.find_eq hn hrows] at hadded
      exact ⟨hs, hlookup.mp hadded⟩
    · rintro ⟨hs, hq⟩
      refine ⟨fun hne => absurd (by rw [hadd]; exact hs) hne, fun _ => ?_⟩
      simp only [hadd, ObjectTable.find_eq hn hrows]
      exact hlookup.mpr hq

/-- A table without objects, with an object whose init method the caller gives. -/
def initialTable (ucObjName : CString) : ObjectTable where
  pxRibObjects := fun _ => none
  objects := fun _ => ⟨.literal ucObjName, some 1, none, none, false⟩
  stack := fun _ => .empty
  brk := 0

/-- There is no memory for the private data of an object, and the object stays in the table. -/
theorem objectAdd_failed_left :
    ¬ AddsAtomically (initialTable .empty) ⟨.FAIL, none⟩ none (.static 0) := by
  intro h
  have hrow := (h.failed (by decide)).1
  have hrowx := congrFun hrow 0
  revert hrowx
  decide

end RinaSense.Rib
