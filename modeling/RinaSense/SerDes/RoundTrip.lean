import RinaSense.SerDes.Message

/-!
# Round trip of CDAP messages

What the decoder makes of an encoded message whose strings fit their arrays. The space of
the result reason begins in the middle of that of the object name, and it is filled last.
-/

namespace RinaSense.SerDes

open Common Library.Memory

/-- A string which may be absent, as it is read back. -/
def orEmpty (s : Option CString) : CString := s.getD CString.empty

def FitsIn (n : ℕ) (s : Option CString) : Prop := (orEmpty s).length < n

instance (n : ℕ) (s : Option CString) : Decidable (FitsIn n s) :=
  inferInstanceAs (Decidable (_ < _))

def Rname.Fits (name : Rname) : Prop :=
  FitsIn sizeNamePart name.pcProcessName ∧ FitsIn sizeNamePart name.pcProcessInstance ∧
    FitsIn sizeNamePart name.pcEntityName ∧ FitsIn sizeNamePart name.pcEntityInstance

/-- All strings and the value fit their arrays. -/
structure Fits (msg : MessageCdap) : Prop where
  objClass : FitsIn sizeObjClass msg.pcObjClass
  objName : FitsIn sizeObjName msg.pcObjName
  resultReason : FitsIn sizeResultReason msg.pcResultReason
  authName : FitsIn sizeAuthName msg.xAuthPolicy.pcName
  authVersion : FitsIn sizeVersions msg.xAuthPolicy.pcVersion
  destination : msg.xDestinationInfo.Fits
  source : msg.xSourceInfo.Fits
  objValue : ∀ value, msg.pxObjValue = some value → value.length ≤ sizeByteval

/-- The parts of a decoded name are those of a name. -/
structure DupName.Reads (dup : DupName) (name : Rname) : Prop where
  processName : cstring (dup.pxFree.drop dup.pcProcessName) = some (orEmpty name.pcProcessName)
  processInstance :
    cstring (dup.pxFree.drop dup.pcProcessInstance) = some (orEmpty name.pcProcessInstance)
  entityName : cstring (dup.pxFree.drop dup.pcEntityName) = some (orEmpty name.pcEntityName)
  entityInstance :
    cstring (dup.pxFree.drop dup.pcEntityInstance) = some (orEmpty name.pcEntityInstance)

/-- The string at an offset behind the structure. -/
def DecodedCdap.string (d : DecodedCdap) (o : ℕ) : Option CString := cstring (d.tail.drop o)

def DecodedCdap.value (d : DecodedCdap) : Option Bytes :=
  d.pxObjValue.map fun p => (d.tail.drop p.1).take p.2

/-- A decoded message has the contents of the message it was made from. -/
structure SameContent (msg : MessageCdap) (d : DecodedCdap) : Prop where
  opCode : d.eOpCode = msg.eOpCode
  objClass : d.string d.pcObjClass = some (orEmpty msg.pcObjClass)
  objName : d.string d.pcObjName = some (orEmpty msg.pcObjName)
  resultReason : d.string d.pcResultReason = some (orEmpty msg.pcResultReason)
  authName : d.string d.pcAuthName = some (orEmpty msg.xAuthPolicy.pcName)
  authVersion : d.string d.pcAuthVersion = some (orEmpty msg.xAuthPolicy.pcVersion)
  destination : d.xDestinationInfo.Reads msg.xDestinationInfo
  source : d.xSourceInfo.Reads msg.xSourceInfo
  objValue : d.value = msg.pxObjValue

/-! ### Copies into arrays -/

theorem cstring_copyField {n : ℕ} {s : Option CString} (h : FitsIn n s) :
    cstring (copyField n s).chars = some (orEmpty s) := by
  cases s with
  | none => exact cstring_zeros h
  | some s => exact cstring_strncpy h

theorem copyTo_ok {b bs : Bytes} {o : ℕ} (h : o + bs.length ≤ b.length) :
    copyTo b o bs = .ok (splice b o bs) := if_pos h

theorem strcpy_ok {b : Bytes} {o : ℕ} {s : CString} (h : o + s.length + 1 ≤ b.length) :
    strcpy b o s = .ok (splice b o s.terminated) := by
  apply copyTo_ok
  rw [CString.terminated_length]
  omega

theorem strcpyField_ok {n : ℕ} {s : Option CString} (hfit : FitsIn n s) {tail : Bytes} {o : ℕ}
    (h : o + n ≤ tail.length) :
    strcpyField tail o (copyField n s) = .ok (splice tail o (orEmpty s).terminated) := by
  have hlen : o + (orEmpty s).length + 1 ≤ tail.length := by
    unfold FitsIn at hfit
    omega
  cases s with
  | none => exact strcpy_ok hlen
  | some s =>
    have hread : cstring (strncpy n s) = some s := cstring_strncpy hfit
    simp only [strcpyField, copyField, hread, inBounds_some, if_true, Exec.ok_bind]
    exact strcpy_ok hlen

/-- A copied string in an array of the structure. -/
theorem cstring_splice_zeros {n : ℕ} {s : CString} (h : s.length < n) :
    cstring (splice (zeros n) 0 s.terminated) = some s := by
  have hat : StringAt (splice (zeros n) 0 s.terminated) 0 s :=
    stringAt_splice (by rw [zeros, List.length_replicate]; omega)
  exact hat.cstring

/-! ### Names -/

theorem prvNameCopyAssignParts_reads (name : Rname) :
    (prvNameCopyAssignParts (orEmpty name.pcProcessName) (orEmpty name.pcProcessInstance)
      (orEmpty name.pcEntityName) (orEmpty name.pcEntityInstance)).Reads name := by
  generalize hpn : orEmpty name.pcProcessName = pn
  generalize hpi : orEmpty name.pcProcessInstance = pi
  generalize hen : orEmpty name.pcEntityName = en
  generalize hei : orEmpty name.pcEntityInstance = ei
  have hblock : (prvNameCopyAssignParts pn pi en ei).pxFree =
      pn.terminated ++ (pi.terminated ++ (en.terminated ++ (ei.terminated ++ []))) := by
    simp [prvNameCopyAssignParts]
  constructor
  · rw [hpn]
    have h : (prvNameCopyAssignParts pn pi en ei).pxFree = [] ++ (pn.terminated ++ _) := hblock
    exact cstring_drop h rfl
  · rw [hpi]
    exact cstring_drop hblock (by simp [prvNameCopyAssignParts])
  · rw [hen]
    rw [← List.append_assoc] at hblock
    exact cstring_drop hblock (by simp [prvNameCopyAssignParts])
  · rw [hei]
    rw [← List.append_assoc, ← List.append_assoc] at hblock
    exact cstring_drop hblock (by simp [prvNameCopyAssignParts]; omega)

theorem xNameAssignFromPartsDup_ok {name : Rname} (h : name.Fits) (memory : Bool) :
    xNameAssignFromPartsDup memory (copyField sizeNamePart name.pcProcessName).chars
        (copyField sizeNamePart name.pcProcessInstance).chars
        (copyField sizeNamePart name.pcEntityName).chars
        (copyField sizeNamePart name.pcEntityInstance).chars =
      .ok (if memory then some (prvNameCopyAssignParts (orEmpty name.pcProcessName)
        (orEmpty name.pcProcessInstance) (orEmpty name.pcEntityName)
        (orEmpty name.pcEntityInstance)) else none) := by
  obtain ⟨hpn, hpi, hen, hei⟩ := h
  simp only [xNameAssignFromPartsDup, cstring_copyField hpn, cstring_copyField hpi,
    cstring_copyField hen, cstring_copyField hei, inBounds_some, Exec.ok_bind]
  rfl

/-! ### The layout behind the structure -/

/-- What is left of an object name under a result reason. -/
def underReason (name reason : CString) : CString :=
  if name.length < sizeResultReason then name else (name.take sizeResultReason).append reason

/-- An object name survives when it ends in front of the result reason, or goes on as it. -/
theorem underReason_eq_iff (name reason : CString) :
    underReason name reason = name ↔
      name.length < sizeResultReason ∨ name.bytes.drop sizeResultReason = reason.bytes := by
  unfold underReason
  split_ifs with h
  · simp [h]
  · simp only [h, false_or]
    constructor
    · intro heq
      have hbytes := congrArg CString.bytes heq
      have hsplit := List.take_append_drop sizeResultReason name.bytes
      rw [← hsplit] at hbytes
      exact (List.append_cancel_left hbytes).symm
    · intro heq
      apply CString.ext
      change name.bytes.take sizeResultReason ++ reason.bytes = name.bytes
      rw [← heq, List.take_append_drop]

/-- The strings behind the structure, once they are all copied. -/
structure Layout (tail : Bytes) (cls name auth version reason : CString) : Prop where
  sized : tail.length = sizeTail
  objClass : StringAt tail offObjClass cls
  objName : StringAt tail offObjName (underReason name reason)
  authName : StringAt tail offAuthName auth
  authVersion : StringAt tail offAuthVersion version
  resultReason : StringAt tail offResultReason reason

theorem splice_sized {tail : Bytes} (h : tail.length = sizeTail) {o : ℕ} {bs : Bytes}
    (hbs : o + bs.length ≤ sizeTail) : (splice tail o bs).length = sizeTail := by
  rw [splice_length (by rw [h]; exact hbs), h]

theorem strcpy_sized {tail : Bytes} (h : tail.length = sizeTail) (o : ℕ) (s : CString)
    (hs : o + s.length < sizeTail) : (splice tail o s.terminated).length = sizeTail := by
  apply splice_sized h
  rw [CString.terminated_length]
  omega

/-- Copying the strings one after the other, the result reason last. -/
theorem layout_splices {stale : Bytes} {cls name auth version reason : CString}
    (hsized : stale.length = sizeTail) (hcls : cls.length < sizeObjClass)
    (hname : name.length < sizeObjName) (hauth : auth.length < sizeAuthName)
    (hversion : version.length < sizeVersions) (hreason : reason.length < sizeResultReason) :
    Layout (splice (splice (splice (splice (splice stale offObjClass cls.terminated)
      offObjName name.terminated) offAuthName auth.terminated)
      offAuthVersion version.terminated) offResultReason reason.terminated)
      cls name auth version reason := by
  have hoffs : offObjClass = 0 ∧ offObjName = 40 ∧ offResultReason = 60 ∧ offAuthName = 100 ∧
      offAuthVersion = 140 ∧ sizeTail = 710 := ⟨rfl, rfl, rfl, rfl, rfl, rfl⟩
  have hsizes : sizeObjClass = 40 ∧ sizeObjName = 40 ∧ sizeResultReason = 20 ∧
      sizeAuthName = 40 ∧ sizeVersions = 40 := ⟨rfl, rfl, rfl, rfl, rfl⟩
  have hclsT := cls.terminated_length
  have hnameT := name.terminated_length
  have hauthT := auth.terminated_length
  have hversionT := version.terminated_length
  have hreasonT := reason.terminated_length
  let t₁ := splice stale offObjClass cls.terminated
  let t₂ := splice t₁ offObjName name.terminated
  let t₃ := splice t₂ offAuthName auth.terminated
  let t₄ := splice t₃ offAuthVersion version.terminated
  have h₁ : t₁.length = sizeTail := splice_sized hsized (by omega)
  have h₂ : t₂.length = sizeTail := splice_sized h₁ (by omega)
  have h₃ : t₃.length = sizeTail := splice_sized h₂ (by omega)
  have h₄ : t₄.length = sizeTail := splice_sized h₃ (by omega)
  have hcls₁ : StringAt t₁ offObjClass cls := stringAt_splice (by omega)
  have hcls₂ : StringAt t₂ offObjClass cls := hcls₁.splice (by omega) (by omega)
  have hcls₃ : StringAt t₃ offObjClass cls := hcls₂.splice (by omega) (by omega)
  have hcls₄ : StringAt t₄ offObjClass cls := hcls₃.splice (by omega) (by omega)
  have hname₂ : StringAt t₂ offObjName name := stringAt_splice (by omega)
  have hname₃ : StringAt t₃ offObjName name := hname₂.splice (by omega) (by omega)
  have hname₄ : StringAt t₄ offObjName name := hname₃.splice (by omega) (by omega)
  have hauth₃ : StringAt t₃ offAuthName auth := stringAt_splice (by omega)
  have hauth₄ : StringAt t₄ offAuthName auth := hauth₃.splice (by omega) (by omega)
  have hversion₄ : StringAt t₄ offAuthVersion version := stringAt_splice (by omega)
  have hreason₅ : StringAt (splice t₄ offResultReason reason.terminated) offResultReason reason :=
    stringAt_splice (by omega)
  refine ⟨splice_sized h₄ (by omega), hcls₄.splice (by omega) (by omega), ?_,
    hauth₄.splice (by omega) (by omega), hversion₄.splice (by omega) (by omega), hreason₅⟩
  unfold underReason
  split_ifs with hshort
  · exact hname₄.splice (by omega) (by omega)
  · exact hname₄.overwrite (n := sizeResultReason) (by omega) (by omega)

/-- The object value lies behind all the strings. -/
theorem Layout.value {tail value : Bytes} {cls name auth version reason : CString}
    (hl : Layout tail cls name auth version reason) (hcls : cls.length < sizeObjClass)
    (hname : (underReason name reason).length < sizeObjName) (hauth : auth.length < sizeAuthName)
    (hversion : version.length < sizeVersions) (hreason : reason.length < sizeResultReason)
    (hvalue : value.length ≤ sizeByteval) :
    Layout (splice tail (offObjValue + sizeofSerObjectValue) value) cls name auth version
      reason := by
  have hoffs : offObjClass = 0 ∧ offObjName = 40 ∧ offResultReason = 60 ∧ offAuthName = 100 ∧
      offAuthVersion = 140 ∧ offObjValue = 180 ∧ sizeofSerObjectValue = 16 ∧ sizeTail = 710 :=
    ⟨rfl, rfl, rfl, rfl, rfl, rfl, rfl, rfl⟩
  have hsizes : sizeObjClass = 40 ∧ sizeObjName = 40 ∧ sizeResultReason = 20 ∧
      sizeAuthName = 40 ∧ sizeVersions = 40 ∧ sizeByteval = 512 :=
    ⟨rfl, rfl, rfl, rfl, rfl, rfl⟩
  have hsized := hl.sized
  exact ⟨splice_sized hl.sized (by omega), hl.objClass.splice (by omega) (by omega),
    hl.objName.splice (by omega) (by omega), hl.authName.splice (by omega) (by omega),
    hl.authVersion.splice (by omega) (by omega), hl.resultReason.splice (by omega) (by omega)⟩

/-! ### Decoding what was encoded -/

/-- The version of the authentication policy as it goes over the wire. -/
def sentVersion (auth : AuthPolicy) : CString :=
  match auth.pcName with
  | none => CString.empty
  | some _ => orEmpty auth.pcVersion

/-- An authentication policy with a name has a version. -/
def AuthEncodable (auth : AuthPolicy) : Prop :=
  auth.pcName.isSome = true → auth.pcVersion.isSome = true

/-- The two copies of the authentication policy. -/
theorem strcpy_auth {tail : Bytes} {name version : CString} (hsized : tail.length = sizeTail)
    (hname : name.length < sizeAuthName) (hversion : version.length < sizeVersions) :
    (do
      let tail ← strcpy tail offAuthName name
      strcpy tail offAuthVersion version) = (.ok (splice (splice tail offAuthName
        name.terminated) offAuthVersion version.terminated) : Exec Bytes) := by
  have hoffs : offAuthName = 100 ∧ offAuthVersion = 140 ∧ sizeTail = 710 := ⟨rfl, rfl, rfl⟩
  have hsizes : sizeAuthName = 40 ∧ sizeVersions = 40 := ⟨rfl, rfl⟩
  have hnameT := name.terminated_length
  have hlen : (splice tail offAuthName name.terminated).length = sizeTail :=
    splice_sized hsized (by omega)
  rw [strcpy_ok (by omega), Exec.ok_bind, strcpy_ok (by omega)]

theorem fillAuthPolicy_ok {auth : AuthPolicy} (hname : FitsIn sizeAuthName auth.pcName)
    (hversion : FitsIn sizeVersions auth.pcVersion) (henc : AuthEncodable auth) :
    ∃ pb, fillAuthPolicy auth = .ok pb ∧ ∀ tail : Bytes, tail.length = sizeTail →
      strcpyAuth tail pb = .ok (splice (splice tail offAuthName
        (orEmpty auth.pcName).terminated) offAuthVersion (sentVersion auth).terminated) := by
  obtain ⟨pcName, pcVersion⟩ := auth
  cases pcName with
  | none =>
    refine ⟨_, rfl, fun tail hsized => ?_⟩
    exact strcpy_auth hsized hname (by decide)
  | some name =>
    cases pcVersion with
    | none => exact absurd (henc rfl) (by simp)
    | some version =>
      have hfit : (zeros sizeAuthName).length = 40 := List.length_replicate
      have hname' : name.length < 40 := hname
      have hcopy : strcpy (zeros sizeAuthName) 0 name =
          .ok (splice (zeros sizeAuthName) 0 name.terminated) := strcpy_ok (by omega)
      refine ⟨_, by simp only [fillAuthPolicy, hcopy, deref_some, Exec.ok_bind]; rfl,
        fun tail hsized => ?_⟩
      have hread : cstring (splice (zeros sizeAuthName) 0 name.terminated) = some name :=
        cstring_splice_zeros hname
      have hread' : cstring (strncpy sizeVersions version) = some version :=
        cstring_strncpy hversion
      simp only [strcpyAuth, hread, hread', inBounds_some, Exec.ok_bind, if_true]
      exact strcpy_auth hsized hname hversion

/-- A policy with a name but no version is not encoded. -/
theorem fillAuthPolicy_fails {auth : AuthPolicy} (henc : ¬ AuthEncodable auth) :
    ∃ t, fillAuthPolicy auth = .error t := by
  obtain ⟨pcName, pcVersion⟩ := auth
  cases pcName with
  | none => exact absurd (fun h => absurd h (by simp)) henc
  | some name =>
    cases pcVersion with
    | some version => exact absurd (fun _ => rfl) henc
    | none =>
      cases hcopy : strcpy (zeros sizeAuthName) 0 name with
      | error t => exact ⟨t, by simp [fillAuthPolicy, hcopy]⟩
      | ok b => exact ⟨.nullPointer, by simp [fillAuthPolicy, hcopy]⟩

/-- Where the value comes to lie, and the space behind the structure with it. -/
def placeValue (tail : Bytes) : Option Bytes → Option (ℕ × ℕ) × Bytes
  | none => (none, tail)
  | some bs => (some (offObjValue + sizeofSerObjectValue, bs.length),
      splice tail (offObjValue + sizeofSerObjectValue) bs)

theorem fillObjValue_ok {value : Option Bytes}
    (hfit : ∀ bs, value = some bs → bs.length ≤ sizeByteval) :
    ∃ pb, fillObjValue value = .ok pb ∧ ∀ tail : Bytes, tail.length = sizeTail →
      copyObjValue tail pb = .ok (placeValue tail value) := by
  cases value with
  | none => exact ⟨_, rfl, fun tail _ => rfl⟩
  | some bs =>
    have hlen : bs.length ≤ 512 := hfit bs rfl
    have hzeros : (zeros sizeByteval).length = 512 := List.length_replicate
    have hfits : 0 + bs.length ≤ (zeros sizeByteval).length := by omega
    have hcopy : copyTo (zeros sizeByteval) 0 bs = .ok (splice (zeros sizeByteval) 0 bs) :=
      copyTo_ok hfits
    refine ⟨_, by simp only [fillObjValue, hcopy, Exec.ok_bind]; rfl, fun tail hsized => ?_⟩
    have hbytes : (splice (zeros sizeByteval) 0 bs).take bs.length = bs :=
      take_drop_splice_self hfits
    have hoffs : offObjValue = 180 ∧ sizeofSerObjectValue = 16 ∧ sizeTail = 710 :=
      ⟨rfl, rfl, rfl⟩
    simp only [copyObjValue, if_true, hbytes]
    rw [copyTo_ok (by omega)]
    rfl

variable {pb_decode : Bytes → Option PbMessage} {mem : Memory} {msg : MessageCdap}

/-- What a decoded message holds of the message which was encoded: everything, but the end
of a long object name and the version of a policy without a name. -/
structure DecodedFrom (msg : MessageCdap) (d : DecodedCdap) : Prop where
  opCode : d.eOpCode = msg.eOpCode
  objClass : d.string d.pcObjClass = some (orEmpty msg.pcObjClass)
  objName : d.string d.pcObjName =
    some (underReason (orEmpty msg.pcObjName) (orEmpty msg.pcResultReason))
  resultReason : d.string d.pcResultReason = some (orEmpty msg.pcResultReason)
  authName : d.string d.pcAuthName = some (orEmpty msg.xAuthPolicy.pcName)
  authVersion : d.string d.pcAuthVersion = some (sentVersion msg.xAuthPolicy)
  destination : d.xDestinationInfo.Reads msg.xDestinationInfo
  source : d.xSourceInfo.Reads msg.xSourceInfo
  objValue : d.value = msg.pxObjValue

theorem underReason_length {name reason : CString} (hname : name.length < sizeObjName)
    (hreason : reason.length < sizeResultReason) :
    (underReason name reason).length < sizeObjName := by
  unfold underReason
  split_ifs
  · exact hname
  · have hsizes : sizeObjName = 40 ∧ sizeResultReason = 20 := ⟨rfl, rfl⟩
    have htake : (name.bytes.take sizeResultReason).length ≤ sizeResultReason := by
      rw [List.length_take]
      exact Nat.min_le_left _ _
    change (name.bytes.take sizeResultReason ++ reason.bytes).length < _
    change reason.bytes.length < _ at hreason
    rw [List.length_append]
    omega

theorem sentVersion_length {auth : AuthPolicy} (h : FitsIn sizeVersions auth.pcVersion) :
    (sentVersion auth).length < sizeVersions := by
  unfold sentVersion
  split
  · decide
  · exact h

/-- The strings behind a structure which was encoded from a message. -/
theorem copyStrings_ok (hfits : Fits msg) {auth : PbAuthPolicy} (value : PbObjVal)
    (hauth : ∀ tail : Bytes, tail.length = sizeTail → strcpyAuth tail auth =
      .ok (splice (splice tail offAuthName (orEmpty msg.xAuthPolicy.pcName).terminated)
        offAuthVersion (sentVersion msg.xAuthPolicy).terminated))
    {stale : Bytes} (hsized : stale.length = sizeTail) :
    ∃ tail, copyStrings stale (fillRest msg auth value) = .ok tail ∧
      Layout tail (orEmpty msg.pcObjClass) (orEmpty msg.pcObjName)
        (orEmpty msg.xAuthPolicy.pcName) (sentVersion msg.xAuthPolicy)
        (orEmpty msg.pcResultReason) := by
  have hversion := sentVersion_length hfits.authVersion
  have hoffs : offObjClass = 0 ∧ offObjName = 40 ∧ offResultReason = 60 ∧ offAuthName = 100 ∧
      offAuthVersion = 140 ∧ sizeTail = 710 := ⟨rfl, rfl, rfl, rfl, rfl, rfl⟩
  have hsizes : sizeObjClass = 40 ∧ sizeObjName = 40 ∧ sizeResultReason = 20 ∧
      sizeAuthName = 40 ∧ sizeVersions = 40 := ⟨rfl, rfl, rfl, rfl, rfl⟩
  have hfit₁ : (orEmpty msg.pcObjClass).length < sizeObjClass := hfits.objClass
  have hfit₂ : (orEmpty msg.pcObjName).length < sizeObjName := hfits.objName
  have hfit₃ : (orEmpty msg.xAuthPolicy.pcName).length < sizeAuthName := hfits.authName
  refine ⟨_, ?_, layout_splices hsized hfits.objClass hfits.objName hfits.authName hversion
    hfits.resultReason⟩
  have h₁ := strcpy_sized hsized offObjClass (orEmpty msg.pcObjClass) (by omega)
  have h₂ := strcpy_sized h₁ offObjName (orEmpty msg.pcObjName) (by omega)
  have h₃ := strcpy_sized h₂ offAuthName (orEmpty msg.xAuthPolicy.pcName) (by omega)
  have h₄ := strcpy_sized h₃ offAuthVersion (sentVersion msg.xAuthPolicy) (by omega)
  simp only [copyStrings, fillRest]
  rw [strcpyField_ok hfits.objClass (by omega), Exec.ok_bind,
    strcpyField_ok hfits.objName (by omega), Exec.ok_bind, hauth _ h₂, Exec.ok_bind,
    strcpyField_ok hfits.resultReason (by omega)]

theorem fillMessage_auth {pb : PbMessage} (h : fillMessage msg = .ok pb) :
    AuthEncodable msg.xAuthPolicy := by
  by_contra henc
  obtain ⟨t, ht⟩ := fillAuthPolicy_fails henc
  rw [fillMessage, ht] at h
  cases h

theorem Layout.decodedFrom {d : DecodedCdap} {tail : Bytes}
    (hl : Layout tail (orEmpty msg.pcObjClass) (orEmpty msg.pcObjName)
      (orEmpty msg.xAuthPolicy.pcName) (sentVersion msg.xAuthPolicy)
      (orEmpty msg.pcResultReason))
    (htail : d.tail = tail) (hop : d.eOpCode = msg.eOpCode) (hcls : d.pcObjClass = offObjClass)
    (hname : d.pcObjName = offObjName) (hreason : d.pcResultReason = offResultReason)
    (hauth : d.pcAuthName = offAuthName) (hversion : d.pcAuthVersion = offAuthVersion)
    (hdst : d.xDestinationInfo.Reads msg.xDestinationInfo)
    (hsrc : d.xSourceInfo.Reads msg.xSourceInfo) (hvalue : d.value = msg.pxObjValue) :
    DecodedFrom msg d where
  opCode := hop
  objClass := by
    rw [DecodedCdap.string, htail, hcls]
    exact hl.objClass.cstring
  objName := by
    rw [DecodedCdap.string, htail, hname]
    exact hl.objName.cstring
  resultReason := by
    rw [DecodedCdap.string, htail, hreason]
    exact hl.resultReason.cstring
  authName := by
    rw [DecodedCdap.string, htail, hauth]
    exact hl.authName.cstring
  authVersion := by
    rw [DecodedCdap.string, htail, hversion]
    exact hl.authVersion.cstring
  destination := hdst
  source := hsrc
  objValue := hvalue

/-- The value reads back, and the strings in front of it stay. -/
theorem placeValue_spec (hfits : Fits msg) {tail : Bytes}
    (hl : Layout tail (orEmpty msg.pcObjClass) (orEmpty msg.pcObjName)
      (orEmpty msg.xAuthPolicy.pcName) (sentVersion msg.xAuthPolicy)
      (orEmpty msg.pcResultReason)) :
    Layout (placeValue tail msg.pxObjValue).2 (orEmpty msg.pcObjClass) (orEmpty msg.pcObjName)
        (orEmpty msg.xAuthPolicy.pcName) (sentVersion msg.xAuthPolicy)
        (orEmpty msg.pcResultReason) ∧
      (placeValue tail msg.pxObjValue).1.map (fun p =>
        ((placeValue tail msg.pxObjValue).2.drop p.1).take p.2) = msg.pxObjValue := by
  cases hv : msg.pxObjValue with
  | none => exact ⟨hl, rfl⟩
  | some value =>
    have hlen : value.length ≤ 512 := hfits.objValue value hv
    have hsized := hl.sized
    have hoffs : offObjValue = 180 ∧ sizeofSerObjectValue = 16 ∧ sizeTail = 710 :=
      ⟨rfl, rfl, rfl⟩
    refine ⟨hl.value hfits.objClass (underReason_length hfits.objName hfits.resultReason)
      hfits.authName (sentVersion_length hfits.authVersion) hfits.resultReason hlen, ?_⟩
    simp only [placeValue, Option.map_some]
    rw [take_drop_splice_self (by omega)]

/-- The decoder on the structure which the encoder fills in. -/
theorem decode_filled (hfits : Fits msg) {pb : PbMessage} (hfill : fillMessage msg = .ok pb)
    (hdec : mem.decPool = true) (hdst : mem.destination = true) (hsrc : mem.source = true)
    {buf : Bytes} (hbuf : pb_decode buf = some pb) :
    ∃ d, pxSerDesMessageDecode pb_decode mem buf = .ok (some d) ∧ DecodedFrom msg d := by
  obtain ⟨pbAuth, hauth, hcopyAuth⟩ :=
    fillAuthPolicy_ok hfits.authName hfits.authVersion (fillMessage_auth hfill)
  obtain ⟨pbValue, hvalue, hcopyValue⟩ := fillObjValue_ok hfits.objValue
  rw [fillMessage, hauth, hvalue] at hfill
  cases hfill
  obtain ⟨tail, hcopy, hlayout⟩ := copyStrings_ok hfits pbValue hcopyAuth mem.sized
  have hdestination := xNameAssignFromPartsDup_ok hfits.destination mem.destination
  have hsource := xNameAssignFromPartsDup_ok hfits.source mem.source
  rw [hdst, if_pos rfl] at hdestination
  rw [hsrc, if_pos rfl] at hsource
  let placed := placeValue tail msg.pxObjValue
  obtain ⟨hlayout', hread⟩ := placeValue_spec hfits hlayout
  refine ⟨{
    eOpCode := msg.eOpCode
    xDestinationInfo := _
    xSourceInfo := _
    version := msg.version
    nInvokeID := msg.nInvokeID
    result := (optionalInt msg.result).val
    objInst := (optionalInt msg.objInst).val
    pcObjClass := offObjClass
    pcObjName := offObjName
    pcResultReason := offResultReason
    pcAuthName := offAuthName
    pcAuthVersion := offAuthVersion
    pxObjValue := placed.1
    tail := placed.2 }, ?_, hlayout'.decodedFrom rfl rfl rfl rfl rfl rfl rfl
      (prvNameCopyAssignParts_reads _) (prvNameCopyAssignParts_reads _) hread⟩
  simp only [fillRest] at hcopy
  simp only [pxSerDesMessageDecode, hbuf, hdec, not_true, if_false, hdst, hsrc, fillRest,
    hdestination, hsource, Exec.ok_bind, hcopy, hcopyValue tail hlayout.sized]
  rfl

/-! ### The round trip -/

theorem sentVersion_eq_iff (auth : AuthPolicy) :
    sentVersion auth = orEmpty auth.pcVersion ↔
      (auth.pcName = none → orEmpty auth.pcVersion = CString.empty) := by
  unfold sentVersion
  cases auth.pcName with
  | none => simp [eq_comm]
  | some name => simp

theorem DecodedFrom.sameContent_iff {d : DecodedCdap} (hd : DecodedFrom msg d) :
    SameContent msg d ↔
      underReason (orEmpty msg.pcObjName) (orEmpty msg.pcResultReason) = orEmpty msg.pcObjName ∧
        sentVersion msg.xAuthPolicy = orEmpty msg.xAuthPolicy.pcVersion := by
  constructor
  · intro hs
    exact ⟨Option.some.inj (hd.objName.symm.trans hs.objName),
      Option.some.inj (hd.authVersion.symm.trans hs.authVersion)⟩
  · rintro ⟨hname, hversion⟩
    exact ⟨hd.opCode, hd.objClass, hname ▸ hd.objName, hd.resultReason, hd.authName,
      hversion ▸ hd.authVersion, hd.destination, hd.source, hd.objValue⟩

/-- The bytes produced for a message are decoded to one with the same contents. -/
def RoundTrips (pb_encode : PbMessage → Option Bytes) (pb_decode : Bytes → Option PbMessage)
    (mem : Memory) (msg : MessageCdap) : Prop :=
  ∃ buf d, xSerDesMessageEncode pb_encode mem msg = .ok (some buf) ∧
    pxSerDesMessageDecode pb_decode mem buf = .ok (some d) ∧ SameContent msg d

/-- What a message needs to survive: the memory for it, an authentication policy whose
version is there when its name is and only then, and an object name which ends in front of
the result reason or goes on as it does. -/
structure Survives (mem : Memory) (msg : MessageCdap) : Prop where
  memory : mem.Available
  encodable : AuthEncodable msg.xAuthPolicy
  version : msg.xAuthPolicy.pcName = none → orEmpty msg.xAuthPolicy.pcVersion = CString.empty
  objName : (orEmpty msg.pcObjName).length < sizeResultReason ∨
    (orEmpty msg.pcObjName).bytes.drop sizeResultReason = (orEmpty msg.pcResultReason).bytes

variable {pb_encode : PbMessage → Option Bytes}

/-- The protobuf library decodes what it encoded from the structure of a message. -/
def Faithful (pb_encode : PbMessage → Option Bytes) (pb_decode : Bytes → Option PbMessage)
    (msg : MessageCdap) : Prop :=
  ∀ pb, fillMessage msg = .ok pb → ∃ buf, pb_encode pb = some buf ∧ pb_decode buf = some pb

theorem Survives.roundTrips (hs : Survives mem msg) (hfits : Fits msg)
    (hpb : Faithful pb_encode pb_decode msg) : RoundTrips pb_encode pb_decode mem msg := by
  obtain ⟨henc, hdec, hdst, hsrc⟩ := hs.memory
  obtain ⟨auth, hauth, -⟩ := fillAuthPolicy_ok hfits.authName hfits.authVersion hs.encodable
  obtain ⟨value, hvalue, -⟩ := fillObjValue_ok hfits.objValue
  have hfill : fillMessage msg = .ok (fillRest msg auth value) := by
    rw [fillMessage, hauth, hvalue]
    rfl
  obtain ⟨buf, hbuf, hbuf'⟩ := hpb _ hfill
  obtain ⟨d, hd, hfrom⟩ := decode_filled hfits hfill hdec hdst hsrc hbuf'
  refine ⟨buf, d, ?_, hd, hfrom.sameContent_iff.mpr ⟨?_, ?_⟩⟩
  · simp [xSerDesMessageEncode, hfill, henc, hbuf, pure, Except.pure]
  · exact (underReason_eq_iff _ _).mpr hs.objName
  · exact (sentVersion_eq_iff _).mpr hs.version

theorem xNameAssignFromPartsDup_memory {memory : Bool} {pn pi en ei : Bytes} {dup : DupName}
    (h : xNameAssignFromPartsDup memory pn pi en ei = .ok (some dup)) : memory = true := by
  obtain ⟨_, -, h⟩ := Exec.bind_eq_ok.mp h
  obtain ⟨_, -, h⟩ := Exec.bind_eq_ok.mp h
  obtain ⟨_, -, h⟩ := Exec.bind_eq_ok.mp h
  obtain ⟨_, -, h⟩ := Exec.bind_eq_ok.mp h
  cases memory with
  | true => rfl
  | false => cases h

theorem pxSerDesMessageDecode_memory {buf : Bytes} {d : DecodedCdap}
    (h : pxSerDesMessageDecode pb_decode mem buf = .ok (some d)) :
    mem.decPool = true ∧ mem.destination = true ∧ mem.source = true := by
  unfold pxSerDesMessageDecode at h
  cases hpb : pb_decode buf with
  | none => simp [hpb] at h
  | some pb =>
    cases hdec : mem.decPool with
    | false => simp [hpb, hdec] at h
    | true =>
      simp only [hpb, hdec, not_true, if_false] at h
      obtain ⟨dst, hdst, h⟩ := Exec.bind_eq_ok.mp h
      cases dst with
      | none => cases h
      | some dst =>
        obtain ⟨src, hsrc, h⟩ := Exec.bind_eq_ok.mp h
        cases src with
        | none => cases h
        | some src =>
          exact ⟨rfl, xNameAssignFromPartsDup_memory hdst, xNameAssignFromPartsDup_memory hsrc⟩

theorem RoundTrips.survives (h : RoundTrips pb_encode pb_decode mem msg) (hfits : Fits msg)
    (hpb : Faithful pb_encode pb_decode msg) : Survives mem msg := by
  obtain ⟨buf, d, hencode, hdecode, hsame⟩ := h
  obtain ⟨pb, hfill, hencode⟩ := Exec.bind_eq_ok.mp hencode
  obtain ⟨hdec, hdst, hsrc⟩ := pxSerDesMessageDecode_memory hdecode
  obtain ⟨buf', hbuf, hbuf'⟩ := hpb pb hfill
  cases henc : mem.encPool with
  | false =>
    rw [henc] at hencode
    cases hencode
  | true =>
    rw [henc, if_pos rfl, hbuf] at hencode
    cases hencode
    obtain ⟨d', hdecode', hfrom⟩ := decode_filled hfits hfill hdec hdst hsrc hbuf'
    rw [hdecode] at hdecode'
    cases hdecode'
    obtain ⟨hname, hversion⟩ := hfrom.sameContent_iff.mp hsame
    exact ⟨⟨henc, hdec, hdst, hsrc⟩, fillMessage_auth hfill,
      (sentVersion_eq_iff _).mp hversion, (underReason_eq_iff _ _).mp hname⟩

/-- A message whose strings fit makes the round trip exactly when it survives it. -/
theorem message_roundTrips_iff (hfits : Fits msg) (hpb : Faithful pb_encode pb_decode msg) :
    RoundTrips pb_encode pb_decode mem msg ↔ Survives mem msg :=
  ⟨fun h => h.survives hfits hpb, fun h => h.roundTrips hfits hpb⟩

/-! ### Messages about flows -/

/-- The name `/fa/flows/key=1-100`. -/
def shortKey : CString :=
  ⟨[0x2f, 0x66, 0x61, 0x2f, 0x66, 0x6c, 0x6f, 0x77, 0x73, 0x2f, 0x6b, 0x65, 0x79, 0x3d, 0x31,
    0x2d, 0x31, 0x30, 0x30], by decide⟩

/-- The name `/fa/flows/key=1-10000`. -/
def longKey : CString := shortKey.append ⟨[0x30, 0x30], by decide⟩

def flowMessage (name : CString) : MessageCdap where
  eOpCode := .M_CREATE
  xDestinationInfo := ⟨none, none, none, none⟩
  xSourceInfo := ⟨none, none, none, none⟩
  version := 1
  xAuthPolicy := ⟨none, none⟩
  nInvokeID := 1
  pcObjClass := some ⟨[0x46, 0x6c, 0x6f, 0x77], by decide⟩
  pcObjName := some name
  objInst := -1
  pxObjValue := none
  result := -1
  pcResultReason := none

/-- The protobuf encoding of the message. -/
def flowWire (name : CString) : Bytes :=
  [0x10, 0x04, 0x18, 0x01, 0x2a, 0x04, 0x46, 0x6c, 0x6f, 0x77, 0x32, name.length.toUInt8] ++
    name.bytes ++ [0xe0, 0x01, 0x01]

def flowPb (name : CString) : PbMessage :=
  fillRest (flowMessage name) ⟨false, false, zeros sizeAuthName, 0, zeros sizeVersions⟩
    ⟨false, false, 0, zeros sizeByteval⟩

def flowEncode (name : CString) (pb : PbMessage) : Option Bytes :=
  if pb = flowPb name then some (flowWire name) else none

def flowDecode (name : CString) (buf : Bytes) : Option PbMessage :=
  if buf = flowWire name then some (flowPb name) else none

theorem flow_faithful (name : CString) :
    Faithful (flowEncode name) (flowDecode name) (flowMessage name) := by
  intro pb hfill
  cases hfill
  exact ⟨flowWire name, if_pos rfl, if_pos rfl⟩

theorem empty_fits : FitsIn sizeNamePart none := by decide

theorem flow_fits {name : CString} (h : name.length < sizeObjName) : Fits (flowMessage name) where
  objClass := (by decide : 4 < 40)
  objName := h
  resultReason := (by decide : 0 < 20)
  authName := (by decide : 0 < 40)
  authVersion := (by decide : 0 < 40)
  destination := ⟨empty_fits, empty_fits, empty_fits, empty_fits⟩
  source := ⟨empty_fits, empty_fits, empty_fits, empty_fits⟩
  objValue := by simp [flowMessage]

def exampleMemory : Memory := ⟨true, true, true, true, zeros sizeTail, List.length_replicate⟩

theorem shortKey_roundTrips :
    RoundTrips (flowEncode shortKey) (flowDecode shortKey) exampleMemory (flowMessage shortKey) :=
  (message_roundTrips_iff (flow_fits (by decide)) (flow_faithful shortKey)).mpr
    ⟨⟨rfl, rfl, rfl, rfl⟩, fun h => absurd h (by decide), fun _ => rfl, Or.inl (by decide)⟩

/-- A key of twenty-one characters is read back without its last one. -/
theorem longKey_cut :
    Fits (flowMessage longKey) ∧
      Faithful (flowEncode longKey) (flowDecode longKey) (flowMessage longKey) ∧
      ¬ RoundTrips (flowEncode longKey) (flowDecode longKey) exampleMemory
        (flowMessage longKey) := by
  have hfits : Fits (flowMessage longKey) := flow_fits (by decide)
  refine ⟨hfits, flow_faithful longKey, fun h => ?_⟩
  exact absurd (h.survives hfits (flow_faithful longKey)).objName (by decide)

end RinaSense.SerDes
