import RinaSense.SerDes.CdapWire
import RinaSense.SerDes.RoundTrip

/-!
# CDAP messages as fields

The structure which the encoder fills, as the tables of the library see it, is in normal form. The
structure which the library decodes has its strings terminated and its lengths inside their arrays,
whatever the bytes were, so the decoder copies it without leaving the pool object.
-/

namespace RinaSense.SerDes

open Common Library.Memory

/-! ### The structure of the library -/

def PbInt.slot (x : PbInt) : PbSlot ℤ := ⟨x.has, x.val⟩

def PbString.slot (x : PbString) : PbSlot Bytes := ⟨x.has, x.chars⟩

def PbObjVal.slot (x : PbObjVal) : PbSlot (∀ i, ObjValField.Slot i) where
  has := x.has
  val
    | .byteval => ⟨x.has_byteval, (⟨x.size, x.bytes⟩ : PbBytes)⟩
    | i => rina_messages_objVal_t_init_zero i

def PbAuthPolicy.slot (x : PbAuthPolicy) : PbSlot (∀ i, AuthPolicyField.Slot i) where
  has := x.has
  val
    | .name => ⟨x.has_name, x.name⟩
    | .versions => (⟨x.versions_count, [x.versions]⟩ : PbArray Bytes)
    | .options => ()

/-- The structure with the number of its operation; the other fields are never set. -/
def PbMessage.fields (pb : PbMessage) (opCode : UInt32) : ∀ i, CDAPMessageField.Slot i
  | .opCode => opCode
  | .invokeID => pb.invokeID.slot
  | .objClass => pb.objClass.slot
  | .objName => pb.objName.slot
  | .objInst => pb.objInst.slot
  | .objValue => pb.objValue.slot
  | .result => pb.result.slot
  | .authPolicy => pb.authPolicy.slot
  | .destAEInst => pb.destAEInst.slot
  | .destAEName => pb.destAEName.slot
  | .destApInst => pb.destApInst.slot
  | .destApName => pb.destApName.slot
  | .srcAEInst => pb.srcAEInst.slot
  | .srcAEName => pb.srcAEName.slot
  | .srcApInst => pb.srcApInst.slot
  | .srcApName => pb.srcApName.slot
  | .resultReason => pb.resultReason.slot
  | .version => pb.version.slot
  | i => rina_messages_CDAPMessage_init_zero i

def PbInt.ofSlot (x : PbSlot ℤ) : PbInt := ⟨x.has, x.val⟩

def PbString.ofSlot (x : PbSlot Bytes) : PbString := ⟨x.has, x.val⟩

def PbObjVal.ofSlot (x : PbSlot (∀ i, ObjValField.Slot i)) : PbObjVal :=
  let byteval : PbSlot PbBytes := x.val .byteval
  ⟨x.has, byteval.has, byteval.val.size, byteval.val.bytes⟩

def PbAuthPolicy.ofSlot (x : PbSlot (∀ i, AuthPolicyField.Slot i)) : PbAuthPolicy :=
  let name : PbSlot Bytes := x.val .name
  let versions : PbArray Bytes := x.val .versions
  ⟨x.has, name.has, name.val, versions.count, versions.items.headD []⟩

/-- The fields which the decoder reads, under the operation of their number. -/
def PbMessage.ofFields (opCode : OpCode) (m : ∀ i, CDAPMessageField.Slot i) : PbMessage where
  opCode := opCode
  invokeID := .ofSlot (m .invokeID)
  objClass := .ofSlot (m .objClass)
  objName := .ofSlot (m .objName)
  objInst := .ofSlot (m .objInst)
  objValue := .ofSlot (m .objValue)
  result := .ofSlot (m .result)
  authPolicy := .ofSlot (m .authPolicy)
  destAEInst := .ofSlot (m .destAEInst)
  destAEName := .ofSlot (m .destAEName)
  destApInst := .ofSlot (m .destApInst)
  destApName := .ofSlot (m .destApName)
  srcAEInst := .ofSlot (m .srcAEInst)
  srcAEName := .ofSlot (m .srcAEName)
  srcApInst := .ofSlot (m .srcApInst)
  srcApName := .ofSlot (m .srcApName)
  resultReason := .ofSlot (m .resultReason)
  version := .ofSlot (m .version)

theorem PbMessage.ofFields_fields (pb : PbMessage) (n : UInt32) :
    ofFields pb.opCode (pb.fields n) = pb := rfl

/-! ### What the encoder fills is in normal form -/

/-- The numbers of a message are in the ranges of their types. -/
structure NumbersFit (msg : MessageCdap) : Prop where
  invokeID : Signed 32 msg.nInvokeID
  result : Signed 32 msg.result
  objInst : Signed 64 msg.objInst
  version : Signed 64 msg.version

theorem copyField_normal {n : ℕ} {s : Option CString} (h : FitsIn n s) :
    (copyField n s).slot.Normal (zeros n) (Padded n) := by
  cases s with
  | none => rfl
  | some s => exact ⟨s, h, rfl⟩

theorem optionalInt_normal {bits : ℕ} {x : ℤ} (h : Signed bits x) :
    (optionalInt x).slot.Normal 0 (Signed bits) := by
  unfold optionalInt
  split_ifs with hx
  · exact h
  · rfl

theorem splice_into_zeros (n : ℕ) (bs : Bytes) :
    splice (zeros n) 0 bs = bs ++ zeros (n - bs.length) := by
  simp [splice, zeros]

theorem splice_terminated {n : ℕ} {s : CString} (h : s.length < n) :
    splice (zeros n) 0 s.terminated = strncpy n s := by
  have hlen := s.terminated_length
  obtain ⟨k, rfl⟩ := Nat.exists_eq_add_of_lt h
  have htake : s.bytes.take (s.length + k + 1) = s.bytes :=
    List.take_of_length_le (show s.length ≤ _ by omega)
  rw [splice_into_zeros, strncpy, htake, hlen,
    show s.length + k + 1 - (s.length + 1) = k by omega,
    show s.length + k + 1 - s.length = k + 1 by omega, List.replicate_succ]
  simp [CString.terminated, zeros]

theorem fillAuthPolicy_normal {auth : AuthPolicy} {pb : PbAuthPolicy}
    (hname : FitsIn sizeAuthName auth.pcName) (hversion : FitsIn sizeVersions auth.pcVersion)
    (h : fillAuthPolicy auth = .ok pb) :
    pb.slot.Normal rina_messages_authPolicy_t_init_zero
      fun v => ∀ i, AuthPolicyField.Normal i (v i) := by
  obtain ⟨pcName, pcVersion⟩ := auth
  cases pcName with
  | none =>
    cases h
    refine funext fun i => ?_
    cases i <;> rfl
  | some name =>
    obtain ⟨chars, hcopy, h⟩ := Exec.bind_eq_ok.mp h
    obtain ⟨version, hder, h⟩ := Exec.bind_eq_ok.mp h
    cases h
    obtain rfl : pcVersion = some version := deref_eq_ok.mp hder
    have hroom : name.length < 40 := hname
    have hzeros : (zeros sizeAuthName).length = 40 := List.length_replicate
    rw [strcpy_ok (by omega)] at hcopy
    cases hcopy
    intro i
    cases i with
    | name => exact ⟨name, hname, splice_terminated hname⟩
    | versions => exact ⟨_, rfl, .inr ⟨rfl, version, hversion, rfl⟩⟩
    | options => exact trivial

theorem fillObjValue_normal {value : Option Bytes} {pb : PbObjVal}
    (hfits : ∀ bs, value = some bs → bs.length ≤ sizeByteval) (h : fillObjValue value = .ok pb) :
    pb.slot.Normal rina_messages_objVal_t_init_zero
      fun v => ∀ i, ObjValField.Normal i (v i) := by
  cases value with
  | none =>
    cases h
    refine funext fun i => ?_
    cases i <;> rfl
  | some bs =>
    obtain ⟨bytes, hcopy, h⟩ := Exec.bind_eq_ok.mp h
    cases h
    have hlen : bs.length ≤ sizeByteval := hfits bs rfl
    have hzeros : (zeros sizeByteval).length = sizeByteval := List.length_replicate
    rw [copyTo_ok (by omega)] at hcopy
    cases hcopy
    intro i
    cases i with
    | byteval =>
      have hbytes := splice_into_zeros sizeByteval bs
      refine ⟨?_, hlen, ?_⟩
      · change (splice (zeros sizeByteval) 0 bs).length = sizeByteval
        rw [hbytes, List.length_append, zeros, List.length_replicate]
        omega
      · change splice (zeros sizeByteval) 0 bs = (splice (zeros sizeByteval) 0 bs).take bs.length ++
          zeros (sizeByteval - bs.length)
        rw [hbytes, List.take_left]
    | _ => rfl

/-- The structure of a message which fits is in normal form. -/
theorem fillMessage_normal {msg : MessageCdap} {pb : PbMessage} (hfits : Fits msg)
    (hnumbers : NumbersFit msg) (h : fillMessage msg = .ok pb) (n : UInt32) (i : CDAPMessageField) :
    CDAPMessageField.Normal i (pb.fields n i) := by
  obtain ⟨auth, hauth, h⟩ := Exec.bind_eq_ok.mp h
  obtain ⟨value, hvalue, h⟩ := Exec.bind_eq_ok.mp h
  cases h
  obtain ⟨hdestName, hdestInst, hdestEntity, hdestEntityInst⟩ := hfits.destination
  obtain ⟨hsrcName, hsrcInst, hsrcEntity, hsrcEntityInst⟩ := hfits.source
  cases i with
  | absSyntax | flags | scope => rfl
  | opCode | filter => exact trivial
  | invokeID => exact hnumbers.invokeID
  | version => exact hnumbers.version
  | objInst => exact optionalInt_normal hnumbers.objInst
  | result => exact optionalInt_normal hnumbers.result
  | objClass => exact copyField_normal hfits.objClass
  | objName => exact copyField_normal hfits.objName
  | resultReason => exact copyField_normal hfits.resultReason
  | objValue => exact fillObjValue_normal hfits.objValue hvalue
  | authPolicy => exact fillAuthPolicy_normal hfits.authName hfits.authVersion hauth
  | destAEInst => exact copyField_normal hdestEntityInst
  | destAEName => exact copyField_normal hdestEntity
  | destApInst => exact copyField_normal hdestInst
  | destApName => exact copyField_normal hdestName
  | srcAEInst => exact copyField_normal hsrcEntityInst
  | srcAEName => exact copyField_normal hsrcEntity
  | srcApInst => exact copyField_normal hsrcInst
  | srcApName => exact copyField_normal hsrcName

/-! ### What the decoder copies -/

def ObjValField.Sound : (i : ObjValField) → i.Slot → Prop
  | .strval, (x : PbSlot Bytes) => Terminated sizeStrval x.val
  | .byteval, (x : PbSlot PbBytes) => x.val.Within sizeByteval
  | _, _ => True

def AuthPolicyField.Sound : (i : AuthPolicyField) → i.Slot → Prop
  | .name, (x : PbSlot Bytes) => Terminated sizeAuthName x.val
  | .versions, (x : PbArray Bytes) => x.Within 1 (Terminated sizeVersions)
  | .options, _ => True

def CDAPMessageField.Sound : (i : CDAPMessageField) → i.Slot → Prop
  | .objClass, (x : PbSlot Bytes) => Terminated sizeObjClass x.val
  | .objName, (x : PbSlot Bytes) => Terminated sizeObjName x.val
  | .objValue, (x : PbSlot (∀ i, ObjValField.Slot i)) => ∀ i, ObjValField.Sound i (x.val i)
  | .authPolicy, (x : PbSlot (∀ i, AuthPolicyField.Slot i)) =>
    ∀ i, AuthPolicyField.Sound i (x.val i)
  | .destAEInst, (x : PbSlot Bytes) => Terminated sizeNamePart x.val
  | .destAEName, (x : PbSlot Bytes) => Terminated sizeNamePart x.val
  | .destApInst, (x : PbSlot Bytes) => Terminated sizeNamePart x.val
  | .destApName, (x : PbSlot Bytes) => Terminated sizeNamePart x.val
  | .srcAEInst, (x : PbSlot Bytes) => Terminated sizeNamePart x.val
  | .srcAEName, (x : PbSlot Bytes) => Terminated sizeNamePart x.val
  | .srcApInst, (x : PbSlot Bytes) => Terminated sizeNamePart x.val
  | .srcApName, (x : PbSlot Bytes) => Terminated sizeNamePart x.val
  | .resultReason, (x : PbSlot Bytes) => Terminated sizeResultReason x.val
  | _, _ => True

theorem objVal_keeps (i : ObjValField) :
    (rina_messages_objVal_t.field i).Keeps (ObjValField.Sound i) := by
  cases i with
  | intval | int64val => exact OPTIONAL_safe (VARINT_keeps _) _
  | sintval | sint64val => exact OPTIONAL_safe (SVARINT_keeps _) _
  | strval => exact OPTIONAL_keeps (STRING_keeps sizeStrval) _
  | byteval => exact OPTIONAL_keeps (BYTES_keeps sizeByteval) _
  | floatval => exact OPTIONAL_safe FIXED32_keeps _
  | doubleval => exact OPTIONAL_safe FIXED64_keeps _
  | boolval => exact OPTIONAL_safe BOOL_keeps _

theorem authPolicy_keeps (i : AuthPolicyField) :
    (rina_messages_authPolicy_t.field i).Keeps (AuthPolicyField.Sound i) := by
  cases i with
  | name => exact OPTIONAL_keeps (STRING_keeps sizeAuthName) _
  | versions => exact REPEATED_keeps (STRING_keeps sizeVersions) _ 1
  | options => exact CALLBACK_keeps _ _

theorem cdap_keeps (i : CDAPMessageField) :
    (rina_messages_CDAPMessage.field i).Keeps (CDAPMessageField.Sound i) := by
  cases i with
  | absSyntax | invokeID | result | scope | objInst | version =>
    exact OPTIONAL_safe (VARINT_keeps _) _
  | opCode => exact REQUIRED_keeps UINT32_keeps _
  | flags => exact OPTIONAL_safe UINT32_keeps _
  | objClass => exact OPTIONAL_keeps (STRING_keeps sizeObjClass) _
  | objName => exact OPTIONAL_keeps (STRING_keeps sizeObjName) _
  | resultReason => exact OPTIONAL_keeps (STRING_keeps sizeResultReason) _
  | objValue => exact OPTIONAL_keeps (MESSAGE_keeps objVal_keeps) _
  | authPolicy => exact OPTIONAL_keeps (MESSAGE_keeps authPolicy_keeps) _
  | filter => exact CALLBACK_keeps _ _
  | _ => exact OPTIONAL_keeps (STRING_keeps sizeNamePart) _

theorem zeros_terminated {n : ℕ} (h : 0 < n) : Terminated n (zeros n) :=
  ⟨List.length_replicate, List.mem_replicate.mpr ⟨Nat.ne_of_gt h, rfl⟩⟩

theorem init_zero_sound (i : CDAPMessageField) :
    CDAPMessageField.Sound i (rina_messages_CDAPMessage_init_zero i) := by
  cases i with
  | absSyntax | invokeID | result | scope | objInst | version | opCode | flags | filter =>
    exact trivial
  | objValue =>
    intro i
    cases i with
    | strval => exact zeros_terminated (by decide)
    | byteval => exact ⟨List.length_replicate, Nat.zero_le _⟩
    | _ => exact trivial
  | authPolicy =>
    intro i
    cases i with
    | name => exact zeros_terminated (by decide)
    | versions =>
      refine ⟨rfl, Nat.zero_le _, fun x hx => ?_⟩
      rw [List.mem_singleton.mp hx]
      exact zeros_terminated (by decide)
    | options => exact trivial
  | _ => exact zeros_terminated (by decide)

/-- Whatever the bytes are, the library decodes them without a trap into terminated strings and a
value which is not longer than its array. -/
theorem cdap_decodes (bytes : Bytes) :
    PbExec.Safe (fun m => ∀ i, CDAPMessageField.Sound i (m i))
      (rina_messages_CDAPMessage.pb_decode bytes rina_messages_CDAPMessage_init_zero) :=
  PbMsgdesc.pb_decode_safe cdap_keeps bytes init_zero_sound

theorem cstring_terminated {n : ℕ} {chars : Bytes} (h : Terminated n chars) :
    ∃ s, cstring chars = some s ∧ s.length < n := by
  obtain ⟨rfl, hmem⟩ := h
  refine ⟨_, if_pos hmem, Nat.lt_of_le_of_ne (List.takeWhile_sublist _).length_le fun hlen => ?_⟩
  have hall : chars.takeWhile (· ≠ 0) = chars := (List.takeWhile_sublist _).eq_of_length hlen
  simpa using List.takeWhile_eq_self_iff.mp hall 0 hmem

variable {tail : Bytes} {o n : ℕ}

/-- A field which is terminated is copied where there is room for its array. -/
theorem strcpyField_within {field : PbString} (h : Terminated n field.chars)
    (hroom : o + n ≤ tail.length) :
    ∃ s : CString, s.length < n ∧ strcpyField tail o field = .ok (splice tail o s.terminated) := by
  obtain ⟨s, hs, hlen⟩ := cstring_terminated h
  unfold strcpyField
  split_ifs
  · rw [hs, inBounds_some, Exec.ok_bind]
    exact ⟨s, hlen, strcpy_ok (by omega)⟩
  · have hempty : CString.empty.length = 0 := rfl
    exact ⟨CString.empty, Nat.zero_lt_of_lt hlen, strcpy_ok (by omega)⟩

theorem strcpyAuth_within {auth : PbAuthPolicy} (hname : Terminated sizeAuthName auth.name)
    (hversions : Terminated sizeVersions auth.versions) (hsized : tail.length = sizeTail) :
    ∃ tail', strcpyAuth tail auth = .ok tail' ∧ tail'.length = sizeTail := by
  have hoffs : offAuthName + sizeAuthName ≤ sizeTail ∧ offAuthVersion + sizeVersions ≤ sizeTail :=
    ⟨by decide, by decide⟩
  have copyVersion : ∀ (t : Bytes) (s : CString), t.length = sizeTail → s.length < sizeVersions →
      ∃ t', strcpy t offAuthVersion s = .ok t' ∧ t'.length = sizeTail := fun t s ht hs =>
    ⟨_, strcpy_ok (by omega), strcpy_sized ht offAuthVersion s (by omega)⟩
  obtain ⟨name, hs, hlen⟩ := cstring_terminated hname
  obtain ⟨version, hs', hlen'⟩ := cstring_terminated hversions
  unfold strcpyAuth
  split_ifs
  · have hsized' := strcpy_sized hsized offAuthName name (by omega)
    simp only [hs, hs', inBounds_some, Exec.ok_bind]
    rw [strcpy_ok (by omega), Exec.ok_bind]
    exact copyVersion _ version hsized' hlen'
  · simp only [hs', inBounds_some, Exec.ok_bind]
    exact copyVersion tail version hsized hlen'
  · exact ⟨_, strcpy_auth hsized (by decide) (by decide),
      strcpy_sized (strcpy_sized hsized _ CString.empty (by decide)) _ CString.empty (by decide)⟩

/-- In front of a string there is a string. -/
theorem cstring_before {b : Bytes} {p : ℕ} {s : CString} (h : StringAt b p s) (hop : o ≤ p) :
    ∃ s', cstring (b.drop o) = some s' := by
  obtain ⟨k, rfl⟩ := Nat.exists_eq_add_of_le hop
  have hzero : (0 : UInt8) ∈ (b.drop (o + k)).take (s.length + 1) := by
    rw [h, CString.terminated]
    exact List.mem_append_right _ (List.mem_singleton_self _)
  refine cstring_of_mem (List.mem_of_mem_drop (i := k) ?_)
  rw [List.drop_drop]
  exact List.mem_of_mem_take hzero

/-- The parts of a name in the structure are terminated. -/
structure PartsTerminated (pn pi en ei : PbString) : Prop where
  processName : Terminated sizeNamePart pn.chars
  processInstance : Terminated sizeNamePart pi.chars
  entityName : Terminated sizeNamePart en.chars
  entityInstance : Terminated sizeNamePart ei.chars

/-- What the decoder copies is inside its arrays. -/
structure PbMessage.Sound (pb : PbMessage) : Prop where
  objClass : Terminated sizeObjClass pb.objClass.chars
  objName : Terminated sizeObjName pb.objName.chars
  resultReason : Terminated sizeResultReason pb.resultReason.chars
  authName : Terminated sizeAuthName pb.authPolicy.name
  authVersion : Terminated sizeVersions pb.authPolicy.versions
  objValue : pb.objValue.size ≤ sizeByteval
  destination : PartsTerminated pb.destApName pb.destApInst pb.destAEName pb.destAEInst
  source : PartsTerminated pb.srcApName pb.srcApInst pb.srcAEName pb.srcAEInst

theorem ofFields_sound {m : ∀ i, CDAPMessageField.Slot i}
    (hm : ∀ i, CDAPMessageField.Sound i (m i)) (eOpCode : OpCode) :
    (PbMessage.ofFields eOpCode m).Sound where
  objClass := hm .objClass
  objName := hm .objName
  resultReason := hm .resultReason
  authName := hm .authPolicy .name
  authVersion := by
    have hauth := hm .authPolicy
    obtain ⟨hone, -, hitems⟩ := hauth .versions
    obtain ⟨version, hversion⟩ := List.length_eq_one_iff.mp hone
    change Terminated sizeVersions (List.headD _ [])
    rw [hversion]
    exact hitems version (hversion ▸ List.mem_singleton_self version)
  objValue := by
    have hvalue := hm .objValue
    obtain ⟨-, hsize⟩ := hvalue .byteval
    exact hsize
  destination := ⟨hm .destApName, hm .destApInst, hm .destAEName, hm .destAEInst⟩
  source := ⟨hm .srcApName, hm .srcApInst, hm .srcAEName, hm .srcAEInst⟩

variable {pb : PbMessage}

/-- The strings are copied, the result reason last, so that it ends what is in front of it. -/
theorem copyStrings_within (hpb : pb.Sound) (hsized : tail.length = sizeTail) :
    ∃ tail' reason, copyStrings tail pb = .ok tail' ∧ tail'.length = sizeTail ∧
      reason.length < sizeResultReason ∧ StringAt tail' offResultReason reason := by
  have hoffs : offObjClass + sizeObjClass ≤ sizeTail ∧ offObjName + sizeObjName ≤ sizeTail ∧
      offResultReason + sizeResultReason ≤ sizeTail := ⟨by decide, by decide, by decide⟩
  obtain ⟨cls, hcls, hcopy₁⟩ := strcpyField_within hpb.objClass
    (show offObjClass + sizeObjClass ≤ tail.length by omega)
  have h₁ := strcpy_sized hsized offObjClass cls (by omega)
  obtain ⟨name, hname, hcopy₂⟩ := strcpyField_within hpb.objName (o := offObjName)
    (h₁.symm ▸ hoffs.2.1)
  have h₂ := strcpy_sized h₁ offObjName name (by omega)
  obtain ⟨t, hcopy₃, h₃⟩ := strcpyAuth_within hpb.authName hpb.authVersion h₂
  obtain ⟨reason, hreason, hcopy₄⟩ := strcpyField_within hpb.resultReason
    (show offResultReason + sizeResultReason ≤ t.length by omega)
  refine ⟨_, reason, ?_, strcpy_sized h₃ offResultReason reason (by omega), hreason,
    stringAt_splice (by omega)⟩
  simp only [copyStrings, hcopy₁, hcopy₂, hcopy₃, hcopy₄, Exec.ok_bind]

/-- The value is copied behind the strings. -/
theorem copyObjValue_within {value : PbObjVal} {reason : CString}
    (hvalue : value.size ≤ sizeByteval) (hsized : tail.length = sizeTail)
    (hreason : reason.length < sizeResultReason) (hat : StringAt tail offResultReason reason) :
    ∃ r, copyObjValue tail value = .ok r ∧ StringAt r.2 offResultReason reason := by
  have hoffs : offObjValue + sizeofSerObjectValue + sizeByteval ≤ sizeTail ∧
      offResultReason + sizeResultReason ≤ offObjValue := ⟨by decide, by decide⟩
  have htake := List.length_take_le value.size value.bytes
  unfold copyObjValue
  split_ifs
  · rw [copyTo_ok (by omega)]
    exact ⟨_, rfl, hat.splice (by omega) (by omega)⟩
  · exact ⟨_, rfl, hat⟩

theorem xNameAssignFromPartsDup_within (memory : Bool) {pn pi en ei : PbString}
    (h : PartsTerminated pn pi en ei) :
    ∃ r, xNameAssignFromPartsDup memory pn.chars pi.chars en.chars ei.chars = .ok r ∧
      ∀ dup, r = some dup → ∃ name, dup.Reads name := by
  obtain ⟨pn', hpn, -⟩ := cstring_terminated h.processName
  obtain ⟨pi', hpi, -⟩ := cstring_terminated h.processInstance
  obtain ⟨en', hen, -⟩ := cstring_terminated h.entityName
  obtain ⟨ei', hei, -⟩ := cstring_terminated h.entityInstance
  simp only [xNameAssignFromPartsDup, hpn, hpi, hen, hei, inBounds_some, Exec.ok_bind]
  refine ⟨_, rfl, fun dup hdup => ?_⟩
  cases memory with
  | false => cases hdup
  | true =>
    cases hdup
    exact ⟨_, prvNameCopyAssignParts_reads ⟨some pn', some pi', some en', some ei'⟩⟩

/-- The names of a decoded message, and the name of its object, are strings in its blocks. -/
structure DecodedCdap.Readable (d : DecodedCdap) : Prop where
  destination : ∃ name, d.xDestinationInfo.Reads name
  source : ∃ name, d.xSourceInfo.Reads name
  objName : ∃ s, d.string d.pcObjName = some s

/-- The decoder copies what the library decodes without leaving the pool object. -/
theorem pxSerDesMessageDecode_within (hpb : pb.Sound) (mem : Memory) (pucBuffer : Bytes) :
    ∃ r, pxSerDesMessageDecode (fun _ => some pb) mem pucBuffer = .ok r ∧
      ∀ d, r = some d → d.Readable := by
  obtain ⟨dst, hdst, hreads⟩ := xNameAssignFromPartsDup_within mem.destination hpb.destination
  obtain ⟨src, hsrc, hreads'⟩ := xNameAssignFromPartsDup_within mem.source hpb.source
  obtain ⟨tail, reason, htail, hsized, hreason, hat⟩ := copyStrings_within hpb mem.sized
  obtain ⟨⟨value, tail'⟩, hvalue, hat'⟩ :=
    copyObjValue_within hpb.objValue hsized hreason hat
  have hnone : ∀ d : DecodedCdap, none = some d → d.Readable := fun d hd => by cases hd
  unfold pxSerDesMessageDecode
  dsimp only
  rw [hdst, Exec.ok_bind]
  split_ifs
  · cases dst with
    | none => exact ⟨_, rfl, hnone⟩
    | some dst =>
      dsimp only
      rw [hsrc, Exec.ok_bind]
      cases src with
      | none => exact ⟨_, rfl, hnone⟩
      | some src =>
        dsimp only
        rw [htail, Exec.ok_bind, hvalue]
        refine ⟨_, rfl, fun d hd => ?_⟩
        cases hd
        exact ⟨hreads dst rfl, hreads' src rfl, cstring_before (o := offObjName) hat' (by decide)⟩
  · exact ⟨_, rfl, hnone⟩

end RinaSense.SerDes
