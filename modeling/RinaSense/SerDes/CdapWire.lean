import RinaSense.SerDes.Descriptor

/-!
# CDAP messages on the wire

The tables of `CDAP.pb.h`, and what the protobuf library makes of them. A structure whose unset
fields are zero comes back from its bytes as it was, also if a peer puts the fields in another
order or adds fields which are not in the tables.
-/

namespace RinaSense.SerDes

open Common Library.Memory Library.Families

/-! ### Values of objects -/

inductive ObjValField
  | intval
  | sintval
  | int64val
  | sint64val
  | strval
  | byteval
  | floatval
  | doubleval
  | boolval
deriving DecidableEq, Repr

def ObjValField.Slot : ObjValField → Type
  | .intval => PbSlot ℤ
  | .sintval => PbSlot ℤ
  | .int64val => PbSlot ℤ
  | .sint64val => PbSlot ℤ
  | .strval => PbSlot Bytes
  | .byteval => PbSlot PbBytes
  | .floatval => PbSlot Bytes
  | .doubleval => PbSlot Bytes
  | .boolval => PbSlot Bool

def rina_messages_objVal_t : PbMsgdesc ObjValField.Slot where
  order := [.intval, .sintval, .int64val, .sint64val, .strval, .byteval, .floatval, .doubleval,
    .boolval]
  field
    | .intval => OPTIONAL 1 INT32
    | .sintval => OPTIONAL 2 SINT32
    | .int64val => OPTIONAL 3 INT64
    | .sint64val => OPTIONAL 4 SINT64
    | .strval => OPTIONAL 5 STRING
    | .byteval => OPTIONAL 6 BYTES
    | .floatval => OPTIONAL 7 FIXED32
    | .doubleval => OPTIONAL 8 FIXED64
    | .boolval => OPTIONAL 9 BOOL

def sizeStrval : ℕ := 20

def rina_messages_objVal_t_init_zero : ∀ i, ObjValField.Slot i
  | .intval => ⟨false, (0 : ℤ)⟩
  | .sintval => ⟨false, (0 : ℤ)⟩
  | .int64val => ⟨false, (0 : ℤ)⟩
  | .sint64val => ⟨false, (0 : ℤ)⟩
  | .strval => ⟨false, zeros sizeStrval⟩
  | .byteval => ⟨false, (⟨0, zeros sizeByteval⟩ : PbBytes)⟩
  | .floatval => ⟨false, zeros 4⟩
  | .doubleval => ⟨false, zeros 8⟩
  | .boolval => ⟨false, false⟩

/-! ### Authentication policies -/

inductive AuthPolicyField
  | name
  | versions
  | options
deriving DecidableEq, Repr

def AuthPolicyField.Slot : AuthPolicyField → Type
  | .name => PbSlot Bytes
  | .versions => PbArray Bytes
  | .options => Unit

def rina_messages_authPolicy_t : PbMsgdesc AuthPolicyField.Slot where
  order := [.name, .versions, .options]
  field
    | .name => OPTIONAL 1 STRING
    | .versions => REPEATED 2 STRING
    | .options => CALLBACK 3

def rina_messages_authPolicy_t_init_zero : ∀ i, AuthPolicyField.Slot i
  | .name => ⟨false, zeros sizeAuthName⟩
  | .versions => (⟨0, [zeros sizeVersions]⟩ : PbArray Bytes)
  | .options => ()

/-! ### Messages -/

inductive CDAPMessageField
  | absSyntax
  | opCode
  | invokeID
  | flags
  | objClass
  | objName
  | objInst
  | objValue
  | result
  | scope
  | filter
  | authPolicy
  | destAEInst
  | destAEName
  | destApInst
  | destApName
  | srcAEInst
  | srcAEName
  | srcApInst
  | srcApName
  | resultReason
  | version
deriving DecidableEq, Repr

def CDAPMessageField.Slot : CDAPMessageField → Type
  | .absSyntax => PbSlot ℤ
  | .opCode => UInt32
  | .invokeID => PbSlot ℤ
  | .flags => PbSlot UInt32
  | .objClass => PbSlot Bytes
  | .objName => PbSlot Bytes
  | .objInst => PbSlot ℤ
  | .objValue => PbSlot (∀ i, ObjValField.Slot i)
  | .result => PbSlot ℤ
  | .scope => PbSlot ℤ
  | .filter => Unit
  | .authPolicy => PbSlot (∀ i, AuthPolicyField.Slot i)
  | .destAEInst => PbSlot Bytes
  | .destAEName => PbSlot Bytes
  | .destApInst => PbSlot Bytes
  | .destApName => PbSlot Bytes
  | .srcAEInst => PbSlot Bytes
  | .srcAEName => PbSlot Bytes
  | .srcApInst => PbSlot Bytes
  | .srcApName => PbSlot Bytes
  | .resultReason => PbSlot Bytes
  | .version => PbSlot ℤ

def rina_messages_CDAPMessage : PbMsgdesc CDAPMessageField.Slot where
  order := [.absSyntax, .opCode, .invokeID, .flags, .objClass, .objName, .objInst, .objValue,
    .result, .scope, .filter, .authPolicy, .destAEInst, .destAEName, .destApInst, .destApName,
    .srcAEInst, .srcAEName, .srcApInst, .srcApName, .resultReason, .version]
  field
    | .absSyntax => OPTIONAL 1 INT32
    | .opCode => REQUIRED 2 UENUM
    | .invokeID => OPTIONAL 3 INT32
    | .flags => OPTIONAL 4 UENUM
    | .objClass => OPTIONAL 5 STRING
    | .objName => OPTIONAL 6 STRING
    | .objInst => OPTIONAL 7 INT64
    | .objValue => OPTIONAL 8 (MESSAGE rina_messages_objVal_t)
    | .result => OPTIONAL 9 INT32
    | .scope => OPTIONAL 10 INT32
    | .filter => CALLBACK 11
    | .authPolicy => OPTIONAL 18 (MESSAGE rina_messages_authPolicy_t)
    | .destAEInst => OPTIONAL 19 STRING
    | .destAEName => OPTIONAL 20 STRING
    | .destApInst => OPTIONAL 21 STRING
    | .destApName => OPTIONAL 22 STRING
    | .srcAEInst => OPTIONAL 23 STRING
    | .srcAEName => OPTIONAL 24 STRING
    | .srcApInst => OPTIONAL 25 STRING
    | .srcApName => OPTIONAL 26 STRING
    | .resultReason => OPTIONAL 27 STRING
    | .version => OPTIONAL 28 INT64

/-- The default of the result is zero, as that of the other fields. -/
def rina_messages_CDAPMessage_init_zero : ∀ i, CDAPMessageField.Slot i
  | .absSyntax => ⟨false, (0 : ℤ)⟩
  | .opCode => (0 : UInt32)
  | .invokeID => ⟨false, (0 : ℤ)⟩
  | .flags => ⟨false, (0 : UInt32)⟩
  | .objClass => ⟨false, zeros sizeObjClass⟩
  | .objName => ⟨false, zeros sizeObjName⟩
  | .objInst => ⟨false, (0 : ℤ)⟩
  | .objValue => ⟨false, rina_messages_objVal_t_init_zero⟩
  | .result => ⟨false, (0 : ℤ)⟩
  | .scope => ⟨false, (0 : ℤ)⟩
  | .filter => ()
  | .authPolicy => ⟨false, rina_messages_authPolicy_t_init_zero⟩
  | .destAEInst => ⟨false, zeros sizeNamePart⟩
  | .destAEName => ⟨false, zeros sizeNamePart⟩
  | .destApInst => ⟨false, zeros sizeNamePart⟩
  | .destApName => ⟨false, zeros sizeNamePart⟩
  | .srcAEInst => ⟨false, zeros sizeNamePart⟩
  | .srcAEName => ⟨false, zeros sizeNamePart⟩
  | .srcApInst => ⟨false, zeros sizeNamePart⟩
  | .srcApName => ⟨false, zeros sizeNamePart⟩
  | .resultReason => ⟨false, zeros sizeResultReason⟩
  | .version => ⟨false, (0 : ℤ)⟩

theorem objVal_valid : rina_messages_objVal_t.Valid where
  complete i := by cases i <;> decide
  nodup := by decide
  tag_ne_zero i := by cases i <;> decide
  tag_lt i := by cases i <;> decide

theorem authPolicy_valid : rina_messages_authPolicy_t.Valid where
  complete i := by cases i <;> decide
  nodup := by decide
  tag_ne_zero i := by cases i <;> decide
  tag_lt i := by cases i <;> decide

theorem cdap_valid : rina_messages_CDAPMessage.Valid where
  complete i := by cases i <;> decide
  nodup := by decide
  tag_ne_zero i := by cases i <;> decide
  tag_lt i := by cases i <;> decide

/-! ### Structures in normal form -/

section Normal

variable {γ : Type}

/-- A value which is there is such, and one which is not there is zero. -/
def PbSlot.Normal (zero : γ) (P : γ → Prop) (x : PbSlot γ) : Prop :=
  if x.has then P x.val else x.val = zero

/-- A string with zeros up to the end of its array. -/
def Padded (n : ℕ) (chars : Bytes) : Prop := ∃ s : CString, s.length < n ∧ chars = strncpy n s

/-- Bytes with zeros up to the end of their array. -/
def PbBytes.Normal (n : ℕ) (b : PbBytes) : Prop :=
  b.bytes.length = n ∧ b.size ≤ n ∧ b.bytes = b.bytes.take b.size ++ zeros (n - b.size)

variable {t : PbType γ} {zero : γ} {P : γ → Prop} {tag n : ℕ}

/-- Where the values of the type are carried to themselves, so is an optional field. -/
theorem OPTIONAL_normal (h : ∀ v, P v → t.Carries zero v v n) (htag : tag < 2 ^ 10)
    (hw : t.wire_type < 8) {x : PbSlot γ} (hx : x.Normal zero P) :
    (OPTIONAL tag t).Carries ⟨false, zero⟩ x x (tagSize tag + n) := by
  obtain ⟨has, val⟩ := x
  cases has with
  | false =>
    have hval : val = zero := by simpa [PbSlot.Normal] using hx
    subst hval
    exact OPTIONAL_carries (y := val) (fun hhas => absurd hhas Bool.false_ne_true) htag hw
  | true =>
    have hval : P val := by simpa [PbSlot.Normal] using hx
    exact OPTIONAL_carries (fun _ => h val hval) htag hw

theorem STRING_normal {n : ℕ} (hn : n ≤ 128) (v : Bytes) (hv : Padded n v) :
    STRING.Carries (zeros n) v v n := by
  obtain ⟨s, hs, rfl⟩ := hv
  exact STRING_carries hn (cstring_strncpy hs) hs

theorem BYTES_normal {n : ℕ} (hn : n < 2 ^ 14) (v : PbBytes) (hv : v.Normal n) :
    BYTES.Carries ⟨0, zeros n⟩ v v (2 + n) := by
  obtain ⟨hlen, hsize, hzeros⟩ := hv
  have hz : v.bytes.length = (zeros n).length := by rw [hlen, zeros, List.length_replicate]
  have hcarries := BYTES_carries (z := ⟨0, zeros n⟩) hz (hlen.symm ▸ hsize) (hlen.symm ▸ hn)
  have htake : (v.bytes.take v.size).length = v.size := List.length_take_of_le (hlen.symm ▸ hsize)
  have hsplice : splice (zeros n) 0 (v.bytes.take v.size) = v.bytes := by
    rw [splice, List.take_zero, List.nil_append, Nat.zero_add, htake]
    simp only [zeros, List.drop_replicate]
    exact hzeros.symm
  rw [hsplice, hlen] at hcarries
  exact hcarries

end Normal

def ObjValField.Normal : (i : ObjValField) → i.Slot → Prop
  | .intval, x => PbSlot.Normal (0 : ℤ) (Signed 32) x
  | .sintval, x => PbSlot.Normal (0 : ℤ) (Signed 32) x
  | .int64val, x => PbSlot.Normal (0 : ℤ) (Signed 64) x
  | .sint64val, x => PbSlot.Normal (0 : ℤ) (Signed 64) x
  | .strval, x => PbSlot.Normal (zeros sizeStrval) (Padded sizeStrval) x
  | .byteval, x => PbSlot.Normal ⟨0, zeros sizeByteval⟩ (PbBytes.Normal sizeByteval) x
  | .floatval, x => PbSlot.Normal (zeros 4) (fun v => v.length = 4) x
  | .doubleval, x => PbSlot.Normal (zeros 8) (fun v => v.length = 8) x
  | .boolval, x => PbSlot.Normal false (fun _ => True) x

/-- The most bytes which a field takes. -/
def ObjValField.bound : ObjValField → ℕ
  | .intval | .sintval | .int64val | .sint64val => 11
  | .strval => 1 + sizeStrval
  | .byteval => 3 + sizeByteval
  | .floatval => 5
  | .doubleval => 9
  | .boolval => 2

def AuthPolicyField.Normal : (i : AuthPolicyField) → i.Slot → Prop
  | .name, x => PbSlot.Normal (zeros sizeAuthName) (Padded sizeAuthName) x
  | .versions, (x : PbArray Bytes) => ∃ v, x.items = [v] ∧
      (x.count = 0 ∧ v = zeros sizeVersions ∨ x.count = 1 ∧ Padded sizeVersions v)
  | .options, _ => True

def AuthPolicyField.bound : AuthPolicyField → ℕ
  | .name => 1 + sizeAuthName
  | .versions => 1 + sizeVersions
  | .options => 0

def CDAPMessageField.Normal : (i : CDAPMessageField) → i.Slot → Prop
  | .absSyntax, x => PbSlot.Normal (0 : ℤ) (Signed 32) x
  | .opCode, _ => True
  | .invokeID, x => PbSlot.Normal (0 : ℤ) (Signed 32) x
  | .flags, x => PbSlot.Normal (0 : UInt32) (fun _ => True) x
  | .objClass, x => PbSlot.Normal (zeros sizeObjClass) (Padded sizeObjClass) x
  | .objName, x => PbSlot.Normal (zeros sizeObjName) (Padded sizeObjName) x
  | .objInst, x => PbSlot.Normal (0 : ℤ) (Signed 64) x
  | .objValue, x =>
    PbSlot.Normal rina_messages_objVal_t_init_zero (fun v => ∀ i, ObjValField.Normal i (v i)) x
  | .result, x => PbSlot.Normal (0 : ℤ) (Signed 32) x
  | .scope, x => PbSlot.Normal (0 : ℤ) (Signed 32) x
  | .filter, _ => True
  | .authPolicy, x =>
    PbSlot.Normal rina_messages_authPolicy_t_init_zero
      (fun v => ∀ i, AuthPolicyField.Normal i (v i)) x
  | .destAEInst, x => PbSlot.Normal (zeros sizeNamePart) (Padded sizeNamePart) x
  | .destAEName, x => PbSlot.Normal (zeros sizeNamePart) (Padded sizeNamePart) x
  | .destApInst, x => PbSlot.Normal (zeros sizeNamePart) (Padded sizeNamePart) x
  | .destApName, x => PbSlot.Normal (zeros sizeNamePart) (Padded sizeNamePart) x
  | .srcAEInst, x => PbSlot.Normal (zeros sizeNamePart) (Padded sizeNamePart) x
  | .srcAEName, x => PbSlot.Normal (zeros sizeNamePart) (Padded sizeNamePart) x
  | .srcApInst, x => PbSlot.Normal (zeros sizeNamePart) (Padded sizeNamePart) x
  | .srcApName, x => PbSlot.Normal (zeros sizeNamePart) (Padded sizeNamePart) x
  | .resultReason, x => PbSlot.Normal (zeros sizeResultReason) (Padded sizeResultReason) x
  | .version, x => PbSlot.Normal (0 : ℤ) (Signed 64) x

def CDAPMessageField.bound : CDAPMessageField → ℕ
  | .absSyntax | .opCode | .invokeID | .flags | .objInst | .result | .scope => 11
  | .objClass => 1 + sizeObjClass
  | .objName => 1 + sizeObjName
  | .objValue => 3 + (rina_messages_objVal_t.order.map ObjValField.bound).sum
  | .filter => 0
  | .authPolicy => 4 + (rina_messages_authPolicy_t.order.map AuthPolicyField.bound).sum
  | .destAEInst | .destAEName | .destApInst | .destApName | .srcAEInst | .srcAEName | .srcApInst
  | .srcApName => 2 + sizeNamePart
  | .resultReason => 2 + sizeResultReason
  | .version => 12

/-- The most bytes which a message takes. -/
def maxCdapWire : ℕ := 1054

/-! ### The round trip -/

theorem objVal_carries {x : ∀ i, ObjValField.Slot i}
    (hx : ∀ i, ObjValField.Normal i (x i)) (i : ObjValField) :
    (rina_messages_objVal_t.field i).Carries (rina_messages_objVal_t_init_zero i) (x i) (x i)
      i.bound := by
  have h := hx i
  cases i with
  | intval => exact OPTIONAL_normal (fun _ hv => INT32_carries 0 hv) (by decide) (by decide) h
  | sintval =>
    exact OPTIONAL_normal (fun _ hv => SVARINT_carries (by decide) (by decide) 0 hv) (by decide)
      (by decide) h
  | int64val => exact OPTIONAL_normal (fun _ hv => INT64_carries 0 hv) (by decide) (by decide) h
  | sint64val =>
    exact OPTIONAL_normal (fun _ hv => SVARINT_carries (by decide) (by decide) 0 hv) (by decide)
      (by decide) h
  | strval => exact OPTIONAL_normal (STRING_normal (by decide)) (by decide) (by decide) h
  | byteval => exact OPTIONAL_normal (BYTES_normal (by decide)) (by decide) (by decide) h
  | floatval => exact OPTIONAL_normal (fun _ => FIXED32_carries _) (by decide) (by decide) h
  | doubleval => exact OPTIONAL_normal (fun _ => FIXED64_carries _) (by decide) (by decide) h
  | boolval =>
    exact OPTIONAL_normal (P := fun _ => True) (fun v _ => BOOL_carries _ v) (by decide)
      (by decide) h

theorem versions_carries {x : PbArray Bytes} (hx : AuthPolicyField.Normal .versions x) :
    (REPEATED 2 STRING).Carries ⟨0, [zeros sizeVersions]⟩ x x (1 + sizeVersions) := by
  obtain ⟨v, hitems, hv⟩ := hx
  obtain ⟨count, items⟩ := x
  obtain rfl : items = [v] := hitems
  rcases hv with ⟨hcount, rfl⟩ | ⟨hcount, hpadded⟩
  · obtain rfl : count = 0 := hcount
    exact REPEATED_carries (f := id) (k := 1) (n := sizeVersions) rfl (by decide) (by simp)
      (by decide) (by decide)
  · obtain rfl : count = 1 := hcount
    refine REPEATED_carries (f := id) (k := 1) (n := sizeVersions) rfl (Nat.le_refl 1) ?_
      (by decide) (by decide)
    intro a ha
    obtain rfl : a = v := by simpa using ha
    exact STRING_normal (by decide) a hpadded

theorem authPolicy_carries {x : ∀ i, AuthPolicyField.Slot i}
    (hx : ∀ i, AuthPolicyField.Normal i (x i)) (i : AuthPolicyField) :
    (rina_messages_authPolicy_t.field i).Carries (rina_messages_authPolicy_t_init_zero i) (x i)
      (x i) i.bound := by
  have h := hx i
  cases i with
  | name => exact OPTIONAL_normal (STRING_normal (by decide)) (by decide) (by decide) h
  | versions => exact versions_carries h
  | options => exact CALLBACK_carries 3

theorem cdap_carries {x : ∀ i, CDAPMessageField.Slot i}
    (hx : ∀ i, CDAPMessageField.Normal i (x i)) (i : CDAPMessageField) :
    (rina_messages_CDAPMessage.field i).Carries (rina_messages_CDAPMessage_init_zero i) (x i)
      (x i) i.bound := by
  have h := hx i
  cases i with
  | absSyntax | invokeID | result | scope =>
    exact OPTIONAL_normal (fun _ hv => INT32_carries 0 hv) (by decide) (by decide) h
  | objInst | version =>
    exact OPTIONAL_normal (fun _ hv => INT64_carries 0 hv) (by decide) (by decide) h
  | opCode => exact REQUIRED_carries (UINT32_carries _ _) (by decide) (by decide)
  | flags =>
    exact OPTIONAL_normal (P := fun _ => True) (fun v _ => UINT32_carries _ v) (by decide)
      (by decide) h
  | objValue =>
    exact OPTIONAL_normal (fun v hv => MESSAGE_carries objVal_valid (objVal_carries hv) (by decide))
      (by decide) (by decide) h
  | authPolicy =>
    exact OPTIONAL_normal (fun v hv => MESSAGE_carries authPolicy_valid (authPolicy_carries hv)
      (by decide)) (by decide) (by decide) h
  | filter => exact CALLBACK_carries 11
  | _ => exact OPTIONAL_normal (STRING_normal (by decide)) (by decide) (by decide) h

theorem maxCdapWire_eq :
    (rina_messages_CDAPMessage.order.map CDAPMessageField.bound).sum = maxCdapWire := by decide

/-- A structure in normal form is encoded into any buffer for a structure. It comes back from the
bytes, and from any which have the same fields in any order and other fields between them. -/
theorem cdap_comes_back {m : ∀ i, CDAPMessageField.Slot i}
    (hm : ∀ i, CDAPMessageField.Normal i (m i)) {size : ℕ} (hsize : maxCdapWire ≤ size) :
    ∃ cs, rina_messages_CDAPMessage.pb_encode m (pb_ostream_from_buffer size) =
        some ⟨some size, (chunkWires cs).length, chunkWires cs⟩ ∧
      rina_messages_CDAPMessage.SameFields cs cs ∧
      ∀ cs', rina_messages_CDAPMessage.SameFields cs cs' →
        rina_messages_CDAPMessage.pb_decode (chunkWires cs')
          rina_messages_CDAPMessage_init_zero = .ok m := by
  obtain ⟨cs, hlen, hwrites, hself, hdecode⟩ := PbMsgdesc.carries cdap_valid (cdap_carries hm)
  rw [maxCdapWire_eq] at hlen
  refine ⟨cs, ?_, hself, hdecode⟩
  rw [hwrites, pb_write_from_buffer, if_pos (hlen.trans hsize)]

end RinaSense.SerDes
