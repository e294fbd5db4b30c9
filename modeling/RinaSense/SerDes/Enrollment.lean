import RinaSense.SerDes.NeighborTrip

/-!
# Enrollment messages

A member which enrolls says its address, whether it starts early, and a token. The encoder
copies the three into the protobuf structure; the decoder copies the address and the token
into an object of the pool and leaves the rest of it as the pool hands it out.
-/

namespace RinaSense.SerDes

open Common Library.Memory

/-- `enrollmentMessage_t` without the supporting DIFs, which neither side looks at. -/
structure EnrollmentMessage where
  ullAddress : UInt64
  xStartEarly : Bool
  pcToken : Option CString
deriving DecidableEq

/-- The size of the arrays in `EnrollmentInformationMessage.pb.h`. -/
def sizeToken : ℕ := 20

/-- `rina_messages_enrollmentInformation_t`; the count of the supporting DIFs is the length of
the list. -/
structure PbEnrollment where
  has_address : Bool
  address : UInt64
  supportingDifs : List Bytes
  has_startEarly : Bool
  startEarly : Bool
  token : PbString
deriving DecidableEq, Repr

def PbEnrollment.init_zero : PbEnrollment where
  has_address := false
  address := 0
  supportingDifs := []
  has_startEarly := false
  startEarly := false
  token := ⟨false, zeros sizeToken⟩

/-! ### Flags and arrays in the protobuf library -/

def encode_bool_field (tag : ℕ) (has value : Bool) (stream : PbOstream) : Option PbOstream :=
  if has then do
    let stream ← pb_encode_tag_for_field stream 0 tag
    pb_encode_varint stream (if value then 1 else 0)
  else some stream

def encode_strings (tag : ℕ) : List Bytes → PbOstream → Option PbOstream
  | [], stream => some stream
  | chars :: items, stream => do
    let stream ← pb_encode_tag_for_field stream 2 tag
    let stream ← pb_enc_string stream chars
    encode_strings tag items stream

/-- An array with room for `array_size` strings. -/
def encode_string_array (tag array_size : ℕ) (items : List Bytes) (stream : PbOstream) :
    Option PbOstream :=
  if array_size < items.length then none else encode_strings tag items stream

section Decoder

variable {β : Type}

def decode_bool_field (set : Bool → β → β) : FieldDecoder β :=
  fun wire_type stream dest => do
    if wire_type ≠ .PB_WT_VARINT then .error none
    else
      let (value, stream) ← succeeds (pb_decode_varint32 stream)
      return (stream, set (decide (value ≠ 0)) dest)

/-- The next string goes behind those which were read, each into `n` bytes. -/
def decode_string_array (array_size n : ℕ) (get : β → List Bytes) (set : List Bytes → β → β) :
    FieldDecoder β :=
  fun wire_type stream dest => do
    if array_size ≤ (get dest).length then .error none
    else
      let (stream, chars) ← succeeds (pb_dec_string wire_type stream (zeros n))
      return (stream, set (get dest ++ [chars]) dest)

end Decoder

/-- `pb_encode` on `rina_messages_enrollmentInformation_t_fields`. -/
def encodeEnrollment (message : PbEnrollment) (stream : PbOstream) : Option PbOstream := do
  let stream ← encode_uint64_field 1 message.has_address message.address stream
  let stream ← encode_string_array 2 1 message.supportingDifs stream
  let stream ← encode_bool_field 3 message.has_startEarly message.startEarly stream
  encode_string_field 4 message.token stream

/-- `rina_messages_enrollmentInformation_t_fields` for the decoder. -/
def enrollmentFields : ℕ → Option (FieldDecoder PbEnrollment)
  | 1 => some (decode_uint64_field fun value m => { m with has_address := true, address := value })
  | 2 => some (decode_string_array 1 sizeToken (·.supportingDifs)
      fun items m => { m with supportingDifs := items })
  | 3 => some (decode_bool_field
      fun value m => { m with has_startEarly := true, startEarly := value })
  | 4 => some (decode_string_field (·.token) fun field m => { m with token := field })
  | _ => none

/-! ### The serialiser -/

/-- What an object of the heap contains before it is written to. -/
structure EnrollmentResidue where
  ullAddress : UInt64
  xStartEarly : Bool
  bytes : ℕ → UInt8

/-- Whether the two pools have an object, and what is in it. -/
structure EnrollmentPools where
  xPoolEnc : Bool
  xPoolDec : Bool
  encBytes : ℕ → UInt8
  residue : EnrollmentResidue

/-- An object value at the front of an object of a pool, with the place and the length of the
value which it points to. -/
structure SerObjectValue where
  object : Bytes
  pvSerBuffer : ℕ
  xSerLength : ℕ
deriving DecidableEq, Repr

/-- The bytes which are handed on. -/
def SerObjectValue.payload (v : SerObjectValue) : Bytes :=
  (v.object.drop v.pvSerBuffer).take v.xSerLength

/-- A message at the front of an object; its token is an offset into the object. -/
structure DecodedEnrollment where
  ullAddress : UInt64
  xStartEarly : Bool
  pcToken : Option ℕ
  object : Bytes
deriving DecidableEq, Repr

def sizeofEnrollmentMessage : ℕ := 32

/-- The size of the objects for encoding. -/
def sizeEnrollmentEnc : ℕ := ENROLLMENT_MSG_SIZE + sizeofSerObjectValue

/-- The size of the objects for decoding. -/
def sizeEnrollmentDec : ℕ := sizeToken + sizeofEnrollmentMessage

/-- The pointer to the object value is moved on by as many values as one has bytes. -/
def offEnrollmentBuffer : ℕ := sizeofSerObjectValue * sizeofSerObjectValue

def fillEnrollment (pxMsg : EnrollmentMessage) : PbEnrollment :=
  { PbEnrollment.init_zero with
    has_startEarly := true
    startEarly := pxMsg.xStartEarly
    has_address := decide (0 < pxMsg.ullAddress)
    address := if 0 < pxMsg.ullAddress then pxMsg.ullAddress else 0
    token := copyField sizeToken pxMsg.pcToken }

section Codec

variable (pf : Platform) (pools : EnrollmentPools)

/-- A new object: the pool clears it, the heap does not. -/
def newBytes (bytes : ℕ → UInt8) (n : ℕ) : Bytes :=
  if pf.valgrind then (List.range n).map bytes else zeros n

def pxSerDesEnrollmentEncode (pxMsg : EnrollmentMessage) : Exec (Option SerObjectValue) :=
  let enrollMsg := fillEnrollment pxMsg
  if pools.xPoolEnc then
    match encodeEnrollment enrollMsg (pb_ostream_from_buffer ENROLLMENT_MSG_SIZE) with
    | none => return none
    | some xStream => do
      let object ← copyTo (newBytes pf pools.encBytes sizeEnrollmentEnc) offEnrollmentBuffer
        xStream.buffer
      return some ⟨object, offEnrollmentBuffer, xStream.bytes_written⟩
  else status (outOfMemory pf)

def copyToken (object : Bytes) (token : PbString) : Exec Bytes :=
  if token.has then do
    let pcToken ← inBounds (cstring token.chars)
    strcpy object sizeofEnrollmentMessage pcToken
  else .ok object

/-- The flag of the structure is not copied. -/
def copyEnrollment (message : PbEnrollment) : Exec DecodedEnrollment := do
  let object ← copyToken (newBytes pf pools.residue.bytes sizeEnrollmentDec) message.token
  return {
    ullAddress :=
      if message.has_address then message.address
      else if pf.valgrind then pools.residue.ullAddress else 0
    xStartEarly := if pf.valgrind then pools.residue.xStartEarly else false
    pcToken := some sizeofEnrollmentMessage
    object := object }

def pxSerDesEnrollmentDecode (pucBuffer : Bytes) : Exec (Option DecodedEnrollment) := status do
  let message ← pb_decode enrollmentFields pucBuffer .init_zero
  if pools.xPoolDec then traps (copyEnrollment pf pools message)
  else outOfMemory pf

end Codec

/-! ### Numbers on the wire -/

theorem varint64Rest_last {v bitpos result : ℕ} (rest : Bytes) (hbit : bitpos < 64)
    (hlow : v < 128) (hv : v * 2 ^ bitpos < 2 ^ 64) (hr : result < 2 ^ bitpos) :
    varint64Rest bitpos result (UInt8.ofNat v :: rest) = some (result + v * 2 ^ bitpos, rest) := by
  have hstop : ¬ 128 ≤ v := by omega
  rw [varint64Rest, if_neg (by omega), toNat_low hlow, Nat.mod_eq_of_lt hlow,
    or_shifted bitpos v hr hv]
  simp only [if_neg hstop]

/-- The bytes of a number of sixty-four bits, from any of them on. -/
theorem varint64Rest_varint (rest : Bytes) {k v bitpos result : ℕ} (hbit : bitpos < 64)
    (hseven : bitpos % 7 = 0) (hlong : 64 ≤ bitpos + 7 * (k + 1)) (hv : v * 2 ^ bitpos < 2 ^ 64)
    (hr : result < 2 ^ bitpos) :
    varint64Rest bitpos result (varint k v ++ rest) = some (result + v * 2 ^ bitpos, rest) := by
  induction k generalizing v bitpos result with
  | zero =>
    have hpos : bitpos = 63 := by omega
    have hsmall : v < 128 := by
      rw [hpos] at hv
      omega
    exact varint64Rest_last rest hbit hsmall hv hr
  | succ k ih =>
    unfold varint
    split_ifs with hlow
    · exact varint64Rest_last rest hbit hlow hv hr
    · have hsplit := digit_add_rest v bitpos
      have hroom : bitpos + 7 < 64 := by
        by_contra hfull
        have hpow : 2 ^ 57 ≤ 2 ^ bitpos := Nat.pow_le_pow_right (by decide) (by omega)
        have hbig : 128 * 2 ^ 57 ≤ v * 2 ^ bitpos := Nat.mul_le_mul (by omega) hpow
        omega
      have hpart : v % 128 * 2 ^ bitpos < 2 ^ 64 := by omega
      have hacc := digit_lt v hr
      have hmark : (v % 128 + 128) % 128 = v % 128 := by omega
      have hmore : 128 ≤ v % 128 + 128 := by omega
      rw [List.cons_append, varint64Rest, if_neg (by omega), toNat_marked, hmark,
        or_shifted bitpos _ hr hpart]
      simp only [if_pos hmore]
      rw [ih hroom (by omega) (by omega) (by omega) hacc, Nat.add_assoc, hsplit]

theorem pb_decode_varint_varint {v : ℕ} (hv : v < 2 ^ 64) (rest : Bytes) :
    pb_decode_varint (varint 9 v ++ rest) = some (v, rest) := by
  have hread : varint64Rest 0 0 (varint 9 v ++ rest) = some (0 + v * 2 ^ 0, rest) :=
    varint64Rest_varint rest (by decide) (by decide) (by decide) (by omega) (by decide)
  rw [pb_decode_varint, hread, Nat.zero_add, Nat.pow_zero, Nat.mul_one]

/-- A field which is a number. -/
def numberWire (tag v : ℕ) : Bytes := varint 9 (8 * tag + 0) ++ varint 9 v

theorem writes_number (tag v : ℕ) :
    Writes (fun s => (pb_encode_tag_for_field s 0 tag).bind fun t => pb_encode_varint t v)
      (numberWire tag v) :=
  (show Writes (fun s => pb_encode_tag_for_field s 0 tag) _ from fun _ => rfl).andThen
    (show Writes (fun s => pb_encode_varint s v) _ from fun _ => rfl)

theorem writes_uint64_field (tag : ℕ) (has : Bool) (value : UInt64) :
    Writes (encode_uint64_field tag has value)
      (if has then numberWire tag value.toNat else []) := by
  cases has with
  | false => exact writes_nothing
  | true => exact writes_number tag value.toNat

theorem writes_bool_field (tag : ℕ) (value : Bool) :
    Writes (encode_bool_field tag true value) (numberWire tag (if value then 1 else 0)) :=
  writes_number tag _

section Fields

variable {β : Type} {fields : ℕ → Option (FieldDecoder β)}

/-- A number is handed to its field. -/
theorem Decodes.number {tag v : ℕ} (hne : tag ≠ 0) (htag : 8 * tag + 0 < 2 ^ 32)
    {decode_field : FieldDecoder β} (hfield : fields tag = some decode_field) {rest : Bytes}
    {dest dest' : β} {res : PbExec β}
    (hstep : decode_field .PB_WT_VARINT (varint 9 v ++ rest) dest = .ok (rest, dest'))
    (h : Decodes fields rest dest' res) : Decodes fields (numberWire tag v ++ rest) dest res := by
  intro fuel hfuel
  have hpos : 0 < (varint 9 (8 * tag + 0)).length :=
    List.length_pos_iff.mpr (varint_ne_nil _ _)
  rw [numberWire, List.length_append, List.length_append] at hfuel
  obtain ⟨k, rfl⟩ : ∃ k, fuel = k + 1 := ⟨fuel - 1, by omega⟩
  rw [numberWire, List.append_assoc,
    pb_decode_inner_field (by decide) hne htag hfield k (varint 9 v ++ rest) dest]
  change (decode_field .PB_WT_VARINT (varint 9 v ++ rest) dest >>= _) = res
  rw [hstep]
  exact h k (by omega)

theorem decode_uint64_field_number (set : UInt64 → β → β) (value : UInt64) (rest : Bytes)
    (dest : β) :
    decode_uint64_field set .PB_WT_VARINT (varint 9 value.toNat ++ rest) dest =
      .ok (rest, set value dest) := by
  simp only [decode_uint64_field, ne_eq, not_true, if_false,
    pb_decode_varint_varint value.toNat_lt rest, succeeds_some, PbExec.ok_bind,
    UInt64.ofNat_toNat]
  rfl

theorem decode_bool_field_number (set : Bool → β → β) (value : Bool) (rest : Bytes) (dest : β) :
    decode_bool_field set .PB_WT_VARINT (varint 9 (if value then 1 else 0) ++ rest) dest =
      .ok (rest, set value dest) := by
  cases value <;> rfl

end Fields

/-! ### Enrollment on the wire -/

def addressWire (ullAddress : UInt64) : Bytes :=
  if 0 < ullAddress then numberWire 1 ullAddress.toNat else []

def enrollmentWire (msg : EnrollmentMessage) : Bytes :=
  addressWire msg.ullAddress ++
    (numberWire 3 (if msg.xStartEarly then 1 else 0) ++ wires (stringRecords 4 msg.pcToken))

theorem writes_enrollment {msg : EnrollmentMessage} (h : FitsIn sizeToken msg.pcToken) :
    Writes (encodeEnrollment (fillEnrollment msg)) (enrollmentWire msg) := by
  intro stream
  have haddress : Writes (encode_uint64_field 1 (fillEnrollment msg).has_address
      (fillEnrollment msg).address) (addressWire msg.ullAddress) := by
    have hwrites := writes_uint64_field 1 (decide (0 < msg.ullAddress))
      (if 0 < msg.ullAddress then msg.ullAddress else 0)
    unfold addressWire
    by_cases hpos : 0 < msg.ullAddress
    · simpa [fillEnrollment, hpos] using hwrites
    · simpa [fillEnrollment, hpos] using hwrites
  have hwrite := haddress.andThen ((writes_bool_field 3 msg.xStartEarly).andThen
    (writes_string_field 4 h)) stream
  rw [enrollmentWire, ← hwrite]
  rfl

/-- The decoder gets back what the encoder filled in. -/
theorem decodes_enrollment {msg : EnrollmentMessage} (h : FitsIn sizeToken msg.pcToken) :
    pb_decode enrollmentFields (enrollmentWire msg) .init_zero = .ok (fillEnrollment msg) := by
  have htoken : enrollmentFields 4 = some (decode_string_field (·.token)
      fun field m => { m with token := field }) := rfl
  have hstart : enrollmentFields 3 = some (decode_bool_field
      fun value m => { m with has_startEarly := true, startEarly := value }) := rfl
  have haddress : enrollmentFields 1 = some (decode_uint64_field
      fun value m => { m with has_address := true, address := value }) := rfl
  have hrest (m : PbEnrollment) (hm : m.token = copyField sizeToken none)
      (hfilled : { m with
        has_startEarly := true
        startEarly := msg.xStartEarly
        token := copyField sizeToken msg.pcToken } = fillEnrollment msg) :
      Decodes enrollmentFields (numberWire 3 (if msg.xStartEarly then 1 else 0) ++
        wires (stringRecords 4 msg.pcToken)) m (.ok (fillEnrollment msg)) := by
    refine Decodes.number (by decide) (by decide) hstart
      (decode_bool_field_number _ msg.xStartEarly _ m) ?_
    rw [← List.append_nil (wires _)]
    refine Decodes.optional h (by decide) (by decide) (by decide) htoken ?_ ?_ ?_
    · exact hm
    · rw [← hm]
    · rw [hfilled]
      exact decodes_nil _
  apply Decodes.pb_decode
  unfold enrollmentWire addressWire
  by_cases hpos : 0 < msg.ullAddress
  · rw [if_pos hpos]
    refine Decodes.number (by decide) (by decide) haddress
      (decode_uint64_field_number _ msg.ullAddress _ _) (hrest _ rfl ?_)
    simp [fillEnrollment, hpos]
  · rw [if_neg hpos]
    refine hrest _ rfl ?_
    simp [fillEnrollment, hpos, PbEnrollment.init_zero]

/-! ### The sizes -/

theorem varintSize_le (k v : ℕ) : varintSize k v ≤ k + 1 := by
  induction k generalizing v with
  | zero => exact Nat.le_refl 1
  | succ k ih =>
    have hrest := ih (v / 128)
    unfold varintSize
    split_ifs <;> omega

theorem numberWire_length (tag v : ℕ) (htag : 8 * tag < 128) :
    (numberWire tag v).length = 1 + varintSize 9 v := by
  have hone : varint 9 (8 * tag + 0) = [UInt8.ofNat (8 * tag)] := if_pos htag
  rw [numberWire, hone, List.length_append, varint_length, List.length_singleton]

theorem addressWire_length_le (ullAddress : UInt64) : (addressWire ullAddress).length ≤ 11 := by
  unfold addressWire
  split_ifs
  · have hsize := varintSize_le 9 ullAddress.toNat
    rw [numberWire_length 1 _ (by decide)]
    omega
  · exact Nat.zero_le _

theorem startEarlyWire_length (xStartEarly : Bool) :
    (numberWire 3 (if xStartEarly then 1 else 0)).length = 2 := by
  cases xStartEarly <;> rfl

/-- A string which fits into `n` bytes takes one more on the wire. -/
theorem stringRecords_length_le {tag n : ℕ} {s : Option CString} (htag : 8 * tag + 2 < 128)
    (hn : n ≤ 128) (h : FitsIn n s) : (wires (stringRecords tag s)).length ≤ n + 1 := by
  cases s with
  | none => exact Nat.zero_le _
  | some s =>
    have hlt : s.bytes.length < n := h
    have hrecord := Record.wire_length (r := ⟨tag, s.bytes⟩) htag
    have hsize : varintSize 9 s.bytes.length = 1 := if_pos (Nat.lt_of_lt_of_le hlt hn)
    have hwires : wires (stringRecords tag (some s)) = Record.wire ⟨tag, s.bytes⟩ := by
      simp [stringRecords]
    rw [hwires, hrecord, fieldSize, hsize]
    dsimp only
    omega

/-- The longest encoding of the fields which the encoder fills in. -/
def maxEnrollmentWire : ℕ := 11 + (2 + 21)

theorem enrollmentWire_length_le {msg : EnrollmentMessage} (h : FitsIn sizeToken msg.pcToken) :
    (enrollmentWire msg).length ≤ maxEnrollmentWire := by
  have haddress := addressWire_length_le msg.ullAddress
  have hstart := startEarlyWire_length msg.xStartEarly
  have htoken : (wires (stringRecords 4 msg.pcToken)).length ≤ 20 + 1 :=
    stringRecords_length_le (by decide) (by decide) h
  rw [enrollmentWire, List.length_append, List.length_append, maxEnrollmentWire]
  omega

/-! ### The round trip -/

section RoundTrip

variable (pf : Platform) (pools : EnrollmentPools)

@[simp] theorem newBytes_length (bytes : ℕ → UInt8) (n : ℕ) : (newBytes pf bytes n).length = n := by
  unfold newBytes
  split_ifs <;> simp [zeros]

/-- There is room in an object for the encoding. -/
theorem enrollmentWire_inside {msg : EnrollmentMessage} (h : FitsIn sizeToken msg.pcToken) :
    offEnrollmentBuffer + (enrollmentWire msg).length ≤
      (newBytes pf pools.encBytes sizeEnrollmentEnc).length := by
  have hlen := enrollmentWire_length_le h
  have hroom : offEnrollmentBuffer + maxEnrollmentWire ≤ sizeEnrollmentEnc := by decide
  rw [newBytes_length]
  omega

/-- The object value which is made of a message. -/
def encodedEnrollment (msg : EnrollmentMessage) : SerObjectValue where
  object := splice (newBytes pf pools.encBytes sizeEnrollmentEnc) offEnrollmentBuffer
    (enrollmentWire msg)
  pvSerBuffer := offEnrollmentBuffer
  xSerLength := (enrollmentWire msg).length

theorem pxSerDesEnrollmentEncode_eq {msg : EnrollmentMessage} (h : FitsIn sizeToken msg.pcToken) :
    pxSerDesEnrollmentEncode pf pools msg =
      if pools.xPoolEnc then .ok (some (encodedEnrollment pf pools msg))
      else status (outOfMemory pf) := by
  have hlen := enrollmentWire_length_le h
  have hmax : maxEnrollmentWire ≤ ENROLLMENT_MSG_SIZE := by decide
  have hroom := enrollmentWire_inside pf pools h
  have hencode := writes_enrollment h (pb_ostream_from_buffer ENROLLMENT_MSG_SIZE)
  rw [pb_write_from_buffer, if_pos (hlen.trans hmax)] at hencode
  unfold pxSerDesEnrollmentEncode
  simp only [hencode, copyTo, if_pos hroom]
  rfl

theorem encodedEnrollment_payload {msg : EnrollmentMessage} (h : FitsIn sizeToken msg.pcToken) :
    (encodedEnrollment pf pools msg).payload = enrollmentWire msg :=
  take_drop_splice_self (enrollmentWire_inside pf pools h)

/-- The flag and the address which a new message has. -/
def freshStartEarly (residue : EnrollmentResidue) : Bool :=
  if pf.valgrind then residue.xStartEarly else false

def freshEnrollmentAddress (residue : EnrollmentResidue) : UInt64 :=
  if pf.valgrind then residue.ullAddress else 0

/-- The object into which a message with a token is decoded. -/
def tokenObject (pcToken : Option CString) : Bytes :=
  let object := newBytes pf pools.residue.bytes sizeEnrollmentDec
  match pcToken with
  | none => object
  | some s => splice object sizeofEnrollmentMessage s.terminated

theorem copyToken_eq {pcToken : Option CString} (h : FitsIn sizeToken pcToken) :
    copyToken (newBytes pf pools.residue.bytes sizeEnrollmentDec) (copyField sizeToken pcToken) =
      .ok (tokenObject pf pools pcToken) := by
  cases pcToken with
  | none => rfl
  | some s =>
    have hlt : s.length < sizeToken := h
    have hroom : sizeofEnrollmentMessage + s.terminated.length ≤
        (newBytes pf pools.residue.bytes sizeEnrollmentDec).length := by
      rw [newBytes_length, CString.terminated_length, sizeEnrollmentDec]
      omega
    have hread : cstring (strncpy sizeToken s) = some s := cstring_strncpy h
    simp only [copyToken, copyField, if_true, hread]
    exact if_pos hroom

/-- The message which is decoded from the encoding of `msg`. -/
def decodedEnrollment (msg : EnrollmentMessage) : DecodedEnrollment where
  ullAddress :=
    if 0 < msg.ullAddress then msg.ullAddress else freshEnrollmentAddress pf pools.residue
  xStartEarly := freshStartEarly pf pools.residue
  pcToken := some sizeofEnrollmentMessage
  object := tokenObject pf pools msg.pcToken

theorem pxSerDesEnrollmentDecode_eq {msg : EnrollmentMessage} (h : FitsIn sizeToken msg.pcToken) :
    pxSerDesEnrollmentDecode pf pools (enrollmentWire msg) =
      if pools.xPoolDec then .ok (some (decodedEnrollment pf pools msg))
      else status (outOfMemory pf) := by
  have hcopy : copyEnrollment pf pools (fillEnrollment msg) =
      .ok (decodedEnrollment pf pools msg) := by
    have htoken : copyToken (newBytes pf pools.residue.bytes sizeEnrollmentDec)
        (fillEnrollment msg).token = .ok (tokenObject pf pools msg.pcToken) :=
      copyToken_eq pf pools h
    unfold copyEnrollment
    rw [htoken]
    by_cases hpos : 0 < msg.ullAddress
    · simp [fillEnrollment, decodedEnrollment, hpos, freshStartEarly]
    · simp [fillEnrollment, decodedEnrollment, hpos, freshStartEarly, freshEnrollmentAddress]
  unfold pxSerDesEnrollmentDecode
  rw [decodes_enrollment h, PbExec.ok_bind, hcopy]
  by_cases hpool : pools.xPoolDec
  · rw [if_pos hpool, if_pos hpool]
    rfl
  · rw [if_neg hpool, if_neg hpool]

/-- A decoded message says what the one said which was sent. -/
structure SameEnrollment (msg : EnrollmentMessage) (d : DecodedEnrollment) : Prop where
  address : d.ullAddress = msg.ullAddress
  token : reads d.object d.pcToken = msg.pcToken.map some
  startEarly : d.xStartEarly = msg.xStartEarly

/-- The message is encoded, and what its encoding is decoded into is the same. -/
def EnrollmentRoundTrips (msg : EnrollmentMessage) : Prop :=
  ∃ v d, pxSerDesEnrollmentEncode pf pools msg = .ok (some v) ∧
    pxSerDesEnrollmentDecode pf pools v.payload = .ok (some d) ∧ SameEnrollment msg d

theorem reads_token {pcToken : Option CString} (h : FitsIn sizeToken pcToken) :
    reads (tokenObject pf pools pcToken) (some sizeofEnrollmentMessage) = pcToken.map some ↔
      pcToken.isSome := by
  cases pcToken with
  | none => simp [reads]
  | some s =>
    have hlt : s.length < sizeToken := h
    have hroom : sizeofEnrollmentMessage + s.length + 1 ≤
        (newBytes pf pools.residue.bytes sizeEnrollmentDec).length := by
      rw [newBytes_length, sizeEnrollmentDec]
      omega
    have hat := (stringAt_splice hroom).cstring
    simpa [reads, tokenObject] using hat

/-- A message stays as it is exactly when it has a token, and a new message has its flag already
and, if it has no address, none either. -/
theorem enrollmentRoundTrips_iff {msg : EnrollmentMessage} (h : FitsIn sizeToken msg.pcToken)
    (henc : pools.xPoolEnc = true) (hdec : pools.xPoolDec = true) :
    EnrollmentRoundTrips pf pools msg ↔
      msg.pcToken.isSome ∧ msg.xStartEarly = freshStartEarly pf pools.residue ∧
        (msg.ullAddress = 0 → freshEnrollmentAddress pf pools.residue = 0) := by
  have hencode := pxSerDesEnrollmentEncode_eq pf pools h
  have hdecode := pxSerDesEnrollmentDecode_eq pf pools h
  rw [if_pos henc] at hencode
  rw [if_pos hdec] at hdecode
  have haddress : (decodedEnrollment pf pools msg).ullAddress = msg.ullAddress ↔
      (msg.ullAddress = 0 → freshEnrollmentAddress pf pools.residue = 0) := by
    by_cases hzero : msg.ullAddress = 0
    · simp [decodedEnrollment, hzero]
    · have hpos : 0 < msg.ullAddress := UInt64.pos_iff_ne_zero.mpr hzero
      simp [decodedEnrollment, hzero, hpos]
  constructor
  · rintro ⟨v, d, hv, hd, hsame⟩
    rw [hencode] at hv
    cases hv
    rw [encodedEnrollment_payload pf pools h, hdecode] at hd
    cases hd
    exact ⟨(reads_token pf pools h).mp hsame.token, hsame.startEarly.symm,
      haddress.mp hsame.address⟩
  · rintro ⟨htoken, hstart, hzero⟩
    refine ⟨_, _, hencode, ?_, haddress.mpr hzero, (reads_token pf pools h).mpr htoken, hstart.symm⟩
    rw [encodedEnrollment_payload pf pools h, hdecode]

end RoundTrip

/-! ### A message which starts early -/

def exampleToken : CString := ⟨[0x68, 0x69], by decide⟩

def exampleEnrollment (xStartEarly : Bool) : EnrollmentMessage :=
  ⟨7, xStartEarly, some exampleToken⟩

def exampleEnrollmentPools : EnrollmentPools :=
  ⟨true, true, fun _ => 0, ⟨0, false, fun _ => 0⟩⟩

/-- A message which does not start early is received as it was sent. -/
theorem late_roundTrips :
    EnrollmentRoundTrips ⟨false, false⟩ exampleEnrollmentPools (exampleEnrollment false) :=
  (enrollmentRoundTrips_iff ⟨false, false⟩ exampleEnrollmentPools (by decide) rfl rfl).mpr
    (by decide)

/-- A message which starts early is received as one which does not. -/
theorem startEarly_lost :
    FitsIn sizeToken (exampleEnrollment true).pcToken ∧
      ∃ v d, pxSerDesEnrollmentEncode ⟨false, false⟩ exampleEnrollmentPools
          (exampleEnrollment true) = .ok (some v) ∧
        pxSerDesEnrollmentDecode ⟨false, false⟩ exampleEnrollmentPools v.payload =
          .ok (some d) ∧
        d.xStartEarly = false ∧ ¬ SameEnrollment (exampleEnrollment true) d := by
  have hfits : FitsIn sizeToken (exampleEnrollment true).pcToken := by decide
  have hdecode := pxSerDesEnrollmentDecode_eq ⟨false, false⟩ exampleEnrollmentPools hfits
  rw [← encodedEnrollment_payload ⟨false, false⟩ exampleEnrollmentPools hfits] at hdecode
  refine ⟨hfits, _, _, pxSerDesEnrollmentEncode_eq ⟨false, false⟩ exampleEnrollmentPools hfits,
    hdecode, rfl, ?_⟩
  intro hsame
  exact absurd hsame.startEarly (by decide)

end RinaSense.SerDes
