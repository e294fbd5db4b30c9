import RinaSense.SerDes.Enrollment
import RinaSense.SerDes.FlowMessage
import RinaSense.SerDes.NeighborParts

/-!
# Where serialised values lie

An object value is a header with a pointer to its bytes, and both lie in one object of a pool.
The pointer is computed from the pointer to the header, whose type makes it move on by headers
and not by bytes, so that the bytes begin 240 bytes behind the place which the size of the
object allows for.
-/

namespace RinaSense.SerDes

open Common Library.Memory

/-- An object with the header of a value in it, and the bytes which the header designates. -/
structure SerPlace where
  /-- The size of the object. -/
  unSz : ℕ
  /-- Where the header lies. -/
  pxSerVal : ℕ
  pvSerBuffer : ℕ
  xSerLength : ℕ
  /-- The most that is ever written behind the pointer. -/
  unMaxSz : ℕ
deriving DecidableEq, Repr

/-- `n` bytes from the pointer on lie in the object and not in the header. -/
structure SerPlace.Holds (p : SerPlace) (n : ℕ) : Prop where
  disjoint : p.pxSerVal + sizeofSerObjectValue ≤ p.pvSerBuffer ∨ p.pvSerBuffer + n ≤ p.pxSerVal
  inside : p.pvSerBuffer + n ≤ p.unSz

instance (p : SerPlace) (n : ℕ) : Decidable (p.Holds n) :=
  decidable_of_iff (_ ∧ _) ⟨fun h => ⟨h.1, h.2⟩, fun h => ⟨h.1, h.2⟩⟩

/-! ### A-data -/

/-- `rina_messages_a_data_t`; the size of the value is the length of the list. -/
structure PbAData where
  has_sourceAddress : Bool
  sourceAddress : Int32
  has_destAddress : Bool
  destAddress : Int32
  has_cdapMessage : Bool
  cdapMessage : Bytes
deriving DecidableEq

/-- `aDataMsg_t` at the front of an object. -/
structure ADataMsg where
  xSourceAddress : Int32
  xDestinationAddress : Int32
  pxMsgCdap : Option SerPlace
  object : Bytes
deriving DecidableEq

/-- Whether the pool has an object, and what the heap leaves in one. -/
structure ADataMemory where
  xPool : Bool
  xSourceAddress : Int32
  xDestinationAddress : Int32
  pxMsgCdap : Option SerPlace
  bytes : ℕ → UInt8

def sizeofADataMsg : ℕ := 16

def aDataSize (message : PbAData) : ℕ :=
  if message.has_cdapMessage then
    sizeofADataMsg + sizeofSerObjectValue + message.cdapMessage.length
  else sizeofADataMsg

/-- The header lies behind the message. -/
def aDataValue (message : PbAData) : Option SerPlace :=
  if message.has_cdapMessage then
    some {
      unSz := aDataSize message
      pxSerVal := sizeofADataMsg
      pvSerBuffer := sizeofADataMsg + sizeofSerObjectValue * sizeofSerObjectValue
      xSerLength := message.cdapMessage.length
      unMaxSz := message.cdapMessage.length }
  else none

section ADataDecode

variable (pf : Platform) (pb_decode : Bytes → Option PbAData) (mem : ADataMemory)

def copyADataValue (object : Bytes) (message : PbAData) : Exec Bytes :=
  match aDataValue message with
  | none => .ok object
  | some v => copyTo object v.pvSerBuffer message.cdapMessage

def pxSerDesADataDecode (pucBuffer : Bytes) : Exec (Option ADataMsg) :=
  match pb_decode pucBuffer with
  | none => .ok none
  | some message =>
    if mem.xPool then do
      let object ← copyADataValue (newBytes pf mem.bytes (aDataSize message)) message
      return some {
        xSourceAddress :=
          if message.has_sourceAddress then message.sourceAddress
          else if pf.valgrind then mem.xSourceAddress else 0
        xDestinationAddress :=
          if message.has_destAddress then message.destAddress
          else if pf.valgrind then mem.xDestinationAddress else 0
        pxMsgCdap :=
          (aDataValue message).or (if pf.valgrind then mem.pxMsgCdap else none)
        object := object }
    else status (outOfMemory pf)

end ADataDecode

/-! ### The values which are produced -/

def SerObjectValue.place (v : SerObjectValue) : SerPlace where
  unSz := v.object.length
  pxSerVal := 0
  pvSerBuffer := v.pvSerBuffer
  xSerLength := v.xSerLength
  unMaxSz := ENROLLMENT_MSG_SIZE

/-- The value for a flow whose encoding has `n` bytes; the stream is as long as the structure. -/
def flowPlace (n : ℕ) : SerPlace where
  unSz := sizeofFlow + sizeofSerObjectValue
  pxSerVal := 0
  pvSerBuffer := offFlowBuffer
  xSerLength := n
  unMaxSz := sizeofFlow

inductive SerRequest
  | enrollment (pxMsg : EnrollmentMessage)
  | flow (pxMsg : FlowInfo Rname)
  | aData (pucBuffer : Bytes)

section Produces

variable (pf : Platform) (pools : EnrollmentPools) (pb_encode : PbFlow → Option Bytes)
  (flowMem : FlowMemory) (pb_decode : Bytes → Option PbAData) (mem : ADataMemory)

/-- The object value of a request which is answered, before its bytes are written. -/
inductive Produces : SerRequest → SerPlace → Prop
  | enrollment {pxMsg : EnrollmentMessage} {v : SerObjectValue}
      (h : pxSerDesEnrollmentEncode pf pools pxMsg = .ok (some v)) :
      Produces (.enrollment pxMsg) v.place
  | flow {pxMsg : FlowInfo Rname} {message : PbFlow} {buf : Bytes}
      (hfill : fillFlow pxMsg = .ok message) (hpool : flowMem.xPool = true)
      (hbuf : pb_encode message = some buf) :
      Produces (.flow pxMsg) (flowPlace buf.length)
  | aData {pucBuffer : Bytes} {message : PbAData} {v : SerPlace}
      (hmessage : pb_decode pucBuffer = some message) (hpool : mem.xPool = true)
      (hvalue : aDataValue message = some v) :
      Produces (.aData pucBuffer) v

variable {pf pools pb_encode flowMem pb_decode mem}

/-- A message whose token is too long is not encoded. -/
theorem fitsIn_of_encoded {msg : EnrollmentMessage} {v : SerObjectValue}
    (h : pxSerDesEnrollmentEncode pf pools msg = .ok (some v)) : FitsIn sizeToken msg.pcToken := by
  by_contra hlong
  have hnone : encodeEnrollment (fillEnrollment msg)
      (pb_ostream_from_buffer ENROLLMENT_MSG_SIZE) = none := by
    simp only [encodeEnrollment, Option.bind_eq_bind]
    refine bind_none _ fun stream => bind_none _ fun stream => bind_none _ fun stream => ?_
    exact encode_string_field_unfit 4 hlong stream
  unfold pxSerDesEnrollmentEncode at h
  simp only [hnone] at h
  split_ifs at h
  · exact absurd (Except.ok.inj h) (by simp)
  · exact status_outOfMemory pf v h

theorem encoded_eq {msg : EnrollmentMessage} {v : SerObjectValue}
    (h : pxSerDesEnrollmentEncode pf pools msg = .ok (some v)) :
    v = encodedEnrollment pf pools msg := by
  rw [pxSerDesEnrollmentEncode_eq pf pools (fitsIn_of_encoded h)] at h
  split_ifs at h
  · cases h
    rfl
  · exact absurd h (status_outOfMemory pf v)

/-- The object has the room which the value may take, and the pointer is 240 bytes too far. -/
structure SerPlace.MovedOn (p : SerPlace) : Prop where
  room : p.unSz = p.pxSerVal + sizeofSerObjectValue + p.unMaxSz
  pointer : p.pvSerBuffer = p.pxSerVal + sizeofSerObjectValue * sizeofSerObjectValue

theorem Produces.movedOn {req : SerRequest} {p : SerPlace}
    (h : Produces pf pools pb_encode flowMem pb_decode mem req p) : p.MovedOn := by
  cases h with
  | enrollment h =>
    rw [encoded_eq h]
    refine ⟨?_, rfl⟩
    have hinside := enrollmentWire_inside pf pools (fitsIn_of_encoded h)
    simp only [SerObjectValue.place, encodedEnrollment, splice_length hinside, newBytes_length]
    rfl
  | flow hfill hpool hbuf => exact ⟨rfl, rfl⟩
  | aData hmessage hpool hvalue =>
    unfold aDataValue at hvalue
    split_ifs at hvalue with hhas
    cases hvalue
    exact ⟨if_pos hhas, rfl⟩

/-- There is room for all but 240 of the bytes which may be written. -/
theorem SerPlace.MovedOn.holds_iff {p : SerPlace} (h : p.MovedOn) (n : ℕ) :
    p.Holds n ↔ n + 240 ≤ p.unMaxSz := by
  obtain ⟨hroom, hpointer⟩ := h
  have hfar : p.pvSerBuffer = p.pxSerVal + 256 := hpointer
  have hsize : p.unSz = p.pxSerVal + 16 + p.unMaxSz := hroom
  constructor
  · rintro ⟨-, hinside⟩
    omega
  · intro hn
    refine ⟨.inl ?_, by omega⟩
    rw [hfar]
    exact Nat.add_le_add_left (by decide) _

/-- The value of a flow or of an enrollment is short. -/
theorem Produces.length {req : SerRequest} {p : SerPlace}
    (hsize : ∀ pxMsg message buf, fillFlow pxMsg = .ok message → pb_encode message = some buf →
      buf.length ≤ maxFlowWire)
    (h : Produces pf pools pb_encode flowMem pb_decode mem req p) :
    p.xSerLength + 240 ≤ p.unMaxSz ↔ ∀ pucBuffer, req ≠ .aData pucBuffer := by
  cases h with
  | enrollment h =>
    have hlen := enrollmentWire_length_le (fitsIn_of_encoded h)
    have hmax : maxEnrollmentWire + 240 ≤ ENROLLMENT_MSG_SIZE := by decide
    rw [encoded_eq h]
    refine iff_of_true ?_ (by simp)
    change (enrollmentWire _).length + 240 ≤ ENROLLMENT_MSG_SIZE
    omega
  | flow hfill hpool hbuf =>
    have hlen := hsize _ _ _ hfill hbuf
    have hmax : maxFlowWire + 240 ≤ sizeofFlow := by decide
    refine iff_of_true ?_ (by simp)
    change _ + 240 ≤ sizeofFlow
    exact (Nat.add_le_add_right hlen _).trans hmax
  | aData hmessage hpool hvalue =>
    unfold aDataValue at hvalue
    split_ifs at hvalue
    cases hvalue
    refine iff_of_false ?_ (by simp)
    dsimp only
    omega

/-- The bytes of a value lie where they should exactly when it is not that of A-data. Of the bytes
which may be written there, all but the last 240 do. -/
theorem produced_holds_iff {req : SerRequest} {p : SerPlace}
    (hsize : ∀ pxMsg message buf, fillFlow pxMsg = .ok message → pb_encode message = some buf →
      buf.length ≤ maxFlowWire)
    (h : Produces pf pools pb_encode flowMem pb_decode mem req p) :
    (p.Holds p.xSerLength ↔ ∀ pucBuffer, req ≠ .aData pucBuffer) ∧
      ∀ n, p.Holds n ↔ n + 240 ≤ p.unMaxSz :=
  ⟨(h.movedOn.holds_iff _).trans (h.length hsize), h.movedOn.holds_iff⟩

/-! ### What becomes of the bytes -/

/-- A flow is written when its encoding lies in the object. -/
theorem pxSerDesFlowEncode_holds {pxMsg : FlowInfo Rname} {message : PbFlow} {buf : Bytes}
    (hfill : fillFlow pxMsg = .ok message) (hpool : flowMem.xPool = true)
    (hbuf : pb_encode message = some buf) :
    pxSerDesFlowEncode pf pb_encode flowMem pxMsg =
      if (flowPlace buf.length).Holds buf.length then .ok (some buf) else .error .outOfBounds := by
  have hinside : (flowPlace buf.length).Holds buf.length ↔
      offFlowBuffer + buf.length ≤ sizeofFlow + sizeofSerObjectValue :=
    ⟨fun h => h.inside, fun h => ⟨.inl (by decide : 0 + 16 ≤ 256), h⟩⟩
  unfold pxSerDesFlowEncode
  simp only [hfill, Exec.ok_bind, hpool, if_true, hbuf, hinside]
  rfl

/-- The value of an A-data message is written behind its object. -/
theorem pxSerDesADataDecode_value {pucBuffer : Bytes} {message : PbAData}
    (hmessage : pb_decode pucBuffer = some message) (hpool : mem.xPool = true)
    (hvalue : message.has_cdapMessage = true) :
    pxSerDesADataDecode pf pb_decode mem pucBuffer = .error .outOfBounds := by
  have hbehind : ¬ sizeofADataMsg + sizeofSerObjectValue * sizeofSerObjectValue +
      message.cdapMessage.length ≤ (newBytes pf mem.bytes (aDataSize message)).length := by
    rw [newBytes_length, aDataSize, if_pos hvalue]
    unfold sizeofADataMsg sizeofSerObjectValue
    omega
  have hcopy : copyADataValue (newBytes pf mem.bytes (aDataSize message)) message =
      .error .outOfBounds := by
    unfold copyADataValue aDataValue
    rw [if_pos hvalue]
    exact if_neg hbehind
  unfold pxSerDesADataDecode
  simp only [hmessage, hpool, if_true, hcopy]
  rfl

end Produces

/-! ### A flow and a message with a value -/

def exampleADataMemory : ADataMemory := ⟨true, 0, 0, none, fun _ => 0⟩

/-- A message with a value of three bytes. -/
def exampleADataWire : Bytes := [0x1a, 3, 7, 8, 9]

def exampleADataDecode (pucBuffer : Bytes) : Option PbAData :=
  if pucBuffer = exampleADataWire then some ⟨false, 0, false, 0, true, [7, 8, 9]⟩ else none

theorem flow_produced_holds :
    (flowPlace exampleFlowWire.length).Holds exampleFlowWire.length := by
  have hsize : ∀ pxMsg message buf, fillFlow pxMsg = .ok message →
      exampleFlowEncode message = some buf → buf.length ≤ maxFlowWire := by
    intro pxMsg message buf _ hbuf
    unfold exampleFlowEncode at hbuf
    split_ifs at hbuf
    cases hbuf
    decide
  have hfill : fillFlow (exampleFlow .empty) = .ok (filledFlow (exampleFlow .empty)) := rfl
  have hproduced : Produces ⟨false, false⟩ exampleEnrollmentPools exampleFlowEncode
      exampleFlowMemory exampleADataDecode exampleADataMemory (.flow (exampleFlow .empty))
      (flowPlace exampleFlowWire.length) := .flow hfill rfl (if_pos rfl)
  exact (produced_holds_iff hsize hproduced).1.mpr (by simp)

/-- The three bytes lie behind the object, and writing them goes out of bounds. -/
theorem aData_outside :
    ∃ p, Produces ⟨false, false⟩ exampleEnrollmentPools exampleFlowEncode exampleFlowMemory
        exampleADataDecode exampleADataMemory (.aData exampleADataWire) p ∧
      ¬ p.Holds p.xSerLength ∧
      pxSerDesADataDecode ⟨false, false⟩ exampleADataDecode exampleADataMemory exampleADataWire =
        .error .outOfBounds :=
  ⟨_, .aData (if_pos rfl) rfl rfl, by decide, rfl⟩

end RinaSense.SerDes
