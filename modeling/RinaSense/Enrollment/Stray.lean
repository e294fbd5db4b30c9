import RinaSense.Enrollment.Process
import RinaSense.Library.Fields
import RinaSense.Library.Threads
import RinaSense.Rib.Requests
import RinaSense.SerDes.Enrollment
import RinaSense.SerDes.NeighborParts

/-!
# Stray memory in enrollment messages

The messages of the enrollment are structures on the stack or from the heap, which their
producers fill in field by field. The encoders read the fields one after the other, and what
was not assigned is whatever the memory contained.
-/

namespace RinaSense.Enrollment

open Common SerDes Library.Memory Library.Fields Library.Threads

/-! ### Reading an enrollment message -/

inductive EnrollmentField
  | ullAddress
  | xStartEarly
  | pcToken
deriving DecidableEq, Repr

def EnrollmentField.Val : EnrollmentField → Type
  | .ullAddress => UInt64
  | .xStartEarly => Bool
  | .pcToken => Option CString

/-- `pxSerDesEnrollmentEncode` up to its request for an object. -/
def readEnrollment : Reads EnrollmentField EnrollmentField.Val PbEnrollment := do
  let startEarly ← get EnrollmentField.xStartEarly
  let ullAddress ← get EnrollmentField.ullAddress
  let pcToken ← get EnrollmentField.pcToken
  return fillEnrollment ⟨ullAddress, startEarly, pcToken⟩

/-- The bytes which are made of the message, if the pool has an object. -/
def readEnrollmentEncode (pool : Bool) :
    Reads EnrollmentField EnrollmentField.Val (Option Bytes) := do
  let enrollMsg ← readEnrollment
  return if pool then
    (encodeEnrollment enrollMsg (pb_ostream_from_buffer ENROLLMENT_MSG_SIZE)).map (·.buffer)
  else none

/-! ### Reading a neighbor message -/

inductive NeighborField
  | pcApName
  | pcApInstance
  | pcAeName
  | pcAeInstance
  | ullAddress
  | unSupportingDifCount
  | pcSupportingDifs (n : ℕ)
deriving DecidableEq, Repr

def NeighborField.Val : NeighborField → Type
  | .pcApName | .pcApInstance | .pcAeName | .pcAeInstance => Option CString
  | .ullAddress => UInt64
  | .unSupportingDifCount => ℕ
  | .pcSupportingDifs _ => CString

abbrev NeighborReads := Reads NeighborField NeighborField.Val

def getCount : NeighborReads ℕ := .read NeighborField.unSupportingDifCount .done

def getDif (n : ℕ) : NeighborReads CString := .read (NeighborField.pcSupportingDifs n) .done

@[simp] theorem run_getCount (m : ∀ f, NeighborField.Val f) :
    getCount.run m = m .unSupportingDifCount := rfl

@[simp] theorem run_getDif (m : ∀ f, NeighborField.Val f) (n : ℕ) :
    (getDif n).run m = m (.pcSupportingDifs n) := rfl

/-- The copies of `pxSerDesNeighborEncodePrepare` and of `xSerDesNeighborEncode`. -/
def readPrepare (pxRinaMsg : PbNeighbor) : NeighborReads PbNeighbor := do
  let pcAeInstance ← get NeighborField.pcAeInstance
  let pcAeName ← get NeighborField.pcAeName
  let pcApInstance ← get NeighborField.pcApInstance
  let pcApName ← get NeighborField.pcApName
  return pxSerDesNeighborEncodePrepare ⟨pcApName, pcApInstance, pcAeName, pcAeInstance, 0, []⟩
    pxRinaMsg

/-- The loop of `prvSerDesNeighborEncodeCb` from the DIF number `n` on. -/
def readDifs : ℕ → ℕ → PbOstream → NeighborReads (Option PbOstream)
  | 0, _, stream => return some stream
  | k + 1, n, stream =>
    match pb_encode_tag_for_field stream 2 6 with
    | none => return none
    | some stream => do
      let pcSupDif ← getDif n
      match pb_encode_string stream pcSupDif.bytes with
      | none => return none
      | some stream => readDifs k (n + 1) stream

/-- `pb_encode` on the fields of a neighbor, whose callback comes last. -/
def readEncodeNeighbor (message : PbNeighbor) (stream : PbOstream) :
    NeighborReads (Option PbOstream) :=
  match encodeNeighbor message [] stream with
  | none => return none
  | some stream => do
    let unSupportingDifCount ← getCount
    readDifs unSupportingDifCount 0 stream

/-- `pb_encode_submessage`, which runs the callback twice. -/
def readSubmessage (encode : PbOstream → NeighborReads (Option PbOstream)) (stream : PbOstream) :
    NeighborReads (Option PbOstream) := do
  match ← encode pb_ostream_sizing with
  | none => return none
  | some sizing =>
    let size := sizing.bytes_written
    match pb_encode_varint stream size with
    | none => return none
    | some stream =>
      match stream.max_size with
      | none => return pb_write stream (List.replicate size 0)
      | some max_size =>
        if max_size < stream.bytes_written + size then return none
        else
          match ← encode (pb_ostream_from_buffer size) with
          | none => return none
          | some substream =>
            if substream.bytes_written ≠ size then return none
            else
              return some { stream with
                bytes_written := stream.bytes_written + size
                buffer := stream.buffer ++ substream.buffer }

/-- `pxSerDesNeighborListEncode` with one neighbor. The object comes before the message is
read. -/
def readNeighborListEncode (pool : Bool) : NeighborReads (Option Bytes) :=
  if pool then do
    let pxNbMsg ← readPrepare .init_zero
    match pb_encode_tag_for_field (pb_ostream_from_buffer ENROLLMENT_MSG_SIZE) 2 1 with
    | none => return none
    | some stream =>
      let xStream ← readSubmessage (readEncodeNeighbor pxNbMsg) stream
      return xStream.map (·.buffer)
  else return none

/-- `xSerDesNeighborEncode`, which copies the names before it asks for an object. -/
def readNeighborEncode (pool : Bool) : NeighborReads (Option Bytes) := do
  let message ← readPrepare .init_zero
  if pool then
    let xStream ← readEncodeNeighbor message (pb_ostream_from_buffer ENROLLMENT_MSG_SIZE)
    return xStream.map (·.buffer)
  else return none

/-! ### What the encoders make of a message

The encoders are those of the serialisers, on the fields which they read. -/

/-- The first DIFs of a message, from number `n` on. -/
def difsFrom (m : ∀ f, NeighborField.Val f) : ℕ → ℕ → List CString
  | 0, _ => []
  | k + 1, n => m (.pcSupportingDifs n) :: difsFrom m k (n + 1)

/-- The message in a memory. -/
def neighborMessage (m : ∀ f, NeighborField.Val f) : NeighborMessage where
  pcApName := m .pcApName
  pcApInstance := m .pcApInstance
  pcAeName := m .pcAeName
  pcAeInstance := m .pcAeInstance
  ullAddress := m .ullAddress
  pcSupportingDifs := difsFrom m (m .unSupportingDifCount) 0

theorem run_readPrepare (m : ∀ f, NeighborField.Val f) (pb : PbNeighbor) :
    (readPrepare pb).run m = pxSerDesNeighborEncodePrepare (neighborMessage m) pb := rfl

theorem run_readDifs (m : ∀ f, NeighborField.Val f) (k n : ℕ) (stream : PbOstream) :
    (readDifs k n stream).run m = prvSerDesNeighborEncodeCb (difsFrom m k n) stream := by
  induction k generalizing n stream with
  | zero => rfl
  | succ k ih =>
    simp only [readDifs, difsFrom, prvSerDesNeighborEncodeCb, Option.bind_eq_bind]
    cases pb_encode_tag_for_field stream 2 6 with
    | none => rfl
    | some stream =>
      simp only [run_bind, run_getDif, Option.bind_some]
      cases pb_encode_string stream (m (.pcSupportingDifs n) : CString).bytes with
      | none => rfl
      | some stream => exact ih (n + 1) stream

theorem run_readEncodeNeighbor (m : ∀ f, NeighborField.Val f) (pb : PbNeighbor)
    (stream : PbOstream) :
    (readEncodeNeighbor pb stream).run m =
      encodeNeighbor pb (neighborMessage m).pcSupportingDifs stream := by
  have hsplit (difs : List CString) : encodeNeighbor pb difs stream =
      (encodeNeighbor pb [] stream).bind (prvSerDesNeighborEncodeCb difs) := by
    simp only [encodeNeighbor, Option.bind_eq_bind, Option.bind_assoc]
    rfl
  rw [hsplit, readEncodeNeighbor]
  cases encodeNeighbor pb [] stream with
  | none => rfl
  | some stream =>
    simp only [run_bind, run_getCount, Option.bind_some]
    exact run_readDifs m _ 0 stream

theorem run_readSubmessage (m : ∀ f, NeighborField.Val f)
    (encode : PbOstream → NeighborReads (Option PbOstream)) (stream : PbOstream) :
    (readSubmessage encode stream).run m =
      pb_encode_submessage (fun s => (encode s).run m) stream := by
  simp only [readSubmessage, pb_encode_submessage, run_bind, Option.bind_eq_bind]
  cases (encode pb_ostream_sizing).run m with
  | none => rfl
  | some sizing =>
    simp only [Option.bind_some]
    cases pb_encode_varint stream sizing.bytes_written with
    | none => rfl
    | some stream =>
      simp only [Option.bind_some]
      cases stream.max_size with
      | none => rfl
      | some max_size =>
        dsimp only
        split_ifs
        · rfl
        · simp only [run_bind]
          cases (encode (pb_ostream_from_buffer sizing.bytes_written)).run m with
          | none => rfl
          | some substream =>
            simp only [Option.bind_some]
            split_ifs <;> rfl

theorem run_readNeighborListEncode (m : ∀ f, NeighborField.Val f) :
    (readNeighborListEncode true).run m =
      (prvSerDesNeighborListEncodeCb [neighborMessage m] .init_zero
        (pb_ostream_from_buffer ENROLLMENT_MSG_SIZE)).map (·.buffer) := by
  simp only [readNeighborListEncode, if_true, run_bind, run_readPrepare,
    prvSerDesNeighborListEncodeCb, Option.bind_eq_bind]
  cases pb_encode_tag_for_field (pb_ostream_from_buffer ENROLLMENT_MSG_SIZE) 2 1 with
  | none => rfl
  | some stream =>
    simp only [run_bind, run_readSubmessage, Option.bind_some, run_pure]
    congr 1
    rw [Option.bind_fun_some]
    congr 1
    exact funext fun s => run_readEncodeNeighbor m _ s

theorem run_readNeighborEncode (m : ∀ f, NeighborField.Val f) :
    (readNeighborEncode true).run m =
      (encodeNeighbor (pxSerDesNeighborEncodePrepare (neighborMessage m) .init_zero)
        (neighborMessage m).pcSupportingDifs
          (pb_ostream_from_buffer ENROLLMENT_MSG_SIZE)).map (·.buffer) := by
  simp only [readNeighborEncode, if_true, run_bind, run_readPrepare, run_readEncodeNeighbor,
    run_pure]

/-! ### What the encoders read -/

section Reading

variable {P : NeighborField → Prop} {m : ∀ f, NeighborField.Val f}

/-- The fields which both encoders copy. -/
structure NamesRead (P : NeighborField → Prop) : Prop where
  pcApName : P .pcApName
  pcApInstance : P .pcApInstance
  pcAeName : P .pcAeName
  pcAeInstance : P .pcAeInstance

/-- The count of the DIFs and the DIFs which it counts. -/
structure DifsRead (P : NeighborField → Prop) (m : ∀ f, NeighborField.Val f) : Prop where
  unSupportingDifCount : P .unSupportingDifCount
  pcSupportingDifs : ∀ n, n < getCount.run m → P (.pcSupportingDifs n)

theorem within_readPrepare (h : NamesRead P) (pb : PbNeighbor) : Within P m (readPrepare pb) :=
  (within_get h.pcAeInstance).bind ((within_get h.pcAeName).bind
    ((within_get h.pcApInstance).bind ((within_get h.pcApName).bind (within_pure P _))))

theorem within_getDif {n : ℕ} (h : P (.pcSupportingDifs n)) : Within P m (getDif n) :=
  within_get h

theorem within_readDifs {k n : ℕ} (h : ∀ j, n ≤ j → j < n + k → P (.pcSupportingDifs j))
    (stream : PbOstream) : Within P m (readDifs k n stream) := by
  induction k generalizing n stream with
  | zero => exact within_pure P _
  | succ k ih =>
    unfold readDifs
    cases pb_encode_tag_for_field stream 2 6 with
    | none => exact within_pure P _
    | some stream =>
      refine (within_getDif (h n le_rfl (by omega))).bind ?_
      cases pb_encode_string stream ((getDif n).run m).bytes with
      | none => exact within_pure P _
      | some stream => exact ih (fun j hj hlt => h j (by omega) (by omega)) stream

theorem within_readEncodeNeighbor (h : DifsRead P m) (pb : PbNeighbor) (stream : PbOstream) :
    Within P m (readEncodeNeighbor pb stream) := by
  unfold readEncodeNeighbor
  cases encodeNeighbor pb [] stream with
  | none => exact within_pure P _
  | some stream =>
    have hcount : Within P m getCount := within_get h.unSupportingDifCount
    refine hcount.bind (within_readDifs (fun j _ hj => ?_) stream)
    exact h.pcSupportingDifs j (by omega)

theorem readEncodeNeighbor_none {pb : PbNeighbor} {stream : PbOstream}
    (h : encodeNeighbor pb [] stream = none) : readEncodeNeighbor pb stream = pure none := by
  rw [readEncodeNeighbor, h]

theorem mem_readEncodeNeighbor {pb : PbNeighbor} {stream stream' : PbOstream}
    (h : encodeNeighbor pb [] stream = some stream') :
    .unSupportingDifCount ∈ (readEncodeNeighbor pb stream).fields m := by
  rw [readEncodeNeighbor, h]
  exact List.mem_cons_self ..

/-- A submessage reads what its callback reads. -/
theorem within_readSubmessage {encode : PbOstream → NeighborReads (Option PbOstream)}
    (h : ∀ s, Within P m (encode s)) (stream : PbOstream) :
    Within P m (readSubmessage encode stream) := by
  refine (h pb_ostream_sizing).bind ?_
  cases (encode pb_ostream_sizing).run m with
  | none => exact within_pure P _
  | some sizing =>
    dsimp only
    cases pb_encode_varint stream sizing.bytes_written with
    | none => exact within_pure P _
    | some stream =>
      dsimp only
      cases stream.max_size with
      | none => exact within_pure P _
      | some max_size =>
        dsimp only
        split_ifs
        · exact within_pure P _
        · refine (h (pb_ostream_from_buffer sizing.bytes_written)).bind ?_
          cases (encode (pb_ostream_from_buffer sizing.bytes_written)).run m with
          | none => exact within_pure P _
          | some substream =>
            dsimp only
            split_ifs <;> exact within_pure P _

theorem within_readNeighborListEncode (hnames : NamesRead P) (hdifs : DifsRead P m)
    (pool : Bool) : Within P m (readNeighborListEncode pool) := by
  unfold readNeighborListEncode
  split_ifs
  · refine (within_readPrepare hnames _).bind ?_
    cases pb_encode_tag_for_field (pb_ostream_from_buffer ENROLLMENT_MSG_SIZE) 2 1 with
    | none => exact within_pure P _
    | some stream =>
      exact (within_readSubmessage (within_readEncodeNeighbor hdifs _) stream).bind
        (within_pure P _)
  · exact within_pure P _

end Reading

/-! ### The producers -/

def CFG_LOCAL_ADDRESS : UInt64 := 1

/-- `CFG_SHIM_DIF_NAME`, the word Irati. -/
def CFG_SHIM_DIF_NAME : CString := ⟨[73, 114, 97, 116, 105], by decide⟩

/-- The initialiser sets all fields to zero. -/
def startReplyFields : List (Σ f, EnrollmentField.Val f) :=
  [⟨.ullAddress, (0 : UInt64)⟩, ⟨.xStartEarly, false⟩, ⟨.pcToken, (none : Option CString)⟩,
    ⟨.ullAddress, CFG_LOCAL_ADDRESS⟩]

/-- `CFG_LOCAL_ADDRESS_AP_NAME` and `CFG_LOCAL_ADDRESS_AP_INSTANCE` are those of the normal
process, and the application entity has no name. -/
def neighborsFields : List (Σ f, NeighborField.Val f) :=
  [⟨.pcApName, some Rib.CFG_NORMAL_PROCESS_NAME⟩,
    ⟨.pcApInstance, some Rib.CFG_NORMAL_PROCESS_INSTANCE⟩,
    ⟨.pcAeName, some CString.empty⟩, ⟨.pcAeInstance, some CString.empty⟩,
    ⟨.ullAddress, CFG_LOCAL_ADDRESS⟩, ⟨.unSupportingDifCount, (1 : ℕ)⟩,
    ⟨.pcSupportingDifs 0, CFG_SHIM_DIF_NAME⟩]

def stopFields : List (Σ f, EnrollmentField.Val f) := [⟨.xStartEarly, false⟩]

/-- The message of `prvEnrollmentHandleOperationalStart`. -/
def operationalFields (pxNeighborInfo : Rib.NeighborInfo) : List (Σ f, NeighborField.Val f) :=
  [⟨.pcApName, some Rib.CFG_NORMAL_PROCESS_NAME⟩,
    ⟨.pcApInstance, some Rib.CFG_NORMAL_PROCESS_INSTANCE⟩,
    ⟨.pcAeName, some Rib.CFG_MANAGEMENT_AE⟩, ⟨.pcAeInstance, pxNeighborInfo.pcToken⟩]

/-- What the memory of an activity contains before it is written to. -/
structure Stray where
  xEnrollStartReply : ∀ f, EnrollmentField.Val f
  pxNeighMsgs : ∀ f, NeighborField.Val f
  xEnrollStop : ∀ f, EnrollmentField.Val f
  nStopReply : ℤ
  pxNeighborMsg : ∀ f, NeighborField.Val f

def EnrollmentField.zero : ∀ f, EnrollmentField.Val f
  | .ullAddress => (0 : UInt64)
  | .xStartEarly => false
  | .pcToken => (none : Option CString)

def NeighborField.zero : ∀ f, NeighborField.Val f
  | .pcApName | .pcApInstance | .pcAeName | .pcAeInstance => (none : Option CString)
  | .ullAddress => (0 : UInt64)
  | .unSupportingDifCount => (0 : ℕ)
  | .pcSupportingDifs _ => CString.empty

/-- Memory which was cleared. -/
def Stray.zero : Stray where
  xEnrollStartReply := EnrollmentField.zero
  pxNeighMsgs := NeighborField.zero
  xEnrollStop := EnrollmentField.zero
  nStopReply := 0
  pxNeighborMsg := NeighborField.zero

/-- What comes of a message, and whether the encoder read only fields which were assigned. -/
structure Encoding where
  value : Option Bytes
  clean : Bool
deriving DecidableEq, Repr

section Encoding

variable {φ : Type} {val : φ → Type} [DecidableEq φ]

def encoding (as : List (Σ f, val f)) (x : Reads φ val (Option Bytes)) (m : ∀ f, val f) :
    Encoding where
  value := x.run (assign m as)
  clean := (x.fields (assign m as)).all fun f => decide (f ∈ written as)

theorem encoding_clean {as : List (Σ f, val f)} {x : Reads φ val (Option Bytes)}
    {m : ∀ f, val f} :
    (encoding as x m).clean = true ↔ Within (· ∈ written as) (assign m as) x := by
  simp [encoding, Within]

theorem encoding_congr {as : List (Σ f, val f)} {x : Reads φ val (Option Bytes)}
    {m : ∀ f, val f} (h : Within (· ∈ written as) (assign m as) x) (m' : ∀ f, val f) :
    encoding as x m' = encoding as x m := by
  obtain ⟨hrun, hfields⟩ := h.congr m'
  rw [encoding, encoding, hrun, hfields]

end Encoding

/-- The message of a value. -/
def Failures.encoding (p : Failures) (m : Stray) : Value → Encoding
  | .startReply =>
    Enrollment.encoding startReplyFields
      (readEnrollmentEncode (decide (p.startReplyEncode ≠ .noMemory))) m.xEnrollStartReply
  | .neighbors =>
    Enrollment.encoding neighborsFields
      (readNeighborListEncode (decide (p.neighborsEncode ≠ .noMemory))) m.pxNeighMsgs
  | .stop =>
    Enrollment.encoding stopFields
      (readEnrollmentEncode (decide (p.stopEncode ≠ .noMemory))) m.xEnrollStop

/-- A call of `prvEnrollmentHandleOperationalStart`: the neighbor which is found, and whether
there is memory for the message and an object for its encoding. -/
structure OperationalStart where
  pxNeighborInfo : Option Rib.NeighborInfo
  pvRsMemAlloc : Bool
  encPool : Bool
deriving DecidableEq

/-- A thread of an inbound enrollment or a call of the handler. -/
inductive Activity
  | inbound (p : Failures)
  | operational (o : OperationalStart)
deriving DecidableEq

def Event.encoded : Event → Option Value
  | .encodes v => some v
  | _ => none

/-- The values whose messages are encoded, in their order. -/
def encodedValues (es : List Event) : List Value := es.filterMap Event.encoded

/-- The memory for the message of the handler is used without a check. -/
def Activity.encodings : Activity → Stray → List Encoding
  | .inbound p, m =>
    let p := { p with nStopReply := m.nStopReply }
    (encodedValues (xEnrollmentInboundProcess p)).map (p.encoding m)
  | .operational o, m =>
    match o.pxNeighborInfo with
    | none => []
    | some pxNeighborInfo =>
      if o.pvRsMemAlloc then
        [encoding (operationalFields pxNeighborInfo) (readNeighborEncode o.encPool)
          m.pxNeighborMsg]
      else []

/-- What the activity number `k` encodes. -/
def outputs (acts : List Activity) (mem : ℕ → Stray) (k : ℕ) : List Encoding :=
  match acts[k]? with
  | some a => a.encodings (mem k)
  | none => []

/-- The messages which the activities encode, in the order of the schedule. -/
def emitted (acts : List Activity) (mem : ℕ → Stray) (schedule : List ℕ) : List Encoding :=
  interleave (outputs acts mem) schedule

/-- Whatever the memory contains, the messages are the same and only assigned fields are read. -/
def NoStray (acts : List Activity) : Prop :=
  ∀ schedule mem mem', emitted acts mem schedule = emitted acts mem' schedule ∧
    ∀ e ∈ emitted acts mem schedule, e.clean = true

/-! ### The messages one by one -/

section Messages

variable {φ : Type} {val : φ → Type} [DecidableEq φ] {as : List (Σ f, val f)}
  {x : Reads φ val (Option Bytes)} {m : ∀ f, val f}

/-- A field which is read and was not assigned. -/
theorem encoding_stray {f : φ} (hread : f ∈ x.fields (assign m as)) (hf : f ∉ written as) :
    (encoding as x m).clean = false := by
  rw [← Bool.not_eq_true, encoding_clean]
  exact fun h => hf (h f hread)

end Messages

theorem within_startReply (pool : Bool) (m : ∀ f, EnrollmentField.Val f) :
    Within (· ∈ written startReplyFields) (assign m startReplyFields)
      (readEnrollmentEncode pool) := by
  intro f _
  cases f <;> decide

/-- The encoder reads all fields of an enrollment message. -/
theorem fields_readEnrollmentEncode (pool : Bool) (m : ∀ f, EnrollmentField.Val f) :
    (readEnrollmentEncode pool).fields m = [.xStartEarly, .ullAddress, .pcToken] := rfl

theorem stop_stray (pool : Bool) (m : ∀ f, EnrollmentField.Val f) :
    (encoding stopFields (readEnrollmentEncode pool) m).clean = false := by
  refine encoding_stray (f := .ullAddress) ?_ (by decide)
  rw [fields_readEnrollmentEncode]
  decide

/-- The one DIF which is counted is assigned. -/
theorem within_neighbors (pool : Bool) (m : ∀ f, NeighborField.Val f) :
    Within (· ∈ written neighborsFields) (assign m neighborsFields)
      (readNeighborListEncode pool) := by
  have hcount : getCount.run (assign m neighborsFields) = 1 := rfl
  refine within_readNeighborListEncode ⟨by decide, by decide, by decide, by decide⟩
    ⟨by decide, fun n hn => ?_⟩ pool
  obtain rfl : n = 0 := by omega
  decide

/-! ### The message of the handler -/

section Operational

variable {pxNeighborInfo : Rib.NeighborInfo}

/-- The message which the handler fills in. -/
abbrev operationalMessage (pxNeighborInfo : Rib.NeighborInfo)
    (m : ∀ f, NeighborField.Val f) : NeighborMessage :=
  neighborMessage (assign m (operationalFields pxNeighborInfo))

theorem written_operationalFields : written (operationalFields pxNeighborInfo) =
    [.pcApName, .pcApInstance, .pcAeName, .pcAeInstance] := rfl

/-- The names of the message are constants but for the last one. -/
theorem operationalMessage_fits_iff {m : ∀ f, NeighborField.Val f} :
    (operationalMessage pxNeighborInfo m).Fits ↔
      FitsIn sizeNeighborString pxNeighborInfo.pcToken := by
  refine ⟨fun h => h.2.2.2, fun h => ⟨?_, ?_, ?_, h⟩⟩
  · exact (by decide : FitsIn sizeNeighborString (some Rib.CFG_NORMAL_PROCESS_NAME))
  · exact (by decide : FitsIn sizeNeighborString (some Rib.CFG_NORMAL_PROCESS_INSTANCE))
  · exact (by decide : FitsIn sizeNeighborString (some Rib.CFG_MANAGEMENT_AE))

theorem prepare_init_zero (msg : NeighborMessage) :
    pxSerDesNeighborEncodePrepare msg .init_zero = pbNeighbor msg := by
  have hprepare := pxSerDesNeighborEncodePrepare_eq .blank msg
  rwa [NeighborMessage.blank_carry] at hprepare

/-- There is room in the buffer for the names of any neighbor. -/
theorem encodeNeighbor_names {msg : NeighborMessage} (h : msg.Fits) :
    (encodeNeighbor (pbNeighbor msg) [] (pb_ostream_from_buffer ENROLLMENT_MSG_SIZE)).isSome := by
  have hnames : NeighborMessage.Fits { msg with pcSupportingDifs := [] } := h
  have hwrites := writes_neighbor hnames (pb_ostream_from_buffer ENROLLMENT_MSG_SIZE)
  have hlength (tag : ℕ) {s : Option CString} (htag : 8 * tag + 2 < 128)
      (hs : FitsIn sizeNeighborString s) : (wires (stringRecords tag s)).length ≤ 20 + 1 :=
    stringRecords_length_le htag (by decide) hs
  obtain ⟨hap, hapi, hae, haei⟩ := h
  have hroom : (wires (neighborRecords { msg with pcSupportingDifs := [] })).length ≤
      ENROLLMENT_MSG_SIZE := by
    have hap := hlength 1 (by decide) hap
    have hapi := hlength 2 (by decide) hapi
    have hae := hlength 3 (by decide) hae
    have haei := hlength 4 (by decide) haei
    simp only [neighborRecords, wires_append, List.length_append]
    simp [difRecords, ENROLLMENT_MSG_SIZE]
    omega
  rw [pb_write_from_buffer, if_pos hroom] at hwrites
  exact Option.isSome_iff_exists.mpr ⟨_, hwrites⟩

/-- The callback is not reached. -/
theorem within_operational {pool : Bool} (m : ∀ f, NeighborField.Val f)
    (h : pool = true → ¬ FitsIn sizeNeighborString pxNeighborInfo.pcToken) :
    Within (· ∈ written (operationalFields pxNeighborInfo))
      (assign m (operationalFields pxNeighborInfo)) (readNeighborEncode pool) := by
  refine (within_readPrepare ?_ _).bind ?_
  · rw [written_operationalFields]
    exact ⟨by decide, by decide, by decide, by decide⟩
  · cases pool with
    | false => exact within_pure _ _
    | true =>
      have hunfit : ¬ (operationalMessage pxNeighborInfo m).Fits :=
        fun hfits => h rfl (operationalMessage_fits_iff.mp hfits)
      have hnone := encodeNeighbor_unfit hunfit [] (pb_ostream_from_buffer ENROLLMENT_MSG_SIZE)
      rw [run_readPrepare, prepare_init_zero, if_pos rfl, readEncodeNeighbor_none hnone]
      exact (within_pure _ _).bind (within_pure _ _)

/-- The callback reads the count. -/
theorem operational_stray (m : ∀ f, NeighborField.Val f)
    (h : FitsIn sizeNeighborString pxNeighborInfo.pcToken) :
    (encoding (operationalFields pxNeighborInfo) (readNeighborEncode true) m).clean = false := by
  refine encoding_stray (f := .unSupportingDifCount) ?_ ?_
  · have hfits : (operationalMessage pxNeighborInfo m).Fits := operationalMessage_fits_iff.mpr h
    obtain ⟨stream, hstream⟩ := Option.isSome_iff_exists.mp (encodeNeighbor_names hfits)
    have hread := mem_readEncodeNeighbor (m := assign m (operationalFields pxNeighborInfo)) hstream
    simp only [readNeighborEncode, if_true, fields_bind, List.mem_append, run_readPrepare,
      prepare_init_zero]
    exact .inr (.inl hread)
  · rw [written_operationalFields]
    decide

end Operational

/-! ### The messages of an inbound enrollment -/

theorem encodedValues_andThen (b next : Block) : encodedValues (b.andThen next).events =
    encodedValues b.events ++ if b.goesOn then encodedValues next.events else [] := by
  unfold Block.andThen encodedValues
  split_ifs <;> simp

theorem encodedValues_sendsValue (v : Value) (r : EncodeResult) :
    encodedValues (sendsValue v r) = [v] := by
  cases r <;> rfl

theorem encodedValues_createBlock (p : Failures) : encodedValues (createBlock p).events =
    if p.pvRsMemAlloc then [.neighbors] else [] := by
  unfold createBlock
  split_ifs
  · cases p.neighborsEncode <;> rfl
  · rfl

theorem encodedValues_afterStop (p : Failures) :
    encodedValues ((waitBlock p).andThen (startBlock p)).events = [] := by
  have hwait : encodedValues (waitBlock p).events = [] := by
    unfold waitBlock
    split_ifs <;> rfl
  have hstart : encodedValues (startBlock p).events = [] := rfl
  rw [encodedValues_andThen, hwait, hstart, ite_self, List.nil_append]

/-- The thread gets to its M_STOP. -/
def Failures.Stops (p : Failures) : Prop :=
  p.xRibSTART_REPLY = true ∧ p.pvRsMemAlloc = true ∧ p.xRibCREATE_CMD = true ∧
    ¬ (p.neighborsEncode = .refused ∧ p.aborts = true)

instance (p : Failures) : Decidable p.Stops := inferInstanceAs (Decidable (_ ∧ _ ∧ _ ∧ _))

theorem stops_iff (p : Failures) :
    p.Stops ↔ p.xRibSTART_REPLY = true ∧ (createBlock p).goesOn = true := by
  unfold Failures.Stops createBlock
  by_cases hrefused : p.neighborsEncode = .refused
  · cases p.pvRsMemAlloc <;> simp [hrefused]
  · cases p.pvRsMemAlloc <;> simp [hrefused]

/-- What a thread encodes does not depend on the reply to its M_STOP. -/
theorem encodedValues_process (p : Failures) : encodedValues (xEnrollmentInboundProcess p) =
    .startReply :: ((if p.xRibSTART_REPLY ∧ p.pvRsMemAlloc then [.neighbors] else []) ++
      if p.Stops then [.stop] else []) := by
  have hstart : encodedValues (startReplyBlock p).events = [.startReply] :=
    encodedValues_sendsValue _ _
  have hstop : encodedValues (stopBlock p).events = [.stop] := encodedValues_sendsValue _ _
  rw [xEnrollmentInboundProcess, encodedValues_andThen, encodedValues_andThen,
    encodedValues_andThen, encodedValues_afterStop, encodedValues_createBlock, hstart, hstop,
    ite_self, List.append_nil, List.singleton_append]
  simp only [stops_iff]
  have hgo : (startReplyBlock p).goesOn = p.xRibSTART_REPLY := rfl
  rw [hgo]
  cases p.xRibSTART_REPLY <;> simp

theorem encodings_inbound (p : Failures) (m : Stray) : (Activity.inbound p).encodings m =
    (encodedValues (xEnrollmentInboundProcess p)).map (p.encoding m) := by
  have hencoding : Failures.encoding { p with nStopReply := m.nStopReply } m = p.encoding m := by
    funext v
    cases v <;> rfl
  have hvalues : encodedValues (xEnrollmentInboundProcess { p with nStopReply := m.nStopReply }) =
      encodedValues (xEnrollmentInboundProcess p) := by
    rw [encodedValues_process, encodedValues_process]
    rfl
  simp only [Activity.encodings, hencoding, hvalues]

/-- The messages in front of the M_STOP do not show the memory. -/
theorem encoding_inside {v : Value} (h : v ≠ .stop) (p : Failures) (m m' : Stray) :
    (p.encoding m v).clean = true ∧ p.encoding m' v = p.encoding m v := by
  cases v with
  | startReply =>
    have hwithin := within_startReply (decide (p.startReplyEncode ≠ .noMemory))
      m.xEnrollStartReply
    exact ⟨encoding_clean.mpr hwithin, encoding_congr hwithin _⟩
  | neighbors =>
    have hwithin := within_neighbors (decide (p.neighborsEncode ≠ .noMemory)) m.pxNeighMsgs
    exact ⟨encoding_clean.mpr hwithin, encoding_congr hwithin _⟩
  | stop => exact absurd rfl h

theorem mem_stop_iff (p : Failures) :
    .stop ∈ encodedValues (xEnrollmentInboundProcess p) ↔ p.Stops := by
  rw [encodedValues_process]
  split_ifs <;> simp [*]

/-! ### Any order of the activities -/

/-- A thread does not get to its M_STOP. A neighbor which the handler finds is not encoded, as
there is no memory or its token is too long. -/
def Activity.Initialised : Activity → Prop
  | .inbound p => ¬ p.Stops
  | .operational o => ∀ pxNeighborInfo, o.pxNeighborInfo = some pxNeighborInfo →
      o.pvRsMemAlloc = true → o.encPool = true →
        ¬ FitsIn sizeNeighborString pxNeighborInfo.pcToken

theorem Activity.Initialised.inside {a : Activity} (h : a.Initialised) (m m' : Stray) :
    (∀ e ∈ a.encodings m, e.clean = true) ∧ a.encodings m' = a.encodings m := by
  cases a with
  | inbound p =>
    have hinside (v : Value) (hv : v ∈ encodedValues (xEnrollmentInboundProcess p)) :
        (p.encoding m v).clean = true ∧ p.encoding m' v = p.encoding m v := by
      refine encoding_inside ?_ p m m'
      rintro rfl
      exact h ((mem_stop_iff p).mp hv)
    rw [encodings_inbound, encodings_inbound, List.forall_mem_map]
    exact ⟨fun v hv => (hinside v hv).1, List.map_congr_left fun v hv => (hinside v hv).2⟩
  | operational o =>
    simp only [Activity.encodings]
    cases hinfo : o.pxNeighborInfo with
    | none => simp
    | some pxNeighborInfo =>
      dsimp only
      split_ifs with hmem
      · have hwithin := within_operational m.pxNeighborMsg (h pxNeighborInfo hinfo hmem)
        rw [encoding_congr hwithin m'.pxNeighborMsg]
        simpa using encoding_clean.mpr hwithin
      · simp

/-- Otherwise an encoder reads what was not assigned, whatever it finds there. -/
theorem Activity.exists_stray {a : Activity} (h : ¬ a.Initialised) (m : Stray) :
    ∃ e ∈ a.encodings m, e.clean = false := by
  cases a with
  | inbound p =>
    rw [encodings_inbound]
    exact ⟨_, List.mem_map_of_mem ((mem_stop_iff p).mpr (not_not.mp h)), stop_stray _ _⟩
  | operational o =>
    simp only [Activity.Initialised, not_forall, not_not] at h
    obtain ⟨pxNeighborInfo, hinfo, hmem, hpool, hfits⟩ := h
    refine ⟨_, ?_, operational_stray m.pxNeighborMsg hfits⟩
    simp [Activity.encodings, hinfo, hmem, hpool]

/-- What one activity encodes when none of them shows the memory. -/
theorem outputs_inside {acts : List Activity} (h : ∀ a ∈ acts, a.Initialised)
    (mem mem' : ℕ → Stray) (k : ℕ) :
    (∀ e ∈ outputs acts mem k, e.clean = true) ∧ outputs acts mem' k = outputs acts mem k := by
  unfold outputs
  cases hk : acts[k]? with
  | none => simp
  | some a => exact (h a (List.mem_of_getElem? hk)).inside (mem k) (mem' k)

/-- The messages show nothing of the memory exactly when no activity gets to a message which is
filled in only in part. -/
theorem noStray_iff (acts : List Activity) :
    NoStray acts ↔ ∀ a ∈ acts, a.Initialised := by
  constructor
  · intro h a ha
    by_contra hstray
    obtain ⟨k, hk⟩ := List.mem_iff_getElem?.mp ha
    let mem : ℕ → Stray := fun _ => .zero
    obtain ⟨e, he, hdirty⟩ := Activity.exists_stray hstray (mem k)
    -- The activity is the only one which is scheduled.
    have hout : outputs acts mem k = a.encodings (mem k) := by rw [outputs, hk]
    have halone := interleave_alone (outputs acts mem) k
    have hmem : e ∈ emitted acts mem (List.replicate (outputs acts mem k).length k) := by
      rw [emitted, halone, hout]
      exact he
    rw [(h _ mem mem).2 e hmem] at hdirty
    cases hdirty
  · intro h schedule mem mem'
    have hsame : outputs acts mem' = outputs acts mem :=
      funext fun k => (outputs_inside h mem mem' k).2
    refine ⟨by rw [emitted, emitted, hsame], fun e he => ?_⟩
    obtain ⟨k, hk⟩ := mem_interleave he
    exact (outputs_inside h mem mem' k).1 e hk

/-- Everything goes well. -/
def completeEnrollment : Failures where
  startReplyEncode := .encoded
  xRibSTART_REPLY := true
  pvRsMemAlloc := true
  neighborsEncode := .encoded
  xRibCREATE_CMD := true
  aborts := false
  stopEncode := .encoded
  xRibSTOP_QUERY_SYNC := true
  xStatus := .SUCCESS
  pxResp := some 1
  nStopReply := 0
  xRibSTART_CMD := true

/-- Memory in which the M_STOP has an address. -/
def strayAddress (ullAddress : UInt64) : Stray :=
  { Stray.zero with xEnrollStop := Function.update EnrollmentField.zero .ullAddress ullAddress }

/-- The address of the M_STOP is whatever the stack contains. -/
theorem completeEnrollment_stray :
    (emitted [.inbound completeEnrollment] (fun _ => strayAddress 7) [0, 0, 0]).getLast? =
        some ⟨some [8, 7, 24, 0], false⟩ ∧
      (emitted [.inbound completeEnrollment] (fun _ => strayAddress 9) [0, 0, 0]).getLast? =
        some ⟨some [8, 9, 24, 0], false⟩ ∧
      ¬ NoStray [.inbound completeEnrollment] := by
  have hseven : (emitted [.inbound completeEnrollment] (fun _ => strayAddress 7)
      [0, 0, 0]).getLast? = some ⟨some [8, 7, 24, 0], false⟩ := by decide +kernel
  have hnine : (emitted [.inbound completeEnrollment] (fun _ => strayAddress 9)
      [0, 0, 0]).getLast? = some ⟨some [8, 9, 24, 0], false⟩ := by decide +kernel
  refine ⟨hseven, hnine, fun h => ?_⟩
  have hsame := (h [0, 0, 0] (fun _ => strayAddress 7) fun _ => strayAddress 9).1
  rw [hsame, hnine] at hseven
  revert hseven
  decide

end RinaSense.Enrollment
