import RinaSense.SerDes.RoundTrip

/-!
# Numbers of CDAP messages

What becomes of the four numbers of a message. The encoder leaves out an instance or a result
which is `-1`, and the decoder takes what the structure contains without asking whether it was
sent.
-/

namespace RinaSense.SerDes

open Common Library.Memory

variable {pb_encode : PbMessage → Option Bytes} {pb_decode : Bytes → Option PbMessage}
  {mem mem' : Memory} {msg : MessageCdap} {buf : Bytes} {d : DecodedCdap}

/-- The protobuf library reads the structure of a message back from the bytes which it makes
of it, if it makes any. -/
def ReadsBack (pb_encode : PbMessage → Option Bytes) (pb_decode : Bytes → Option PbMessage)
    (msg : MessageCdap) : Prop :=
  ∀ pb buf, fillMessage msg = .ok pb → pb_encode pb = some buf → pb_decode buf = some pb

structure SameNumbers (msg : MessageCdap) (d : DecodedCdap) : Prop where
  invokeID : d.nInvokeID = msg.nInvokeID
  objInst : d.objInst = msg.objInst
  result : d.result = msg.result
  version : d.version = msg.version

/-- The decoder copies the numbers of the structure, whatever its strings and value are. -/
theorem pxSerDesMessageDecode_numbers {pb : PbMessage} (hpb : pb_decode buf = some pb)
    (h : pxSerDesMessageDecode pb_decode mem buf = .ok (some d)) :
    d.version = pb.version.val ∧ d.nInvokeID = pb.invokeID.val ∧ d.result = pb.result.val ∧
      d.objInst = pb.objInst.val := by
  unfold pxSerDesMessageDecode at h
  rw [hpb] at h
  cases hdec : mem.decPool with
  | false => simp [hdec] at h
  | true =>
    simp only [hdec, not_true, if_false] at h
    obtain ⟨dst, -, h⟩ := Exec.bind_eq_ok.mp h
    cases dst with
    | none => cases h
    | some dst =>
      obtain ⟨src, -, h⟩ := Exec.bind_eq_ok.mp h
      cases src with
      | none => cases h
      | some src =>
        obtain ⟨tail, -, h⟩ := Exec.bind_eq_ok.mp h
        obtain ⟨⟨value, tail'⟩, -, h⟩ := Exec.bind_eq_ok.mp h
        cases h
        exact ⟨rfl, rfl, rfl, rfl⟩

/-- The numbers of the structure which the encoder fills in. -/
theorem fillMessage_numbers {pb : PbMessage} (h : fillMessage msg = .ok pb) :
    pb.version.val = msg.version ∧ pb.invokeID.val = msg.nInvokeID ∧
      pb.result = optionalInt msg.result ∧ pb.objInst = optionalInt msg.objInst := by
  obtain ⟨authPolicy, -, h⟩ := Exec.bind_eq_ok.mp h
  obtain ⟨objValue, -, h⟩ := Exec.bind_eq_ok.mp h
  cases h
  exact ⟨rfl, rfl, rfl, rfl⟩

theorem optionalInt_val (n : ℤ) : (optionalInt n).val = if n = -1 then 0 else n := by
  unfold optionalInt
  split_ifs <;> simp_all

/-- Bytes are made of a structure which was filled in. -/
theorem xSerDesMessageEncode_eq_some
    (h : xSerDesMessageEncode pb_encode mem msg = .ok (some buf)) :
    ∃ pb, fillMessage msg = .ok pb ∧ pb_encode pb = some buf := by
  obtain ⟨pb, hfill, h⟩ := Exec.bind_eq_ok.mp h
  refine ⟨pb, hfill, ?_⟩
  cases henc : mem.encPool with
  | false =>
    rw [henc] at h
    cases h
  | true =>
    rw [henc, if_pos rfl] at h
    exact Except.ok.inj h

/-- The numbers of a message which was sent and received. -/
theorem decoded_numbers (hlib : ReadsBack pb_encode pb_decode msg)
    (henc : xSerDesMessageEncode pb_encode mem msg = .ok (some buf))
    (hdec : pxSerDesMessageDecode pb_decode mem' buf = .ok (some d)) :
    d.version = msg.version ∧ d.nInvokeID = msg.nInvokeID ∧
      d.result = (if msg.result = -1 then 0 else msg.result) ∧
      d.objInst = if msg.objInst = -1 then 0 else msg.objInst := by
  obtain ⟨pb, hfill, hbuf⟩ := xSerDesMessageEncode_eq_some henc
  obtain ⟨hversion, hid, hresult, hinst⟩ := fillMessage_numbers hfill
  obtain ⟨hversion', hid', hresult', hinst'⟩ :=
    pxSerDesMessageDecode_numbers (hlib pb buf hfill hbuf) hdec
  rw [hresult, optionalInt_val] at hresult'
  rw [hinst, optionalInt_val] at hinst'
  exact ⟨hversion'.trans hversion, hid'.trans hid, hresult', hinst'⟩

/-- The numbers of a message survive exactly when neither the instance nor the result is
`-1`. -/
theorem sameNumbers_iff (hlib : ReadsBack pb_encode pb_decode msg)
    (henc : xSerDesMessageEncode pb_encode mem msg = .ok (some buf))
    (hdec : pxSerDesMessageDecode pb_decode mem' buf = .ok (some d)) :
    SameNumbers msg d ↔ msg.result ≠ -1 ∧ msg.objInst ≠ -1 := by
  obtain ⟨hversion, hid, hresult, hinst⟩ := decoded_numbers hlib henc hdec
  constructor
  · rintro ⟨-, hinst', hresult', -⟩
    constructor
    · intro hminus
      rw [hresult, if_pos hminus, hminus] at hresult'
      cases hresult'
    · intro hminus
      rw [hinst, if_pos hminus, hminus] at hinst'
      cases hinst'
  · rintro ⟨hresult', hinst'⟩
    rw [if_neg hresult'] at hresult
    rw [if_neg hinst'] at hinst
    exact ⟨hid, hinst, hresult, hversion⟩

/-! ### A message with and without an instance -/

def instanceMessage (objInst : ℤ) : MessageCdap :=
  { flowMessage shortKey with objInst := objInst, result := 0 }

def instancePb (objInst : ℤ) : PbMessage :=
  { flowPb shortKey with objInst := optionalInt objInst, result := ⟨true, 0⟩ }

/-- The protobuf encoding of the message, for an instance of one byte. -/
def instanceWire (objInst : ℤ) : Bytes :=
  [0x10, 0x04, 0x18, 0x01, 0x2a, 0x04, 0x46, 0x6c, 0x6f, 0x77, 0x32, 0x13] ++ shortKey.bytes ++
    (if objInst = -1 then [] else [0x38, objInst.toNat.toUInt8]) ++
    [0x48, 0x00, 0xe0, 0x01, 0x01]

def instanceEncode (objInst : ℤ) (pb : PbMessage) : Option Bytes :=
  if pb = instancePb objInst then some (instanceWire objInst) else none

def instanceDecode (objInst : ℤ) (buf : Bytes) : Option PbMessage :=
  if buf = instanceWire objInst then some (instancePb objInst) else none

theorem fillMessage_instance (objInst : ℤ) :
    fillMessage (instanceMessage objInst) = .ok (instancePb objInst) := rfl

theorem instance_readsBack (objInst : ℤ) :
    ReadsBack (instanceEncode objInst) (instanceDecode objInst) (instanceMessage objInst) := by
  intro pb buf hfill hbuf
  rw [fillMessage_instance] at hfill
  cases hfill
  rw [instanceEncode, if_pos rfl] at hbuf
  cases hbuf
  exact if_pos rfl

theorem instance_fits (objInst : ℤ) : Fits (instanceMessage objInst) :=
  have h : Fits (flowMessage shortKey) := flow_fits (by decide)
  ⟨h.objClass, h.objName, h.resultReason, h.authName, h.authVersion, h.destination, h.source,
    h.objValue⟩

theorem instance_sent (objInst : ℤ) :
    xSerDesMessageEncode (instanceEncode objInst) exampleMemory (instanceMessage objInst) =
      .ok (some (instanceWire objInst)) := by
  simp [xSerDesMessageEncode, fillMessage_instance, instanceEncode, exampleMemory, pure,
    Except.pure]

theorem instance_received (objInst : ℤ) :
    ∃ d, pxSerDesMessageDecode (instanceDecode objInst) exampleMemory (instanceWire objInst) =
      .ok (some d) := by
  have hread : instanceDecode objInst (instanceWire objInst) = some (instancePb objInst) :=
    if_pos rfl
  have hmem : exampleMemory.Available := ⟨rfl, rfl, rfl, rfl⟩
  obtain ⟨d, hd, -⟩ := decode_filled (instance_fits objInst) (fillMessage_instance objInst)
    hmem.2.1 hmem.2.2.1 hmem.2.2.2 hread
  exact ⟨d, hd⟩

/-- An instance of 7 is received. -/
theorem instance_seven_same :
    ∃ buf d,
      xSerDesMessageEncode (instanceEncode 7) exampleMemory (instanceMessage 7) =
        .ok (some buf) ∧
      pxSerDesMessageDecode (instanceDecode 7) exampleMemory buf = .ok (some d) ∧
      SameNumbers (instanceMessage 7) d := by
  obtain ⟨d, hd⟩ := instance_received 7
  exact ⟨_, d, instance_sent 7, hd,
    (sameNumbers_iff (instance_readsBack 7) (instance_sent 7) hd).mpr (by decide)⟩

/-- A message without an instance is received with the instance 0. -/
theorem no_instance_becomes_zero :
    ∃ buf d,
      ReadsBack (instanceEncode (-1)) (instanceDecode (-1)) (instanceMessage (-1)) ∧
      xSerDesMessageEncode (instanceEncode (-1)) exampleMemory (instanceMessage (-1)) =
        .ok (some buf) ∧
      pxSerDesMessageDecode (instanceDecode (-1)) exampleMemory buf = .ok (some d) ∧
      ¬ SameNumbers (instanceMessage (-1)) d := by
  obtain ⟨d, hd⟩ := instance_received (-1)
  refine ⟨_, d, instance_readsBack (-1), instance_sent (-1), hd, fun hsame => ?_⟩
  obtain ⟨-, -, -, hinst⟩ := decoded_numbers (instance_readsBack (-1)) (instance_sent (-1)) hd
  have hminus : d.objInst = -1 := hsame.objInst
  rw [hinst] at hminus
  cases hminus

end RinaSense.SerDes
