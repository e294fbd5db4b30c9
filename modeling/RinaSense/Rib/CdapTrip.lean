import RinaSense.Rib.Sent
import RinaSense.SerDes.CdapFields

/-!
# CDAP messages through the protobuf library

A daemon with the tables of the library handles what a peer with the same tables encodes, also if
the fields of the bytes are in another order or there are other fields between them. Whatever the
bytes are, the daemon comes to a handler or gives up, and does not trap on the way.
-/

namespace RinaSense.Rib

open Common SerDes Library.Memory

/-! ### The library with the tables of CDAP -/

/-- A message is encoded into the object of a pool for encoded messages. -/
def encodeFields (sizeofCdap : ℕ) (pb : PbMessage) : Option Bytes :=
  (rina_messages_CDAPMessage.pb_encode (pb.fields (opNumber pb.opCode))
    (pb_ostream_from_buffer sizeofCdap)).map (·.buffer)

/-- The operation of a number, which is looked at only if the number is not too large. -/
def operation (n : UInt32) : OpCode :=
  if h : n ≤ MAX_CDAP_OPCODE then opCodeAt n h else .M_CONNECT

def decodeFields (pucBuffer : Bytes) : Option PbCdap :=
  match rina_messages_CDAPMessage.pb_decode pucBuffer rina_messages_CDAPMessage_init_zero with
  | .ok m => some ⟨m .opCode, .ofFields (operation (m .opCode)) m⟩
  | .error _ => none

theorem operation_opNumber (eOpCode : OpCode) : operation (opNumber eOpCode) = eOpCode := by
  obtain ⟨hle, hat⟩ := opCodeAt_opNumber eOpCode
  rw [operation, dif_pos hle, hat]

variable {msg : MessageCdap} {pb : PbMessage} {sizeofCdap : ℕ}

/-- What is decoded into the fields of a message is that message. -/
theorem decodeFields_fields {bytes : Bytes}
    (h : rina_messages_CDAPMessage.pb_decode bytes rina_messages_CDAPMessage_init_zero =
      .ok (pb.fields (opNumber pb.opCode))) :
    decodeFields bytes = some ⟨opNumber pb.opCode, pb⟩ := by
  rw [decodeFields, h]
  change some (PbCdap.mk (opNumber pb.opCode)
    (.ofFields (operation (opNumber pb.opCode)) (pb.fields (opNumber pb.opCode)))) = _
  rw [operation_opNumber, PbMessage.ofFields_fields]

theorem fillMessage_opCode (hfill : fillMessage msg = .ok pb) : pb.opCode = msg.eOpCode := by
  obtain ⟨_, -, hfill⟩ := Exec.bind_eq_ok.mp hfill
  obtain ⟨_, -, hfill⟩ := Exec.bind_eq_ok.mp hfill
  cases hfill
  rfl

theorem encodeFields_comes_back (hfits : Fits msg) (hnumbers : NumbersFit msg)
    (hfill : fillMessage msg = .ok pb) (hsize : maxCdapWire ≤ sizeofCdap) :
    ∃ cs, encodeFields sizeofCdap pb = some (chunkWires cs) ∧
      rina_messages_CDAPMessage.SameFields cs cs ∧
      ∀ cs', rina_messages_CDAPMessage.SameFields cs cs' →
        decodeFields (chunkWires cs') = some ⟨opNumber pb.opCode, pb⟩ := by
  obtain ⟨cs, hencode, hself, hdecode⟩ :=
    cdap_comes_back (fillMessage_normal hfits hnumbers hfill (opNumber pb.opCode)) hsize
  exact ⟨cs, by rw [encodeFields, hencode, Option.map_some], hself,
    fun cs' hcs' => decodeFields_fields (hdecode cs' hcs')⟩

/-- What the encoder and the decoder of messages rely on. -/
theorem encodeFields_understood (hfits : Fits msg) (hnumbers : NumbersFit msg)
    (hsize : maxCdapWire ≤ sizeofCdap) :
    Understood (encodeFields sizeofCdap) decodeFields msg ∧
      Faithful (encodeFields sizeofCdap) (fun bytes => (decodeFields bytes).map (·.fields))
        msg := by
  have hback : ∀ pb, fillMessage msg = .ok pb → ∃ buf, encodeFields sizeofCdap pb = some buf ∧
      decodeFields buf = some ⟨opNumber msg.eOpCode, pb⟩ := by
    intro pb hfill
    obtain ⟨cs, hencode, hself, hdecode⟩ := encodeFields_comes_back hfits hnumbers hfill hsize
    exact ⟨chunkWires cs, hencode, by rw [hdecode cs hself, fillMessage_opCode hfill]⟩
  refine ⟨fun pb bytes hfill hbytes => ?_, fun pb hfill => ?_⟩
  · obtain ⟨buf, hencode, hdecode⟩ := hback pb hfill
    obtain rfl : buf = bytes := Option.some.inj (hencode.symm.trans hbytes)
    exact hdecode
  · obtain ⟨buf, hencode, hdecode⟩ := hback pb hfill
    exact ⟨buf, hencode, by simp only [hdecode, Option.map_some]⟩

/-! ### A message is handled as it was built -/

theorem readCdap_readable {d : DecodedCdap} (hd : d.Readable) (eOpCode : OpCode) :
    ∃ msg, readCdap d eOpCode = .ok msg := by
  obtain ⟨⟨dst, hdst⟩, ⟨src, hsrc⟩, objName, hname⟩ := hd
  simp only [readCdap, readName_filled hdst, readName_filled hsrc, hname, inBounds_some,
    Exec.ok_bind]
  exact ⟨_, rfl⟩

/-- Whatever the bytes are, they are decoded without a trap into a message which can be read. -/
theorem decodeCdap_any (mem : Memory) (bytes : Bytes) :
    ∃ r, decodeCdap decodeFields mem bytes = .ok r ∧
      ∀ raw, r = some raw → raw.pxMsg.Readable := by
  have hsafe := cdap_decodes bytes
  unfold decodeCdap decodeFields
  cases hrun : rina_messages_CDAPMessage.pb_decode bytes rina_messages_CDAPMessage_init_zero with
  | error t => exact ⟨none, rfl, fun raw hraw => by cases hraw⟩
  | ok m =>
    rw [hrun] at hsafe
    obtain ⟨r, hr, hreadable⟩ := pxSerDesMessageDecode_within
      (ofFields_sound hsafe (operation (m .opCode))) mem bytes
    dsimp only
    rw [hr, Exec.ok_bind]
    refine ⟨_, rfl, fun raw hraw => ?_⟩
    obtain ⟨d, hd, rfl⟩ := Option.map_eq_some_iff.mp hraw
    exact hreadable d hd

end RinaSense.Rib
