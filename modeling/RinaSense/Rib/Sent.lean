import RinaSense.Rib.Incoming
import RinaSense.Rib.Outgoing
import RinaSense.SerDes.MessageNumbers
import RinaSense.Shim.Headers

/-!
# Messages as they are sent and received

What `prvRibNormalOutgoing` leaves in a netbuf, and what the daemon of a peer makes of these
bytes: its handler finds the operation, the names and the invoke id of the message which was
sent, and the name of its object as far as the decoder keeps it.
-/

namespace RinaSense.Rib

open Common SerDes Library.Memory
open Shim.OnChain (SparePool content_live varAlloc_frame fresh_setBlock)

/-- The number of an operation on the wire. -/
def opNumber (eOpCode : OpCode) : UInt32 := (opCodes.idxOf eOpCode).toUInt32

/-- The protobuf library decodes the structure of the message, and the number of its operation,
from the bytes which it made of it. -/
def Understood (pb_encode : PbMessage → Option Bytes) (pb_decode : Bytes → Option PbCdap)
    (msg : MessageCdap) : Prop :=
  ∀ pb bytes, fillMessage msg = .ok pb → pb_encode pb = some bytes →
    pb_decode bytes = some ⟨opNumber msg.eOpCode, pb⟩

/-- A name whose absent parts are empty. -/
def filled (name : Rname) : Rname where
  pcProcessName := some (orEmpty name.pcProcessName)
  pcProcessInstance := some (orEmpty name.pcProcessInstance)
  pcEntityName := some (orEmpty name.pcEntityName)
  pcEntityInstance := some (orEmpty name.pcEntityInstance)

/-- The message as the handlers of the peer read it. -/
def arriving (msg : MessageCdap) : IncomingCdap where
  eOpCode := some msg.eOpCode
  xDestinationInfo := filled msg.xDestinationInfo
  xSourceInfo := filled msg.xSourceInfo
  nInvokeID := msg.nInvokeID
  pcObjName := underReason (orEmpty msg.pcObjName) (orEmpty msg.pcResultReason)

variable {pf : Platform} {xEncPool xDuPool : PoolPtr} {pb_encode : PbMessage → Option Bytes}
  {pb_decode : Bytes → Option PbCdap} {mem : Memory} {sizeofCdap : ℕ} {xSent : Bool}
  {h h' : Heap} {msg : MessageCdap} {pool : RsrcPool} {bytes : Bytes}

/-! ### The netbuf which is sent -/

/-- What was encoded lies at the beginning of an object of the pool. -/
theorem messageEncode_sent {o : Option ℕ} {n : ℕ}
    (hrun : messageEncode pf xEncPool pb_encode sizeofCdap h msg = .ok (true, o, n, h')) :
    ∃ pb a h₁ bytes, fillMessage msg = .ok pb ∧
      pxRsrcAlloc pf h (some xEncPool) (some "CDAP message encoding") = .ok (some a, h₁) ∧
      pb_encode pb = some bytes ∧ bytes.length ≤ sizeofCdap ∧
      h₁.write (some (pooled a)) 0 bytes = .ok h' ∧ o = some a ∧ n = bytes.length := by
  obtain ⟨pb, hfill, hrun⟩ := Exec.bind_eq_ok.mp hrun
  obtain ⟨⟨o', h₁⟩, halloc, hrun⟩ := Exec.bind_eq_ok.mp hrun
  cases o' with
  | none => cases hrun
  | some a =>
    cases hfilter : (pb_encode pb).filter (·.length ≤ sizeofCdap) with
    | none =>
      simp only [hfilter] at hrun
      cases hrun
    | some bytes =>
      simp only [hfilter] at hrun
      obtain ⟨h₂, hwrite, hrun⟩ := Exec.bind_eq_ok.mp hrun
      cases hrun
      obtain ⟨hsome, hfits⟩ := Option.filter_eq_some_iff.mp hfilter
      exact ⟨pb, a, h₁, bytes, hfill, halloc, hsome, of_decide_eq_true hfits, hwrite, rfl, rfl⟩

/-- The netbuf around the bytes, which lie at the beginning of its buffer. -/
theorem duNetbuf_carries {a : ℕ} {slack : Bytes} (hf : h.Fresh)
    (hmem : h.mem a = some (bytes ++ slack))
    (hu : Usable pf h (some .vNetBufFreePool) (pooled a)) :
    Shim.OnChain.Carries pf (h.withNetbuf (duNetbuf xDuPool h.brk a bytes.length)) h.brk [h.brk]
      bytes := by
  have hself := h.withNetbuf_self (duNetbuf xDuPool h.brk a bytes.length)
  have hin : 0 + bytes.length ≤ (bytes ++ slack).length := by
    rw [List.length_append]
    omega
  have honly : ∀ q ∈ [h.brk], ∀ nb, (h.withNetbuf (duNetbuf xDuPool h.brk a bytes.length)).netbufs
      q = some nb → nb = duNetbuf xDuPool h.brk a bytes.length := by
    intro q hq nb hnb
    rw [List.mem_singleton.mp hq, hself] at hnb
    exact (Option.some.inj hnb).symm
  refine ⟨⟨.single (hf.withNetbuf _) hself rfl rfl rfl (hu.congr ⟨rfl, rfl, fun _ hp => hp⟩),
    fun q hq => ?_, fun q hq nb hnb _ => ?_, fun q hq nb hnb ptr hptr => ?_⟩, ?_⟩
  · rw [List.mem_singleton.mp hq]
    exact ⟨_, hself, rfl⟩
  · rw [honly q hq nb hnb]
    exact ⟨pooled a, bytes ++ slack, rfl, hmem, hin⟩
  · rw [honly q hq nb hnb] at hptr ⊢
    cases hptr
    exact ⟨pooled a, rfl, rfl⟩
  · have hcontent := content_live hself rfl rfl hmem hin
    have hbytes : ((bytes ++ slack).drop 0).take bytes.length = bytes := by
      rw [List.drop_zero, List.take_left]
    exact chainContent_cons.mpr ⟨bytes, [], hcontent.trans (congrArg some hbytes), rfl,
      List.append_nil bytes⟩

theorem duNetbuf_type {a n : ℕ} :
    eNetBufType pf (h.withNetbuf (duNetbuf xDuPool h.brk a n)) h.brk = .ok .NB_RINA_DATA := by
  simp only [eNetBufType, Heap.netbuf_of_some (h.withNetbuf_self _), duNetbuf, Bool.not_false,
    rsAssert_true, Exec.ok_bind]
  rfl

/-- The message which a caller builds lies in a block of memory which the pool does not have. -/
def OutsidePool (h : Heap) (xEncPool : PoolPtr) : Prop := ∃ c < h.brk, SparePool h xEncPool c

/-- The bytes lie at the beginning of an object which the netbuf can release. -/
theorem messageEncode_placed {o : Option ℕ} {n : ℕ} (hf : h.Fresh) (hout : OutsidePool h xEncPool)
    (hpool : h.pools xEncPool = some pool) (hsize : pool.uxSizeEach = sizeofCdap)
    (hrun : messageEncode pf xEncPool pb_encode sizeofCdap h msg = .ok (true, o, n, h')) :
    ∃ pb a bytes slack, fillMessage msg = .ok pb ∧ pb_encode pb = some bytes ∧ o = some a ∧
      n = bytes.length ∧ h'.Fresh ∧ h'.mem a = some (bytes ++ slack) ∧
      Usable pf h' (some .vNetBufFreePool) (pooled a) := by
  obtain ⟨pb, a, h₁, bytes, hfill, halloc, hsome, hfits, hwrite, rfl, rfl⟩ :=
    messageEncode_sent hrun
  obtain ⟨c, hc, hspare⟩ := hout
  have hvar := halloc
  rw [pxRsrcAlloc, hpool, inBounds_some, Exec.ok_bind] at hvar
  obtain ⟨hbeside, -⟩ := varAlloc_frame hf hspare hc hvar
  obtain ⟨hu, obj, hmem, hlen⟩ := pxRsrcAlloc_usable hpool halloc
  have hfit : bytes.length ≤ obj.length := by omega
  obtain ⟨h₂, hwritten, hsame, -⟩ := write_pooled hmem hfit
  obtain rfl := Except.ok.inj (hwrite.symm.trans hwritten)
  have hspliced : h₁.write (some (pooled a)) 0 bytes =
      .ok (h₁.setBlock a (some (splice obj 0 bytes))) :=
    Heap.write_of_block hmem (by simpa [pooled] using hfit)
  obtain rfl := Except.ok.inj (hwrite.symm.trans hspliced)
  refine ⟨pb, a, bytes, obj.drop bytes.length, hfill, hsome, rfl, rfl,
    fresh_setBlock hbeside.fresh hmem _, ?_, hu.congr hsame⟩
  rw [Heap.setBlock_self]
  simp [splice]

/-- A call which succeeds sends a netbuf with the bytes of the message. -/
theorem outgoing_carries {sent : OutgoingEnd} (hf : h.Fresh) (hout : OutsidePool h xEncPool)
    (hpool : h.pools xEncPool = some pool) (hsize : pool.uxSizeEach = sizeofCdap)
    (hbytes : ∀ pb bytes, pb_encode pb = some bytes → bytes ≠ [])
    (hrun : prvRibNormalOutgoing pf xEncPool xDuPool pb_encode sizeofCdap xSent h msg = .ok sent)
    (hsent : sent.xStatus = true) :
    ∃ p pb bytes, sent.pxDu = some p ∧ fillMessage msg = .ok pb ∧ pb_encode pb = some bytes ∧
      Shim.OnChain.Carries pf sent.heap p [p] bytes ∧
        eNetBufType pf sent.heap p = .ok .NB_RINA_DATA := by
  obtain ⟨⟨xStatus, o, n, h₂⟩, hencode, hrest⟩ := Exec.bind_eq_ok.mp hrun
  cases xStatus with
  | false =>
    cases hrest
    cases hsent
  | true =>
    obtain ⟨pb, a, bytes, slack, hfill, hsome, rfl, rfl, hfresh, hmem, hu⟩ :=
      messageEncode_placed hf hout hpool hsize hencode
    have hn : bytes.length ≠ 0 := by simpa using hbytes pb bytes hsome
    obtain ⟨⟨pxDu, h₃⟩, hnew⟩ : ∃ out,
        pvRsMemAllocNetbuf h₂ (duNetbuf xDuPool h₂.brk a bytes.length) = out := ⟨_, rfl⟩
    rw [outgoing_wrapped hencode hn hnew] at hrun
    by_cases hboth : (pxDu.isSome && xSent) = true
    · rw [if_pos hboth] at hrun
      cases hrun
      obtain ⟨p, rfl⟩ := Option.isSome_iff_exists.mp (Bool.and_eq_true_iff.mp hboth).1
      rw [pvRsMemAllocNetbuf] at hnew
      split_ifs at hnew
      · cases hnew
        exact ⟨h₂.brk, pb, bytes, rfl, hfill, hsome, duNetbuf_carries hfresh hmem hu,
          duNetbuf_type⟩
      · cases hnew
    · -- the buffer is released, and the call fails
      rw [if_neg hboth] at hrun
      obtain ⟨h₄, -, hrun⟩ := Exec.bind_eq_ok.mp hrun
      cases pxDu with
      | none =>
        cases hrun
        cases hsent
      | some p =>
        obtain ⟨h₅, -, hrun⟩ := Exec.bind_eq_ok.mp hrun
        cases hrun
        cases hsent

/-! ### The message which is received -/

theorem readName_filled {dup : DupName} {name : Rname} (hr : dup.Reads name) :
    readName dup = .ok (filled name) := by
  simp only [readName, hr.processName, hr.processInstance, hr.entityName, hr.entityInstance,
    inBounds_some, Exec.ok_bind]
  rfl

theorem opCodeAt_opNumber (eOpCode : OpCode) :
    ∃ hle : opNumber eOpCode ≤ MAX_CDAP_OPCODE, opCodeAt (opNumber eOpCode) hle = eOpCode := by
  cases eOpCode <;> exact ⟨by decide, rfl⟩

/-- An operation which has a handler. -/
def Handled (eOpCode : OpCode) : Prop := eOpCode ≠ .M_CANCELREAD ∧ eOpCode ≠ .M_CANCELREAD_R

instance (eOpCode : OpCode) : Decidable (Handled eOpCode) := inferInstanceAs (Decidable (_ ∧ _))

theorem handles_opNumber {eOpCode : OpCode} (hop : Handled eOpCode) :
    Handles (opNumber eOpCode) := by
  obtain ⟨hle, hat⟩ := opCodeAt_opNumber eOpCode
  rw [handles_iff hle, hat, not_or]
  exact hop

/-- The daemon which gets the bytes of a message calls the handler with that message. -/
theorem xRibIncoming_sent {pb : PbMessage} (hfits : Fits msg)
    (hlib : Understood pb_encode pb_decode msg) (hop : Handled msg.eOpCode)
    (hmem : mem.Available) (hfill : fillMessage msg = .ok pb) (hpb : pb_encode pb = some bytes)
    (out : Outcomes) (pxRibd : Ribd) (unPort : PortId) :
    (xRibIncoming pf pb_decode mem out pxRibd bytes unPort).2 = (do
      let o ← xRibNormalIncoming out pxRibd (arriving msg) unPort
      return (.SUCCESS, o.pxRibd)) := by
  obtain ⟨-, hdec, hdst, hsrc⟩ := hmem
  obtain ⟨d, hd, hfrom⟩ : ∃ d, pxSerDesMessageDecode (fun _ => some pb) mem bytes = .ok (some d) ∧
      DecodedFrom msg d := decode_filled hfits hfill hdec hdst hsrc rfl
  obtain ⟨-, hid, -⟩ := pxSerDesMessageDecode_numbers rfl hd
  have hid' : d.nInvokeID = msg.nInvokeID := hid.trans (fillMessage_numbers hfill).2.1
  have hread : readCdap d msg.eOpCode = .ok (arriving msg) := by
    simp only [readCdap, readName_filled hfrom.destination, readName_filled hfrom.source,
      hfrom.objName, inBounds_some, Exec.ok_bind, hid']
    rfl
  have hdecoded : decodeCdap pb_decode mem bytes = .ok (some ⟨opNumber msg.eOpCode, d⟩) := by
    rw [decodeCdap, hlib pb bytes hfill hpb]
    simp only [hd, Exec.ok_bind]
    rfl
  obtain ⟨hle, hat⟩ := opCodeAt_opNumber msg.eOpCode
  rw [xRibIncoming_decoded hdecoded]
  exact (RawCdap.xRibNormalIncoming_result hle (handles_opNumber hop)).trans
    (by rw [hat, hread, Exec.ok_bind])

end RinaSense.Rib
