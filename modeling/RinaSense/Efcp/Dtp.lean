import RinaSense.Common.Ids
import RinaSense.Library.Runs

/-!
# Receiving side of the data transfer protocol

The state vector of a DTP instance and `xDtpReceive` on the header values which
`PCI_GET` reads. A data run flag sets the left window edge, and the edge moves on with
every PDU that arrives next in sequence.
-/

namespace RinaSense.Efcp

open Common Library.Runs

def PDU_FLAGS_DATA_RUN : PduFlags := 0x80

structure DtpStats where
  drop_pdus : UInt32
  err_pdus : UInt32
  tx_pdus : UInt32
  tx_bytes : UInt32
  rx_pdus : UInt32
  rx_bytes : UInt32
deriving DecidableEq, Repr

/-- The state vector `dtpSv_t`. -/
structure DtpSv where
  xMaxFlowPduSize : UInt32
  xMaxFlowSduSize : UInt32
  xRcvLeftWindowEdge : SeqNum
  xWindowClosed : Bool
  xDrfFlag : Bool
  xSeqNumberRolloverThreshold : UInt32
  stats : DtpStats
  xMaxSeqNumberRcvd : SeqNum
  xNextSeqNumberToSend : SeqNum
  xMaxSeqNumberToSend : SeqNum
  xWindowBased : Bool
  xRexmsnCtrl : Bool
  xRateBased : Bool
  xDrfRequired : Bool
  xRateFulfiled : Bool
deriving DecidableEq, Repr

/-- The state vector of an instance made by `pxDtpCreate`. -/
def vDtpStateVectorInit : DtpSv where
  xNextSeqNumberToSend := 0
  xMaxSeqNumberToSend := 0
  xSeqNumberRolloverThreshold := 0
  xMaxSeqNumberRcvd := 0
  stats := ⟨0, 0, 0, 0, 0, 0⟩
  xRexmsnCtrl := false
  xRateBased := false
  xWindowBased := false
  xDrfRequired := true
  xRateFulfiled := false
  xMaxFlowPduSize := 0xffffffff
  xMaxFlowSduSize := 0xffffffff
  xRcvLeftWindowEdge := 0
  xWindowClosed := false
  xDrfFlag := true

/-- What `xDtpReceive` does with a PDU: its result, the state vector it leaves, and
whether the PDU went to `xDtpPduPost`, whose result is ignored. -/
structure Received where
  ret : Bool
  sv : DtpSv
  posted : Bool
deriving DecidableEq, Repr

def xDtpReceive (sv : DtpSv) (xSeqNum : SeqNum) (xFlags : PduFlags) : Received :=
  let xLWE := sv.xRcvLeftWindowEdge
  if sv.xDrfRequired then
    if xFlags &&& PDU_FLAGS_DATA_RUN != 0 then
      { ret := true
        sv := { sv with xDrfRequired := false, xRcvLeftWindowEdge := xSeqNum }
        posted := true }
    -- The message about a missing flag is commented out and the PDU goes up anyway.
    else { ret := true, sv := sv, posted := true }
  else if xSeqNum ≤ xLWE then { ret := false, sv := sv, posted := false }
  else
    { ret := true
      sv := if xSeqNum = xLWE + 1 then { sv with xRcvLeftWindowEdge := xSeqNum } else sv
      posted := true }

/-- The header values of a DT PDU which the receiver looks at. -/
structure DtPdu where
  xSequenceNumber : SeqNum
  xFlags : PduFlags
deriving DecidableEq, Repr

/-- A receiver with the sequence numbers it passed to `xEfcpEnqueue` so far. -/
structure Receiver where
  sv : DtpSv
  delivered : List SeqNum
deriving DecidableEq, Repr

def Receiver.fresh : Receiver := ⟨vDtpStateVectorInit, []⟩

def Receiver.step (r : Receiver) (pdu : DtPdu) : Receiver :=
  let out := xDtpReceive r.sv pdu.xSequenceNumber pdu.xFlags
  ⟨out.sv, if out.posted then r.delivered ++ [pdu.xSequenceNumber] else r.delivered⟩

/-- The sequence numbers delivered to the upper layer in a run of a fresh instance. -/
def deliveredSeqNums (pdus : List DtPdu) : List SeqNum :=
  (pdus.foldl Receiver.step Receiver.fresh).delivered

/-- The PDU carries the data run flag as long as it is required, and afterwards it
leaves no gap behind the left window edge. -/
def Recorded (r : Receiver) (pdu : DtPdu) : Prop :=
  if r.sv.xDrfRequired then pdu.xFlags &&& PDU_FLAGS_DATA_RUN ≠ 0
  else pdu.xSequenceNumber ≤ r.sv.xRcvLeftWindowEdge ∨
    pdu.xSequenceNumber = r.sv.xRcvLeftWindowEdge + 1

instance (r : Receiver) (pdu : DtPdu) : Decidable (Recorded r pdu) := by
  unfold Recorded
  infer_instance

theorem xDtpReceive_dataRun {sv : DtpSv} {flags : PduFlags} (h : sv.xDrfRequired = true)
    (hf : flags &&& PDU_FLAGS_DATA_RUN ≠ 0) (seq : SeqNum) :
    xDtpReceive sv seq flags =
      ⟨true, { sv with xDrfRequired := false, xRcvLeftWindowEdge := seq }, true⟩ := by
  simp [xDtpReceive, h, hf]

theorem xDtpReceive_noDataRun {sv : DtpSv} {flags : PduFlags} (h : sv.xDrfRequired = true)
    (hf : flags &&& PDU_FLAGS_DATA_RUN = 0) (seq : SeqNum) :
    xDtpReceive sv seq flags = ⟨true, sv, true⟩ := by
  simp [xDtpReceive, h, hf]

theorem xDtpReceive_duplicate {sv : DtpSv} {seq : SeqNum} (h : sv.xDrfRequired = false)
    (hs : seq ≤ sv.xRcvLeftWindowEdge) (flags : PduFlags) :
    xDtpReceive sv seq flags = ⟨false, sv, false⟩ := by
  simp [xDtpReceive, h, hs]

theorem xDtpReceive_inOrder {sv : DtpSv} {seq : SeqNum} (h : sv.xDrfRequired = false)
    (hs : ¬ seq ≤ sv.xRcvLeftWindowEdge) (hn : seq = sv.xRcvLeftWindowEdge + 1)
    (flags : PduFlags) :
    xDtpReceive sv seq flags = ⟨true, { sv with xRcvLeftWindowEdge := seq }, true⟩ := by
  simp [xDtpReceive, h, hs, ← hn]

theorem xDtpReceive_gap {sv : DtpSv} {seq : SeqNum} (h : sv.xDrfRequired = false)
    (hs : ¬ seq ≤ sv.xRcvLeftWindowEdge) (hn : seq ≠ sv.xRcvLeftWindowEdge + 1)
    (flags : PduFlags) : xDtpReceive sv seq flags = ⟨true, sv, true⟩ := by
  simp [xDtpReceive, h, hs, hn]

/-- Nothing was delivered before the first data run, and nothing above the left window
edge afterwards. -/
structure EdgeBounds (r : Receiver) : Prop where
  nodup : r.delivered.Nodup
  before : r.sv.xDrfRequired = true → r.delivered = []
  below : r.sv.xDrfRequired = false → ∀ s ∈ r.delivered, s ≤ r.sv.xRcvLeftWindowEdge

theorem edgeBounds_fresh : EdgeBounds Receiver.fresh where
  nodup := List.nodup_nil
  before := fun _ => rfl
  below := by simp [Receiver.fresh, vDtpStateVectorInit]

theorem EdgeBounds.step {r : Receiver} {pdu : DtPdu} (hr : EdgeBounds r)
    (hpdu : Recorded r pdu) : EdgeBounds (r.step pdu) := by
  unfold Recorded at hpdu
  cases hdrf : r.sv.xDrfRequired with
  | true =>
    rw [if_pos hdrf] at hpdu
    rw [Receiver.step, xDtpReceive_dataRun hdrf hpdu]
    have hnil := hr.before hdrf
    constructor <;> simp [hnil]
  | false =>
    rw [if_neg (by simp [hdrf])] at hpdu
    by_cases hle : pdu.xSequenceNumber ≤ r.sv.xRcvLeftWindowEdge
    · rw [Receiver.step, xDtpReceive_duplicate hdrf hle]
      exact hr
    · have hnext := hpdu.resolve_left hle
      rw [Receiver.step, xDtpReceive_inOrder hdrf hle hnext]
      have hlt : ∀ s ∈ r.delivered, s.toNat < pdu.xSequenceNumber.toNat := by
        intro s hs
        have hs' := UInt32.le_iff_toNat_le.mp (hr.below hdrf s hs)
        rw [UInt32.le_iff_toNat_le] at hle
        omega
      refine ⟨?_, by simp [hdrf], ?_⟩
      · simp only [ite_true]
        refine List.nodup_append.mpr ⟨hr.nodup, by simp, ?_⟩
        intro s hs t ht hst
        have hlt' := hlt s hs
        rw [hst, List.mem_singleton.mp ht] at hlt'
        omega
      · intro _ s hs
        simp only [ite_true, List.mem_append, List.mem_singleton] at hs
        rcases hs with hs | rfl
        · exact UInt32.le_iff_toNat_le.mpr (Nat.le_of_lt (hlt s hs))
        · exact UInt32.le_refl _

/-- A run in which no PDU is let through unrecorded delivers every sequence number at
most once. -/
theorem deliveredSeqNums_nodup (pdus : List DtPdu)
    (h : Guarded Receiver.step Recorded Receiver.fresh pdus) :
    (deliveredSeqNums pdus).Nodup :=
  (foldl_invariant (fun _ _ hr hg => EdgeBounds.step hr hg) edgeBounds_fresh h).nodup

/-- Five PDUs of a run with a duplicate. -/
theorem deliveredSeqNums_nodup_duplicate :
    (deliveredSeqNums [⟨7, 0x80⟩, ⟨8, 0⟩, ⟨8, 0⟩, ⟨3, 0⟩, ⟨9, 0⟩]).Nodup :=
  deliveredSeqNums_nodup _ (by decide)

/-- A PDU behind a gap goes up twice. -/
theorem deliveredSeqNums_gap_twice :
    ¬ (deliveredSeqNums [⟨1, 0x80⟩, ⟨3, 0⟩, ⟨3, 0⟩]).Nodup := by
  decide

/-- A PDU which is let through unrecorded leaves the state vector as it was, so its
duplicate goes up again. -/
theorem unrecorded_redelivered {r : Receiver} {pdu : DtPdu} (h : ¬ Recorded r pdu) :
    ((r.step pdu).step pdu).delivered =
      r.delivered ++ [pdu.xSequenceNumber, pdu.xSequenceNumber] := by
  unfold Recorded at h
  have hout : xDtpReceive r.sv pdu.xSequenceNumber pdu.xFlags = ⟨true, r.sv, true⟩ := by
    cases hdrf : r.sv.xDrfRequired with
    | true =>
      rw [if_pos hdrf] at h
      exact xDtpReceive_noDataRun hdrf (not_not.mp h) _
    | false =>
      rw [if_neg (by simp [hdrf])] at h
      exact xDtpReceive_gap hdrf (fun hle => h (Or.inl hle)) (fun hn => h (Or.inr hn)) _
  simp [Receiver.step, hout]

end RinaSense.Efcp
