import Mathlib.Data.List.Nodup
import RinaSense.Rib.Calls
import RinaSense.SerDes.RoundTrip

/-!
# Incoming messages

From the bytes of a management PDU to the handler of its message and back, with the reads of
the table of operation names, the uses of the status and the releases of the message. The
number of the operation comes from the wire as it is.
-/

namespace RinaSense.Rib

open Common SerDes Library.Memory

/-! ### Operations by number -/

def MAX_CDAP_OPCODE : UInt32 := 17

def opcodeNamesTable : List String :=
  ["M_CONNECT", "M_CONNECT_R", "M_RELEASE", "M_RELEASE_R", "M_CREATE", "M_CREATE_R", "M_DELETE",
    "M_DELETE_R", "M_READ", "M_READ_R", "M_CANCELREAD", "M_CANCELREAD_R", "M_WRITE", "M_WRITE_R",
    "M_START", "M_START_R", "M_STOP", "M_STOP_R"]

def opCodes : List OpCode :=
  [.M_CONNECT, .M_CONNECT_R, .M_RELEASE, .M_RELEASE_R, .M_CREATE, .M_CREATE_R, .M_DELETE,
    .M_DELETE_R, .M_READ, .M_READ_R, .M_CANCELREAD, .M_CANCELREAD_R, .M_WRITE, .M_WRITE_R,
    .M_START, .M_START_R, .M_STOP, .M_STOP_R]

theorem number_lt {n : UInt32} (h : n ≤ MAX_CDAP_OPCODE) : n.toNat < opCodes.length := by
  have hle : n.toNat ≤ 17 := UInt32.le_iff_toNat_le.mp h
  exact Nat.lt_succ_of_le hle

/-- The operation of a number which is not too large. -/
def opCodeAt (n : UInt32) (h : n ≤ MAX_CDAP_OPCODE) : OpCode := opCodes.get ⟨n.toNat, number_lt h⟩

/-! ### Decoding -/

/-- The structure as the library decodes it, with any number in the place of the operation. -/
structure PbCdap where
  opCode : UInt32
  fields : PbMessage

/-- A decoded message with the number of its operation. -/
structure RawCdap where
  eOpCode : UInt32
  pxMsg : DecodedCdap

def decodeCdap (pb_decode : Bytes → Option PbCdap) (mem : Memory) (pucBuffer : Bytes) :
    Exec (Option RawCdap) :=
  match pb_decode pucBuffer with
  | none => .ok none
  | some message => do
    let pxMsg ← pxSerDesMessageDecode (fun _ => some message.fields) mem pucBuffer
    return pxMsg.map (⟨message.opCode, ·⟩)

def readName (nm : DupName) : Exec Rname := do
  let pcProcessName ← inBounds (cstring (nm.pxFree.drop nm.pcProcessName))
  let pcProcessInstance ← inBounds (cstring (nm.pxFree.drop nm.pcProcessInstance))
  let pcEntityName ← inBounds (cstring (nm.pxFree.drop nm.pcEntityName))
  let pcEntityInstance ← inBounds (cstring (nm.pxFree.drop nm.pcEntityInstance))
  return ⟨some pcProcessName, some pcProcessInstance, some pcEntityName, some pcEntityInstance⟩

/-- The message with its strings, as the handlers read them. -/
def readCdap (pxMsg : DecodedCdap) (eOpCode : OpCode) : Exec IncomingCdap := do
  let xDestinationInfo ← readName pxMsg.xDestinationInfo
  let xSourceInfo ← readName pxMsg.xSourceInfo
  let pcObjName ← inBounds (pxMsg.string pxMsg.pcObjName)
  return ⟨some eOpCode, xDestinationInfo, xSourceInfo, pxMsg.nInvokeID, pcObjName⟩

/-! ### Handling -/

inductive IncomingEvent
  /-- The name of the number is read from the table. -/
  | opcodeName (eOpCode : UInt32)
  /-- A handler sets the status. -/
  | statusSet
  | statusRead
  /-- The message, which lies in a pool, is given to the heap. -/
  | vRsMemFree
  | vSerDesMessageFree
deriving DecidableEq, Repr

/-- The object is there and has no method for the operation. -/
def lacksMethod (pxRibObj : Exec (Option RibObject))
    (method : RibObject → Exec (Option FnPtr)) : Bool :=
  match pxRibObj with
  | .ok (some pxRibObj) =>
    match method pxRibObj with
    | .ok none => true
    | _ => false
  | _ => false

/-- The error of a missing method names the operation. -/
def unsupportedName (pxRibd : Ribd) (eOpCode : OpCode) (pxMsg : IncomingCdap) : Bool :=
  match eOpCode with
  | .M_CREATE | .M_DELETE | .M_READ | .M_WRITE | .M_START | .M_STOP =>
    lacksMethod (pxRibObjectFind pxRibd (some pxMsg.pcObjName)) (xRibGetObjectMethod · eOpCode)
  | .M_CREATE_R | .M_DELETE_R | .M_READ_R | .M_WRITE_R | .M_START_R | .M_STOP_R =>
    match xRibFindPendingResponse pxRibd pxMsg.nInvokeID with
    | .ok (some x, pxRibd) =>
      lacksMethod (pxRibObjectFind pxRibd (pxRibd.xPendingReqs x).pcObjName)
        (xRibGetObjectReplyMethod · eOpCode)
    | _ => false
  | _ => false

/-- What is done with a message until its handler returns or does not, and the result. -/
abbrev IncomingRun (α : Type) := List IncomingEvent × Exec α

/-- The call of the handler, whose status goes no further than the log. -/
def RawCdap.dispatch (out : Outcomes) (pxRibd : Ribd) (pxDecodeCdap : RawCdap) (eOpCode : OpCode)
    (unPort : PortId) : IncomingRun (RsErr × Ribd) :=
  match readCdap pxDecodeCdap.pxMsg eOpCode with
  | .error e => ([], .error e)
  | .ok msg =>
    match Rib.xRibNormalIncoming out pxRibd msg unPort with
    | .error e => ([], .error e)
    | .ok o =>
      ((if unsupportedName pxRibd eOpCode msg then [.opcodeName pxDecodeCdap.eOpCode] else []) ++
        [.statusSet, .statusRead], .ok (.SUCCESS, o.pxRibd))

/-- The operations without a handler end in the default case, where nothing sets the status. -/
def RawCdap.xRibNormalIncoming (out : Outcomes) (pxRibd : Ribd) (pxDecodeCdap : RawCdap)
    (unPort : PortId) : IncomingRun (RsErr × Ribd) :=
  if h : pxDecodeCdap.eOpCode ≤ MAX_CDAP_OPCODE then
    let eOpCode := opCodeAt pxDecodeCdap.eOpCode h
    if eOpCode = .M_CANCELREAD ∨ eOpCode = .M_CANCELREAD_R then
      ([.opcodeName pxDecodeCdap.eOpCode, .statusRead], .ok (.SUCCESS, pxRibd))
    else pxDecodeCdap.dispatch out pxRibd eOpCode unPort
  else ([.opcodeName pxDecodeCdap.eOpCode, .vRsMemFree], .ok (.SUCCESS, pxRibd))

/-- A build with `NDEBUG` does not print the message. -/
def xRibIncoming (pf : Platform) (pb_decode : Bytes → Option PbCdap) (mem : Memory)
    (out : Outcomes) (pxRibd : Ribd) (pxDu : Bytes) (unPort : PortId) :
    IncomingRun (RsErr × Ribd) :=
  match decodeCdap pb_decode mem pxDu with
  | .error e => ([], .error e)
  | .ok none => ([], .ok (.FAIL, pxRibd))
  | .ok (some pxIncomingCdap) =>
    let printed := if pf.ndebug then [] else [.opcodeName pxIncomingCdap.eOpCode]
    match pxIncomingCdap.xRibNormalIncoming out pxRibd unPort with
    | (events, .error e) => (printed ++ events, .error e)
    | (events, .ok p) => (printed ++ events ++ [.vSerDesMessageFree], .ok p)

/-! ### Handled once -/

def IncomingEvent.frees : IncomingEvent → Bool
  | .vRsMemFree | .vSerDesMessageFree => true
  | _ => false

/-- Every read of the status comes after a handler has set it. -/
def StatusSet : Bool → List IncomingEvent → Prop
  | _, [] => True
  | _, .statusSet :: events => StatusSet true events
  | xSet, .statusRead :: events => xSet = true ∧ StatusSet xSet events
  | xSet, .opcodeName _ :: events | xSet, .vRsMemFree :: events
  | xSet, .vSerDesMessageFree :: events => StatusSet xSet events

/-- The table is read inside its bounds, the status is read after a handler has set it, and the
message is freed once when the handling returns, and not before. -/
structure HandledOnce {α : Type} (run : IncomingRun α) : Prop where
  names : ∀ n, .opcodeName n ∈ run.1 → n.toNat < opcodeNamesTable.length
  status : StatusSet false run.1
  freed : run.1.countP IncomingEvent.frees = if run.2.toOption.isSome then 1 else 0

theorem opCodeAt_eq_iff {n : UInt32} (h : n ≤ MAX_CDAP_OPCODE) {k : ℕ} (hk : k < opCodes.length)
    {op : OpCode} (hop : opCodes[k] = op) : opCodeAt n h = op ↔ n.toNat = k := by
  have hnodup : opCodes.Nodup := by decide
  rw [← hop, opCodeAt, List.get_eq_getElem, List.Nodup.getElem_inj_iff hnodup]

/-- A number of an operation which has a handler. -/
def Handles (n : UInt32) : Prop := n ≤ MAX_CDAP_OPCODE ∧ n ≠ 10 ∧ n ≠ 11

instance (n : UInt32) : Decidable (Handles n) := inferInstanceAs (Decidable (_ ∧ _))

theorem handles_iff {n : UInt32} (h : n ≤ MAX_CDAP_OPCODE) :
    Handles n ↔ ¬ (opCodeAt n h = .M_CANCELREAD ∨ opCodeAt n h = .M_CANCELREAD_R) := by
  have hread : opCodeAt n h = .M_CANCELREAD ↔ n.toNat = 10 :=
    opCodeAt_eq_iff h (by decide) (by rfl)
  have hreply : opCodeAt n h = .M_CANCELREAD_R ↔ n.toNat = 11 :=
    opCodeAt_eq_iff h (by decide) (by rfl)
  rw [hread, hreply, Handles, not_or, Ne, Ne, ← UInt32.toNat_inj, ← UInt32.toNat_inj]
  exact and_iff_right h

variable {pf : Platform} {pb_decode : Bytes → Option PbCdap} {mem : Memory} {out : Outcomes}
  {r : Ribd} {buf : Bytes} {unPort : PortId} {raw : RawCdap}

theorem names_of_le (h : raw.eOpCode ≤ MAX_CDAP_OPCODE) {events : List IncomingEvent}
    (hall : ∀ n, .opcodeName n ∈ events → n = raw.eOpCode) (n : UInt32)
    (hn : .opcodeName n ∈ events) : n.toNat < opcodeNamesTable.length := by
  rw [hall n hn]
  exact number_lt h

/-- The handler is entered, and its status is read when it returns. -/
theorem dispatch_events (out : Outcomes) (r : Ribd) (raw : RawCdap) (eOpCode : OpCode)
    (unPort : PortId) :
    let run := raw.dispatch out r eOpCode unPort
    (∀ n, .opcodeName n ∈ run.1 → n = raw.eOpCode) ∧ StatusSet false run.1 ∧
      run.1.countP IncomingEvent.frees = 0 := by
  simp only [RawCdap.dispatch]
  cases readCdap raw.pxMsg eOpCode with
  | error e => exact ⟨by simp, trivial, rfl⟩
  | ok msg =>
    dsimp only
    cases Rib.xRibNormalIncoming out r msg unPort with
    | error e => exact ⟨by simp, trivial, rfl⟩
    | ok o =>
      dsimp only
      cases unsupportedName r eOpCode msg with
      | false => exact ⟨by simp, ⟨rfl, trivial⟩, rfl⟩
      | true => exact ⟨by simp, ⟨rfl, trivial⟩, rfl⟩

theorem statusSet_free (xSet : Bool) (events : List IncomingEvent) :
    StatusSet xSet (events ++ [.vSerDesMessageFree]) ↔ StatusSet xSet events := by
  induction events generalizing xSet with
  | nil => exact Iff.rfl
  | cons e events ih =>
    cases e with
    | statusRead => exact and_congr_right fun _ => ih xSet
    | statusSet => exact ih true
    | opcodeName n => exact ih xSet
    | vRsMemFree => exact ih xSet
    | vSerDesMessageFree => exact ih xSet

variable (out r unPort) in
theorem RawCdap.xRibNormalIncoming_handled (h : raw.eOpCode ≤ MAX_CDAP_OPCODE)
    (hop : ¬ (opCodeAt raw.eOpCode h = .M_CANCELREAD ∨
      opCodeAt raw.eOpCode h = .M_CANCELREAD_R)) :
    raw.xRibNormalIncoming out r unPort =
      raw.dispatch out r (opCodeAt raw.eOpCode h) unPort := by
  rw [RawCdap.xRibNormalIncoming, dif_pos h]
  exact if_neg hop

/-- An operation which has a handler changes the RIB as it does with the operation known. -/
theorem RawCdap.xRibNormalIncoming_result (h : raw.eOpCode ≤ MAX_CDAP_OPCODE)
    (hh : Handles raw.eOpCode) :
    (raw.xRibNormalIncoming out r unPort).2 = (do
      let msg ← readCdap raw.pxMsg (opCodeAt raw.eOpCode h)
      let o ← Rib.xRibNormalIncoming out r msg unPort
      return (.SUCCESS, o.pxRibd)) := by
  rw [RawCdap.xRibNormalIncoming_handled out r unPort h ((handles_iff h).mp hh), RawCdap.dispatch]
  cases readCdap raw.pxMsg (opCodeAt raw.eOpCode h) with
  | error e => rfl
  | ok msg =>
    dsimp only
    rw [Exec.ok_bind]
    cases Rib.xRibNormalIncoming out r msg unPort with
    | error e => rfl
    | ok o => rfl

/-- What a debug build reads before the message is handled. -/
def printedNames (pf : Platform) (raw : RawCdap) : List IncomingEvent :=
  if pf.ndebug then [] else [.opcodeName raw.eOpCode]

theorem statusSet_printed (pf : Platform) (raw : RawCdap) (events : List IncomingEvent) :
    StatusSet false (printedNames pf raw ++ events) ↔ StatusSet false events := by
  unfold printedNames
  split_ifs <;> exact Iff.rfl

theorem frees_printed (pf : Platform) (raw : RawCdap) :
    (printedNames pf raw).countP IncomingEvent.frees = 0 := by
  unfold printedNames
  split_ifs <;> rfl

theorem mem_printed {pf : Platform} {n : UInt32} (h : .opcodeName n ∈ printedNames pf raw) :
    n = raw.eOpCode := by
  unfold printedNames at h
  split_ifs at h
  · cases h
  · cases List.mem_singleton.mp h
    rfl

theorem xRibIncoming_decoded (hdec : decodeCdap pb_decode mem buf = .ok (some raw)) :
    xRibIncoming pf pb_decode mem out r buf unPort =
      (printedNames pf raw ++ (raw.xRibNormalIncoming out r unPort).1 ++
        if (raw.xRibNormalIncoming out r unPort).2.toOption.isSome then [.vSerDesMessageFree]
        else [], (raw.xRibNormalIncoming out r unPort).2) := by
  rw [xRibIncoming, hdec]
  dsimp only
  rcases raw.xRibNormalIncoming out r unPort with ⟨events, e | p⟩
  · simp [printedNames, Except.toOption]
  · rfl

/-- The name of a number which is too large lies behind the table, whatever the build prints. -/
theorem not_handledOnce_large (hdec : decodeCdap pb_decode mem buf = .ok (some raw))
    (h : ¬ raw.eOpCode ≤ MAX_CDAP_OPCODE) :
    ¬ HandledOnce (xRibIncoming pf pb_decode mem out r buf unPort) := by
  intro hrun
  have hname := hrun.names raw.eOpCode
  rw [xRibIncoming_decoded hdec] at hname
  simp only [RawCdap.xRibNormalIncoming, h, dif_neg, not_false_eq_true] at hname
  have hlt : raw.eOpCode.toNat < 18 := hname (by simp)
  exact h (UInt32.le_iff_toNat_le.mpr (Nat.le_of_lt_succ hlt))

/-- A message which was decoded is handled once if and only if its operation has a handler. -/
theorem incoming_handledOnce_iff (pf : Platform) (out : Outcomes) (r : Ribd) (unPort : PortId)
    (hdec : decodeCdap pb_decode mem buf = .ok (some raw)) :
    HandledOnce (xRibIncoming pf pb_decode mem out r buf unPort) ↔ Handles raw.eOpCode := by
  by_cases h : raw.eOpCode ≤ MAX_CDAP_OPCODE
  · rw [handles_iff h, xRibIncoming_decoded hdec]
    by_cases hop : opCodeAt raw.eOpCode h = .M_CANCELREAD ∨
        opCodeAt raw.eOpCode h = .M_CANCELREAD_R
    · refine iff_of_false (fun hrun => ?_) (not_not.mpr hop)
      have hstatus := hrun.status
      simp only [RawCdap.xRibNormalIncoming, h, hop, dif_pos, if_true, List.append_assoc,
        statusSet_printed] at hstatus
      exact absurd hstatus.1 Bool.false_ne_true
    · refine iff_of_true ?_ hop
      have hrun := RawCdap.xRibNormalIncoming_handled out r unPort h hop
      obtain ⟨hnames, hstatus, hfrees⟩ :=
        dispatch_events out r raw (opCodeAt raw.eOpCode h) unPort
      rw [hrun]
      refine ⟨?_, ?_, ?_⟩
      · apply names_of_le h
        intro n hn
        rw [List.append_assoc, List.mem_append, List.mem_append] at hn
        rcases hn with hn | hn | hn
        · exact mem_printed hn
        · exact hnames n hn
        · split_ifs at hn
          · simp at hn
          · cases hn
      · rw [List.append_assoc, statusSet_printed]
        split_ifs
        · exact (statusSet_free _ _).mpr hstatus
        · rw [List.append_nil]
          exact hstatus
      · rw [List.countP_append, List.countP_append, frees_printed, hfrees]
        split_ifs <;> rfl
  · exact iff_of_false (not_handledOnce_large hdec h) fun hh => h hh.1

/-- The bytes of a message for an object `Flow` with a number below 128 for the operation. -/
def operationWire (n : UInt8) : Bytes := 0x10 :: n :: (flowWire shortKey).drop 2

def operationDecode (buf : Bytes) : Option PbCdap :=
  match buf with
  | b :: n :: _ =>
    if b = 0x10 ∧ n < 128 ∧ buf = operationWire n then some ⟨n.toUInt32, flowPb shortKey⟩
    else none
  | _ => none

theorem operationDecode_eq {n : UInt8} (hn : n < 128) :
    ∃ pxMsg, decodeCdap operationDecode exampleMemory (operationWire n) =
      .ok (some ⟨n.toUInt32, pxMsg⟩) := by
  have hpb : operationDecode (operationWire n) = some ⟨n.toUInt32, flowPb shortKey⟩ :=
    if_pos ⟨rfl, hn, rfl⟩
  have hfits : Fits (flowMessage shortKey) := flow_fits (by decide)
  have hmem : exampleMemory.Available := ⟨rfl, rfl, rfl, rfl⟩
  have hfill : fillMessage (flowMessage shortKey) = .ok (flowPb shortKey) := rfl
  have hdecoded : ∀ f : Bytes → Option PbMessage, f (operationWire n) = some (flowPb shortKey) →
      ∃ pxMsg, pxSerDesMessageDecode f exampleMemory (operationWire n) = .ok (some pxMsg) := by
    intro f hf
    obtain ⟨pxMsg, hmsg, -⟩ := decode_filled hfits hfill hmem.2.1 hmem.2.2.1 hmem.2.2.2 hf
    exact ⟨pxMsg, hmsg⟩
  obtain ⟨pxMsg, hmsg⟩ := hdecoded (fun _ => some (flowPb shortKey)) rfl
  refine ⟨pxMsg, ?_⟩
  simp only [decodeCdap, hpb, hmsg, Exec.ok_bind]
  rfl

/-- The operation M_START. -/
theorem incoming_handledOnce_start :
    HandledOnce (xRibIncoming ⟨false, false⟩ operationDecode exampleMemory .allWell (.init true)
      (operationWire 14) 1) := by
  obtain ⟨pxMsg, hdec⟩ := operationDecode_eq (show (14 : UInt8) < 128 by decide)
  have hop : Handles 14 := by decide
  exact (incoming_handledOnce_iff ⟨false, false⟩ .allWell (.init true) 1 hdec).mpr hop

/-- The number 18 is behind the last operation. -/
theorem incoming_notHandledOnce :
    ¬ HandledOnce (xRibIncoming ⟨false, false⟩ operationDecode exampleMemory .allWell
      (.init true) (operationWire 18) 1) := by
  obtain ⟨pxMsg, hdec⟩ := operationDecode_eq (show (18 : UInt8) < 128 by decide)
  have hlarge : ¬ (18 : UInt32) ≤ MAX_CDAP_OPCODE := by decide
  exact not_handledOnce_large hdec hlarge

end RinaSense.Rib
