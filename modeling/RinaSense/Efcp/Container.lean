import RinaSense.Efcp.Dtp
import RinaSense.Flow.Allocator
import RinaSense.Rmt.Du

/-!
# EFCP container

The instances of an IPC process, the map from CEP-ids to instances, and the way of a
received PDU from the container to the flow allocator. Every function on the way reads
the header again from the netbuf it is given.
-/

namespace RinaSense.Efcp

open Common Rmt RinaSense.Flow Library.Memory

def CFG_EFCP_IMAP_ENTRIES : ℕ := 5

inductive EfcpState
  | eEfcpAllocated
  | eEfcpDeallocated
deriving DecidableEq, Repr

/-- A connection; one without a valid port is refused when it is made. -/
structure Connection where
  xPortId : PortId
  xSourceAddress : Address
  xDestinationAddress : Address
  xSourceCepId : CepId
  xDestinationCepId : CepId
  xQosId : QosId
  portOk : is_port_id_ok xPortId = true
deriving DecidableEq, Repr

structure EfcpInstance where
  pxConnection : Connection
  xDtpStateVector : DtpSv
  /-- Whether the instance was made with an RMT. -/
  pxRmt : Bool
  xState : EfcpState
deriving DecidableEq, Repr

abbrev EfcpPtr := ℕ

structure EfcpImapRow where
  xCepIdKey : CepId
  xEfcpValue : Option EfcpPtr
  ucValid : Bool
deriving DecidableEq, Repr

structure RmtN1Port where
  unPort : PortId
  rxPdus : UInt32
  rxBytes : UInt32
deriving DecidableEq, Repr

structure RmtState where
  xAddresses : List Address
  xPorts : List RmtN1Port
deriving DecidableEq, Repr

/-- By what a received PDU was dispatched: the instance it was given to, and the
sequence number and the flags which its data transfer protocol looked at. -/
structure Dispatch where
  instance? : Option EfcpPtr
  seqNum? : Option SeqNum
  flags? : Option PduFlags
deriving DecidableEq, Repr

def Dispatch.nothing : Dispatch := ⟨none, none, none⟩

/-- The data of a normal IPC process which a received PDU meets. -/
structure Ipcp where
  heap : Heap
  xRmt : RmtState
  xPciPool : PoolPtr
  xEfcpImapTable : List EfcpImapRow
  efcps : EfcpPtr → EfcpInstance
  xFA : FlowAllocator
  dispatch : Dispatch

def Ipcp.setEfcp (ip : Ipcp) (e : EfcpPtr) (efcp : EfcpInstance) : Ipcp :=
  { ip with efcps := Function.update ip.efcps e efcp }

/-- The instance in the first row with the key. -/
def imapLookup (rows : List EfcpImapRow) (xCepIdKey : CepId) : Option EfcpPtr :=
  (rows.find? fun row => row.xCepIdKey = xCepIdKey).bind (·.xEfcpValue)

/-- The row which is found is marked as valid. -/
def markValid (xCepIdKey : CepId) (rows : List EfcpImapRow) : List EfcpImapRow :=
  rows.replaceF fun row =>
    if row.xCepIdKey = xCepIdKey then some { row with ucValid := true } else none

/-- Every search leaks the block of a pointer. -/
def pxEfcpImapFind (ip : Ipcp) (xCepIdKey : CepId) : Option EfcpPtr × Ipcp :=
  (imapLookup ip.xEfcpImapTable xCepIdKey,
    { ip with
      heap := (pvRsMemAlloc ip.heap 8).2
      xEfcpImapTable := markValid xCepIdKey ip.xEfcpImapTable })

variable (pf : Platform)

def xEfcpEnqueue (ip : Ipcp) (xPort : PortId) (pxDu : NbPtr) : Exec (Bool × Ipcp) := do
  let (posted, fa) ← xFlowAllocatorDuPost pf ip.xFA xPort pxDu
  return (posted, { ip with xFA := fa })

/-- `xDtpReceive` on a netbuf; the flags are only read while a data run is required. -/
def xDtpReceiveDu (ip : Ipcp) (e : EfcpPtr) (pxDu : NbPtr) : Exec (Bool × Ipcp) := do
  let efcp := ip.efcps e
  let xSeqNum := (← PCI_GET pf ip.heap pxDu .PCI_SEQ_NO).toUInt32
  let ip := { ip with dispatch := { ip.dispatch with seqNum? := some xSeqNum } }
  if efcp.xDtpStateVector.xDrfRequired then
    let xFlags := (← PCI_GET pf ip.heap pxDu .PCI_FLAGS).toUInt8
    let ip := { ip with dispatch := { ip.dispatch with flags? := some xFlags } }
    let out := xDtpReceive efcp.xDtpStateVector xSeqNum xFlags
    let ip := ip.setEfcp e { efcp with xDtpStateVector := out.sv }
    let (_, ip) ← xEfcpEnqueue pf ip efcp.pxConnection.xPortId pxDu
    return (out.ret, ip)
  else
    let out := xDtpReceive efcp.xDtpStateVector xSeqNum 0
    let ip := ip.setEfcp e { efcp with xDtpStateVector := out.sv }
    if out.posted then
      let (_, ip) ← xEfcpEnqueue pf ip efcp.pxConnection.xPortId pxDu
      return (out.ret, ip)
    else return (out.ret, ip)

def xEfcpReceive (ip : Ipcp) (e : EfcpPtr) (pxDu : NbPtr) : Exec (Bool × Ipcp) := do
  let xPduType := (← PCI_GET pf ip.heap pxDu .PCI_TYPE).toUInt8
  if pdu_type_is_control xPduType then return (true, ip)
  xDtpReceiveDu pf ip e pxDu

/-- The destination CEP-id which a connection takes over from a DT PDU: one which is set
is overwritten, one which is not set stays so. -/
def learnDestination (ip : Ipcp) (e : EfcpPtr) (pxDu : NbPtr) : Exec Ipcp := do
  let efcp := ip.efcps e
  let xPduType := (← PCI_GET pf ip.heap pxDu .PCI_TYPE).toUInt8
  if xPduType = PDU_TYPE_DT ∧ efcp.pxConnection.xDestinationCepId ≠ CEP_ID_WRONG then
    let xCep := (← PCI_GET pf ip.heap pxDu .PCI_CONN_DST_ID).toUInt8
    return ip.setEfcp e { efcp with
      pxConnection := { efcp.pxConnection with xDestinationCepId := xCep } }
  else return ip

def xEfcpContainerReceive (ip : Ipcp) (xCepId : CepId) (pxDu : NbPtr) :
    Exec (Bool × Ipcp) := do
  if ¬ is_cep_id_ok xCepId then return (false, ip)
  let (pxEfcp, ip) := pxEfcpImapFind ip xCepId
  match pxEfcp with
  | none => return (false, ip)
  | some e =>
    let ip := { ip with dispatch := { ip.dispatch with instance? := some e } }
    if (ip.efcps e).xState = .eEfcpDeallocated then return (true, ip)
    let ip ← learnDestination pf ip e pxDu
    xEfcpReceive pf ip e pxDu

theorem xEfcpEnqueue_ok (ip : Ipcp) (conn : Connection) (pxDu : NbPtr) :
    ∃ posted fa, xEfcpEnqueue pf ip conn.xPortId pxDu = .ok (posted, { ip with xFA := fa }) := by
  unfold xEfcpEnqueue xFlowAllocatorDuPost
  rw [conn.portOk, rsAssert_true]
  cases hf : pxFAFindInstance ip.xFA conn.xPortId with
  | none => exact ⟨false, ip.xFA, by simp [pure, Except.pure]⟩
  | some p =>
    by_cases ha : (ip.xFA.fais p).eFaiState = .eFAI_ALLOCATED
    · exact ⟨true, _, by simp [ha, pure, Except.pure]; rfl⟩
    · exact ⟨false, ip.xFA, by simp [ha, pure, Except.pure]⟩

/-- The flags play no part once the data run has begun. -/
theorem xDtpReceive_flags {sv : DtpSv} (h : sv.xDrfRequired = false) (seq : SeqNum)
    (f f' : PduFlags) : xDtpReceive sv seq f = xDtpReceive sv seq f' := by
  simp [xDtpReceive, h]

/-- What is received changes the state vector of its connection and what waits in the flows. -/
theorem xDtpReceiveDu_cases {ip ip' : Ipcp} {e : EfcpPtr} {du : NbPtr} {b : Bool}
    (hrun : xDtpReceiveDu pf ip e du = .ok (b, ip')) : ∃ dispatch seq flags fa,
      ip' = { ({ ip with dispatch := dispatch } : Ipcp).setEfcp e { ip.efcps e with
        xDtpStateVector := (xDtpReceive (ip.efcps e).xDtpStateVector seq flags).sv } with
          xFA := fa } := by
  have hpost {ip₁ ip₂ : Ipcp} {port : PortId} {posted : Bool}
      (h : xEfcpEnqueue pf ip₁ port du = .ok (posted, ip₂)) : ∃ fa, ip₂ = { ip₁ with xFA := fa } := by
    obtain ⟨⟨posted, fa⟩, -, h⟩ := Exec.bind_eq_ok.mp h
    cases h
    exact ⟨fa, rfl⟩
  unfold xDtpReceiveDu at hrun
  obtain ⟨seq, -, hrun⟩ := Exec.bind_eq_ok.mp hrun
  dsimp only at hrun
  split_ifs at hrun
  · obtain ⟨flags, -, hrun⟩ := Exec.bind_eq_ok.mp hrun
    obtain ⟨⟨posted, ip₁⟩, hq, hrun⟩ := Exec.bind_eq_ok.mp hrun
    cases hrun
    exact ⟨_, _, _, hpost hq⟩
  · obtain ⟨⟨posted, ip₁⟩, hq, hrun⟩ := Exec.bind_eq_ok.mp hrun
    cases hrun
    exact ⟨_, _, _, hpost hq⟩
  · cases hrun
    exact ⟨{ ip.dispatch with seqNum? := some seq.toUInt32 }, seq.toUInt32, 0, ip.xFA, rfl⟩

theorem xDtpReceiveDu_short {ip : Ipcp} {e : EfcpPtr} {du : NbPtr} {m : Bytes}
    (hm : BytesAt ip.heap du m) (hlen : m.length < sizeofPci) :
    xDtpReceiveDu pf ip e du = .error .outOfBounds := by
  have hseq : PCI_GET pf ip.heap du .PCI_SEQ_NO = .error .outOfBounds := hm.get_short pf hlen
  simp [xDtpReceiveDu, hseq]

/-- The data transfer protocol uses what it reads at the start of the netbuf. -/
theorem xDtpReceiveDu_spec {ip : Ipcp} {e : EfcpPtr} {du : NbPtr} {m : Bytes}
    (hm : BytesAt ip.heap du m) (hlen : sizeofPci ≤ m.length) :
    ∃ ip', xDtpReceiveDu pf ip e du =
        .ok ((xDtpReceive (ip.efcps e).xDtpStateVector (Pci.ofBytes m).xSequenceNumber
          (Pci.ofBytes m).xFlags).ret, ip') ∧
      ip'.dispatch = { ip.dispatch with
        seqNum? := some (Pci.ofBytes m).xSequenceNumber
        flags? := if (ip.efcps e).xDtpStateVector.xDrfRequired then
          some (Pci.ofBytes m).xFlags else ip.dispatch.flags? } := by
  have hbound : ∀ f : PciField, f.offset + f.size ≤ m.length :=
    fun f => f.offset_add_size_le.trans hlen
  have hseq : PCI_GET pf ip.heap du .PCI_SEQ_NO = .ok (fieldOf m .PCI_SEQ_NO) :=
    hm.get_ok pf (hbound _)
  have hflags : PCI_GET pf ip.heap du .PCI_FLAGS = .ok (fieldOf m .PCI_FLAGS) :=
    hm.get_ok pf (hbound _)
  unfold xDtpReceiveDu
  rw [hseq]
  cases hdrf : (ip.efcps e).xDtpStateVector.xDrfRequired with
  | true =>
    simp only [Exec.ok_bind, if_true, hdrf, hflags]
    let out := xDtpReceive (ip.efcps e).xDtpStateVector (Pci.ofBytes m).xSequenceNumber
      (Pci.ofBytes m).xFlags
    let ip₁ : Ipcp := { ip with dispatch := { ip.dispatch with
      seqNum? := some (Pci.ofBytes m).xSequenceNumber
      flags? := some (Pci.ofBytes m).xFlags } }
    obtain ⟨posted, fa, hq⟩ := xEfcpEnqueue_ok pf
      (ip₁.setEfcp e { ip.efcps e with xDtpStateVector := out.sv })
      (ip.efcps e).pxConnection du
    refine ⟨{ ip₁.setEfcp e { ip.efcps e with xDtpStateVector := out.sv } with xFA := fa }, ?_, rfl⟩
    change (do
      let (_, ip') ← xEfcpEnqueue pf
        (ip₁.setEfcp e { ip.efcps e with xDtpStateVector := out.sv })
        (ip.efcps e).pxConnection.xPortId du
      return (out.ret, ip')) = _
    rw [hq]
    rfl
  | false =>
    simp only [Exec.ok_bind, hdrf]
    let out := xDtpReceive (ip.efcps e).xDtpStateVector (Pci.ofBytes m).xSequenceNumber 0
    let ip₁ : Ipcp := { ip with dispatch := { ip.dispatch with
      seqNum? := some (Pci.ofBytes m).xSequenceNumber } }
    rw [xDtpReceive_flags hdrf _ (Pci.ofBytes m).xFlags 0]
    change ∃ ip', (if out.posted then do
        let (_, ip'') ← xEfcpEnqueue pf
          (ip₁.setEfcp e { ip.efcps e with xDtpStateVector := out.sv })
          (ip.efcps e).pxConnection.xPortId du
        return (out.ret, ip'')
      else return (out.ret, ip₁.setEfcp e { ip.efcps e with xDtpStateVector := out.sv })) = _ ∧ _
    cases out.posted with
    | false => exact ⟨_, rfl, rfl⟩
    | true =>
      obtain ⟨posted, fa, hq⟩ := xEfcpEnqueue_ok pf
        (ip₁.setEfcp e { ip.efcps e with xDtpStateVector := out.sv })
        (ip.efcps e).pxConnection du
      refine ⟨{ ip₁.setEfcp e { ip.efcps e with xDtpStateVector := out.sv } with xFA := fa }, ?_,
        rfl⟩
      rw [if_pos rfl, hq]
      rfl

/-- The instance which a CEP-id stands for. -/
def selects (ip : Ipcp) (xCepId : CepId) : Option EfcpPtr :=
  if is_cep_id_ok xCepId then imapLookup ip.xEfcpImapTable xCepId else none

/-- The dispatch and the result which a header calls for. -/
def dispatchOf (ip : Ipcp) (q : Pci) : Dispatch × Bool :=
  match selects ip q.xConnDestination with
  | none => (.nothing, false)
  | some e =>
    let efcp := ip.efcps e
    if efcp.xState = .eEfcpDeallocated ∨ pdu_type_is_control q.xType = true then
      (⟨some e, none, none⟩, true)
    else
      (⟨some e, some q.xSequenceNumber,
          if efcp.xDtpStateVector.xDrfRequired then some q.xFlags else none⟩,
        (xDtpReceive efcp.xDtpStateVector q.xSequenceNumber q.xFlags).ret)

/-- Whether the header is passed on to the data transfer protocol of a live instance. -/
def reachesDtp (ip : Ipcp) (q : Pci) : Prop :=
  ∃ e, selects ip q.xConnDestination = some e ∧ (ip.efcps e).xState ≠ .eEfcpDeallocated ∧
    pdu_type_is_control q.xType = false

theorem learnDestination_spec {ip : Ipcp} {du : NbPtr} {m : Bytes} (e : EfcpPtr)
    (hm : BytesAt ip.heap du m) (hlen : 7 ≤ m.length) :
    ∃ conn, learnDestination pf ip e du =
      .ok (ip.setEfcp e { ip.efcps e with pxConnection := conn }) := by
  have htype : PCI_GET pf ip.heap du .PCI_TYPE = .ok (fieldOf m .PCI_TYPE) := hm.get_ok pf hlen
  have hcep : PCI_GET pf ip.heap du .PCI_CONN_DST_ID = .ok (fieldOf m .PCI_CONN_DST_ID) :=
    hm.get_ok pf (Nat.le_of_lt (Nat.lt_of_lt_of_le (by decide) hlen))
  unfold learnDestination
  rw [htype]
  by_cases hset : (fieldOf m .PCI_TYPE).toUInt8 = PDU_TYPE_DT ∧
      (ip.efcps e).pxConnection.xDestinationCepId ≠ CEP_ID_WRONG
  · simp only [Exec.ok_bind, if_pos hset, hcep]
    exact ⟨_, rfl⟩
  · simp only [Exec.ok_bind, if_neg hset]
    refine ⟨(ip.efcps e).pxConnection, ?_⟩
    simp [Ipcp.setEfcp, pure, Except.pure]

theorem xEfcpReceive_control {ip : Ipcp} {du : NbPtr} {m : Bytes} (e : EfcpPtr)
    (hm : BytesAt ip.heap du m) (hlen : 7 ≤ m.length)
    (hc : pdu_type_is_control (Pci.ofBytes m).xType = true) :
    xEfcpReceive pf ip e du = .ok (true, ip) := by
  have htype : PCI_GET pf ip.heap du .PCI_TYPE = .ok (fieldOf m .PCI_TYPE) := hm.get_ok pf hlen
  have hc' : pdu_type_is_control (fieldOf m .PCI_TYPE).toUInt8 = true := hc
  simp [xEfcpReceive, htype, hc', pure, Except.pure]

theorem xEfcpReceive_data {ip : Ipcp} {du : NbPtr} {m : Bytes} (e : EfcpPtr)
    (hm : BytesAt ip.heap du m) (hlen : 7 ≤ m.length)
    (hc : pdu_type_is_control (Pci.ofBytes m).xType = false) :
    xEfcpReceive pf ip e du = xDtpReceiveDu pf ip e du := by
  have htype : PCI_GET pf ip.heap du .PCI_TYPE = .ok (fieldOf m .PCI_TYPE) := hm.get_ok pf hlen
  have hc' : pdu_type_is_control (fieldOf m .PCI_TYPE).toUInt8 = false := hc
  simp [xEfcpReceive, htype, hc']

/-- The container up to the point where it has an instance in use. -/
theorem xEfcpContainerReceive_live {ip : Ipcp} {du : NbPtr} {m : Bytes} {e : EfcpPtr}
    {xCepId : CepId} (hm : BytesAt ip.heap du m) (hf : ip.heap.Fresh)
    (hd : ip.dispatch = .nothing) (hlen : 7 ≤ m.length) (hsel : selects ip xCepId = some e)
    (hst : (ip.efcps e).xState ≠ .eEfcpDeallocated) :
    ∃ ip₁ : Ipcp, xEfcpContainerReceive pf ip xCepId du = xEfcpReceive pf ip₁ e du ∧
      BytesAt ip₁.heap du m ∧ ip₁.dispatch = ⟨some e, none, none⟩ ∧
      (ip₁.efcps e).xDtpStateVector = (ip.efcps e).xDtpStateVector := by
  unfold selects at hsel
  split_ifs at hsel with hok
  let ip₀ : Ipcp := { (pxEfcpImapFind ip xCepId).2 with dispatch := ⟨some e, none, none⟩ }
  have hm₀ : BytesAt ip₀.heap du m := hm.leak hf 8
  obtain ⟨conn, hlearn⟩ := learnDestination_spec pf e hm₀ hlen
  refine ⟨ip₀.setEfcp e { ip₀.efcps e with pxConnection := conn }, ?_, hm₀, rfl, ?_⟩
  · have hcode : xEfcpContainerReceive pf ip xCepId du = (do
        let ip ← learnDestination pf ip₀ e du
        xEfcpReceive pf ip e du) := by
      simp [xEfcpContainerReceive, hok, pxEfcpImapFind, hsel, hst, hd, Dispatch.nothing, ip₀]
    rw [hcode, hlearn, Exec.ok_bind]
  · simp [Ipcp.setEfcp, ip₀, pxEfcpImapFind]

theorem xEfcpContainerReceive_none {ip : Ipcp} {xCepId : CepId} (hd : ip.dispatch = .nothing)
    (hsel : selects ip xCepId = none) (du : NbPtr) :
    ∃ ip', xEfcpContainerReceive pf ip xCepId du = .ok (false, ip') ∧
      ip'.dispatch = .nothing := by
  unfold selects at hsel
  unfold xEfcpContainerReceive
  split_ifs at hsel with hok
  · refine ⟨(pxEfcpImapFind ip xCepId).2, ?_, hd⟩
    simp [hok, pxEfcpImapFind, hsel, pure, Except.pure]
  · exact ⟨ip, by simp [hok, pure, Except.pure], hd⟩

theorem xEfcpContainerReceive_deallocated {ip : Ipcp} {xCepId : CepId} {e : EfcpPtr}
    (hd : ip.dispatch = .nothing) (hsel : selects ip xCepId = some e)
    (hst : (ip.efcps e).xState = .eEfcpDeallocated) (du : NbPtr) :
    ∃ ip', xEfcpContainerReceive pf ip xCepId du = .ok (true, ip') ∧
      ip'.dispatch = ⟨some e, none, none⟩ := by
  unfold selects at hsel
  split_ifs at hsel with hok
  refine ⟨{ (pxEfcpImapFind ip xCepId).2 with dispatch := ⟨some e, none, none⟩ }, ?_, rfl⟩
  simp [xEfcpContainerReceive, hok, pxEfcpImapFind, hsel, hst, hd, Dispatch.nothing, pure,
    Except.pure]

/-- With enough bytes in the buffer, the container does what they call for. -/
theorem xEfcpContainerReceive_spec {ip : Ipcp} {du : NbPtr} {m : Bytes}
    (hm : BytesAt ip.heap du m) (hf : ip.heap.Fresh) (hd : ip.dispatch = .nothing)
    (hlen : 7 ≤ m.length) (hdtp : reachesDtp ip (Pci.ofBytes m) → sizeofPci ≤ m.length) :
    ∃ ip', xEfcpContainerReceive pf ip (Pci.ofBytes m).xConnDestination du =
        .ok ((dispatchOf ip (Pci.ofBytes m)).2, ip') ∧
      ip'.dispatch = (dispatchOf ip (Pci.ofBytes m)).1 := by
  unfold dispatchOf
  cases hsel : selects ip (Pci.ofBytes m).xConnDestination with
  | none => exact xEfcpContainerReceive_none pf hd hsel du
  | some e =>
    by_cases hst : (ip.efcps e).xState = .eEfcpDeallocated
    · simp only [hst, true_or, if_true]
      exact xEfcpContainerReceive_deallocated pf hd hsel hst du
    · obtain ⟨ip₁, hcode, hm₁, hd₁, hsv⟩ :=
        xEfcpContainerReceive_live pf hm hf hd hlen hsel hst
      rw [hcode]
      cases hc : pdu_type_is_control (Pci.ofBytes m).xType with
      | true =>
        rw [xEfcpReceive_control pf e hm₁ hlen hc]
        exact ⟨ip₁, by simp, by simp [hd₁]⟩
      | false =>
        rw [xEfcpReceive_data pf e hm₁ hlen hc]
        obtain ⟨ip', hret, hout⟩ := xDtpReceiveDu_spec pf (e := e) hm₁ (hdtp ⟨e, hsel, hst, hc⟩)
        refine ⟨ip', ?_, ?_⟩
        · rw [hret, hsv]
          simp [hst]
        · rw [hout, hd₁, hsv]
          simp [hst]

/-- A PDU for the data transfer protocol is read as far as a whole header. -/
theorem xEfcpContainerReceive_short {ip : Ipcp} {du : NbPtr} {m : Bytes}
    (hm : BytesAt ip.heap du m) (hf : ip.heap.Fresh) (hd : ip.dispatch = .nothing)
    (hlen : 7 ≤ m.length) (hdtp : reachesDtp ip (Pci.ofBytes m))
    (hshort : m.length < sizeofPci) :
    xEfcpContainerReceive pf ip (Pci.ofBytes m).xConnDestination du = .error .outOfBounds := by
  obtain ⟨e, hsel, hst, hc⟩ := hdtp
  obtain ⟨ip₁, hcode, hm₁, -, -⟩ := xEfcpContainerReceive_live pf hm hf hd hlen hsel hst
  rw [hcode, xEfcpReceive_data pf e hm₁ hlen hc]
  exact xDtpReceiveDu_short pf hm₁ hshort

/-! ### An IPC process with one connection -/

def exampleConnection : Connection where
  xPortId := 1
  xSourceAddress := 1
  xDestinationAddress := 2
  xSourceCepId := 3
  xDestinationCepId := 4
  xQosId := 1
  portOk := by decide

def exampleNetbuf (eType : NetBufType) (unSz : ℕ) : Netbuf where
  pxNext := none
  pxFirst := 1
  eType := eType
  unSz := unSz
  pxBuf := some ⟨0, 0⟩
  pxBufStart := some ⟨0, 0⟩
  xFreed := false
  freemethod := some .vNetBufFreeNormal
  xPool := some 0

def examplePool : RsrcPool where
  pcName := "PCI pool"
  ulTotalAllocs := 0
  uxSizeEach := sizeofPci
  uiIncrement := 1
  uiFreeOnFree := false
  uiMaxNumRes := 0
  uiNumInUse := 0
  uiNumFree := 0
  uiLowWater := 0
  uiHiWater := 0
  pxFreelist := []
  xActive := []

/-- The netbuf 1 holds the bytes `bs` of the block 0. -/
def exampleHeap (eType : NetBufType) (bs : Bytes) : Heap where
  mem := Function.update (fun _ => none) 0 (some bs)
  netbufs := Function.update (fun _ => none) 1 (some (exampleNetbuf eType bs.length))
  rsrcs := fun _ => none
  pools := fun _ => some examplePool
  brk := 2
  calls := 0
  mallocOk := fun _ => true
  junk := fun _ _ => 0

def exampleIpcp (sv : DtpSv) (eType : NetBufType) (bs : Bytes) : Ipcp where
  heap := exampleHeap eType bs
  xRmt := { xAddresses := [1], xPorts := [⟨1, 0, 0⟩] }
  xPciPool := 0
  xEfcpImapTable := [⟨3, some 0, true⟩]
  efcps := fun _ =>
    { pxConnection := exampleConnection
      xDtpStateVector := sv
      pxRmt := true
      xState := .eEfcpAllocated }
  xFA := { xFlowRequestTable := [], fais := fun _ => ⟨0, .eFAI_NONE, ⟨0, 0, [], 0⟩⟩,
           bounded := by decide }
  dispatch := .nothing

theorem exampleHeap_fresh (eType : NetBufType) (bs : Bytes) : (exampleHeap eType bs).Fresh := by
  intro a ha
  have hbrk : 2 ≤ a := ha
  have h0 : a ≠ 0 := by omega
  have h1 : a ≠ 1 := by omega
  simp [exampleHeap, h0, h1]

end RinaSense.Efcp
