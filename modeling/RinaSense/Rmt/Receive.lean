import RinaSense.Efcp.Container

/-!
# Receiving in the RMT

`xRmtReceive` takes the header off a received PDU, checks it and frees it. What follows
gets the netbuf behind it, so the accessors of the header read the payload there.
-/

namespace RinaSense.Rmt

open Common Efcp Library.Memory

def prvRmtPortFind (pxRmt : RmtState) (unPort : PortId) : Option RmtN1Port :=
  pxRmt.xPorts.find? fun pxPort => pxPort.unPort = unPort

def statsIncRx (bytes : ℕ) (pxPort : RmtN1Port) : RmtN1Port :=
  { pxPort with
    rxPdus := pxPort.rxPdus + 1
    rxBytes := pxPort.rxBytes + bytes.toUInt32 }

/-- The statistics of the first port with the identifier. -/
def stats_inc (pxRmt : RmtState) (unPort : PortId) (bytes : ℕ) : RmtState :=
  { pxRmt with
    xPorts := pxRmt.xPorts.replaceF fun pxPort =>
      if pxPort.unPort = unPort then some (statsIncRx bytes pxPort) else none }

def xRmtPduIsAddressedToMe (pxRmt : RmtState) (xAddress : Address) : Bool :=
  pxRmt.xAddresses.any fun pxAddr => pxAddr = xAddress

variable (pf : Platform)

def xRmtProcessDtPdu (ip : Ipcp) (xPortId : PortId) (pxDu : Option NbPtr) :
    Exec (Bool × Ipcp) := do
  rsAssert pf (is_port_id_ok xPortId)
  rsAssert pf pxDu.isSome
  let pxDu ← deref pxDu
  let xDstAddrTmp := (← PCI_GET pf ip.heap pxDu .PCI_ADDR_DST).toUInt8
  if ¬ is_address_ok xDstAddrTmp then return (false, ip)
  let xPduTypeTmp := (← PCI_GET pf ip.heap pxDu .PCI_TYPE).toUInt8
  if xPduTypeTmp = PDU_TYPE_MGMT then return (false, ip)
  let xCepTmp := (← PCI_GET pf ip.heap pxDu .PCI_CONN_DST_ID).toUInt8
  if ¬ is_cep_id_ok xCepTmp then return (false, ip)
  xEfcpContainerReceive pf ip xCepTmp pxDu

/-! The RIB daemon takes the management PDUs. -/

variable (xRibIncoming : Ipcp → NbPtr → PortId → Exec (Bool × Ipcp))

def xNormalMgmtDuPost (ip : Ipcp) (xPortId : PortId) (pxDu : Option NbPtr) :
    Exec (Bool × Ipcp) := do
  rsAssert pf (is_port_id_ok xPortId)
  rsAssert pf pxDu.isSome
  xRibIncoming ip (← deref pxDu) xPortId

def xRmtProcessMgmtPdu (ip : Ipcp) (unPort : PortId) (pxDu : Option NbPtr) :
    Exec (Bool × Ipcp) := do
  let (posted, ip) ← xNormalMgmtDuPost pf xRibIncoming ip unPort pxDu
  if posted then
    let heap ← vNetBufFree pf ip.heap (← deref pxDu)
    return (true, { ip with heap := heap })
  else return (false, ip)

def xRmtReceive (ip : Ipcp) (pxDu : NbPtr) (unPortId : PortId) : Exec (Bool × Ipcp) := do
  let ip := { ip with dispatch := .nothing }
  rsAssert pf (is_port_id_ok unPortId)
  let uxBytes ← unNetBufTotalSize ip.heap pxDu
  if (prvRmtPortFind ip.xRmt unPortId).isNone then return (false, ip)
  let ip := { ip with xRmt := stats_inc ip.xRmt unPortId uxBytes }
  let (cut, heap) ← xDuDecap pf ip.heap sizeofPci pxDu
  let ip := { ip with heap := heap }
  if ¬ cut then return (false, ip)
  let xPduType := (← PCI_GET pf ip.heap pxDu .PCI_TYPE).toUInt8
  let xDstAddr := (← PCI_GET pf ip.heap pxDu .PCI_ADDR_DST).toUInt8
  let xQosId := (← PCI_GET pf ip.heap pxDu .PCI_CONN_QOS_ID).toUInt8
  if ¬ (pdu_type_is_ok xPduType && is_address_ok xDstAddr && is_qos_id_ok xQosId) then
    return (false, ip)
  let pxDuData ← pxNetBufNext pf ip.heap pxDu
  let heap ← vNetBufFree pf ip.heap pxDu
  let ip := { ip with heap := heap }
  if xRmtPduIsAddressedToMe ip.xRmt xDstAddr then
    if xPduType = PDU_TYPE_MGMT then
      xRmtProcessMgmtPdu pf xRibIncoming ip unPortId pxDuData
    else if xPduType ∈ [PDU_TYPE_CACK, PDU_TYPE_SACK, PDU_TYPE_NACK, PDU_TYPE_FC, PDU_TYPE_ACK,
        PDU_TYPE_ACK_AND_FC, PDU_TYPE_RENDEZVOUS, PDU_TYPE_DT] then
      xRmtProcessDtPdu pf ip unPortId pxDuData
    else return (false, ip)
  else if xDstAddr = 0 then xRmtProcessMgmtPdu pf xRibIncoming ip unPortId pxDuData
  else return (false, ip)

/-- A PDU with header `q` and payload `d` in the netbuf `pxDu`, which `xRmtReceive`
accepts from the port as a DT PDU for this IPC process. -/
structure AcceptedDt (ip : Ipcp) (pxDu : NbPtr) (unPortId : PortId) (q : Pci)
    (d slack : Bytes) : Prop where
  pdu : ∃ nb ptr, ReceivedPdu ip.heap pxDu nb ptr (q.toBytes ++ d) slack
  cut : d ≠ [] → ip.heap.mallocOk ip.heap.calls = true
  portOk : is_port_id_ok unPortId = true
  port : (prvRmtPortFind ip.xRmt unPortId).isSome = true
  type : q.xType = PDU_TYPE_DT
  addressOk : is_address_ok q.xDestination = true
  qosOk : is_qos_id_ok q.xQosId = true
  forMe : xRmtPduIsAddressedToMe ip.xRmt q.xDestination = true

/-- The PDU is dispatched and accepted or dropped as its header calls for. -/
def DecidedBy (ip : Ipcp) (q : Pci) (out : Exec (Bool × Ipcp)) : Prop :=
  ∃ ip', out = .ok ((dispatchOf ip q).2, ip') ∧ ip'.dispatch = (dispatchOf ip q).1

/-- The bytes behind the header, where a header is read again, lead to the instance,
the sequence number and the flags of the header `q` of a DT PDU. -/
def RereadsAs (ip : Ipcp) (q : Pci) (m : Bytes) : Prop :=
  let p := Pci.ofBytes m
  match selects ip q.xConnDestination with
  | none =>
    2 ≤ m.length ∧ (is_address_ok p.xDestination = false ∨
      7 ≤ m.length ∧ (p.xType = PDU_TYPE_MGMT ∨ selects ip p.xConnDestination = none))
  | some e =>
    7 ≤ m.length ∧ is_address_ok p.xDestination = true ∧ p.xType ≠ PDU_TYPE_MGMT ∧
      selects ip p.xConnDestination = some e ∧
      ((ip.efcps e).xState = .eEfcpDeallocated ∨
        pdu_type_is_control p.xType = false ∧ sizeofPci ≤ m.length ∧
          p.xSequenceNumber = q.xSequenceNumber ∧
          ((ip.efcps e).xDtpStateVector.xDrfRequired = true → p.xFlags = q.xFlags))

instance (ip : Ipcp) (q : Pci) (m : Bytes) : Decidable (RereadsAs ip q m) := by
  unfold RereadsAs
  split <;> infer_instance

variable {pf xRibIncoming}

/-! ### The netbuf behind the header -/

/-- What the bytes `m` at the start of a netbuf make of it, unless it is too short. -/
def rereadOutcome (ip : Ipcp) (m : Bytes) : Option (Dispatch × Bool) :=
  let p := Pci.ofBytes m
  if m.length < 2 then none
  else if is_address_ok p.xDestination = false then some (.nothing, false)
  else if m.length < 7 then none
  else if p.xType = PDU_TYPE_MGMT then some (.nothing, false)
  else
    match selects ip p.xConnDestination with
    | none => some (.nothing, false)
    | some e =>
      if (ip.efcps e).xState ≠ .eEfcpDeallocated ∧ pdu_type_is_control p.xType = false ∧
          m.length < sizeofPci then none
      else some (dispatchOf ip p)

/-- An execution ends as an outcome says. -/
def EndsAs (out : Exec (Bool × Ipcp)) : Option (Dispatch × Bool) → Prop
  | none => out = .error .outOfBounds
  | some (dispatch, ret) => ∃ ip', out = .ok (ret, ip') ∧ ip'.dispatch = dispatch

theorem xRmtProcessDtPdu_spec {ip : Ipcp} {du : NbPtr} {m : Bytes} {port : PortId}
    (hm : BytesAt ip.heap du m) (hf : ip.heap.Fresh) (hd : ip.dispatch = .nothing)
    (hport : is_port_id_ok port = true) :
    EndsAs (xRmtProcessDtPdu pf ip port (some du)) (rereadOutcome ip m) := by
  let p := Pci.ofBytes m
  unfold rereadOutcome xRmtProcessDtPdu
  simp only [hport, Option.isSome_some, rsAssert_true, Exec.ok_bind, deref_some]
  by_cases hlen₂ : m.length < 2
  · have hdst : PCI_GET pf ip.heap du .PCI_ADDR_DST = .error .outOfBounds :=
      hm.get_short pf hlen₂
    rw [if_pos hlen₂, hdst]
    rfl
  have hdst : PCI_GET pf ip.heap du .PCI_ADDR_DST = .ok (fieldOf m .PCI_ADDR_DST) :=
    hm.get_ok pf (Nat.le_of_not_lt hlen₂)
  rw [if_neg hlen₂, hdst, Exec.ok_bind]
  change EndsAs (if ¬ is_address_ok p.xDestination = true then _ else _) _
  by_cases haddr : is_address_ok p.xDestination = false
  · rw [if_pos (by simp [haddr]), if_pos haddr]
    exact ⟨ip, rfl, hd⟩
  rw [if_neg (by simpa using haddr), if_neg haddr]
  by_cases hlen₇ : m.length < 7
  · have htype : PCI_GET pf ip.heap du .PCI_TYPE = .error .outOfBounds := hm.get_short pf hlen₇
    rw [if_pos hlen₇, htype]
    rfl
  have hlen := Nat.le_of_not_lt hlen₇
  have htype : PCI_GET pf ip.heap du .PCI_TYPE = .ok (fieldOf m .PCI_TYPE) := hm.get_ok pf hlen
  have hcep : PCI_GET pf ip.heap du .PCI_CONN_DST_ID = .ok (fieldOf m .PCI_CONN_DST_ID) :=
    hm.get_ok pf (Nat.le_of_lt (Nat.lt_of_lt_of_le (by decide) hlen))
  rw [if_neg hlen₇, htype, hcep, Exec.ok_bind, Exec.ok_bind]
  change EndsAs (if p.xType = PDU_TYPE_MGMT then _ else
    if ¬ is_cep_id_ok p.xConnDestination = true then _ else
      xEfcpContainerReceive pf ip p.xConnDestination du) _
  by_cases hmgmt : p.xType = PDU_TYPE_MGMT
  · rw [if_pos hmgmt, if_pos hmgmt]
    exact ⟨ip, rfl, hd⟩
  rw [if_neg hmgmt, if_neg hmgmt]
  cases hsel : selects ip p.xConnDestination with
  | none =>
    by_cases hok : is_cep_id_ok p.xConnDestination = true
    · rw [if_neg (not_not.mpr hok)]
      exact xEfcpContainerReceive_none pf hd hsel du
    · rw [if_pos hok]
      exact ⟨ip, rfl, hd⟩
  | some e =>
    have hok : is_cep_id_ok p.xConnDestination = true := by
      unfold selects at hsel
      split_ifs at hsel with hok
      exact hok
    rw [if_neg (not_not.mpr hok)]
    dsimp only
    split_ifs with hshort
    · exact xEfcpContainerReceive_short pf hm hf hd hlen ⟨e, hsel, hshort.1, hshort.2.1⟩
        hshort.2.2
    · refine xEfcpContainerReceive_spec pf hm hf hd hlen ?_
      rintro ⟨e', hsel', hst, hc⟩
      have hee : e' = e := Option.some.inj (hsel'.symm.trans hsel)
      exact Nat.le_of_not_lt fun hlt => hshort ⟨hee ▸ hst, hc, hlt⟩

theorem dispatchOf_instance (ip : Ipcp) (q : Pci) :
    (dispatchOf ip q).1.instance? = selects ip q.xConnDestination := by
  unfold dispatchOf
  cases selects ip q.xConnDestination with
  | none => rfl
  | some e =>
    dsimp only
    split_ifs <;> rfl

theorem dispatchOf_live {ip : Ipcp} {q : Pci} {e : EfcpPtr}
    (hsel : selects ip q.xConnDestination = some e)
    (hst : (ip.efcps e).xState ≠ .eEfcpDeallocated)
    (hdata : pdu_type_is_control q.xType = false) :
    dispatchOf ip q =
      (⟨some e, some q.xSequenceNumber,
          if (ip.efcps e).xDtpStateVector.xDrfRequired then some q.xFlags else none⟩,
        (xDtpReceive (ip.efcps e).xDtpStateVector q.xSequenceNumber q.xFlags).ret) := by
  simp [dispatchOf, hsel, hst, hdata]

/-- When two headers with the same instance call for the same, the second being data. -/
theorem dispatchOf_eq_iff {ip : Ipcp} {p q : Pci} {e : EfcpPtr}
    (hp : selects ip p.xConnDestination = some e) (hq : selects ip q.xConnDestination = some e)
    (hdata : pdu_type_is_control q.xType = false) :
    dispatchOf ip p = dispatchOf ip q ↔
      (ip.efcps e).xState = .eEfcpDeallocated ∨
        pdu_type_is_control p.xType = false ∧ p.xSequenceNumber = q.xSequenceNumber ∧
          ((ip.efcps e).xDtpStateVector.xDrfRequired = true → p.xFlags = q.xFlags) := by
  by_cases hst : (ip.efcps e).xState = .eEfcpDeallocated
  · simp [dispatchOf, hp, hq, hst]
  rw [dispatchOf_live hq hst hdata]
  cases hc : pdu_type_is_control p.xType with
  | true => simp [dispatchOf, hp, hst, hc]
  | false =>
    rw [dispatchOf_live hp hst hc]
    cases hdrf : (ip.efcps e).xDtpStateVector.xDrfRequired with
    | true =>
      simp only [hst, false_or, if_true, Prod.mk.injEq, Dispatch.mk.injEq, Option.some.injEq,
        true_and, true_implies]
      constructor
      · exact And.left
      · intro hsame
        simp [hsame.1, hsame.2]
    | false =>
      simp only [hst, false_or, Prod.mk.injEq, Dispatch.mk.injEq, Option.some.injEq, true_and,
        Bool.false_eq_true, if_false, false_implies, and_true]
      constructor
      · exact And.left
      · intro hseq
        rw [hseq, xDtpReceive_flags hdrf q.xSequenceNumber p.xFlags q.xFlags]
        simp

/-- The outcome is the one of the header exactly when the bytes reread as it. -/
theorem rereadOutcome_eq_iff {ip : Ipcp} {q : Pci} {m : Bytes}
    (hdata : pdu_type_is_control q.xType = false) :
    rereadOutcome ip m = some (dispatchOf ip q) ↔ RereadsAs ip q m := by
  have hinst := dispatchOf_instance ip q
  unfold rereadOutcome RereadsAs
  generalize Pci.ofBytes m = p
  have hinst' := dispatchOf_instance ip p
  cases hsel : selects ip q.xConnDestination with
  | none =>
    have hdisp : dispatchOf ip q = (.nothing, false) := by simp [dispatchOf, hsel]
    cases hsel' : selects ip p.xConnDestination with
    | none => grind
    | some e =>
      have hne : dispatchOf ip p ≠ dispatchOf ip q := by
        intro h
        rw [h, hinst, hsel, hsel'] at hinst'
        cases hinst'
      grind
  | some e =>
    have hne : dispatchOf ip q ≠ (.nothing, false) := by
      intro h
      rw [h, hsel] at hinst
      cases hinst
    cases hsel' : selects ip p.xConnDestination with
    | none => grind
    | some e' =>
      by_cases hee : e' = e
      · subst hee
        have hiff := dispatchOf_eq_iff hsel' hsel hdata
        grind
      · have hdisp : dispatchOf ip p ≠ dispatchOf ip q := by
          intro h
          rw [h, hinst, hsel, hsel'] at hinst'
          exact hee (Option.some.inj hinst').symm
        grind

/-! ### The way to the netbuf behind the header -/

variable {h : Heap} {du : NbPtr} {nb : Netbuf} {ptr : Ptr} {bs d slack : Bytes}

theorem ReceivedPdu.totalSize (r : ReceivedPdu h du nb ptr bs slack) :
    ∃ n, unNetBufTotalSize h du = .ok n := by
  obtain ⟨pre, hpath, hpre⟩ := r.chain
  obtain ⟨fuel, hfuel⟩ := Nat.exists_eq_add_of_lt hpre
  have hchain : chainFrom h h.brk (some nb.pxFirst) = .ok (pre ++ [du]) := by
    rw [hfuel, Nat.add_assoc]
    refine chainFrom_freedPath hpath ?_
    simp [chainFrom, r.netbuf, r.last, pure, Except.pure]
  have hall : ∀ q ∈ pre ++ [du], ∃ n, h.netbufs q = some n := by
    intro q hq
    rcases List.mem_append.mp hq with hq | hq
    · obtain ⟨n, hn, -⟩ := hpath.freed q hq
      exact ⟨n, hn⟩
    · rw [List.mem_singleton.mp hq]
      exact ⟨nb, r.netbuf⟩
  obtain ⟨n, hn⟩ := sizeSum_ok hall
  exact ⟨n, by simp [unNetBufTotalSize, r.netbuf, hchain, hn]⟩

/-- The header of a received PDU reads back, cut or not. -/
theorem ReceivedPdu.header {q : Pci} (r : ReceivedPdu h du nb ptr (q.toBytes ++ d) slack) :
    BytesAt h du (q.toBytes ++ d ++ slack) := by
  obtain ⟨front, hmem, hoff⟩ := r.bytes
  exact ⟨nb, ptr, front, r.netbuf, r.live, r.buf, hmem, hoff⟩

theorem ReceivedPdu.cutHeader {q : Pci} (r : ReceivedPdu h du nb ptr (q.toBytes ++ d) slack) :
    BytesAt (cutHeap h du nb ptr) du (q.toBytes ++ d ++ slack) := by
  obtain ⟨front, hmem, hoff⟩ := r.bytes
  exact ⟨headNetbuf nb h.brk, ptr, front, cutHeap_du h du nb ptr, r.live, r.buf, hmem, hoff⟩

/-- Behind the header the payload is all there is. -/
theorem ReceivedPdu.payload {q : Pci} (r : ReceivedPdu h du nb ptr (q.toBytes ++ d) slack) :
    BytesAt (bareHeap h du nb ptr) h.brk (d ++ slack) := by
  obtain ⟨front, hmem, hoff⟩ := r.bytes
  refine ⟨payloadNetbuf nb ptr, ptr.add sizeofPci, front ++ q.toBytes, r.bareHeap_payload, r.live,
    rfl, ?_, ?_⟩
  · rw [bareHeap_mem]
    simpa using hmem
  · simp [hoff]

theorem ReceivedPdu.bareHeap_fresh (r : ReceivedPdu h du nb ptr bs slack) :
    (bareHeap h du nb ptr).Fresh := by
  intro a ha
  have hbrk : h.brk + 1 ≤ a := ha
  have hlt : du < a := Nat.lt_of_lt_of_le (r.fresh.lt_of_netbuf r.netbuf) (Nat.le_of_lt hbrk)
  have hdu : a ≠ du := Nat.ne_of_gt hlt
  have hnew : a ≠ h.brk := by omega
  obtain ⟨hnb, hmem⟩ := r.fresh a (by omega)
  exact ⟨by simp [bareHeap, cutHeap, Heap.setNetbuf, hdu, hnew, hnb, Heap.called], hmem⟩

/-- The instances are not touched on the way to the netbuf behind the header. -/
theorem rereadOutcome_congr {ip ip' : Ipcp} (hmap : ip'.xEfcpImapTable = ip.xEfcpImapTable)
    (hefcps : ip'.efcps = ip.efcps) (m : Bytes) : rereadOutcome ip' m = rereadOutcome ip m := by
  simp [rereadOutcome, dispatchOf, selects, hmap, hefcps]

theorem AcceptedDt.data {ip : Ipcp} {port : PortId} {q : Pci}
    (acc : AcceptedDt ip du port q d slack) : pdu_type_is_control q.xType = false := by
  rw [acc.type]
  rfl

/-- A field of a whole header reads back. -/
theorem header_get {q : Pci} (hm : BytesAt h du (q.toBytes ++ d ++ slack))
    (f : PciField) : PCI_GET pf h du f = .ok (q.get f) := by
  rw [hm.get_ok pf, List.append_assoc, fieldOf_toBytes]
  have := f.offset_add_size_le
  simp only [List.length_append, Pci.toBytes_length]
  omega

variable (pf xRibIncoming)

/-- The code behind the checks of an accepted PDU, which left the heap `h'`. -/
theorem xRmtReceive_checked {ip : Ipcp} {port : PortId} {q : Pci} {h' : Heap}
    (acc : AcceptedDt ip du port q d slack)
    (hcut : xDuDecap pf ip.heap sizeofPci du = .ok (true, h'))
    (hget : ∀ f, PCI_GET pf h' du f = .ok (q.get f)) :
    ∃ n, xRmtReceive pf xRibIncoming ip du port = (do
      let pxDuData ← pxNetBufNext pf h' du
      let heap ← vNetBufFree pf h' du
      xRmtProcessDtPdu pf { ip with
        heap := heap
        xRmt := stats_inc ip.xRmt port n
        dispatch := .nothing } port pxDuData) := by
  obtain ⟨nb, ptr, r⟩ := acc.pdu
  obtain ⟨n, hn⟩ := r.totalSize
  have htype : (q.get .PCI_TYPE).toUInt8 = PDU_TYPE_DT := by simp [Pci.get, acc.type]
  have hdst : (q.get .PCI_ADDR_DST).toUInt8 = q.xDestination := by simp [Pci.get]
  have hqos : (q.get .PCI_CONN_QOS_ID).toUInt8 = q.xQosId := by simp [Pci.get]
  have hme : xRmtPduIsAddressedToMe (stats_inc ip.xRmt port n) q.xDestination = true := acc.forMe
  have hport : (prvRmtPortFind ip.xRmt port).isNone = false := by
    rw [Option.isNone_eq_false_iff]
    exact acc.port
  have hdt : PDU_TYPE_DT ≠ PDU_TYPE_MGMT := by decide
  refine ⟨n, ?_⟩
  simp [xRmtReceive, acc.portOk, hn, hport, hcut, hget, htype, hdst, hqos, acc.addressOk,
    acc.qosOk, hme, hdt, pdu_type_is_ok]

/-- An accepted PDU with a payload ends as the bytes of the payload say. -/
theorem xRmtReceive_payload {ip : Ipcp} {port : PortId} {q : Pci}
    (acc : AcceptedDt ip du port q d slack) (hd : d ≠ []) :
    EndsAs (xRmtReceive pf xRibIncoming ip du port) (rereadOutcome ip (d ++ slack)) := by
  obtain ⟨nb, ptr, r⟩ := acc.pdu
  have hlen : sizeofPci < (q.toBytes ++ d).length := by
    have := List.length_pos_iff.mpr hd
    rw [List.length_append, Pci.toBytes_length]
    omega
  have hcut : xDuDecap pf ip.heap sizeofPci du = .ok (true, cutHeap ip.heap du nb ptr) :=
    r.decap (acc.cut hd) hlen
  obtain ⟨n, hcode⟩ := xRmtReceive_checked pf xRibIncoming acc hcut
    fun f => header_get r.cutHeader f
  rw [r.next, Exec.ok_bind, r.freeHeader, Exec.ok_bind] at hcode
  have hsame : ∀ ip' : Ipcp, ip'.xEfcpImapTable = ip.xEfcpImapTable → ip'.efcps = ip.efcps →
      rereadOutcome ip' (d ++ slack) = rereadOutcome ip (d ++ slack) :=
    fun ip' hmap hefcps => rereadOutcome_congr hmap hefcps _
  rw [hcode, ← hsame _ rfl rfl]
  exact xRmtProcessDtPdu_spec r.payload r.bareHeap_fresh rfl acc.portOk

/-- Behind a PDU without a payload there is no netbuf. -/
theorem xRmtReceive_headerOnly {ip : Ipcp} {port : PortId} {q : Pci}
    (acc : AcceptedDt ip du port q [] slack) :
    ∃ t, xRmtReceive pf xRibIncoming ip du port = .error t := by
  obtain ⟨nb, ptr, r⟩ := acc.pdu
  have hcut : xDuDecap pf ip.heap sizeofPci du = .ok (true, ip.heap) :=
    r.decap_headerOnly (by simp)
  obtain ⟨n, hcode⟩ := xRmtReceive_checked pf xRibIncoming acc hcut
    fun f => header_get r.header f
  have hnext : pxNetBufNext pf ip.heap du = .ok none := by
    simp [pxNetBufNext, r.netbuf, r.live, r.last, firstLive]
  rw [hcode, hnext, Exec.ok_bind]
  cases vNetBufFree pf ip.heap du with
  | error t => exact ⟨t, rfl⟩
  | ok heap =>
    by_cases hdebug : pf.ndebug = true
    · exact ⟨.nullPointer, by simp [xRmtProcessDtPdu, rsAssert, hdebug]⟩
    · exact ⟨.assertion, by simp [xRmtProcessDtPdu, rsAssert, hdebug, acc.portOk]⟩

/-- The outcome of a run of the code is the one of the header. -/
theorem EndsAs.decidedBy_iff {ip : Ipcp} {q : Pci} {out : Exec (Bool × Ipcp)}
    {outcome : Option (Dispatch × Bool)} (hout : EndsAs out outcome) :
    DecidedBy ip q out ↔ outcome = some (dispatchOf ip q) := by
  cases outcome with
  | none =>
    cases hout
    simp [DecidedBy]
  | some o =>
    obtain ⟨dispatch, ret⟩ := o
    obtain ⟨ip', rfl, rfl⟩ := hout
    simp only [DecidedBy, Except.ok.injEq, Prod.mk.injEq, Option.some.injEq]
    constructor
    · rintro ⟨ip'', ⟨hret, rfl⟩, hdisp⟩
      exact Prod.ext hdisp hret
    · intro h
      exact ⟨ip', ⟨congrArg Prod.snd h, rfl⟩, congrArg Prod.fst h⟩

/-- A PDU is dispatched by its header exactly when it has a payload and the bytes of the
payload, with what lies behind them in the buffer, lead to the same. -/
theorem xRmtReceive_decided_iff {ip : Ipcp} {port : PortId} {q : Pci}
    (acc : AcceptedDt ip du port q d slack) :
    DecidedBy ip q (xRmtReceive pf xRibIncoming ip du port) ↔
      d ≠ [] ∧ RereadsAs ip q (d ++ slack) := by
  by_cases hd : d = []
  · subst hd
    obtain ⟨t, ht⟩ := xRmtReceive_headerOnly pf xRibIncoming acc
    simp [DecidedBy, ht]
  · rw [(xRmtReceive_payload pf xRibIncoming acc hd).decidedBy_iff, rereadOutcome_eq_iff acc.data]
    simp [hd]

/-! ### A PDU for a connection in the middle of a data run -/

/-- The PDU `bs` has just arrived. -/
def receivingIpcp (bs : Bytes) : Ipcp :=
  exampleIpcp { vDtpStateVectorInit with xDrfRequired := false, xRcvLeftWindowEdge := 4 }
    .NB_RINA_PCI bs

def exampleHeader : Pci where
  ucVersion := 1
  xDestination := 1
  xSource := 2
  xQosId := 1
  xConnDestination := 3
  xConnSource := 4
  xType := PDU_TYPE_DT
  xFlags := 0
  xPduLen := 28
  xSequenceNumber := 5

theorem receivingIpcp_accepted (d : Bytes) :
    AcceptedDt (receivingIpcp (exampleHeader.toBytes ++ d)) 1 1 exampleHeader d [] where
  pdu :=
    ⟨exampleNetbuf .NB_RINA_PCI (exampleHeader.toBytes ++ d).length, ⟨0, 0⟩,
      { netbuf := by simp [receivingIpcp, exampleIpcp, exampleHeap]
        live := rfl
        eType := rfl
        size := rfl
        last := rfl
        buf := rfl
        bytes := ⟨[], by simp [receivingIpcp, exampleIpcp, exampleHeap], rfl⟩
        chain := ⟨[], rfl, by simp [receivingIpcp, exampleIpcp, exampleHeap]⟩
        fresh := exampleHeap_fresh _ _ }⟩
  cut := fun _ => rfl
  portOk := by decide
  port := rfl
  type := rfl
  addressOk := by decide
  qosOk := by decide
  forMe := rfl

/-- A payload which is a copy of the header. -/
theorem xRmtReceive_decided_copy :
    DecidedBy (receivingIpcp (exampleHeader.toBytes ++ exampleHeader.toBytes)) exampleHeader
      (xRmtReceive ⟨false, false⟩ (fun ip _ _ => .ok (true, ip))
        (receivingIpcp (exampleHeader.toBytes ++ exampleHeader.toBytes)) 1 1) :=
  (xRmtReceive_decided_iff _ _ (receivingIpcp_accepted _)).mpr ⟨by decide, by decide⟩

/-- The text `Temperature:22`. -/
def temperature : Bytes :=
  [0x54, 0x65, 0x6d, 0x70, 0x65, 0x72, 0x61, 0x74, 0x75, 0x72, 0x65, 0x3a, 0x32, 0x32]

/-- A text behind the same header is dropped: its fifth byte is taken for the CEP-id. -/
theorem xRmtReceive_text_dropped :
    AcceptedDt (receivingIpcp (exampleHeader.toBytes ++ temperature)) 1 1 exampleHeader
        temperature [] ∧
      ¬ DecidedBy (receivingIpcp (exampleHeader.toBytes ++ temperature)) exampleHeader
        (xRmtReceive ⟨false, false⟩ (fun ip _ _ => .ok (true, ip))
          (receivingIpcp (exampleHeader.toBytes ++ temperature)) 1 1) := by
  refine ⟨receivingIpcp_accepted _, ?_⟩
  rw [(xRmtReceive_payload _ _ (receivingIpcp_accepted _) (by decide)).decidedBy_iff]
  decide

end RinaSense.Rmt
