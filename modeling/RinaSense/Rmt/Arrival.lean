import RinaSense.Common.Programs
import RinaSense.Rmt.Delivery

/-!
# The arrival of a PDU

What `xRmtReceive` does with any bytes which a netbuf of the layer below holds: a PDU which does
not get past the checks is left where it is, the header of any other is taken off and freed, and
the netbuf behind it, if there is one, goes to the RIB daemon, to the EFCP container or nowhere.
-/

namespace RinaSense.Rmt

open Common Efcp RinaSense.Flow Library.Memory

variable (pf : Platform)

/-- The RIB daemon of the normal IPC process, which is looked up inside an assertion, reads the
bytes of the netbuf; `fnRibInput` stands for what it makes of them, from the decoder on. -/
def xRibIncoming (fnRibInput : Ipcp → Bytes → PortId → Exec (Bool × Ipcp)) (ip : Ipcp)
    (pxDu : NbPtr) (unPort : PortId) : Exec (Bool × Ipcp) := do
  let _ ← initialised (if pf.ndebug then none else some ())
  let eType ← eNetBufType pf ip.heap pxDu
  rsAssert pf (eType == .NB_RINA_DATA)
  let pxBuf ← pvNetBufPtr pf ip.heap pxDu
  let unSz ← unNetBufSize pf ip.heap pxDu
  let bs ← ip.heap.read pxBuf 0 unSz
  fnRibInput ip bs unPort

/-- The last part of `xRmtReceive`, behind the header `q`. -/
def dispatchPdu (fnRibInput : Ipcp → Bytes → PortId → Exec (Bool × Ipcp)) (ip : Ipcp) (q : Pci)
    (unPortId : PortId) (pxDuData : Option NbPtr) : Exec (Bool × Ipcp) :=
  if xRmtPduIsAddressedToMe ip.xRmt q.xDestination then
    if q.xType = PDU_TYPE_MGMT then
      xRmtProcessMgmtPdu pf (xRibIncoming pf fnRibInput) ip unPortId pxDuData
    else if q.xType ∈ [PDU_TYPE_CACK, PDU_TYPE_SACK, PDU_TYPE_NACK, PDU_TYPE_FC, PDU_TYPE_ACK,
        PDU_TYPE_ACK_AND_FC, PDU_TYPE_RENDEZVOUS, PDU_TYPE_DT] then
      xRmtProcessDtPdu pf ip unPortId pxDuData
    else .ok (false, ip)
  else if q.xDestination = 0 then
    xRmtProcessMgmtPdu pf (xRibIncoming pf fnRibInput) ip unPortId pxDuData
  else .ok (false, ip)

/-- The port has counted the bytes of a PDU. -/
def counted (ip : Ipcp) (unPortId : PortId) (uxBytes : ℕ) (heap : Heap) : Ipcp :=
  { ip with
    heap := heap
    xRmt := stats_inc ip.xRmt unPortId uxBytes
    dispatch := .nothing }

/-- The header is taken off and freed. -/
def unwrapPdu (ip : Ipcp) (pxDu : NbPtr) (unPortId : PortId) : Exec (Ipcp × Option NbPtr) := do
  let uxBytes ← unNetBufTotalSize ip.heap pxDu
  let (_, heap) ← xDuDecap pf ip.heap sizeofPci pxDu
  let pxDuData ← pxNetBufNext pf heap pxDu
  let heap ← vNetBufFree pf heap pxDu
  return (counted ip unPortId uxBytes heap, pxDuData)

/-- The RIB daemon is to get the PDU: it is a management PDU, or for nobody. -/
def toMgmt (pxRmt : RmtState) (q : Pci) : Bool :=
  if xRmtPduIsAddressedToMe pxRmt q.xDestination then q.xType = PDU_TYPE_MGMT
  else q.xDestination = 0

/-- The EFCP container is to get the PDU. -/
def toDt (pxRmt : RmtState) (q : Pci) : Bool :=
  xRmtPduIsAddressedToMe pxRmt q.xDestination && q.xType ∈ [PDU_TYPE_CACK, PDU_TYPE_SACK,
    PDU_TYPE_NACK, PDU_TYPE_FC, PDU_TYPE_ACK, PDU_TYPE_ACK_AND_FC, PDU_TYPE_RENDEZVOUS,
    PDU_TYPE_DT]

/-- The checks of `xRmtReceive`: the port is known, the header can be cut off, and its type,
destination and QoS-id are valid. -/
structure PassesRmt (ip : Ipcp) (unPortId : PortId) (bs : Bytes) : Prop where
  port : (prvRmtPortFind ip.xRmt unPortId).isSome = true
  long : sizeofPci ≤ bs.length
  cut : bs.length ≠ sizeofPci → ip.heap.mallocOk ip.heap.calls = true
  type : pdu_type_is_ok (Pci.ofBytes bs).xType = true
  address : is_address_ok (Pci.ofBytes bs).xDestination = true
  qos : is_qos_id_ok (Pci.ofBytes bs).xQosId = true

/-- A PDU which arrives from the port: the netbuf `du` with the bytes `bs`, at the end of a
chain whose other netbufs were freed. It is in no list of waiting packets. -/
structure Arrived (ip : Ipcp) (d : Ledger) (du c : NbPtr) (port : PortId)
    (bs slack : Bytes) : Prop where
  reached : Reached pf ⟨ip.heap, d⟩
  live : d.live du = true
  chain : d.chain du = some c
  alone : ∀ q, d.chain q = some c → q ≠ du → d.live q = false
  pdu : ∃ nb ptr, ReceivedPdu ip.heap du nb ptr bs slack
  portOk : is_port_id_ok port = true
  waiting : ∀ p, ∀ q ∈ ip.xFA.waiting p, ∃ c', d.chain q = some c' ∧ c' ≠ c

variable {pf} {h : Heap} {du : NbPtr} {nb : Netbuf} {ptr : Ptr} {bs slack : Bytes}

/-! ### The cut -/

section Cut

variable (pf)

theorem ReceivedPdu.decap_short (r : ReceivedPdu h du nb ptr bs slack)
    (hlen : bs.length < sizeofPci) : xDuDecap pf h sizeofPci du = .ok (false, h) := by
  obtain ⟨pre, hpath, hpre⟩ := r.chain
  obtain ⟨fuel, hfuel⟩ := Nat.exists_eq_add_of_lt hpre
  have hloop : splitLoop .NB_RINA_DATA h h.brk (some nb.pxFirst) sizeofPci = .ok (false, h) := by
    rw [hfuel, Nat.add_assoc, splitLoop_freedPath hpath]
    simp [splitLoop, r.netbuf, r.live, r.size, hlen, r.last]
  simp [xDuDecap, eNetBufType, xNetBufSplit, r.netbuf, r.live, r.eType, hloop, pure, Except.pure]

theorem ReceivedPdu.decap_refused (r : ReceivedPdu h du nb ptr bs slack)
    (hlen : sizeofPci < bs.length) (hno : ¬ h.mallocOk h.calls = true) :
    xDuDecap pf h sizeofPci du = .ok (false, h.called) := by
  obtain ⟨pre, hpath, hpre⟩ := r.chain
  obtain ⟨fuel, hfuel⟩ := Nat.exists_eq_add_of_lt hpre
  have hlt : ¬ bs.length < sizeofPci := by omega
  have hne : ¬ bs.length = sizeofPci := by omega
  have hloop : splitLoop .NB_RINA_DATA h h.brk (some nb.pxFirst) sizeofPci =
      .ok (false, h.called) := by
    rw [hfuel, Nat.add_assoc, splitLoop_freedPath hpath]
    simp [splitLoop, r.netbuf, r.live, r.size, hlt, hne, pvRsMemAllocNetbuf, hno, pure,
      Except.pure]
  simp [xDuDecap, eNetBufType, xNetBufSplit, r.netbuf, r.live, r.eType, hloop, pure, Except.pure]

end Cut

theorem ReceivedPdu.whole (r : ReceivedPdu h du nb ptr bs slack) : BytesAt h du (bs ++ slack) := by
  obtain ⟨front, hmem, hoff⟩ := r.bytes
  exact ⟨nb, ptr, front, r.netbuf, r.live, r.buf, hmem, hoff⟩

theorem ReceivedPdu.cutWhole (r : ReceivedPdu h du nb ptr bs slack) :
    BytesAt (cutHeap h du nb ptr) du (bs ++ slack) := by
  obtain ⟨front, hmem, hoff⟩ := r.bytes
  exact ⟨headNetbuf nb h.brk, ptr, front, cutHeap_du h du nb ptr, r.live, r.buf, hmem, hoff⟩

/-- Behind the header are the other bytes of the PDU. -/
theorem ReceivedPdu.rest (r : ReceivedPdu h du nb ptr bs slack) (hlen : sizeofPci ≤ bs.length) :
    BytesAt (bareHeap h du nb ptr) h.brk (bs.drop sizeofPci ++ slack) := by
  obtain ⟨front, hmem, hoff⟩ := r.bytes
  refine ⟨payloadNetbuf nb ptr, ptr.add sizeofPci, front ++ bs.take sizeofPci,
    r.bareHeap_payload, r.live, rfl, ?_, ?_⟩
  · rw [bareHeap_mem, List.append_assoc, ← List.append_assoc (bs.take sizeofPci),
      List.take_append_drop]
    exact hmem
  · rw [List.length_append, List.length_take, Nat.min_eq_left hlen, hoff]
    rfl

theorem fieldOf_append (hlen : sizeofPci ≤ bs.length) (slack : Bytes) (f : PciField) :
    fieldOf (bs ++ slack) f = fieldOf bs f := by
  have hf := f.offset_add_size_le
  have hoff : f.offset ≤ bs.length := by omega
  have hsize : f.size ≤ (bs.drop f.offset).length := by
    rw [List.length_drop]
    omega
  rw [fieldOf, List.drop_append_of_le_length hoff, List.take_append_of_le_length hsize, fieldOf]

/-- A field of the header reads back. -/
theorem BytesAt.get_header (hm : BytesAt h du (bs ++ slack)) (hlen : sizeofPci ≤ bs.length)
    (f : PciField) : PCI_GET pf h du f = .ok (fieldOf bs f) := by
  rw [hm.get_ok pf, fieldOf_append hlen]
  have := f.offset_add_size_le
  rw [List.length_append]
  omega

variable (pf) in
theorem ReceivedPdu.decap_granted (r : ReceivedPdu h du nb ptr bs slack)
    (hlen : sizeofPci ≤ bs.length)
    (hm : bs.length ≠ sizeofPci → h.mallocOk h.calls = true) :
    ∃ h', xDuDecap pf h sizeofPci du = .ok (true, h') ∧ BytesAt h' du (bs ++ slack) ∧
      ∃ nb', h'.netbufs du = some nb' ∧ nb'.xFreed = false ∧ nb'.pxFirst = nb.pxFirst := by
  by_cases heq : bs.length = sizeofPci
  · exact ⟨h, r.decap_headerOnly heq, r.whole, nb, r.netbuf, r.live, rfl⟩
  · exact ⟨cutHeap h du nb ptr, r.decap (hm heq) (Nat.lt_of_le_of_ne hlen (Ne.symm heq)),
      r.cutWhole, headNetbuf nb h.brk, cutHeap_du h du nb ptr, r.live, rfl⟩

/-! ### The checks -/

variable {fnRibInput : Ipcp → Bytes → PortId → Exec (Bool × Ipcp)} {ip ip' : Ipcp}
  {port : PortId}

/-- Of a PDU which gets past the checks only the netbuf behind the header is passed on. -/
theorem xRmtReceive_passed (r : ReceivedPdu ip.heap du nb ptr bs slack)
    (hport : is_port_id_ok port = true) (hp : PassesRmt ip port bs) :
    xRmtReceive pf (xRibIncoming pf fnRibInput) ip du port = (do
      let (ip, pxDuData) ← unwrapPdu pf ip du port
      dispatchPdu pf fnRibInput ip (Pci.ofBytes bs) port pxDuData) := by
  obtain ⟨n, hn⟩ := r.totalSize
  obtain ⟨h', hcut, hbytes, -⟩ := r.decap_granted pf hp.long hp.cut
  have hget : ∀ f, PCI_GET pf h' du f = .ok (fieldOf bs f) := fun f => hbytes.get_header hp.long f
  have hsome : (prvRmtPortFind ip.xRmt port).isNone = false := by
    rw [Option.isNone_eq_false_iff]
    exact hp.port
  have hok : (pdu_type_is_ok (fieldOf bs .PCI_TYPE).toUInt8 &&
      is_address_ok (fieldOf bs .PCI_ADDR_DST).toUInt8 &&
      is_qos_id_ok (fieldOf bs .PCI_CONN_QOS_ID).toUInt8) = true := by
    rw [Bool.and_eq_true, Bool.and_eq_true]
    exact ⟨⟨hp.type, hp.address⟩, hp.qos⟩
  simp only [xRmtReceive, unwrapPdu, hport, rsAssert_true, Exec.ok_bind, hn, hsome, hcut, hget,
    hok, Bool.false_eq_true, if_false, not_true_eq_false, bind_assoc]
  rfl

/-- A PDU which does not get past them is left where it is. -/
theorem xRmtReceive_refused (r : ReceivedPdu ip.heap du nb ptr bs slack)
    (hport : is_port_id_ok port = true) (hp : ¬ PassesRmt ip port bs) :
    ∃ ip', xRmtReceive pf (xRibIncoming pf fnRibInput) ip du port = .ok (false, ip') ∧
      ip'.xFA = ip.xFA ∧
      ∃ nb', ip'.heap.netbufs du = some nb' ∧ nb'.xFreed = false ∧ nb'.pxFirst = nb.pxFirst := by
  obtain ⟨n, hn⟩ := r.totalSize
  by_cases hsome : (prvRmtPortFind ip.xRmt port).isSome = true
  · have hisNone : (prvRmtPortFind ip.xRmt port).isNone = false := by
      rw [Option.isNone_eq_false_iff]
      exact hsome
    by_cases hlen : sizeofPci ≤ bs.length
    · by_cases hm : bs.length ≠ sizeofPci → ip.heap.mallocOk ip.heap.calls = true
      · obtain ⟨h', hcut, hbytes, nb', hnb', hlive, hfirst⟩ := r.decap_granted pf hlen hm
        have hget : ∀ f, PCI_GET pf h' du f = .ok (fieldOf bs f) := fun f =>
          hbytes.get_header hlen f
        have hbad : (pdu_type_is_ok (fieldOf bs .PCI_TYPE).toUInt8 &&
            is_address_ok (fieldOf bs .PCI_ADDR_DST).toUInt8 &&
            is_qos_id_ok (fieldOf bs .PCI_CONN_QOS_ID).toUInt8) = false := by
          refine eq_false_of_ne_true fun hok => hp ?_
          rw [Bool.and_eq_true, Bool.and_eq_true] at hok
          exact ⟨hsome, hlen, hm, hok.1.1, hok.1.2, hok.2⟩
        refine ⟨counted ip port n h', ?_, rfl, nb', hnb', hlive, hfirst⟩
        simp only [xRmtReceive, hport, rsAssert_true, Exec.ok_bind, hn, hisNone, hcut, hget, hbad,
          Bool.false_eq_true, if_false, not_true_eq_false, not_false_eq_true, if_true]
        rfl
      · obtain ⟨hne, hno⟩ := Classical.not_imp.mp hm
        have hcut := r.decap_refused pf (Nat.lt_of_le_of_ne hlen (Ne.symm hne)) hno
        refine ⟨counted ip port n ip.heap.called, ?_, rfl, nb, r.netbuf, r.live, rfl⟩
        simp only [xRmtReceive, hport, rsAssert_true, Exec.ok_bind, hn, hisNone, hcut,
          Bool.false_eq_true, if_false, not_false_eq_true, if_true]
        rfl
    · have hcut := r.decap_short pf (Nat.lt_of_not_le hlen)
      refine ⟨counted ip port n ip.heap, ?_, rfl, nb, r.netbuf, r.live, rfl⟩
      simp only [xRmtReceive, hport, rsAssert_true, Exec.ok_bind, hn, hisNone, hcut,
        Bool.false_eq_true, if_false, not_false_eq_true, if_true]
      rfl
  · have hisNone : (prvRmtPortFind ip.xRmt port).isNone = true := by
      simpa using hsome
    refine ⟨{ ip with dispatch := .nothing }, ?_, rfl, nb, r.netbuf, r.live, rfl⟩
    simp only [xRmtReceive, hport, rsAssert_true, Exec.ok_bind, hn, hisNone, if_true]
    rfl

/-! ### Taking off the header -/

variable {d : Ledger} {c : NbPtr}

theorem Arrived.inv (a : Arrived pf ip d du c port bs slack) : NbState.Inv pf ⟨ip.heap, d⟩ :=
  a.reached.inv

theorem Arrived.first (a : Arrived pf ip d du c port bs slack)
    (r : ReceivedPdu ip.heap du nb ptr bs slack) : nb.pxFirst = c :=
  a.inv.first du nb c r.netbuf a.live a.chain

/-- Behind a PDU which is only a header there is nothing. -/
theorem Arrived.unwrap_headerOnly (a : Arrived pf ip d du c port bs slack)
    (hlen : bs.length = sizeofPci) :
    ∃ n h', unwrapPdu pf ip du port = .ok (counted ip port n h', none) ∧
      Ran pf ⟨ip.heap, d⟩ ⟨h', d.leave du⟩ := by
  obtain ⟨nb, ptr, r⟩ := a.pdu
  obtain ⟨n, hn⟩ := r.totalSize
  obtain ⟨h', hfree, hran⟩ := Ran.free a.inv a.live
  have hnext : pxNetBufNext pf ip.heap du = .ok none := by
    simp [pxNetBufNext, r.netbuf, r.live, r.last, firstLive]
  refine ⟨n, h', ?_, hran⟩
  have hfree : vNetBufFree pf ip.heap du = .ok h' := hfree
  simp only [unwrapPdu, hn, r.decap_headerOnly hlen, hnext, hfree, Exec.ok_bind]
  rfl

/-- Behind any other there is the payload, in a netbuf of its own. -/
theorem Arrived.unwrap_payload (a : Arrived pf ip d du c port bs slack)
    (r : ReceivedPdu ip.heap du nb ptr bs slack) (hlen : sizeofPci < bs.length)
    (hm : ip.heap.mallocOk ip.heap.calls = true) :
    ∃ n, unwrapPdu pf ip du port =
        .ok (counted ip port n (bareHeap ip.heap du nb ptr), some ip.heap.brk) ∧
      Ran pf ⟨ip.heap, d⟩
        ⟨bareHeap ip.heap du nb ptr, (d.cut du ip.heap.brk).leave du⟩ := by
  obtain ⟨n, hn⟩ := r.totalSize
  have hcut : xDuDecap pf ip.heap sizeofPci du = .ok (true, cutHeap ip.heap du nb ptr) :=
    r.decap hm hlen
  refine ⟨n, ?_, ?_⟩
  · simp only [unwrapPdu, hn, hcut, r.next, r.freeHeader, Exec.ok_bind]
    rfl
  · have hsplit : xNetBufSplit ip.heap du .NB_RINA_DATA sizeofPci =
        .ok (true, cutHeap ip.heap du nb ptr) := by
      obtain ⟨_, -, hcut⟩ := Exec.bind_eq_ok.mp hcut
      obtain ⟨_, -, hcut⟩ := Exec.bind_eq_ok.mp hcut
      exact hcut
    have hran : Ran pf ⟨ip.heap, d⟩ ⟨cutHeap ip.heap du nb ptr, d.cut du ip.heap.brk⟩ :=
      Ran.split a.live hsplit (by rw [r.cutHeap_payload]; rfl)
    have hlive : (d.cut du ip.heap.brk).live du = true := by
      change Function.update d.live ip.heap.brk true du = true
      rw [Function.update_of_ne r.du_ne_brk]
      exact a.live
    obtain ⟨h', hfree, hran'⟩ := Ran.free (hran.inv a.inv) hlive
    obtain rfl : bareHeap ip.heap du nb ptr = h' :=
      Except.ok.inj (r.freeHeader.symm.trans hfree)
    exact hran.trans hran'

/-! ### The stages above -/

section Dispatch

variable {q : Pci} {p : NbPtr} {data? : Option NbPtr}

theorem toMgmt_not_toDt {pxRmt : RmtState} (hq : toMgmt pxRmt q = true) :
    toDt pxRmt q = false := by
  rw [toMgmt] at hq
  rw [toDt]
  cases hme : xRmtPduIsAddressedToMe pxRmt q.xDestination with
  | false => rfl
  | true =>
    rw [hme, if_pos rfl, decide_eq_true_eq] at hq
    rw [hq]
    rfl

theorem dispatchPdu_mgmt (hq : toMgmt ip.xRmt q = true) :
    dispatchPdu pf fnRibInput ip q port data? =
      xRmtProcessMgmtPdu pf (xRibIncoming pf fnRibInput) ip port data? := by
  rw [toMgmt] at hq
  rw [dispatchPdu]
  split
  · rename_i hme
    rw [if_pos hme, decide_eq_true_eq] at hq
    exact if_pos hq
  · rename_i hme
    rw [if_neg hme, decide_eq_true_eq] at hq
    exact if_pos hq

theorem dispatchPdu_dt (hq : toDt ip.xRmt q = true) :
    dispatchPdu pf fnRibInput ip q port data? = xRmtProcessDtPdu pf ip port data? := by
  rw [toDt, Bool.and_eq_true, decide_eq_true_eq] at hq
  obtain ⟨hme, htype⟩ := hq
  have hdata : q.xType ≠ PDU_TYPE_MGMT := by
    intro hc
    rw [hc] at htype
    exact absurd htype (by decide)
  rw [dispatchPdu, if_pos hme, if_neg hdata, if_pos htype]

theorem dispatchPdu_nowhere (hmgmt : toMgmt ip.xRmt q = false) (hdt : toDt ip.xRmt q = false) :
    dispatchPdu pf fnRibInput ip q port data? = .ok (false, ip) := by
  rw [toMgmt] at hmgmt
  rw [toDt] at hdt
  rw [dispatchPdu]
  split
  · rename_i hme
    rw [if_pos hme, decide_eq_false_iff_not] at hmgmt
    rw [hme, Bool.true_and, decide_eq_false_iff_not] at hdt
    rw [if_neg hmgmt, if_neg hdt]
  · rename_i hme
    rw [if_neg hme, decide_eq_false_iff_not] at hmgmt
    exact if_neg hmgmt

/-- Neither stage takes a PDU without a payload. -/
theorem xRmtProcessMgmtPdu_none (hport : is_port_id_ok port = true)
    (xRibIncoming : Ipcp → NbPtr → PortId → Exec (Bool × Ipcp)) :
    ∃ t, xRmtProcessMgmtPdu pf xRibIncoming ip port none = .error t := by
  by_cases hdebug : pf.ndebug = true
  · exact ⟨.nullPointer, by simp [xRmtProcessMgmtPdu, xNormalMgmtDuPost, rsAssert, hdebug]⟩
  · exact ⟨.assertion, by simp [xRmtProcessMgmtPdu, xNormalMgmtDuPost, rsAssert, hdebug, hport]⟩

theorem xRmtProcessDtPdu_none (hport : is_port_id_ok port = true) :
    ∃ t, xRmtProcessDtPdu pf ip port none = .error t := by
  by_cases hdebug : pf.ndebug = true
  · exact ⟨.nullPointer, by simp [xRmtProcessDtPdu, rsAssert, hdebug]⟩
  · exact ⟨.assertion, by simp [xRmtProcessDtPdu, rsAssert, hdebug, hport]⟩

theorem xRmtProcessMgmtPdu_ndebug (hdebug : pf.ndebug = true) :
    xRmtProcessMgmtPdu pf (xRibIncoming pf fnRibInput) ip port (some p) =
      .error .uninitialised := by
  simp [xRmtProcessMgmtPdu, xNormalMgmtDuPost, xRibIncoming, rsAssert, hdebug, initialised]

/-- The RIB daemon gets the bytes behind the header. -/
theorem ReceivedPdu.ribIncoming (r : ReceivedPdu h du nb ptr bs slack)
    (hlen : sizeofPci ≤ bs.length) (hheap : ip.heap = bareHeap h du nb ptr)
    (hdebug : pf.ndebug = false) :
    xRibIncoming pf fnRibInput ip h.brk port = fnRibInput ip (bs.drop sizeofPci) port := by
  obtain ⟨front, hmem, hoff⟩ := r.bytes
  have hnb : ip.heap.netbufs h.brk = some (payloadNetbuf nb ptr) := by
    rw [hheap]
    exact r.bareHeap_payload
  have hlive : (payloadNetbuf nb ptr).xFreed = false := r.live
  have htype : ((payloadNetbuf nb ptr).eType == .NB_RINA_DATA) = true := rfl
  have hbuf : (payloadNetbuf nb ptr).pxBuf = some (ptr.add sizeofPci) := rfl
  have hsize : (payloadNetbuf nb ptr).unSz = (bs.drop sizeofPci).length := by
    rw [List.length_drop, ← r.size]
    rfl
  have hoff' : (ptr.add sizeofPci).off + 0 = (front ++ bs.take sizeofPci).length := by
    rw [List.length_append, List.length_take, Nat.min_eq_left hlen, hoff]
    rfl
  have hblock : ip.heap.mem (ptr.add sizeofPci).block =
      some ((front ++ bs.take sizeofPci) ++ (bs.drop sizeofPci ++ slack)) := by
    rw [hheap, bareHeap_mem, List.append_assoc, ← List.append_assoc (bs.take sizeofPci),
      List.take_append_drop]
    exact hmem
  have hread : ip.heap.read (some (ptr.add sizeofPci)) 0 (bs.drop sizeofPci).length =
      .ok (bs.drop sizeofPci) := by
    rw [Heap.read_of_block hblock, hoff', List.drop_left, List.take_left]
    rw [hoff']
    simp only [List.length_append]
    omega
  simp only [xRibIncoming, hdebug, Bool.false_eq_true, if_false, initialised_some, Exec.ok_bind,
    eNetBufType, pvNetBufPtr, unNetBufSize, Heap.netbuf_of_some hnb, hlive, Bool.not_false,
    rsAssert_true, pure_bind, htype, hbuf, hsize, hread]

theorem ReceivedPdu.mgmt (r : ReceivedPdu h du nb ptr bs slack) (hlen : sizeofPci ≤ bs.length)
    (hheap : ip.heap = bareHeap h du nb ptr) (hport : is_port_id_ok port = true)
    (hdebug : pf.ndebug = false) :
    xRmtProcessMgmtPdu pf (xRibIncoming pf fnRibInput) ip port (some h.brk) = (do
      let (posted, ip) ← fnRibInput ip (bs.drop sizeofPci) port
      if posted then
        let heap ← vNetBufFree pf ip.heap h.brk
        return (true, { ip with heap := heap })
      else return (false, ip)) := by
  simp only [xRmtProcessMgmtPdu, xNormalMgmtDuPost, hport, rsAssert_true, Exec.ok_bind,
    Option.isSome_some, deref_some, r.ribIncoming hlen hheap hdebug]

end Dispatch

end RinaSense.Rmt
