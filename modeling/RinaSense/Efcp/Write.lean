import RinaSense.Common.Links
import RinaSense.Efcp.Container

/-!
# Writing a data unit

`xDtpWrite` puts a header in front of a data unit and gives it to the RMT or, when both
addresses are the same, back to its own container. The netbuf which `xDuEncap` returns
is dropped, and the accessors go on with the data netbuf.
-/

namespace RinaSense.Efcp

open Common Rmt RinaSense.Flow Library.Memory

/-- What a write did: its result and the netbuf which it handed to the RMT. -/
structure Written where
  ret : Bool
  handed : Option NbPtr
  ip : Ipcp

variable (pf : Platform)

/-- The body of `xRmtSend` is disabled. -/
def xRmtSend (pxRmt : Bool) : Exec Bool := do
  rsAssert pf pxRmt
  return true

/-- Both ends of the loopback return false. -/
def xDtpPduSend (ip : Ipcp) (e : EfcpPtr) (pxDu : NbPtr) : Exec Written := do
  rsAssert pf (ip.efcps e).pxRmt
  let xSource := (← PCI_GET pf ip.heap pxDu .PCI_ADDR_SRC).toUInt8
  let xDestination := (← PCI_GET pf ip.heap pxDu .PCI_ADDR_DST).toUInt8
  if xSource ≠ xDestination then
    let sent ← xRmtSend pf (ip.efcps e).pxRmt
    return ⟨sent, some pxDu, ip⟩
  else
    let destCepId := (← PCI_GET pf ip.heap pxDu .PCI_CONN_DST_ID).toUInt8
    let (cut, heap) ← xDuDecap pf ip.heap sizeofPci pxDu
    let ip := { ip with heap := heap, dispatch := .nothing }
    if ¬ cut then return ⟨false, none, ip⟩
    let (_, ip) ← xEfcpContainerReceive pf ip destCepId pxDu
    return ⟨false, none, ip⟩

/-- The state vector once a sequence number is consumed. -/
def DtpSv.consume (sv : DtpSv) : DtpSv :=
  { sv with xNextSeqNumberToSend := sv.xNextSeqNumberToSend + 1 }

/-- The assignments to the header, in the order of the source. -/
def dtpFields (conn : Connection) (sz : ℕ) (xCsn : SeqNum) : List (PciField × ℕ) :=
  [(.PCI_VERSION, 1),
    (.PCI_CONN_SRC_ID, conn.xSourceCepId.toNat),
    (.PCI_CONN_DST_ID, conn.xDestinationCepId.toNat),
    (.PCI_CONN_QOS_ID, conn.xQosId.toNat),
    (.PCI_ADDR_DST, conn.xDestinationAddress.toNat),
    (.PCI_ADDR_SRC, conn.xSourceAddress.toNat),
    (.PCI_FLAGS, 0),
    (.PCI_TYPE, PDU_TYPE_DT.toNat),
    (.PCI_PDU_LEN, sz),
    (.PCI_SEQ_NO, xCsn.toNat)]

/-- The flags get the data run bit while the sender's flag for it is set. -/
def setDataRun (h : Heap) (xDrfFlag : Bool) (pxDu : NbPtr) : Exec Heap := do
  if xDrfFlag then
    let xPciFlags := (← PCI_GET pf h pxDu .PCI_FLAGS).toUInt8 ||| PDU_FLAGS_DATA_RUN
    PCI_SET pf h pxDu .PCI_FLAGS xPciFlags.toNat
  else return h

def xDtpWrite (ip : Ipcp) (e : EfcpPtr) (pxDu : NbPtr) : Exec Written := do
  let eType ← eNetBufType pf ip.heap pxDu
  rsAssert pf (eType == .NB_RINA_DATA)
  let (xPci, heap) ← pxRsrcAlloc pf ip.heap (some ip.xPciPool) none
  match xPci with
  | none => return ⟨false, none, { ip with heap := heap }⟩
  | some a =>
    let sz ← unNetBufTotalSize heap pxDu
    let (pxNb, heap) ← xDuEncap pf heap (some ⟨a, 0⟩) sizeofPci pxDu
    if pxNb.isNone then return ⟨false, none, { ip with heap := heap }⟩
    let efcp := ip.efcps e
    let sv := efcp.xDtpStateVector.consume
    let ip := ip.setEfcp e { efcp with xDtpStateVector := sv }
    let heap ← setFields pf heap pxDu (dtpFields efcp.pxConnection sz sv.xNextSeqNumberToSend)
    let heap ← setDataRun pf heap sv.xDrfFlag pxDu
    xDtpPduSend pf { ip with heap := heap } e pxDu

/-! ### The contract of a write -/

def netbufBytes (h : Heap) (nb : Netbuf) : Exec Bytes :=
  if nb.xFreed then .ok [] else h.read nb.pxBuf 0 nb.unSz

/-- The bytes of the live netbufs of a list of addresses. -/
def duBytes (h : Heap) : List NbPtr → Exec Bytes
  | [] => .ok []
  | p :: ps => do
    let nb ← h.netbuf p
    let bs ← netbufBytes h nb
    let rest ← duBytes h ps
    return bs ++ rest

/-- A data unit: the live netbuf `du` of data at the head of the chain `l`, with the
bytes `m` from its start to the end of its buffer. -/
structure DataUnit (ip : Ipcp) (du : NbPtr) (nb : Netbuf) (l : List NbPtr) (m : Bytes) :
    Prop where
  netbuf : ip.heap.netbufs du = some nb
  live : nb.xFreed = false
  eType : nb.eType = .NB_RINA_DATA
  first : nb.pxFirst = du
  xPool : nb.xPool.isSome = true
  bytes : BytesAt ip.heap du m
  chain : chainFrom ip.heap ip.heap.brk (some du) = .ok l
  payload : ∃ d, duBytes ip.heap l = .ok d
  pool : ∃ pool, ip.heap.pools ip.xPciPool = some pool
  fresh : ip.heap.Fresh

/-- A header for a DT PDU of a connection. -/
structure HeaderOf (conn : Connection) (sz : ℕ) (xCsn : SeqNum) (q : Pci) : Prop where
  type : q.xType = PDU_TYPE_DT
  connSource : q.xConnSource = conn.xSourceCepId
  connDestination : q.xConnDestination = conn.xDestinationCepId
  qosId : q.xQosId = conn.xQosId
  source : q.xSource = conn.xSourceAddress
  destination : q.xDestination = conn.xDestinationAddress
  length : q.xPduLen = sz.toUInt16
  sequence : q.xSequenceNumber = xCsn

/-- The RMT got one header netbuf in front of the chain `l`, whose bytes are those it
had, and one sequence number is consumed. -/
structure HandedPdu (ip : Ipcp) (e : EfcpPtr) (l : List NbPtr) (out : Written) : Prop where
  pdu : ∃ p hd q sz, out.handed = some p ∧ out.ip.heap.netbufs p = some hd ∧
    hd.eType = .NB_RINA_PCI ∧ hd.pxFirst = p ∧ duBytes out.ip.heap [p] = .ok q.toBytes ∧
    chainFrom out.ip.heap out.ip.heap.brk (some p) = .ok (p :: l) ∧
    duBytes out.ip.heap l = duBytes ip.heap l ∧ sizeSum ip.heap l = .ok sz ∧
    HeaderOf (ip.efcps e).pxConnection sz
      ((ip.efcps e).xDtpStateVector.xNextSeqNumberToSend + 1) q
  consumed : (out.ip.efcps e).xDtpStateVector = (ip.efcps e).xDtpStateVector.consume

/-- The bytes of the data unit and the state vector are as before. -/
structure LeftAlone (ip : Ipcp) (e : EfcpPtr) (l : List NbPtr) (out : Written) : Prop where
  bytes : duBytes out.ip.heap l = duBytes ip.heap l
  sv : (out.ip.efcps e).xDtpStateVector = (ip.efcps e).xDtpStateVector

/-- An instance in use which has neither sent nor received anything yet. -/
def FreshConnection (ip : Ipcp) (e : EfcpPtr) : Prop :=
  (ip.efcps e).xState = .eEfcpAllocated ∧ (ip.efcps e).xDtpStateVector = vDtpStateVectorInit

/-- `malloc` refuses nothing and the pool of headers has not reached its limit. -/
def PciAvailable (ip : Ipcp) : Prop :=
  ip.heap.MemoryAvailable ∧ ∃ pool, ip.heap.pools ip.xPciPool = some pool ∧
    pool.uxSizeEach = sizeofPci ∧ 0 < pool.uiIncrement ∧
    (pool.uiMaxNumRes = 0 ∨
      pool.uiNumInUse.toNat + pool.uiNumFree.toNat < pool.uiMaxNumRes.toNat)

/-- What a write promises about its result, and that it succeeds where nothing is amiss. -/
structure WriteContract (ip : Ipcp) (e : EfcpPtr) (du : NbPtr) (l : List NbPtr) : Prop where
  success : ∀ out, xDtpWrite pf ip e du = .ok out → out.ret = true → HandedPdu ip e l out
  failure : ∀ out, xDtpWrite pf ip e du = .ok out → out.ret = false → LeftAlone ip e l out
  reachable : FreshConnection ip e → PciAvailable ip →
    ∃ out, xDtpWrite pf ip e du = .ok out ∧ out.ret = true

/-! ### Allocating the header -/

variable {pf}

/-- Bytes which can be read stay the same when other memory changes. -/
theorem netbufBytes_congr {h h' : Heap} {nb : Netbuf} {bs : Bytes}
    (hbs : netbufBytes h nb = .ok bs) (hmem : ∀ a b, h.mem a = some b → h'.mem a = some b) :
    netbufBytes h' nb = .ok bs := by
  unfold netbufBytes at hbs ⊢
  split_ifs at hbs ⊢
  · exact hbs
  · cases hbuf : nb.pxBuf with
    | none => simp [Heap.read, hbuf] at hbs
    | some ptr =>
      rw [hbuf] at hbs
      cases hblock : h.mem ptr.block with
      | none => simp [Heap.read, load, hblock] at hbs
      | some b =>
        simp only [Heap.read, deref_some, Exec.ok_bind, load, Ptr.add_block, hblock] at hbs
        simp only [Heap.read, deref_some, Exec.ok_bind, load, Ptr.add_block, hmem _ _ hblock]
        exact hbs

theorem duBytes_congr {h h' : Heap} {l : List NbPtr} {d : Bytes} (hd : duBytes h l = .ok d)
    (hnb : ∀ q ∈ l, h'.netbufs q = h.netbufs q)
    (hmem : ∀ a b, h.mem a = some b → h'.mem a = some b) : duBytes h' l = .ok d := by
  induction l generalizing d with
  | nil => exact hd
  | cons p ps ih =>
    simp only [duBytes] at hd
    obtain ⟨nb, hp, hd⟩ := Exec.bind_eq_ok.mp hd
    obtain ⟨bs, hbs, hd⟩ := Exec.bind_eq_ok.mp hd
    obtain ⟨rest, hrest, hd⟩ := Exec.bind_eq_ok.mp hd
    have hp' : h'.netbuf p = .ok nb := by
      rw [Heap.netbuf, hnb p (by simp)]
      exact hp
    have hrest' := ih hrest fun q hq => hnb q (by simp [hq])
    simp only [duBytes, hp', Exec.ok_bind, netbufBytes_congr hbs hmem, hrest']
    exact hd

theorem pxRsrcAlloc_valgrind {h : Heap} {pp : PoolPtr} {pool : RsrcPool}
    (hv : pf.valgrind = true) (hpool : h.pools pp = some pool) (req : Option String) :
    pxRsrcAlloc pf h (some pp) req = .ok (pvRsMemAlloc h pool.uxSizeEach) := by
  simp [pxRsrcAlloc, hpool, pxRsrcVarAlloc, hv]

/-- The heap with one more block. -/
def blockHeap (h : Heap) (n : ℕ) : Heap :=
  { h.called.setBlock h.brk (some (h.stale h.brk n)) with brk := h.brk + 1 }

theorem blockHeap_mem {h : Heap} (hf : h.Fresh) (n : ℕ) {a : ℕ} {b : Bytes}
    (ha : h.mem a = some b) : (blockHeap h n).mem a = some b := by
  have hne : a ≠ h.brk := Nat.ne_of_lt (hf.lt_of_block ha)
  simp [blockHeap, Heap.setBlock, Heap.called, hne, ha]

theorem blockHeap_fresh {h : Heap} (hf : h.Fresh) (n : ℕ) : (blockHeap h n).Fresh := by
  intro a ha
  have hlt : h.brk < a := ha
  have hne : a ≠ h.brk := Nat.ne_of_gt hlt
  obtain ⟨hnb, hmem⟩ := hf a (Nat.le_of_lt hlt)
  exact ⟨hnb, by simp [blockHeap, Heap.setBlock, Heap.called, hne, hmem]⟩

variable {ip : Ipcp} {e : EfcpPtr} {du : NbPtr} {nb : Netbuf} {l : List NbPtr} {m : Bytes}

theorem DataUnit.leftAlone_called (u : DataUnit ip du nb l m) (handed : Option NbPtr) :
    LeftAlone ip e l ⟨false, handed, { ip with heap := ip.heap.called }⟩ := by
  obtain ⟨d, hd⟩ := u.payload
  refine ⟨?_, rfl⟩
  rw [hd]
  exact duBytes_congr hd (fun _ _ => rfl) fun _ _ h => h

theorem DataUnit.leftAlone_block (u : DataUnit ip du nb l m) (handed : Option NbPtr) (n : ℕ) :
    LeftAlone ip e l ⟨false, handed, { ip with heap := (blockHeap ip.heap n).called }⟩ := by
  obtain ⟨d, hd⟩ := u.payload
  refine ⟨?_, rfl⟩
  rw [hd]
  exact duBytes_congr hd (fun _ _ => rfl) fun _ _ h => blockHeap_mem u.fresh n h

/-- Outside Valgrind nothing is allocated and nothing happens. -/
theorem DataUnit.write_ordinary (u : DataUnit ip du nb l m) (hv : pf.valgrind = false) :
    xDtpWrite pf ip e du = .ok ⟨false, none, ip⟩ := by
  obtain ⟨pool, hpool⟩ := u.pool
  simp [xDtpWrite, eNetBufType, u.netbuf, u.live, u.eType, pxRsrcAlloc_anonymous pf hv hpool,
    pure, Except.pure]

theorem DataUnit.write_noBlock (u : DataUnit ip du nb l m) (hv : pf.valgrind = true)
    (hm : ip.heap.mallocOk ip.heap.calls = false) :
    xDtpWrite pf ip e du = .ok ⟨false, none, { ip with heap := ip.heap.called }⟩ := by
  obtain ⟨pool, hpool⟩ := u.pool
  simp [xDtpWrite, eNetBufType, u.netbuf, u.live, u.eType, pxRsrcAlloc_valgrind hv hpool,
    pvRsMemAlloc, hm, pure, Except.pure]

/-- The write after the block for the header was allocated. -/
theorem DataUnit.write_block (e : EfcpPtr) (u : DataUnit ip du nb l m) (hv : pf.valgrind = true)
    (hm : ip.heap.mallocOk ip.heap.calls = true) :
    ∃ n sz, xDtpWrite pf ip e du = (do
      let (pxNb, heap) ← xDuEncap pf (blockHeap ip.heap n) (some ⟨ip.heap.brk, 0⟩) sizeofPci du
      if pxNb.isNone then return ⟨false, none, { ip with heap := heap }⟩
      let efcp := ip.efcps e
      let sv := efcp.xDtpStateVector.consume
      let ip := ip.setEfcp e { efcp with xDtpStateVector := sv }
      let heap ← setFields pf heap du (dtpFields efcp.pxConnection sz sv.xNextSeqNumberToSend)
      let heap ← setDataRun pf heap sv.xDrfFlag du
      xDtpPduSend pf { ip with heap := heap } e du) := by
  obtain ⟨pool, hpool⟩ := u.pool
  have hchain : chainFrom (blockHeap ip.heap pool.uxSizeEach) (ip.heap.brk + 1) (some du) =
      .ok l := chainFrom_congr u.chain (Nat.le_succ _) fun _ _ => rfl
  obtain ⟨sz, hsz⟩ := sizeSum_ok (h := blockHeap ip.heap pool.uxSizeEach) (chainFrom_mem hchain)
  refine ⟨pool.uxSizeEach, sz, ?_⟩
  have htotal : unNetBufTotalSize (blockHeap ip.heap pool.uxSizeEach) du = .ok sz := by
    have hdu : (blockHeap ip.heap pool.uxSizeEach).netbufs du = some nb := u.netbuf
    simp only [unNetBufTotalSize, Heap.netbuf_of_some hdu, Exec.ok_bind, u.first]
    exact (congrArg (· >>= sizeSum (blockHeap ip.heap pool.uxSizeEach)) hchain).trans hsz
  have halloc : pvRsMemAlloc ip.heap pool.uxSizeEach =
      (some ip.heap.brk, blockHeap ip.heap pool.uxSizeEach) := by
    simp [pvRsMemAlloc, hm, blockHeap]
  simp only [xDtpWrite, eNetBufType, Heap.netbuf_of_some u.netbuf, u.live, u.eType,
    pxRsrcAlloc_valgrind hv hpool, halloc, htotal, Bool.not_false, beq_self_eq_true, rsAssert_true,
    Exec.ok_bind, pure, Except.pure]

/-- The header netbuf which `xDuEncap` makes. -/
def encapNetbuf (nb : Netbuf) (p : Ptr) (du here : NbPtr) : Netbuf where
  pxNext := some du
  pxFirst := here
  eType := .NB_RINA_PCI
  unSz := sizeofPci
  pxBuf := some p
  pxBufStart := some p
  xFreed := false
  freemethod := some .vNetBufFreePool
  xPool := nb.xPool

theorem DataUnit.encap (pf : Platform) (u : DataUnit ip du nb l m) (n : ℕ) (p : Ptr)
    (hm : ip.heap.mallocOk (ip.heap.calls + 1) = true) :
    ∃ nbs, xDuEncap pf (blockHeap ip.heap n) (some p) sizeofPci du =
        .ok (some (ip.heap.brk + 1), { (blockHeap ip.heap n).called with
          netbufs := nbs
          brk := ip.heap.brk + 2 }) ∧
      nbs du = some { nb with pxFirst := ip.heap.brk + 1 } ∧
      nbs (ip.heap.brk + 1) = some (encapNetbuf nb p du (ip.heap.brk + 1)) ∧
      ∀ a, ip.heap.brk + 2 ≤ a → nbs a = none := by
  obtain ⟨here, hhere⟩ : ∃ here, here = ip.heap.brk + 1 := ⟨_, rfl⟩
  obtain ⟨hd, hhd⟩ : ∃ hd : Netbuf, hd = { encapNetbuf nb p du here with pxNext := none } :=
    ⟨_, rfl⟩
  obtain ⟨h₁, hh₁⟩ : ∃ h₁, h₁ = (blockHeap ip.heap n).withNetbuf hd := ⟨_, rfl⟩
  have hself : h₁.netbufs here = some hd := by
    rw [hh₁, hhere]
    exact Heap.withNetbuf_self _ hd
  have hold : ∀ q, q ≠ here → h₁.netbufs q = ip.heap.netbufs q := fun q hq => by
    rw [hh₁]
    exact Heap.withNetbuf_of_ne _ hd fun heq => hq (heq.trans hhere.symm)
  have hfresh : h₁.Fresh := hh₁ ▸ (blockHeap_fresh u.fresh n).withNetbuf hd
  have hne : ∀ q ∈ l, q ≠ here := by
    intro q hq
    obtain ⟨nbq, hnbq⟩ := chainFrom_mem u.chain q hq
    exact hhere ▸ Nat.ne_of_lt (Nat.lt_succ_of_lt (u.fresh.lt_of_netbuf hnbq))
  have hdu : du ∈ l := chainFrom_head u.chain
  have hdu₁ : h₁.netbufs du = some nb := (hold du (hne du hdu)).trans u.netbuf
  have hlinks : NbLinks h₁ (some du) l none :=
    (NbLinks.of_chainFrom u.chain).congr fun q hq => by rw [hold q (hne q hq)]
  have hfirst : hd.pxFirst = here := by rw [hhd]; rfl
  have hlive : hd.xFreed = false := by rw [hhd]; rfl
  have hnext : hd.pxNext = none := by rw [hhd]
  obtain ⟨h', happend, ha⟩ := vNetBufAppend_spec pf (l := []) hfresh hself hlive
    ⟨congrArg some hfirst, hd, hself, hnext⟩ hdu₁ u.first hlinks fun q hq => by
      simpa using hne q hq
  refine ⟨h'.netbufs, ?_, ?_, ?_, fun a hle => ?_⟩
  · have hm' : (blockHeap ip.heap n).mallocOk (blockHeap ip.heap n).calls = true := hm
    have hnew : pxNetBufNew pf (blockHeap ip.heap n) nb.xPool .NB_RINA_PCI (some p) sizeofPci
        (some .vNetBufFreePool) = .ok (some here, h₁) := by
      have hsize : (sizeofPci != 0) = true := rfl
      simp only [pxNetBufNew, u.xPool, hsize, rsAssert_true, Exec.ok_bind, pvRsMemAllocNetbuf, hm',
        if_true, hh₁, hhd, hhere]
      rfl
    have hdu₀ : (blockHeap ip.heap n).netbufs du = some nb := u.netbuf
    simp only [xDuEncap, eNetBufType, Heap.netbuf_of_some hdu₀, u.live, u.eType, Bool.not_false,
      beq_self_eq_true, rsAssert_true, Exec.ok_bind, pure, Except.pure, hnew, happend]
    rw [ha.rest, hh₁, hhere]
    rfl
  · rw [ha.right du hdu, hdu₁, Option.map_some, Netbuf.relink, u.live, hfirst, hhere]
    rfl
  · rw [← hhere, ha.hung, hself, hhd]
    rfl
  · have hnone : ip.heap.netbufs a = none := (u.fresh a (by omega)).1
    have hne' : a ≠ here := by omega
    have hnl : a ∉ l := fun hmem => by
      obtain ⟨nbq, hnbq⟩ := chainFrom_mem u.chain a hmem
      rw [hnone] at hnbq
      cases hnbq
    rw [ha.other a hnl hne', hold a hne', hnone]

/-! ### Filling in the header -/

/-- The header of a PDU, for the state vector which has consumed its number. -/
def dtpHeader (conn : Connection) (sz : ℕ) (sv : DtpSv) : Pci where
  ucVersion := 1
  xDestination := conn.xDestinationAddress
  xSource := conn.xSourceAddress
  xQosId := conn.xQosId
  xConnDestination := conn.xDestinationCepId
  xConnSource := conn.xSourceCepId
  xType := PDU_TYPE_DT
  xFlags := if sv.xDrfFlag then PDU_FLAGS_DATA_RUN else 0
  xPduLen := sz.toUInt16
  xSequenceNumber := sv.xNextSeqNumberToSend

theorem setDataRun_spec (hdebug : pf.ndebug = true) {h : Heap} (hm : BytesAt h du m)
    (hlen : sizeofPci ≤ m.length) (drf : Bool) (hflags : fieldOf m .PCI_FLAGS = 0) :
    ∃ mem m', setDataRun pf h drf du = .ok { h with mem := mem } ∧
      BytesAt { h with mem := mem } du m' ∧ m'.length = m.length ∧
      (∀ g, fieldOf m' g =
        if g = .PCI_FLAGS ∧ drf = true then PDU_FLAGS_DATA_RUN.toNat else fieldOf m g) ∧
      ∀ a, h.mem a = none → mem a = none := by
  cases drf with
  | false => exact ⟨h.mem, m, rfl, hm, rfl, by simp, fun _ ha => ha⟩
  | true =>
    have hf : PciField.PCI_FLAGS.offset + PciField.PCI_FLAGS.size ≤ m.length :=
      Nat.le_trans (PciField.offset_add_size_le _) hlen
    obtain ⟨mem, hset, hm', hnone⟩ := hm.set pf hdebug hf PDU_FLAGS_DATA_RUN.toNat
    refine ⟨mem, _, ?_, hm', ?_, ?_, hnone⟩
    · simp only [setDataRun, hm.get_ok pf hf, hflags, if_true, Exec.ok_bind]
      exact hset
    · rw [splice_length (by rw [leBytes_length]; exact hf)]
    · intro g
      rw [fieldOf_splice _ hf]
      by_cases hg : g = .PCI_FLAGS
      · subst hg
        simp [PDU_FLAGS_DATA_RUN, PciField.size]
      · simp [hg]

/-- All fields of the header are assigned. -/
theorem ofBytes_assigned {m' m'' : Bytes} {conn : Connection} {sz : ℕ} {sv : DtpSv}
    (hm' : fieldOf m' = assigned (fieldOf m) (dtpFields conn sz sv.xNextSeqNumberToSend))
    (hm'' : ∀ g, fieldOf m'' g =
      if g = .PCI_FLAGS ∧ sv.xDrfFlag = true then PDU_FLAGS_DATA_RUN.toNat else fieldOf m' g) :
    Pci.ofBytes m'' = dtpHeader conn sz sv := by
  simp only [Pci.ofBytes, hm'', hm', dtpHeader]
  simp [assigned, dtpFields, PciField.size]
  constructor
  · split_ifs <;> simp
  · apply UInt16.toNat_inj.mp
    simp

/-- The write after the header netbuf was put in front of the data unit. -/
theorem DataUnit.write_encap (e : EfcpPtr) (u : DataUnit ip du nb l m) (hv : pf.valgrind = true)
    (hm : ip.heap.mallocOk ip.heap.calls = true)
    (hm' : ip.heap.mallocOk (ip.heap.calls + 1) = true) :
    ∃ (h : Heap) (sz : ℕ), xDtpWrite pf ip e du = (do
        let efcp := ip.efcps e
        let sv := efcp.xDtpStateVector.consume
        let ip := ip.setEfcp e { efcp with xDtpStateVector := sv }
        let heap ← setFields pf h du (dtpFields efcp.pxConnection sz sv.xNextSeqNumberToSend)
        let heap ← setDataRun pf heap sv.xDrfFlag du
        xDtpPduSend pf { ip with heap := heap } e du) ∧
      BytesAt h du m ∧ h.Fresh ∧ h.brk = ip.heap.brk + 2 ∧
      h.netbufs du = some { nb with pxFirst := ip.heap.brk + 1 } ∧
      ∃ p, h.netbufs (ip.heap.brk + 1) = some (encapNetbuf nb p du (ip.heap.brk + 1)) := by
  obtain ⟨n, sz, hcode⟩ := u.write_block e hv hm
  obtain ⟨nbs, hencap, hdu, hhd, hnone⟩ := u.encap pf n ⟨ip.heap.brk, 0⟩ hm'
  let h : Heap := { (blockHeap ip.heap n).called with
    netbufs := nbs
    brk := ip.heap.brk + 2 }
  refine ⟨h, sz, ?_, ?_, ?_, rfl, hdu, ⟨ip.heap.brk, 0⟩, hhd⟩
  · rw [hcode, hencap]
    rfl
  · obtain ⟨nb', ptr, front, hnb', hlive, hbuf, hblock, hoff⟩ := u.bytes
    rw [u.netbuf] at hnb'
    cases hnb'
    exact ⟨_, ptr, front, hdu, hlive, hbuf, blockHeap_mem u.fresh n hblock, hoff⟩
  · intro a ha
    exact ⟨hnone a ha, (blockHeap_fresh u.fresh n a (Nat.le_of_succ_le ha)).2⟩

/-- Without room for a header one of the assignments is out of bounds. -/
theorem setFields_short (hdebug : pf.ndebug = true) {h : Heap} (hm : BytesAt h du m)
    {fs : List (PciField × ℕ)} (hfs : ∃ fv ∈ fs, m.length < fv.1.offset + fv.1.size) :
    setFields pf h du fs = .error .outOfBounds := by
  induction fs generalizing h m with
  | nil => simp at hfs
  | cons fv fs ih =>
    obtain ⟨f, v⟩ := fv
    by_cases hf : f.offset + f.size ≤ m.length
    · obtain ⟨mem, hset, hm', -⟩ := hm.set pf hdebug hf v
      have hlen' : (splice m f.offset (leBytes f.size v)).length = m.length :=
        splice_length (by rw [leBytes_length]; exact hf)
      obtain ⟨fv, hmem, hlt⟩ := hfs
      rcases List.mem_cons.mp hmem with rfl | hmem
      · exact absurd hf (Nat.not_le_of_lt hlt)
      · rw [setFields, hset, Exec.ok_bind]
        exact ih hm' ⟨fv, hmem, by rw [hlen']; exact hlt⟩
    · rw [setFields, hm.set_short pf hdebug (Nat.lt_of_not_le hf) v]
      rfl

theorem DataUnit.write_asserted (e : EfcpPtr) (u : DataUnit ip du nb l m)
    (hv : pf.valgrind = true) (hdebug : pf.ndebug = false)
    (hm : ip.heap.mallocOk ip.heap.calls = true)
    (hm' : ip.heap.mallocOk (ip.heap.calls + 1) = true) :
    xDtpWrite pf ip e du = .error .assertion := by
  obtain ⟨h, sz, hcode, -, -, -, hdu, -⟩ := u.write_encap e hv hm hm'
  rw [hcode]
  simp [dtpFields, setFields, PCI_SET, eNetBufType, hdu, u.live, u.eType, rsAssert, hdebug, pure,
    Except.pure]

theorem dtpFields_sequence (conn : Connection) (sz : ℕ) (xCsn : SeqNum) :
    (.PCI_SEQ_NO, xCsn.toNat) ∈ dtpFields conn sz xCsn := by
  simp [dtpFields]

theorem DataUnit.write_short (e : EfcpPtr) (u : DataUnit ip du nb l m)
    (hv : pf.valgrind = true) (hdebug : pf.ndebug = true)
    (hm : ip.heap.mallocOk ip.heap.calls = true)
    (hm' : ip.heap.mallocOk (ip.heap.calls + 1) = true) (hlen : m.length < sizeofPci) :
    xDtpWrite pf ip e du = .error .outOfBounds := by
  obtain ⟨h, sz, hcode, hbytes, -⟩ := u.write_encap e hv hm hm'
  have hshort : ∀ xCsn, setFields pf h du (dtpFields (ip.efcps e).pxConnection sz xCsn) =
      .error .outOfBounds :=
    fun xCsn => setFields_short hdebug hbytes ⟨_, dtpFields_sequence _ sz xCsn, hlen⟩
  rw [hcode]
  simp [hshort]

/-- With the assertions removed, the header goes over the start of the payload. -/
theorem DataUnit.write_overwrites (e : EfcpPtr) (u : DataUnit ip du nb l m)
    (hv : pf.valgrind = true) (hdebug : pf.ndebug = true)
    (hm : ip.heap.mallocOk ip.heap.calls = true)
    (hm' : ip.heap.mallocOk (ip.heap.calls + 1) = true) (hlen : sizeofPci ≤ m.length) :
    ∃ (h : Heap) (sz : ℕ) (m' : Bytes),
      xDtpWrite pf ip e du = xDtpPduSend pf { ip.setEfcp e { ip.efcps e with
        xDtpStateVector := (ip.efcps e).xDtpStateVector.consume } with heap := h } e du ∧
      BytesAt h du m' ∧ m'.length = m.length ∧
      Pci.ofBytes m' = dtpHeader (ip.efcps e).pxConnection sz
        (ip.efcps e).xDtpStateVector.consume ∧
      h.Fresh ∧ h.brk = ip.heap.brk + 2 ∧
      h.netbufs du = some { nb with pxFirst := ip.heap.brk + 1 } ∧
      ∃ p, h.netbufs (ip.heap.brk + 1) = some (encapNetbuf nb p du (ip.heap.brk + 1)) := by
  obtain ⟨h, sz, hcode, hbytes, hfresh, hbrk, hdu, p, hhd⟩ := u.write_encap e hv hm hm'
  obtain ⟨mem₁, m₁, hset, hbytes₁, hlen₁, hfields₁, hnone₁⟩ := hbytes.setFields pf hdebug hlen
    (dtpFields (ip.efcps e).pxConnection sz
      (ip.efcps e).xDtpStateVector.consume.xNextSeqNumberToSend)
  have hflags : fieldOf m₁ .PCI_FLAGS = 0 := by
    rw [hfields₁]
    simp [assigned, dtpFields]
  obtain ⟨mem₂, m₂, hrun, hbytes₂, hlen₂, hfields₂, hnone₂⟩ := setDataRun_spec hdebug hbytes₁
    (by rw [hlen₁]; exact hlen) (ip.efcps e).xDtpStateVector.consume.xDrfFlag hflags
  refine ⟨{ h with mem := mem₂ }, sz, m₂, ?_, hbytes₂, hlen₂.trans hlen₁,
    ofBytes_assigned hfields₁ hfields₂, ?_, hbrk, hdu, p, hhd⟩
  · rw [hcode]
    simp only [hset, hrun, Exec.ok_bind]
  · intro a ha
    exact ⟨(hfresh a ha).1, hnone₂ a (hnone₁ a (hfresh a ha).2)⟩

/-! ### Handing over -/

/-- Receiving does not touch the numbers which are sent. -/
def SameNext (ip ip' : Ipcp) : Prop :=
  ∀ e, (ip'.efcps e).xDtpStateVector.xNextSeqNumberToSend =
    (ip.efcps e).xDtpStateVector.xNextSeqNumberToSend

theorem SameNext.setEfcp {ip : Ipcp} {e : EfcpPtr} {efcp : EfcpInstance}
    (h : efcp.xDtpStateVector.xNextSeqNumberToSend =
      (ip.efcps e).xDtpStateVector.xNextSeqNumberToSend) : SameNext ip (ip.setEfcp e efcp) := by
  intro e'
  by_cases he : e' = e
  · subst he
    simpa [Ipcp.setEfcp] using h
  · simp [Ipcp.setEfcp, he]

theorem xDtpReceive_next (sv : DtpSv) (seq : SeqNum) (flags : PduFlags) :
    (xDtpReceive sv seq flags).sv.xNextSeqNumberToSend = sv.xNextSeqNumberToSend := by
  unfold xDtpReceive
  dsimp only
  split_ifs <;> rfl

theorem xDtpReceiveDu_next {ip ip' : Ipcp} {b : Bool}
    (h : xDtpReceiveDu pf ip e du = .ok (b, ip')) : SameNext ip ip' := by
  obtain ⟨dispatch, seq, flags, fa, rfl⟩ := xDtpReceiveDu_cases pf h
  have hset : SameNext ip (({ ip with dispatch := dispatch } : Ipcp).setEfcp e { ip.efcps e with
      xDtpStateVector := (xDtpReceive (ip.efcps e).xDtpStateVector seq flags).sv }) :=
    SameNext.setEfcp (xDtpReceive_next _ _ _)
  exact hset

theorem xEfcpReceive_next {ip ip' : Ipcp} {b : Bool}
    (h : xEfcpReceive pf ip e du = .ok (b, ip')) : SameNext ip ip' := by
  obtain ⟨type, -, h⟩ := Exec.bind_eq_ok.mp h
  dsimp only at h
  split_ifs at h
  · cases h
    exact fun _ => rfl
  · exact xDtpReceiveDu_next h

theorem learnDestination_next {ip ip' : Ipcp}
    (h : learnDestination pf ip e du = .ok ip') : SameNext ip ip' := by
  obtain ⟨type, -, h⟩ := Exec.bind_eq_ok.mp h
  dsimp only at h
  split_ifs at h
  · obtain ⟨cep, -, h⟩ := Exec.bind_eq_ok.mp h
    cases h
    exact SameNext.setEfcp rfl
  · cases h
    exact fun _ => rfl

theorem xEfcpContainerReceive_next {ip ip' : Ipcp} {xCepId : CepId} {b : Bool}
    (h : xEfcpContainerReceive pf ip xCepId du = .ok (b, ip')) : SameNext ip ip' := by
  unfold xEfcpContainerReceive pxEfcpImapFind at h
  dsimp only at h
  split_ifs at h
  · cases hfind : imapLookup ip.xEfcpImapTable xCepId with
    | none =>
      rw [hfind] at h
      cases h
      exact fun _ => rfl
    | some e =>
      rw [hfind] at h
      dsimp only at h
      split_ifs at h
      · cases h
        exact fun _ => rfl
      · obtain ⟨ip₁, hlearn, h⟩ := Exec.bind_eq_ok.mp h
        intro e'
        rw [xEfcpReceive_next h e', learnDestination_next hlearn e']
  · cases h
    exact fun _ => rfl

theorem DtpSv.consume_next_ne (sv : DtpSv) :
    sv.consume.xNextSeqNumberToSend ≠ sv.xNextSeqNumberToSend := by
  intro h
  simp [DtpSv.consume] at h

theorem xDtpPduSend_remote {m' : Bytes} (e : EfcpPtr) (hdebug : pf.ndebug = true)
    (hget : ∀ f, PCI_GET pf ip.heap du f = .ok (fieldOf m' f))
    (hremote : (fieldOf m' .PCI_ADDR_SRC).toUInt8 ≠ (fieldOf m' .PCI_ADDR_DST).toUInt8) :
    xDtpPduSend pf ip e du = .ok ⟨true, some du, ip⟩ := by
  simp [xDtpPduSend, xRmtSend, rsAssert, hdebug, hget, hremote, pure, Except.pure]

/-- A PDU for this process, from which nothing is taken off. -/
theorem xDtpPduSend_local {m' : Bytes} {b : Bool} {ip' : Ipcp} (e : EfcpPtr)
    (hdebug : pf.ndebug = true) (hget : ∀ f, PCI_GET pf ip.heap du f = .ok (fieldOf m' f))
    (hlocal : ¬ (fieldOf m' .PCI_ADDR_SRC).toUInt8 ≠ (fieldOf m' .PCI_ADDR_DST).toUInt8)
    (hsplit : xDuDecap pf ip.heap sizeofPci du = .ok (true, ip.heap))
    (hrecv : xEfcpContainerReceive pf { ip with dispatch := .nothing }
      (fieldOf m' .PCI_CONN_DST_ID).toUInt8 du = .ok (b, ip')) :
    xDtpPduSend pf ip e du = .ok ⟨false, none, ip'⟩ := by
  simp only [xDtpPduSend, rsAssert, hdebug, hget, if_neg hlocal, hsplit, Bool.true_or, if_true,
    Exec.ok_bind, not_true, if_false]
  change (do
    let (_, ip) ← xEfcpContainerReceive pf { ip with dispatch := .nothing }
      (fieldOf m' .PCI_CONN_DST_ID).toUInt8 du
    return (⟨false, none, ip⟩ : Written)) = _
  rw [hrecv]
  rfl

/-- A write which fills in its header returns, but hands over the data netbuf itself or
fails with its number consumed. -/
theorem DataUnit.write_returns (e : EfcpPtr) (u : DataUnit ip du nb l m)
    (hv : pf.valgrind = true) (hdebug : pf.ndebug = true)
    (hm : ip.heap.mallocOk ip.heap.calls = true)
    (hm' : ip.heap.mallocOk (ip.heap.calls + 1) = true) (hlen : sizeofPci ≤ m.length) :
    ∃ out, xDtpWrite pf ip e du = .ok out ∧ ¬ HandedPdu ip e l out ∧ ¬ LeftAlone ip e l out := by
  obtain ⟨h, sz, m', hcode, hbytes, hlen', hq, hfresh, hbrk, hdu, p, hhd⟩ :=
    u.write_overwrites e hv hdebug hm hm' hlen
  have hget : ∀ f, PCI_GET pf h du f = .ok (fieldOf m' f) := by
    intro f
    exact hbytes.get_ok pf (Nat.le_trans f.offset_add_size_le (by rw [hlen']; exact hlen))
  let sv := (ip.efcps e).xDtpStateVector.consume
  let ip₁ : Ipcp := { ip.setEfcp e { ip.efcps e with xDtpStateVector := sv } with heap := h }
  have hcons : (ip₁.efcps e).xDtpStateVector = sv := by simp [ip₁, Ipcp.setEfcp]
  have hnext : ∀ out : Written, SameNext ip₁ out.ip → ¬ LeftAlone ip e l out := by
    intro out hsame halone
    have hsv := hsame e
    rw [halone.sv, hcons] at hsv
    exact DtpSv.consume_next_ne _ hsv.symm
  rw [hcode]
  change ∃ out, xDtpPduSend pf ip₁ e du = .ok out ∧ _
  by_cases hremote : (fieldOf m' .PCI_ADDR_SRC).toUInt8 ≠ (fieldOf m' .PCI_ADDR_DST).toUInt8
  · refine ⟨⟨true, some du, ip₁⟩, ?_, ?_, hnext _ fun _ => rfl⟩
    · exact xDtpPduSend_remote e hdebug hget hremote
    · rintro ⟨⟨p', hd, q, sz', hhanded, hnb, htype, -⟩, -⟩
      cases hhanded
      change h.netbufs du = some hd at hnb
      rw [hdu] at hnb
      cases hnb
      rw [u.eType] at htype
      cases htype
  · have hsplit : xDuDecap pf h sizeofPci du = .ok (true, h) := by
      have hloop : splitLoop .NB_RINA_DATA h h.brk (some (ip.heap.brk + 1)) sizeofPci =
          .ok (true, h) := by
        rw [hbrk]
        simp [splitLoop, hhd, encapNetbuf, pure, Except.pure]
      simp [xDuDecap, eNetBufType, xNetBufSplit, hdu, u.live, rsAssert, hdebug, hloop, pure,
        Except.pure]
    let ip₂ : Ipcp := { ip₁ with dispatch := .nothing }
    have hbytes₂ : BytesAt ip₂.heap du m' := hbytes
    obtain ⟨ip', hrecv, -⟩ := xEfcpContainerReceive_spec pf hbytes₂ hfresh rfl
      (by rw [hlen']; exact Nat.le_trans (by decide) hlen) fun _ => by rw [hlen']; exact hlen
    refine ⟨⟨false, none, ip'⟩, ?_, ?_, hnext _ fun e' => xEfcpContainerReceive_next hrecv e'⟩
    · exact xDtpPduSend_local e hdebug hget hremote hsplit hrecv
    · rintro ⟨⟨p', hd, q, sz', hhanded, -⟩, -⟩
      cases hhanded

theorem DataUnit.write_noNetbuf (e : EfcpPtr) (u : DataUnit ip du nb l m)
    (hv : pf.valgrind = true) (hm : ip.heap.mallocOk ip.heap.calls = true)
    (hm' : ip.heap.mallocOk (ip.heap.calls + 1) = false) :
    ∃ n, xDtpWrite pf ip e du =
      .ok ⟨false, none, { ip with heap := (blockHeap ip.heap n).called }⟩ := by
  obtain ⟨n, sz, hcode⟩ := u.write_block e hv hm
  have hdu : (blockHeap ip.heap n).netbufs du = some nb := u.netbuf
  have hmalloc : (blockHeap ip.heap n).mallocOk (blockHeap ip.heap n).calls = false := hm'
  have hsize : (sizeofPci != 0) = true := rfl
  refine ⟨n, ?_⟩
  rw [hcode]
  simp [xDuEncap, eNetBufType, hdu, u.live, u.eType, pxNetBufNew, u.xPool, hsize,
    pvRsMemAllocNetbuf, hmalloc, pure, Except.pure]

/-- A write which never succeeds and fails without a trace only lacks reachability. -/
theorem writeContract_iff_of_failing
    (hfail : ∀ out, xDtpWrite pf ip e du = .ok out → out.ret = false ∧ LeftAlone ip e l out) :
    WriteContract pf ip e du l ↔ ¬ (FreshConnection ip e ∧ PciAvailable ip) := by
  constructor
  · rintro hc ⟨hfresh, havail⟩
    obtain ⟨out, hout, hret⟩ := hc.reachable hfresh havail
    rw [(hfail out hout).1] at hret
    cases hret
  · intro hnot
    refine ⟨?_, fun out hout _ => (hfail out hout).2,
      fun hfresh havail => absurd ⟨hfresh, havail⟩ hnot⟩
    intro out hout hret
    rw [(hfail out hout).1] at hret
    cases hret

/-- Under Valgrind with the assertions removed, the write goes through to the RMT or the
container once both requests for memory are met and the buffer has room for a header. -/
def OverwritesPayload (pf : Platform) (ip : Ipcp) (m : Bytes) : Prop :=
  pf.valgrind = true ∧ pf.ndebug = true ∧ ip.heap.mallocOk ip.heap.calls = true ∧
    ip.heap.mallocOk (ip.heap.calls + 1) = true ∧ sizeofPci ≤ m.length

/-- A write which does not get as far as that fails, if it returns, without a trace. -/
theorem DataUnit.write_fails (u : DataUnit ip du nb l m) (hnot : ¬ OverwritesPayload pf ip m) :
    ∀ out, xDtpWrite pf ip e du = .ok out → out.ret = false ∧ LeftAlone ip e l out := by
  intro out hout
  cases hv : pf.valgrind with
  | false =>
    rw [u.write_ordinary hv] at hout
    cases hout
    exact ⟨rfl, rfl, rfl⟩
  | true =>
    cases hm : ip.heap.mallocOk ip.heap.calls with
    | false =>
      rw [u.write_noBlock hv hm] at hout
      cases hout
      exact ⟨rfl, u.leftAlone_called none⟩
    | true =>
      cases hm' : ip.heap.mallocOk (ip.heap.calls + 1) with
      | false =>
        obtain ⟨n, hcode⟩ := u.write_noNetbuf e hv hm hm'
        rw [hcode] at hout
        cases hout
        exact ⟨rfl, u.leftAlone_block none n⟩
      | true =>
        cases hdebug : pf.ndebug with
        | false =>
          rw [u.write_asserted e hv hdebug hm hm'] at hout
          cases hout
        | true =>
          have hlen : m.length < sizeofPci :=
            Nat.lt_of_not_le fun hlen => hnot ⟨hv, hdebug, hm, hm', hlen⟩
          rw [u.write_short e hv hdebug hm hm' hlen] at hout
          cases hout

/-- A write keeps its contract exactly when it is not the write of a fresh connection with
memory at hand, nor one which puts its header over the start of the payload. -/
theorem xDtpWrite_contract_iff (pf : Platform) (e : EfcpPtr) (u : DataUnit ip du nb l m) :
    WriteContract pf ip e du l ↔
      ¬ (FreshConnection ip e ∧ PciAvailable ip) ∧ ¬ OverwritesPayload pf ip m := by
  by_cases hover : OverwritesPayload pf ip m
  · obtain ⟨hv, hdebug, hm, hm', hlen⟩ := hover
    obtain ⟨out, hout, hhanded, halone⟩ := u.write_returns e hv hdebug hm hm' hlen
    refine iff_of_false ?_ fun h => h.2 ⟨hv, hdebug, hm, hm', hlen⟩
    intro hc
    cases hret : out.ret with
    | true => exact hhanded (hc.success out hout hret)
    | false => exact halone (hc.failure out hout hret)
  · rw [writeContract_iff_of_failing (u.write_fails hover)]
    simp [hover]

theorem exampleUnit (sv : DtpSv) (bs : Bytes) :
    DataUnit (exampleIpcp sv .NB_RINA_DATA bs) 1 (exampleNetbuf .NB_RINA_DATA bs.length) [1] bs where
  netbuf := by simp [exampleIpcp, exampleHeap]
  live := rfl
  eType := rfl
  first := rfl
  xPool := rfl
  bytes := ⟨exampleNetbuf .NB_RINA_DATA bs.length, ⟨0, 0⟩, [], by simp [exampleIpcp, exampleHeap],
    rfl, rfl, by simp [exampleIpcp, exampleHeap], rfl⟩
  chain := rfl
  payload := by
    refine ⟨bs, ?_⟩
    simp [duBytes, netbufBytes, exampleIpcp, exampleHeap, exampleNetbuf, Heap.read, load, pure,
      Except.pure]
  pool := ⟨examplePool, rfl⟩
  fresh := exampleHeap_fresh _ _

/-- A connection which has received something already. -/
theorem xDtpWrite_contract_used :
    WriteContract ⟨false, false⟩
      (exampleIpcp { vDtpStateVectorInit with xDrfRequired := false } .NB_RINA_DATA [7, 7]) 0 1
      [1] := by
  refine (xDtpWrite_contract_iff _ 0 (exampleUnit _ _)).mpr ⟨?_, ?_⟩
  · rintro ⟨⟨-, hsv⟩, -⟩
    exact absurd hsv (by decide)
  · rintro ⟨hv, -⟩
    cases hv

/-- A fresh connection with all memory at hand cannot write. -/
theorem xDtpWrite_fresh_fails :
    ¬ WriteContract ⟨false, false⟩ (exampleIpcp vDtpStateVectorInit .NB_RINA_DATA [7, 7]) 0 1
      [1] := by
  intro hc
  have havail : PciAvailable (exampleIpcp vDtpStateVectorInit .NB_RINA_DATA [7, 7]) :=
    ⟨fun _ => rfl, examplePool, rfl, rfl, by decide, Or.inl rfl⟩
  obtain ⟨out, hout, hret⟩ := hc.reachable ⟨rfl, rfl⟩ havail
  rw [(exampleUnit _ _).write_ordinary rfl] at hout
  cases hout
  cases hret

end RinaSense.Efcp
