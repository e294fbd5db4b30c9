import RinaSense.Rmt.Arrival
import RinaSense.Rmt.SendPort
import RinaSense.Shim.FrameContent

/-!
# Management PDUs

`xNormalMgmtDuWrite` puts a header in front of a message of the RIB daemon and gives it to an
N-1 port. The peer takes the header off and hands the message to its own RIB daemon, which
gets the bytes that were written.
-/

namespace RinaSense.Ipcp

open Common Rmt Efcp Shim.OnChain Library.Memory
open Shim (ShimData xShimSDUWrite Granted sizeofEthernetHeader exampleMac exampleGha)

variable (pf : Platform)

def CFG_LOCAL_ADDRESS : Address := 1

/-- The assignments to the header, in the order of the source. -/
def mgmtFields (sz : ℕ) : List (PciField × ℕ) :=
  [(.PCI_VERSION, 1),
    (.PCI_CONN_SRC_ID, 0),
    (.PCI_CONN_DST_ID, 1),
    (.PCI_CONN_QOS_ID, 0),
    (.PCI_ADDR_DST, 0),
    (.PCI_FLAGS, 0),
    (.PCI_TYPE, PDU_TYPE_MGMT.toNat),
    (.PCI_SEQ_NO, 0),
    (.PCI_PDU_LEN, sz + sizeofPci),
    (.PCI_ADDR_SRC, CFG_LOCAL_ADDRESS.toNat)]

/-- The part of `xNormalMgmtDuWrite` which makes the PDU. The buffer of the header is lost if
there is no netbuf for it. -/
def mgmtPdu (h : Heap) (xPciPool : PoolPtr) (pxDataDu : NbPtr) : Exec (Option NbPtr × Heap) := do
  match ← pxRsrcAlloc pf h (some xPciPool) (some "Normal IPC Management PCI") with
  | (none, h) => return (none, h)
  | (some xPci, h) => do
    let sz ← unNetBufTotalSize h pxDataDu
    match ← xDuEncap pf h (some ⟨xPci, 0⟩) sizeofPci pxDataDu with
    | (none, h) => return (none, h)
    | (some pxDu, h) => do
      let h ← setFields pf h pxDu (mgmtFields sz)
      return (some pxDu, h)

def xNormalMgmtDuWrite (duWrite : DuWrite Heap NbPtr) (pxRmt : PortSystem Heap)
    (xPciPool : PoolPtr) (xPortId : PortId) (pxDataDu : NbPtr) :
    Exec (Bool × PortSystem Heap) := do
  rsAssert pf (is_port_id_ok xPortId)
  let eType ← eNetBufType pf pxRmt.world pxDataDu
  rsAssert pf (eType == .NB_RINA_DATA)
  match ← mgmtPdu pf pxRmt.world xPciPool pxDataDu with
  | (none, h) => return (false, { pxRmt with world := h })
  | (some pxDu, h) => do
    let out ← xRmtSendPortId pf duWrite { pxRmt with world := h } xPortId pxDu
    return (out.ret, out.rmt)

def xNormalDuEnqueue (fnRibInput : Ipcp → Bytes → PortId → Exec (Bool × Ipcp)) (ip : Ipcp)
    (xN1PortId : PortId) (pxDu : NbPtr) : Exec (Bool × Ipcp) := do
  let (received, ip) ← xRmtReceive pf (xRibIncoming pf fnRibInput) ip pxDu xN1PortId
  if ¬ received then return (false, ip)
  return (true, ip)

/-- The header of a management PDU with a message of `sz` bytes. -/
def mgmtHeader (sz : ℕ) : Pci where
  ucVersion := 1
  xDestination := 0
  xSource := CFG_LOCAL_ADDRESS
  xQosId := 0
  xConnDestination := 1
  xConnSource := 0
  xType := PDU_TYPE_MGMT
  xFlags := 0
  xPduLen := (sz + sizeofPci).toUInt16
  xSequenceNumber := 0

/-- The frame which the shim below makes for a message. -/
def mgmtFrame (h : Heap) (d : ShimData) (xPciPool : PoolPtr) (xPortId : PortId)
    (pxDataDu : NbPtr) : Exec (Option NbPtr × Heap) := do
  match ← mgmtPdu pf h xPciPool pxDataDu with
  | (none, h) => return (none, h)
  | (some pxDu, h) => frameForSDU pf h d xPortId pxDu

/-- Pools for the two headers which share nothing with each other or with the netbufs, and a port
over a shim which is ready. -/
structure MgmtPort (duWrite : DuWrite Heap NbPtr) (s : PortSystem Heap) (d : ShimData)
    (out : Heap → NbPtr → Exec (Bool × Heap)) (xPciPool : PoolPtr) (xPortId : PortId)
    (l : List NbPtr) : Prop where
  portOk : is_port_id_ok xPortId = true
  pciPool : ∃ pool, s.world.pools xPciPool = some pool ∧ pool.uxSizeEach = sizeofPci
  spare : Spare s.world xPciPool l
  ethPool : ∃ pool, HeaderPool s.world d pool l
  apart : PoolsApart s.world xPciPool d.pxEthPool
  port : ∃ p ipcp, s.prvRmtPortFind xPortId = some p ∧ p.xMustEnqueue = false ∧
    p.pxN1Ipcp = some ipcp ∧
      duWrite ipcp = some fun h unPort pxDu => xShimSDUWrite pf h d unPort pxDu out

/-- A message of the RIB daemon in memory, and a port for it. -/
structure MgmtOut (duWrite : DuWrite Heap NbPtr) (s : PortSystem Heap) (d : ShimData)
    (out : Heap → NbPtr → Exec (Bool × Heap)) (xPciPool : PoolPtr) (xPortId : PortId)
    (pxDataDu : NbPtr) (l : List NbPtr) (m : Bytes) : Prop
    extends MgmtPort pf duWrite s d out xPciPool xPortId l where
  message : Carries pf s.world pxDataDu l m
  data : eNetBufType pf s.world pxDataDu = .ok .NB_RINA_DATA

/-- The node of the peer when its driver hands over a frame. -/
structure MgmtIn (f : Frame) (h₀ : Heap) (d : ShimData) (env : Surroundings) : Prop where
  debug : pf.ndebug = false
  frame : f.In pf h₀
  memory : Granted h₀ 0
  flow : FlowFor pf (h₀.afterCalls 1) d env f.bytes
  queue : env.xSendEventStructToIPCPTask = true

/-! ### The PDU -/

variable {pf} {h h' : Heap} {pxDu p a : ℕ} {l : List NbPtr} {d hdr : Bytes}

/-- The assertion in front of an assignment holds on a header. -/
theorem Headed.pciSet (hh : Headed pf h p l .NB_RINA_PCI a hdr d) (hlen : hdr.length = sizeofPci)
    (f : PciField) (v : ℕ) :
    PCI_SET pf h p f v =
        .ok (h.setBlock a (some (splice hdr f.offset (leBytes f.size v)))) ∧
      Headed pf (h.setBlock a (some (splice hdr f.offset (leBytes f.size v)))) p l .NB_RINA_PCI a
        (splice hdr f.offset (leBytes f.size v)) d := by
  obtain ⟨nb, hnb, htype, hbuf, -⟩ := hh.netbuf
  obtain ⟨nb', hnb', hlive⟩ := hh.carries.live p List.mem_cons_self
  obtain rfl : nb = nb' := Option.some.inj (hnb.symm.trans hnb')
  have hfit : f.offset + (leBytes f.size v).length ≤ hdr.length := by
    rw [leBytes_length, hlen]
    exact f.offset_add_size_le
  obtain ⟨hwrite, hheaded⟩ := hh.write f.offset (leBytes f.size v) hfit
  refine ⟨?_, hheaded⟩
  simp only [PCI_SET, eNetBufType, pvNetBufPtr, Heap.netbuf_of_some hnb, hlive, htype, hbuf,
    Bool.not_false, beq_self_eq_true, rsAssert_true, Exec.ok_bind, pure_bind, hwrite]

theorem setBlock_setBlock (h : Heap) (a : ℕ) (x y : Option Bytes) :
    (h.setBlock a x).setBlock a y = h.setBlock a y := by
  simp [Heap.setBlock]

/-- All the assignments go to the buffer of the header. -/
theorem Headed.setFields (hh : Headed pf h p l .NB_RINA_PCI a hdr d)
    (hlen : hdr.length = sizeofPci) (fs : List (PciField × ℕ)) :
    ∃ hdr', Rmt.setFields pf h p fs = .ok (h.setBlock a (some hdr')) ∧
      Headed pf (h.setBlock a (some hdr')) p l .NB_RINA_PCI a hdr' d ∧
      hdr'.length = sizeofPci ∧ fieldOf hdr' = assigned (fieldOf hdr) fs := by
  induction fs generalizing h hdr with
  | nil =>
    have hsame : h.setBlock a (some hdr) = h := by
      simp [Heap.setBlock, ← hh.mem]
    exact ⟨hdr, by rw [hsame]; rfl, hsame.symm ▸ hh, hlen, rfl⟩
  | cons fv fs ih =>
    obtain ⟨f, v⟩ := fv
    have hf : f.offset + f.size ≤ hdr.length := hlen ▸ f.offset_add_size_le
    obtain ⟨hset, hh₁⟩ := Headed.pciSet hh hlen f v
    have hlen₁ : (splice hdr f.offset (leBytes f.size v)).length = sizeofPci := by
      rw [splice_length (by rwa [leBytes_length]), hlen]
    obtain ⟨hdr', hsets, hh', hlen', hfields⟩ := ih hh₁ hlen₁
    rw [setBlock_setBlock] at hsets hh'
    refine ⟨hdr', ?_, hh', hlen', ?_⟩
    · rw [Rmt.setFields, hset, Exec.ok_bind, hsets]
    · rw [hfields, assigned, funext (fieldOf_splice v hf)]

/-- The assignments reach all fields of the header. -/
theorem ofBytes_mgmtFields {sz : ℕ} {vals : PciField → ℕ}
    (hfields : fieldOf hdr = assigned vals (mgmtFields sz)) : Pci.ofBytes hdr = mgmtHeader sz := by
  simp only [Pci.ofBytes, hfields, mgmtHeader]
  simp [assigned, mgmtFields, PciField.size, PDU_TYPE_MGMT, CFG_LOCAL_ADDRESS]
  apply UInt16.toNat_inj.mp
  simp

theorem setBlock_beyond {h' : Heap} {pp : PoolPtr} (hb : Beyond h h' pp l a) (x : Option Bytes) :
    Beyond h (h'.setBlock a x) pp l a := ⟨hb.pools, hb.brk, hb.holds, hb.buffer⟩

/-- The PDU is the header in front of the message. -/
theorem mgmtPdu_headed {pp : PoolPtr} {pool : RsrcPool} (hc : Carries pf h pxDu l d)
    (hpool : h.pools pp = some pool) (hsize : pool.uxSizeEach = sizeofPci) (hspare : Spare h pp l)
    (hrun : mgmtPdu pf h pp pxDu = .ok (some p, h')) :
    ∃ a, Headed pf h' p l .NB_RINA_PCI a (mgmtHeader d.length).toBytes d ∧
      Beyond h h' pp l a := by
  obtain ⟨⟨o, h₁⟩, halloc, hrun⟩ := Exec.bind_eq_ok.mp hrun
  cases o with
  | none => cases hrun
  | some a =>
    obtain ⟨sz, hsz, hrun⟩ := Exec.bind_eq_ok.mp hrun
    obtain ⟨⟨o, h₂⟩, hencap, hrun⟩ := Exec.bind_eq_ok.mp hrun
    cases o with
    | none => cases hrun
    | some p' =>
      obtain ⟨h₃, hfields, hrun⟩ := Exec.bind_eq_ok.mp hrun
      cases hrun
      have hsz' : sz = d.length := by
        have htotal := (hc.alloc hpool hspare halloc).1.totalSize
        exact Except.ok.inj (hsz.symm.trans htotal)
      obtain ⟨_, -, hencap⟩ := Exec.bind_eq_ok.mp hencap
      obtain ⟨_, -, hencap⟩ := Exec.bind_eq_ok.mp hencap
      obtain ⟨du, -, hencap⟩ := Exec.bind_eq_ok.mp hencap
      obtain ⟨⟨o, h₄⟩, hnew, hencap⟩ := Exec.bind_eq_ok.mp hencap
      cases o with
      | none => cases hencap
      | some q =>
        obtain ⟨h₅, happend, hencap⟩ := Exec.bind_eq_ok.mp hencap
        cases hencap
        rw [← hsize] at hnew
        obtain ⟨hdr, hlen, hheaded, hbeyond⟩ := hc.header hpool hspare halloc hnew happend
        obtain ⟨hdr', hset, hheaded', hlen', hassigned⟩ :=
          Headed.setFields hheaded (hlen.trans hsize) (mgmtFields sz)
        obtain rfl : _ = h' := Except.ok.inj (hset.symm.trans hfields)
        have hheader : hdr' = (mgmtHeader d.length).toBytes := by
          rw [← hsz', ← ofBytes_mgmtFields hassigned, Pci.toBytes_ofBytes hlen']
        exact ⟨a, hheader ▸ hheaded', setBlock_beyond hbeyond _⟩

/-! ### The frame -/

section Out

variable {s : PortSystem Heap} {duWrite : DuWrite Heap NbPtr} {sd : ShimData}
  {out : Heap → NbPtr → Exec (Bool × Heap)} {xPciPool : PoolPtr} {xPortId : PortId} {m : Bytes}
  {frame : NbPtr}

theorem MgmtOut.frame_content (ho : MgmtOut pf duWrite s sd out xPciPool xPortId pxDu l m)
    (hframe : mgmtFrame pf s.world sd xPciPool xPortId pxDu = .ok (some frame, h)) :
    ∃ dest l', peerAddress sd xPortId = some dest ∧ Carries pf h frame l'
      (rinaHeader dest.xAddress sd.xPhyDev ++ ((mgmtHeader m.length).toBytes ++ m)) := by
  obtain ⟨⟨o, h₁⟩, hpdu, hframe⟩ := Exec.bind_eq_ok.mp hframe
  cases o with
  | none => cases hframe
  | some q =>
    obtain ⟨pool, hpool, hsize⟩ := ho.pciPool
    obtain ⟨eth, heth⟩ := ho.ethPool
    obtain ⟨a, hh, hb⟩ := mgmtPdu_headed ho.message hpool hsize ho.spare hpdu
    have heth' : HeaderPool h₁ sd eth (q :: l) :=
      ⟨(hb.pools _ ho.apart.1).trans heth.entry, heth.size,
        hh.spare hb (by rw [hpool]; rfl) heth.spare ho.apart ho.message.holds⟩
    obtain ⟨dest, a', hdest, hh'⟩ := frameForSDU_headed hh.carries heth' hframe
    exact ⟨dest, _, hdest, hh'.carries⟩

/-- The write ends in the driver, whose answer is not looked at. -/
theorem MgmtOut.write (ho : MgmtOut pf duWrite s sd out xPciPool xPortId pxDu l m)
    (hframe : mgmtFrame pf s.world sd xPciPool xPortId pxDu = .ok (some frame, h)) :
    xNormalMgmtDuWrite pf duWrite s xPciPool xPortId pxDu = (do
      let (xStatus, h) ← sendFrame pf out (some frame, h)
      return (true, ({ s.changePort xPortId .busy with world := h } : PortSystem Heap).changePort
        xPortId (.sent xStatus))) := by
  obtain ⟨⟨o, h₁⟩, hpdu, hframe⟩ := Exec.bind_eq_ok.mp hframe
  cases o with
  | none => cases hframe
  | some q =>
    obtain ⟨p, ipcp, hfind, hready, hipcp, hwrite⟩ := ho.port
    have hport : p.unPort = xPortId := by
      simpa using List.find?_some hfind
    have hfind' : PortSystem.prvRmtPortFind ({ s with world := h₁ } : PortSystem Heap) xPortId =
        some p := hfind
    have hframe' : frameForSDU pf h₁ sd xPortId q = .ok (some frame, h) := hframe
    have hworld : ∀ f, (({ s with world := h₁ } : PortSystem Heap).changePort xPortId f).world =
        h₁ := fun _ => rfl
    have hbeq : (NetBufType.NB_RINA_DATA == .NB_RINA_DATA) = true := rfl
    simp only [xNormalMgmtDuWrite, ho.portOk, rsAssert_true, Exec.ok_bind, ho.data, hbeq, hpdu,
      xRmtSendPortId, hfind', hready, Bool.false_eq_true, if_false, xRmtN1PortWriteDu, hipcp,
      deref_some, hwrite, Option.isSome_some, hworld, hport, xShimSDUWrite_eq, hframe',
      bind_assoc]
    refine bind_congr ?_
    rintro ⟨xStatus, h₂⟩
    cases xStatus <;> rfl

end Out

/-! ### The peer -/

section In

variable {fnRibInput : Ipcp → Bytes → PortId → Exec (Bool × Ipcp)} {ip : Ipcp} {du : NbPtr}
  {nb : Netbuf} {ptr : Ptr} {port : PortId} {m slack : Bytes}

/-- A management PDU is nobody's, and the RIB daemon gets it whatever addresses the node has. -/
theorem toMgmt_mgmtHeader (pxRmt : RmtState) (sz : ℕ) : toMgmt pxRmt (mgmtHeader sz) = true := by
  rw [toMgmt]
  split <;> rfl

theorem passes_mgmtHeader {bs : Bytes} {sz : ℕ} (hbs : bs = (mgmtHeader sz).toBytes ++ m)
    (hbound : (prvRmtPortFind ip.xRmt port).isSome = true)
    (hmalloc : ip.heap.mallocOk ip.heap.calls = true) : PassesRmt ip port bs := by
  have hpci : Pci.ofBytes bs = mgmtHeader sz := hbs ▸ Pci.ofBytes_toBytes _ m
  refine ⟨hbound, ?_, fun _ => hmalloc, ?_, ?_, ?_⟩
  · rw [hbs, List.length_append, Pci.toBytes_length]
    exact Nat.le_add_right _ _
  all_goals
    rw [hpci]
    rfl

/-- The message goes to the RIB daemon, and is freed if it takes it. -/
theorem xNormalDuEnqueue_mgmt
    (r : ReceivedPdu ip.heap du nb ptr ((mgmtHeader m.length).toBytes ++ m) slack)
    (hm : m ≠ []) (hport : is_port_id_ok port = true)
    (hbound : (prvRmtPortFind ip.xRmt port).isSome = true)
    (hmalloc : ip.heap.mallocOk ip.heap.calls = true) (hdebug : pf.ndebug = false) :
    ∃ n h, xNormalDuEnqueue pf fnRibInput ip port du = (do
      let (posted, ip') ← fnRibInput (counted ip port n h) m port
      if posted then
        let heap ← vNetBufFree pf ip'.heap ip.heap.brk
        return (true, { ip' with heap := heap })
      else return (false, ip')) := by
  have hlen : sizeofPci < ((mgmtHeader m.length).toBytes ++ m).length := by
    rw [List.length_append, Pci.toBytes_length]
    exact Nat.lt_add_of_pos_right (List.length_pos_iff.mpr hm)
  have hle := Nat.le_of_lt hlen
  have hpci : Pci.ofBytes ((mgmtHeader m.length).toBytes ++ m) = mgmtHeader m.length :=
    Pci.ofBytes_toBytes _ m
  have hrest : ((mgmtHeader m.length).toBytes ++ m).drop sizeofPci = m :=
    List.drop_left' (Pci.toBytes_length _)
  obtain ⟨n, hn⟩ := r.totalSize
  have hcut : xDuDecap pf ip.heap sizeofPci du = .ok (true, cutHeap ip.heap du nb ptr) :=
    r.decap hmalloc hlen
  have hunwrap : unwrapPdu pf ip du port =
      .ok (counted ip port n (bareHeap ip.heap du nb ptr), some ip.heap.brk) := by
    simp only [unwrapPdu, hn, hcut, r.next, r.freeHeader, Exec.ok_bind]
    rfl
  have hmgmt : xRmtProcessMgmtPdu pf (xRibIncoming pf fnRibInput)
      (counted ip port n (bareHeap ip.heap du nb ptr)) port (some ip.heap.brk) = _ :=
    r.mgmt hle rfl hport hdebug
  rw [hrest] at hmgmt
  have hdispatch : dispatchPdu pf fnRibInput (counted ip port n (bareHeap ip.heap du nb ptr))
      (mgmtHeader m.length) port (some ip.heap.brk) = _ :=
    (dispatchPdu_mgmt (toMgmt_mgmtHeader
      (counted ip port n (bareHeap ip.heap du nb ptr)).xRmt m.length)).trans hmgmt
  refine ⟨n, bareHeap ip.heap du nb ptr, ?_⟩
  simp only [xNormalDuEnqueue, xRmtReceive_passed r hport (passes_mgmtHeader rfl hbound hmalloc),
    hunwrap, Exec.ok_bind, hpci, hdispatch, bind_assoc]
  refine bind_congr ?_
  rintro ⟨posted, ip'⟩
  cases posted with
  | false => rfl
  | true =>
    simp only [if_true, bind_assoc]
    rfl

end In

def exampleMessageNetbuf : Netbuf :=
  { exampleDuNetbuf with eType := .NB_RINA_DATA, xPool := some 0 }

/-- A message of two bytes, and the pools of the two headers. -/
def exampleMessageHeap : Heap :=
  { exampleDuHeap with
    netbufs := fun p => if p = 1 then some exampleMessageNetbuf else none
    pools := fun p =>
      if p = 1 then some exampleHeaderPool
      else if p = 2 then some (.new "PCI Pool" sizeofPci 5 1 0)
      else none }

def exampleN1Port : N1Port where
  unPort := 2
  rxPdus := 0
  rxBytes := 0
  pxN1Ipcp := some 0
  eState := .eN1_PORT_STATE_ENABLED
  uxBusy := false
  plen := 0
  dropPdus := 0
  errPdus := 0
  txPdus := 0
  txBytes := 0

def exampleDriver (h : Heap) (_ : NbPtr) : Exec (Bool × Heap) := .ok (true, h)

def exampleShimWrite : DuWrite Heap NbPtr := fun _ => some fun h unPort pxDu =>
  xShimSDUWrite ⟨false, false⟩ h (exampleSender true) unPort pxDu exampleDriver

theorem exampleMessageHeap_carries : Carries ⟨false, false⟩ exampleMessageHeap 1 [1] [1, 2] where
  chain := by
    refine .single (fun a ha => ?_) rfl rfl rfl rfl ⟨rfl, fun _ => rfl, fun hm => by cases hm⟩
    have ha : 2 ≤ a := ha
    simp [exampleMessageHeap, exampleDuHeap, show a ≠ 0 by omega, show a ≠ 1 by omega]
  live q hq := by
    rw [List.mem_singleton.mp hq]
    exact ⟨_, rfl, rfl⟩
  readable q hq nb hnb _ := by
    rw [List.mem_singleton.mp hq] at hnb
    cases hnb
    exact ⟨_, _, rfl, rfl, Nat.le_refl 2⟩
  inside q hq nb hnb p hp := by
    rw [List.mem_singleton.mp hq] at hnb
    cases hnb
    cases hp
    exact ⟨_, rfl, rfl⟩
  content := rfl

theorem exampleMessage_out : MgmtOut ⟨false, false⟩ exampleShimWrite
    ⟨[exampleN1Port], exampleMessageHeap⟩ (exampleSender true) exampleDriver 2 2 1 [1] [1, 2] where
  portOk := rfl
  message := exampleMessageHeap_carries
  data := rfl
  pciPool := ⟨_, rfl, rfl⟩
  spare b m _ pool hpool a ha := by
    cases hpool
    cases ha
  ethPool := ⟨exampleHeaderPool, rfl, rfl, fun b m _ pool hpool a ha => by
    cases hpool
    cases ha⟩
  apart := ⟨by decide, fun pool pool' hpool _ x hx => by
    cases hpool
    cases hx⟩
  port := ⟨exampleN1Port, 0, rfl, rfl, rfl, rfl⟩

/-- The frame with the message, as the peer's driver hands it over. -/
def exampleArrival : Frame :=
  { exampleFrame [] [] with
    bytes := rinaHeader (exampleMac 2) (exampleSender true).xPhyDev ++
      ((mgmtHeader 2).toBytes ++ [1, 2]) }

theorem exampleArrival_in : MgmtIn ⟨false, false⟩ exampleArrival exampleArrival.heap exampleShim
    exampleSurroundings where
  debug := rfl
  frame :=
    { fresh := fun a ha => by
        have ha : 2 ≤ a := ha
        simp [Frame.heap, show a ≠ 0 by omega, show a ≠ 1 by omega]
      netbuf := rfl
      bytes := rfl
      usable := ⟨rfl, fun _ => rfl, fun hm => by cases hm⟩ }
  memory := rfl
  flow := ⟨none, rfl, fun _ => ⟨rfl, by decide, rfl, rfl⟩⟩
  queue := rfl

/-- The peer, with an N-1 port 5 for the new flow. -/
def examplePeer (h : Heap) : Ipcp :=
  { exampleIpcp vDtpStateVectorInit .NB_RINA_DATA [] with
    heap := h
    xRmt := { xAddresses := [1], xPorts := [⟨5, 0, 0⟩] } }

/-- A RIB daemon which looks for the message and turns it down. -/
def exampleRibInput (ip : Ipcp) (bs : Bytes) (_ : PortId) : Exec (Bool × Ipcp) :=
  if bs = [1, 2] then .ok (false, ip) else .error .assertion

end RinaSense.Ipcp
