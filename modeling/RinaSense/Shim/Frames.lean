import RinaSense.Common.Release
import RinaSense.Shim.ArpOutcome
import RinaSense.Shim.Demux

/-!
# Frames in their netbufs

The packet handler of `ShimIPCP.c` on the chain in which a driver hands over a frame. The
handler cuts the Ethernet header off, and each of its branches has to give back both parts or
pass them on.
-/

namespace RinaSense.Shim.OnChain

open Common Library.Memory

/-- What a frame meets outside the shim: the port which the IPC manager would reserve, the normal
IPC process, whether the queue of the IPCP task takes an event, and the driver. -/
structure Surroundings where
  unReserved : PortId
  pxIpcp : Option (PortId → Bool)
  xSendEventStructToIPCPTask : Bool
  xNetworkInterfaceOutput : Heap → NbPtr → Exec (Bool × Heap)

variable (pf : Platform)

/-- The bytes from a position of a buffer to its end. -/
def bytesAt (h : Heap) (pxBuf : Option Ptr) : Exec Bytes := do
  let p ← deref pxBuf
  let b ← inBounds (h.mem p.block)
  return b.drop p.off

/-- The response takes the place of the request behind the Ethernet header. -/
def prvARPGetResponse (h : Heap) (pxArp : ARP) (pxNbEth : NbPtr) (pxARPReq : ARPPacketData)
    (pxLookupResult : GHA) : Exec (Option NbPtr × Heap) := do
  let uxLength := responseLength pxARPReq.pxARPHdr.ucPALength.toNat
  let pxEthHdr ← pvNetBufPtr pf h pxNbEth
  match ← arpBuffer pf h pxArp uxLength with
  | (none, h) => return (none, h)
  | (some (pxArpBuf, b), h) => do
    let eth ← h.netbuf pxNbEth
    match ← pxNetBufNew pf h eth.xPool .NB_RINA_ARP (some ⟨pxArpBuf, 0⟩) uxLength
      (some .vNetBufFreePool) with
    | (none, h) => do
      let h ← vRsrcFree pf h (some ⟨pxArpBuf, 0⟩)
      return (none, h)
    | (some pxNbARPRes, h) => do
      let xSourceAddress ← readMAC (← bytesAt h pxEthHdr) macLength
      let b ← fillResponse b pxARPReq pxLookupResult.xAddress xSourceAddress
      let h ← h.write (some ⟨pxArpBuf, 0⟩) 0 b
      let pxNbARPReq ← deref (← pxNetBufNext pf h pxNbEth)
      let h ← vNetBufFree pf h pxNbARPReq
      let h ← vNetBufAppend pf h pxNbEth pxNbARPRes
      return (some pxNbEth, h)

/-- The part of `eARPProcessPacket` behind the extraction. The frame is returned also if there is
no response. -/
def processExtracted (h : Heap) (pxARP : ARP) (pxNbEth : NbPtr) (pxARPHdr : ARPStaticHeader)
    (xARPPacketData : ARPPacketData) : Exec (FrameProcessingResult × ARP × Heap) :=
  if pxARPHdr.usOperation = ARP_REQUEST then do
    match ← eARPCacheLookupGPA pf h pxARP.pxCache xARPPacketData.pxTpa with
    | (.eARPCacheMiss, _, h) =>
      if pf.ndebug then return (.eReleaseBuffer, pxARP, h)
      else do
        let (copied, h) := xGPAAddressToString h xARPPacketData.pxTpa
        rsAssert pf copied
        return (.eReleaseBuffer, pxARP, h)
    | (_, pxLookupResult, h) => do
      let pxLookupResult ← initialised pxLookupResult
      let (_, h) ← prvARPGetResponse pf h pxARP pxNbEth xARPPacketData pxLookupResult
      return (.eReturnEthernetFrame, pxARP, h)
  else do
    let (_, pxCache, h) ← xARPCacheAdd pf h pxARP.pxCache xARPPacketData.pxTpa xARPPacketData.pxTha
    return (.eReleaseBuffer, { pxARP with pxCache := pxCache }, h)

def eARPProcessPacket (h : Heap) (pxARP : ARP) (pxNbEth : NbPtr) :
    Exec (FrameProcessingResult × ARP × Heap) := do
  rsAssert pf (← pxNetBufNext pf h pxNbEth).isSome
  let pxNbArpPkt ← deref (← pxNetBufNext pf h pxNbEth)
  let pkt ← bytesAt h (← pvNetBufPtr pf h pxNbArpPkt)
  let pxARPHdr ← readHeader pkt
  if pxARPHdr.usHType ≠ RsHtoNS ARP_HARDWARE_TYPE_ETHERNET then return (.eReleaseBuffer, pxARP, h)
  if pxARPHdr.ucHALength.toNat ≠ macLength then return (.eReleaseBuffer, pxARP, h)
  if pxARPHdr.usOperation ≠ ARP_REPLY ∧ pxARPHdr.usOperation ≠ ARP_REQUEST then
    return (.eReleaseBuffer, pxARP, h)
  match ← prvARPExtractRequestData pf h pkt with
  | (none, h) => return (.eReleaseBuffer, pxARP, h)
  | (some xARPPacketData, h) => processExtracted pf h pxARP pxNbEth pxARPHdr xARPPacketData

/-- The netbuf behind the header is not looked for before its size is taken. -/
def prvShimHandleARPFrame (h : Heap) (pxARP : ARP) (pxNbFrame : NbPtr) :
    Exec (FrameProcessingResult × ARP × Heap) := do
  let pxNbArp ← deref (← pxNetBufNext pf h pxNbFrame)
  if sizeofARPStaticHeader ≤ (← unNetBufSize pf h pxNbArp) then
    eARPProcessPacket pf h pxARP pxNbFrame
  else return (.eReleaseBuffer, pxARP, h)

/-- The frame goes back to its source, and stays with the shim. -/
def prvReturnEthernetFrame (h : Heap) (pxNbFrame : NbPtr) (env : Surroundings) : Exec Heap := do
  rsAssert pf ((← eNetBufType pf h pxNbFrame) == .NB_ETH_HDR)
  let pxEthernetHeader ← pvNetBufPtr pf h pxNbFrame
  let xTmpMac ← h.read pxEthernetHeader 0 macLength
  let pxSrcMac ← h.read pxEthernetHeader macLength macLength
  let h ← h.write pxEthernetHeader 0 pxSrcMac
  let h ← h.write pxEthernetHeader macLength xTmpMac
  let (_, h) ← env.xNetworkInterfaceOutput h pxNbFrame
  return h

/-- The event which the IPCP task gets for a frame, with a port and a data unit. -/
abbrev Event := Option (PortId × Option NbPtr)

/-- The part of `vShimHandleEthernetPacket` which interprets the type of the frame. The queue may
turn the event down, which is not looked at. -/
def interpretFrame (h : Heap) (d : ShimData) (pxNbFrame : NbPtr) (env : Surroundings) :
    Exec (FrameProcessingResult × Event × ShimData × Heap) := do
  let pxEthHdr ← pvNetBufPtr pf h pxNbFrame
  let usFrameType := RsHtoNS (leVal (← h.read pxEthHdr 12 2)).toUInt16
  if usFrameType = ETH_P_RINA_ARP then do
    let xARP ← deref d.xARP
    let (eReturned, xARP, h) ← prvShimHandleARPFrame pf h xARP pxNbFrame
    return (eReturned, none, { d with xARP := some xARP }, h)
  else if usFrameType = ETH_P_RINA then do
    let (event, d, h) ← prvShimHandleRinaFrame pf h d pxNbFrame env.unReserved env.pxIpcp
    return (.eFrameConsumed, if env.xSendEventStructToIPCPTask then event else none, d, h)
  else return (.eReleaseBuffer, none, d, h)

/-- The part of `vShimHandleEthernetPacket` behind that. -/
def finishFrame (h : Heap) (pxNbFrame : NbPtr) (env : Surroundings) :
    FrameProcessingResult → Exec Heap
  | .eFrameConsumed => .ok h
  | .eReturnEthernetFrame => do
    let h ← prvReturnEthernetFrame pf h pxNbFrame env
    vNetBufFreeAll pf h pxNbFrame
  | .eReleaseBuffer => vNetBufFreeAll pf h pxNbFrame
  | .eProcessBuffer => vNetBufFreeAll pf h pxNbFrame

def vShimHandleEthernetPacket (h : Heap) (d : ShimData) (pxNbFrame : NbPtr) (env : Surroundings) :
    Exec (Event × ShimData × Heap) := do
  match ← xNetBufSplit h pxNbFrame .NB_RINA_PCI sizeofEthernetHeader with
  | (false, h) => do
    let h ← finishFrame pf h pxNbFrame env .eReleaseBuffer
    return (none, d, h)
  | (true, h) => do
    let (eReturned, event, d, h) ← interpretFrame pf h d pxNbFrame env
    let h ← finishFrame pf h pxNbFrame env eReturned
    return (event, d, h)

/-! ### The chain of a frame -/

/-- A frame as a driver hands it over, in one netbuf with a buffer of its own. -/
structure Frame where
  pxNbFrame : NbPtr
  bytes : Bytes
  block : ℕ
  pfnFree : Option FreeMethod
  xPool : PoolPtr

namespace Frame

def buffer (f : Frame) : Ptr := ⟨f.block, 0⟩

def netbuf (f : Frame) : Netbuf where
  pxNext := none
  pxFirst := f.pxNbFrame
  eType := .NB_ETH_HDR
  unSz := f.bytes.length
  pxBuf := some f.buffer
  pxBufStart := some f.buffer
  xFreed := false
  freemethod := f.pfnFree
  xPool := some f.xPool

/-- The frame is in memory, and its buffer can be released. -/
structure In (pf : Platform) (f : Frame) (h : Heap) : Prop where
  fresh : h.Fresh
  netbuf : h.netbufs f.pxNbFrame = some f.netbuf
  bytes : h.mem f.block = some f.bytes
  usable : Usable pf h f.pfnFree f.buffer

/-- The netbuf is the one of the frame, or was made since. -/
def Mine (f : Frame) (h₀ : Heap) (q : NbPtr) : Prop := q = f.pxNbFrame ∨ h₀.brk ≤ q

/-- The netbufs of the frame are the chain `l`, and nothing else has been made or changed since
it was handed over. -/
structure Owned (pf : Platform) (f : Frame) (h₀ h : Heap) (l : List NbPtr) : Prop where
  chain : WholeChain pf h f.pxNbFrame l
  head : f.pxNbFrame ∈ l
  mine : ∀ q ∈ l, f.Mine h₀ q
  other : ∀ q, q ∉ l → h.netbufs q = h₀.netbufs q
  buffer : h.Holds l f.buffer f.pfnFree

/-- Nothing is left of the frame. -/
structure Rejected (pf : Platform) (f : Frame) (h₀ h' : Heap) : Prop where
  gone : ∀ q, f.Mine h₀ q → h'.netbufs q = none
  other : ∀ q, ¬ f.Mine h₀ q → h'.netbufs q = h₀.netbufs q
  released : Released pf h' f.pfnFree f.buffer

/-- The data unit is the only netbuf of the frame which is still in use. It holds the buffer. -/
structure HandedOver (pf : Platform) (f : Frame) (h₀ h' : Heap) (q : NbPtr) : Prop where
  mine : f.Mine h₀ q
  inUse : h'.InUse q
  only : ∀ r, f.Mine h₀ r → r ≠ q → ¬ h'.InUse r
  other : ∀ q, ¬ f.Mine h₀ q → h'.netbufs q = h₀.netbufs q
  holds : h'.held q = some f.buffer
  usable : Usable pf h' f.pfnFree f.buffer

/-- The chain of the frame was freed, or went to the IPCP task with its data unit. -/
def Disposed (pf : Platform) (f : Frame) (h₀ h' : Heap) : Event → Prop
  | none => f.Rejected pf h₀ h'
  | some (_, pxDu) => ∃ q, pxDu = some q ∧ f.HandedOver pf h₀ h' q

end Frame

variable {pf} {f : Frame} {h₀ h h' : Heap} {d : ShimData} {env : Surroundings} {l : List NbPtr}

theorem Frame.In.owned (hi : f.In pf h₀) : f.Owned pf h₀ h₀ [f.pxNbFrame] where
  chain := WholeChain.single hi.fresh hi.netbuf rfl rfl rfl hi.usable
  head := List.mem_cons_self
  mine _ hq := Or.inl (List.mem_singleton.mp hq)
  other _ _ := rfl
  buffer := (Heap.holds_singleton hi.netbuf).mpr ⟨rfl, rfl⟩

/-- Nobody else has a netbuf which belongs to the frame. -/
theorem Frame.Owned.none_of_mine (ho : f.Owned pf h₀ h l) (hf : h₀.Fresh) {q : NbPtr}
    (hq : f.Mine h₀ q) (hql : q ∉ l) : h.netbufs q = none := by
  rw [ho.other q hql]
  rcases hq with rfl | hq
  · exact absurd ho.head hql
  · exact (hf q hq).1

theorem Frame.Owned.rejected (ho : f.Owned pf h₀ h l) (hf : h₀.Fresh) (hg : Gone pf h h' l) :
    f.Rejected pf h₀ h' := by
  refine ⟨fun q hq => ?_, fun q hq => ?_, hg.released _ _ ho.buffer⟩
  · by_cases hql : q ∈ l
    · exact hg.gone q hql
    · exact (hg.other q hql).trans (ho.none_of_mine hf hq hql)
  · have hql : q ∉ l := fun hql => hq (ho.mine q hql)
    exact (hg.other q hql).trans (ho.other q hql)

/-- The chain can be released while its last netbuf is in use. -/
theorem Frame.Owned.freeAll {s : List NbPtr} {last : NbPtr} (ho : f.Owned pf h₀ h (s ++ [last]))
    (hf : h₀.Fresh) (hlast : h.InUse last) :
    ∃ h', vNetBufFreeAll pf h f.pxNbFrame = .ok h' ∧ f.Rejected pf h₀ h' := by
  obtain ⟨h', hcode, hg⟩ := vNetBufFreeAll_spec ho.chain hlast ho.head
  exact ⟨h', hcode, ho.rejected hf hg⟩

/-- What happens elsewhere does not touch the chain. -/
theorem Frame.Owned.congr (ho : f.Owned pf h₀ h l) (hfresh : h'.Fresh)
    (hsame : h'.netbufs = h.netbufs)
    (hblocks : ∀ b m, h.Holds l b m → SameBlock h h' b.block) : f.Owned pf h₀ h' l where
  chain := ho.chain.congr hfresh (fun x _ => by rw [hsame]) hblocks
  head := ho.head
  mine := ho.mine
  other q hq := by
    rw [hsame]
    exact ho.other q hq
  buffer := (Heap.holds_congr (fun x _ => by rw [hsame]) _ _).mpr ho.buffer

theorem Frame.Owned.afterCalls (ho : f.Owned pf h₀ h l) (k : ℕ) :
    f.Owned pf h₀ (h.afterCalls k) l :=
  ho.congr ho.chain.fresh rfl fun _ _ _ => ⟨rfl, rfl, fun _ hp => hp⟩

/-! ### The cut -/

/-- The heap in which the header of the frame is cut off. -/
def Frame.cutHeap (f : Frame) (h : Heap) : Heap :=
  splitHeap h f.pxNbFrame f.netbuf .NB_RINA_PCI sizeofEthernetHeader

theorem Frame.In.split_eq (hi : f.In pf h₀) :
    xNetBufSplit h₀ f.pxNbFrame .NB_RINA_PCI sizeofEthernetHeader = .ok (
      if f.bytes.length < sizeofEthernetHeader then (false, h₀)
      else if f.bytes.length = sizeofEthernetHeader then (true, h₀)
      else if Granted h₀ 0 then (true, f.cutHeap h₀) else (false, h₀.afterCalls 1)) := by
  obtain ⟨fuel, hfuel⟩ : ∃ fuel, h₀.brk = fuel + 1 :=
    Nat.exists_eq_succ_of_ne_zero (Nat.ne_of_gt (Nat.lt_of_le_of_lt (Nat.zero_le _)
      (hi.fresh.lt_of_netbuf hi.netbuf)))
  have hlive : ¬ f.netbuf.xFreed = true := Bool.false_ne_true
  rw [xNetBufSplit, Heap.netbuf_of_some hi.netbuf, Exec.ok_bind, hfuel]
  change splitLoop .NB_RINA_PCI h₀ (fuel + 1) (some f.pxNbFrame) sizeofEthernetHeader = _
  rw [splitLoop, Heap.netbuf_of_some hi.netbuf, Exec.ok_bind, if_neg hlive]
  change (if f.bytes.length < _ then _ else _) = _
  split
  · cases fuel <;> rfl
  · change (if f.bytes.length = _ then _ else _) = _
    split
    · rfl
    · rw [pvRsMemAllocNetbuf]
      by_cases hg : Granted h₀ 0
      · have hyes : h₀.mallocOk h₀.calls = true := hg
        rw [if_pos hg, if_pos hyes]
        rfl
      · have hno : ¬ h₀.mallocOk h₀.calls = true := hg
        rw [if_neg hg, if_neg hno]
        rfl

/-- The heap with the two netbufs of the frame, after `k` more requests to `malloc`. -/
def Frame.parted (f : Frame) (h : Heap) (k : ℕ) : Heap := (f.cutHeap h).afterCalls k

theorem Frame.granted_parted (k i : ℕ) : Granted (f.parted h k) i ↔ Granted h (1 + k + i) := by
  rw [Frame.parted, granted_afterCalls, Nat.add_assoc 1, ← granted_afterCalls 1]
  exact Iff.rfl

theorem Frame.parted_header (k : ℕ) : (f.parted h k).netbufs f.pxNbFrame =
    some { f.netbuf with unSz := sizeofEthernetHeader, pxNext := some h.brk } :=
  Heap.setNetbuf_self _ _ _

section Parted

variable (hi : f.In pf h₀) (k : ℕ)

include hi

theorem Frame.In.ne_brk : f.pxNbFrame ≠ h₀.brk := Nat.ne_of_lt (hi.fresh.lt_of_netbuf hi.netbuf)

theorem Frame.In.parted_packet : (f.parted h₀ k).netbufs h₀.brk =
    some (f.netbuf.behind .NB_RINA_PCI sizeofEthernetHeader) := splitHeap_new hi.ne_brk

theorem Frame.In.parted_mem : (f.parted h₀ k).mem f.block = some f.bytes := hi.bytes

theorem Frame.In.parted_owned : f.Owned pf h₀ (f.parted h₀ k) [f.pxNbFrame, h₀.brk] := by
  have hcut : WholeChain pf (f.cutHeap h₀) f.pxNbFrame ([] ++ f.pxNbFrame :: h₀.brk :: []) :=
    WholeChain.split hi.owned.chain hi.netbuf rfl
  have howned : f.Owned pf h₀ (f.cutHeap h₀) [f.pxNbFrame, h₀.brk] := by
    refine ⟨hcut, List.mem_cons_self, fun q hq => ?_, fun q hq => ?_,
      ⟨_, List.mem_cons_self, _, Frame.parted_header 0, rfl, rfl⟩⟩
    · rcases List.mem_cons.mp hq with rfl | hq
      · exact Or.inl rfl
      · exact Or.inr (Nat.le_of_eq (List.mem_singleton.mp hq).symm)
    · have hne := not_or.mp (mt List.mem_cons.mpr hq)
      exact splitHeap_of_ne (mt List.mem_singleton.mpr hne.2) hne.1
  exact howned.afterCalls k

end Parted

/-- The type of a frame, in the order of the host. -/
def frameType (bs : Bytes) : UInt16 := RsHtoNS (leVal ((bs.drop 12).take 2)).toUInt16

theorem interpretFrame_eq {nb : Netbuf} (hnb : h.netbufs f.pxNbFrame = some nb)
    (hlive : nb.xFreed = false) (hbuf : nb.pxBuf = some f.buffer)
    (hmem : h.mem f.block = some f.bytes) (hlen : sizeofEthernetHeader ≤ f.bytes.length) :
    interpretFrame pf h d f.pxNbFrame env =
      if frameType f.bytes = ETH_P_RINA_ARP then do
        let xARP ← deref d.xARP
        let (eReturned, xARP, h) ← prvShimHandleARPFrame pf h xARP f.pxNbFrame
        return (eReturned, none, { d with xARP := some xARP }, h)
      else if frameType f.bytes = ETH_P_RINA then do
        let (event, d, h) ← prvShimHandleRinaFrame pf h d f.pxNbFrame env.unReserved env.pxIpcp
        return (.eFrameConsumed, if env.xSendEventStructToIPCPTask then event else none, d, h)
      else return (.eReleaseBuffer, none, d, h) := by
  have hptr : pvNetBufPtr pf h f.pxNbFrame = .ok (some f.buffer) := by
    simp only [pvNetBufPtr, Heap.netbuf_of_some hnb, Exec.ok_bind, hlive, Bool.not_false,
      rsAssert_true, hbuf]
    rfl
  have hread : h.read (some f.buffer) 12 2 = .ok ((f.bytes.drop (f.buffer.off + 12)).take 2) :=
    Heap.read_of_block hmem hlen
  rw [Frame.buffer, Nat.zero_add] at hread
  rw [interpretFrame, hptr, Exec.ok_bind, Frame.buffer, hread, Exec.ok_bind]
  rfl

/-! ### RINA frames -/

/-- The source address of a frame, if there is memory for it. -/
def pxSrcHa (h : Heap) (bs : Bytes) : Option GHA :=
  if Granted h 0 then (readMAC bs macLength).toOption.map (⟨.MAC_ADDR_802_3, ·⟩) else none

/-- There is a flow for the source of a frame, or one can be made and bound to its port. -/
def FlowFor (pf : Platform) (h : Heap) (d : ShimData) (env : Surroundings) (bs : Bytes) : Prop :=
  ∃ found, d.prvShimFindFlowByGHA (pxSrcHa h bs) = .ok found ∧ (found = none →
    Granted h 1 ∧ env.unReserved.toNat < 256 ∧ pf.ndebug = false ∧
      env.pxIpcp.any (· env.unReserved) = true)

/-- The flow which the search finds is allocated. -/
theorem findByGHA_allocated {pxHa : Option GHA} {entries : List (Option FlowPtr)} {p : FlowPtr}
    (hfind : d.findByGHA pxHa entries = .ok (some p)) : ∃ flow, d.flows p = some flow := by
  induction entries with
  | nil => cases hfind
  | cons entry entries ih =>
    cases entry with
    | none => exact ih hfind
    | some p₀ =>
      obtain ⟨flow, hflow, hfind⟩ := Exec.bind_eq_ok.mp hfind
      obtain ⟨pxDestHa, -, hfind⟩ := Exec.bind_eq_ok.mp hfind
      by_cases hcmp : xGHACmp pxDestHa pxHa = true
      · rw [if_pos hcmp] at hfind
        cases hfind
        exact ⟨flow, flow_eq_ok.mp hflow⟩
      · rw [if_neg hcmp] at hfind
        exact ih hfind

theorem createSource_eq {bs : Bytes} (hlen : sizeofEthernetHeader ≤ bs.length) :
    pxCreateGHA h .MAC_ADDR_802_3 bs macLength = .ok (pxSrcHa h bs, h.afterCalls 1) := by
  have hin : macLength + 6 ≤ bs.length := (by decide : macLength + 6 ≤ 14).trans hlen
  rcases pxCreateGHA_cases h bs macLength with ⟨hg, hrun⟩ | ⟨-, hout, -⟩ | ⟨hg, -, m, hm, hrun⟩
  · rw [hrun, pxSrcHa, if_neg hg]
  · exact absurd hin hout
  · rw [hrun, pxSrcHa, if_pos hg, readMAC_eq hm]
    rfl

variable (pf) in
theorem bindNewFlow_cases (pxIpcp : Option (PortId → Bool)) (unPort : PortId) :
    (pf.ndebug = false ∧ pxIpcp.any (· unPort) = true ∧ bindNewFlow pf pxIpcp unPort = .ok true) ∨
    (¬ (pf.ndebug = false ∧ pxIpcp.any (· unPort) = true) ∧
      (bindNewFlow pf pxIpcp unPort = .ok false ∨
        ∃ t, bindNewFlow pf pxIpcp unPort = .error t)) := by
  cases hd : pf.ndebug with
  | true =>
    refine Or.inr ⟨fun hand => absurd hand.1 (by decide), Or.inr ⟨.uninitialised, ?_⟩⟩
    simp [bindNewFlow, rsAssert, hd, initialised]
  | false =>
    cases pxIpcp with
    | none =>
      refine Or.inr ⟨fun hand => Bool.false_ne_true hand.2, Or.inr ⟨.assertion, ?_⟩⟩
      simp [bindNewFlow, rsAssert, hd]
    | some bind =>
      have hrun : bindNewFlow pf (some bind) unPort = .ok (bind unPort) := by
        simp [bindNewFlow, hd, pure, Except.pure]
      cases hb : bind unPort with
      | true => exact Or.inl ⟨rfl, hb, by rw [hrun, hb]⟩
      | false =>
        refine Or.inr ⟨fun hand => ?_, Or.inl (by rw [hrun, hb])⟩
        have hany : bind unPort = true := hand.2
        rw [hb] at hany
        cases hany

variable (pf d env) in
/-- A frame with a RINA PDU gets as far as its event, or stays in memory. -/
theorem rinaFrame_cases {nb : Netbuf} (hnb : h.netbufs f.pxNbFrame = some nb)
    (hlive : nb.xFreed = false) (hbuf : nb.pxBuf = some f.buffer)
    (hmem : h.mem f.block = some f.bytes) (hlen : sizeofEthernetHeader ≤ f.bytes.length) :
    (FlowFor pf h d env f.bytes ∧ ∃ d' p flow k, d'.flows p = some flow ∧
      prvShimHandleRinaFrame pf h d f.pxNbFrame env.unReserved env.pxIpcp = (do
        let (event, h) ← postRinaFrame pf (h.afterCalls k) d' f.pxNbFrame p
        return (event, d', h))) ∨
    (¬ FlowFor pf h d env f.bytes ∧
      ((∃ t, prvShimHandleRinaFrame pf h d f.pxNbFrame env.unReserved env.pxIpcp = .error t) ∨
        ∃ d' k, prvShimHandleRinaFrame pf h d f.pxNbFrame env.unReserved env.pxIpcp =
          .ok (none, d', h.afterCalls k))) := by
  have hptr : pvNetBufPtr pf h f.pxNbFrame = .ok (some f.buffer) := by
    simp only [pvNetBufPtr, Heap.netbuf_of_some hnb, Exec.ok_bind, hlive, Bool.not_false,
      rsAssert_true, hbuf]
    rfl
  have hgha : pxCreateGHA h .MAC_ADDR_802_3 f.bytes (f.buffer.off + 6) =
      .ok (pxSrcHa h f.bytes, h.afterCalls 1) := createSource_eq hlen
  have hblock : h.mem f.buffer.block = some f.bytes := hmem
  have hcode := prvShimHandleRinaFrame.eq_1 pf h d f.pxNbFrame env.unReserved env.pxIpcp
  simp only [hptr, Exec.ok_bind, deref_some, hblock, inBounds_some, hgha] at hcode
  cases hfind : d.prvShimFindFlowByGHA (pxSrcHa h f.bytes) with
  | error t =>
    rw [hfind] at hcode
    refine Or.inr ⟨?_, Or.inl ⟨t, hcode⟩⟩
    rintro ⟨found, hfound, -⟩
    rw [hfind] at hfound
    cases hfound
  | ok found =>
    rw [hfind, Exec.ok_bind] at hcode
    cases found with
    | some p =>
      obtain ⟨flow, hflow⟩ := findByGHA_allocated hfind
      exact Or.inl ⟨⟨some p, hfind, fun hnone => by cases hnone⟩, d, p, flow, 1, hflow, hcode⟩
    | none =>
      have hflowFor : FlowFor pf h d env f.bytes → Granted h 1 ∧ env.unReserved.toNat < 256 ∧
          pf.ndebug = false ∧ env.pxIpcp.any (· env.unReserved) = true := by
        rintro ⟨found, hfound, hnew⟩
        rw [hfind] at hfound
        cases hfound
        exact hnew rfl
      by_cases hg : Granted h 1
      · have hreq : requestMemory (h.afterCalls 1) = (true, h.afterCalls 2) := hg.request
        simp only [ShimData.pvRsMemAllocFlow, hreq] at hcode
        by_cases hport : env.unReserved.toNat < 256
        · have hentry : (d.addFlow ⟨some (pxSrcHa h f.bytes), none, env.unReserved,
              .eALLOCATED⟩).setEntry env.unReserved d.brk =
                .ok (d.enterFlow ⟨some (pxSrcHa h f.bytes), none, env.unReserved, .eALLOCATED⟩
                  hport) := dif_pos hport
          rw [hentry, Exec.ok_bind] at hcode
          rcases bindNewFlow_cases pf env.pxIpcp env.unReserved with ⟨hd, hany, hbind⟩ |
            ⟨hno, hbind | ⟨t, hbind⟩⟩
          · rw [hbind, Exec.ok_bind, Bool.not_true, if_neg Bool.false_ne_true] at hcode
            exact Or.inl ⟨⟨none, hfind, fun _ => ⟨hg, hport, hd, hany⟩⟩, d.enterFlow _ hport, d.brk,
              _, 2, ShimData.setFlow_self d d.brk _, hcode⟩
          · rw [hbind] at hcode
            exact Or.inr ⟨fun hfor => hno (hflowFor hfor).2.2, Or.inr ⟨_, 2, hcode⟩⟩
          · rw [hbind] at hcode
            exact Or.inr ⟨fun hfor => hno (hflowFor hfor).2.2, Or.inl ⟨t, hcode⟩⟩
        · have hentry : ∀ d' : ShimData, d'.setEntry env.unReserved d.brk = .error .outOfBounds :=
            fun d' => dif_neg hport
          simp only [hentry] at hcode
          exact Or.inr ⟨fun hfor => hport (hflowFor hfor).2.1, Or.inl ⟨_, hcode⟩⟩
      · have hreq : requestMemory (h.afterCalls 1) = (false, h.afterCalls 2) :=
          request_refused hg
        simp only [ShimData.pvRsMemAllocFlow, hreq] at hcode
        exact Or.inr ⟨fun hfor => hg (hflowFor hfor).1, Or.inr ⟨d, 2, hcode⟩⟩

/-- The packet is the next netbuf behind the header. -/
theorem next_packet {hdr pkt : Netbuf} {p q : NbPtr} (hf : h.Fresh)
    (hnb : h.netbufs p = some hdr) (hlive : hdr.xFreed = false)
    (hnext : hdr.pxNext = some q) (hpkt : h.netbufs q = some pkt) (hplive : pkt.xFreed = false) :
    pxNetBufNext pf h p = .ok (some q) := by
  obtain ⟨fuel, hfuel⟩ : ∃ fuel, h.brk = fuel + 1 :=
    Nat.exists_eq_succ_of_ne_zero (Nat.ne_of_gt (Nat.lt_of_le_of_lt (Nat.zero_le _)
      (hf.lt_of_netbuf hnb)))
  simp only [pxNetBufNext, Heap.netbuf_of_some hnb, Exec.ok_bind, hlive, Bool.not_false,
    rsAssert_true, hfuel, hnext, firstLive, Heap.netbuf_of_some hpkt, hplive, Bool.false_eq_true,
    if_false]
  rfl

/-- The payload goes to the flow, and the header is freed. -/
theorem postRinaFrame_parted (hi : f.In pf h₀) (k : ℕ) {p : FlowPtr} {flow : ShimFlow}
    (hflow : d.flows p = some flow) :
    ∃ h', postRinaFrame pf (f.parted h₀ k) d f.pxNbFrame p =
      .ok (some (flow.unPort, some h₀.brk), h') ∧ f.HandedOver pf h₀ h' h₀.brk := by
  have ho := hi.parted_owned k
  have hpacket := hi.parted_packet k
  have hnext : pxNetBufNext pf (f.parted h₀ k) f.pxNbFrame = .ok (some h₀.brk) :=
    next_packet ho.chain.fresh (Frame.parted_header k) rfl rfl hpacket rfl
  obtain ⟨h', hfree, hm⟩ := ho.chain.free ho.head (List.mem_cons_of_mem _ List.mem_cons_self)
    hi.ne_brk.symm ⟨_, hpacket, rfl⟩
  have hpacket' : h'.netbufs h₀.brk = some (f.netbuf.behind .NB_RINA_PCI sizeofEthernetHeader) :=
    (hm.other _ hi.ne_brk.symm).trans hpacket
  refine ⟨h', ?_, Or.inr (Nat.le_refl _), ⟨_, hpacket', rfl⟩, fun r hr hne => ?_, fun r hr => ?_,
    Heap.held_of_some hpacket', hm.chain.usable _ _ ((hm.holds _ _).mpr ho.buffer)⟩
  · simp only [postRinaFrame, hnext, hfree, flow_eq_ok.mpr hflow, Exec.ok_bind]
    rfl
  · by_cases hrp : r = f.pxNbFrame
    · exact hrp ▸ hm.dead
    · rintro ⟨nb, hnb, -⟩
      rw [hm.other r hrp, ho.none_of_mine hi.fresh hr (by simp [hrp, hne])] at hnb
      cases hnb
  · have hrp : r ≠ f.pxNbFrame := fun heq => hr (Or.inl heq)
    have hrq : r ≠ h₀.brk := fun heq => hr (Or.inr (Nat.le_of_eq heq.symm))
    exact (hm.other r hrp).trans (ho.other r (by simp [hrp, hrq]))

variable (pf) in
/-- Nothing is behind a frame as it is handed over. -/
theorem Frame.In.next_none (hi : f.In pf h₀) (k : ℕ) :
    pxNetBufNext pf (h₀.afterCalls k) f.pxNbFrame = .ok none := by
  have hnb : (h₀.afterCalls k).netbufs f.pxNbFrame = some f.netbuf := hi.netbuf
  have hin : f.netbuf.xFreed = false := rfl
  simp only [pxNetBufNext, Heap.netbuf_of_some hnb, Exec.ok_bind, hin, Bool.not_false,
    rsAssert_true]
  cases (h₀.afterCalls k).brk <;> rfl

/-- A frame which is only a header is freed, and the event has no data unit. -/
theorem postRinaFrame_header (hi : f.In pf h₀) (k : ℕ) {p : FlowPtr} {flow : ShimFlow}
    (hflow : d.flows p = some flow) :
    ∃ h', postRinaFrame pf (h₀.afterCalls k) d f.pxNbFrame p =
      .ok (some (flow.unPort, none), h') ∧ f.Rejected pf h₀ h' := by
  have ho := hi.owned.afterCalls k
  have hnb : (h₀.afterCalls k).netbufs f.pxNbFrame = some f.netbuf := hi.netbuf
  have hnext := hi.next_none pf k
  obtain ⟨h', hfree, hg⟩ := ho.chain.free_last List.mem_cons_self ⟨_, hnb, rfl⟩
    fun r hr hne => absurd (List.mem_singleton.mp hr) hne
  refine ⟨h', ?_, ho.rejected hi.fresh hg⟩
  simp only [postRinaFrame, hnext, hfree, flow_eq_ok.mpr hflow, Exec.ok_bind]
  rfl

end RinaSense.Shim.OnChain
