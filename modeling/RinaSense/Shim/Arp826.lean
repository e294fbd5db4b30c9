import RinaSense.Shim.ArpRequest

/-!
# Processing ARP packets

What a shim does with an ARP packet it receives. A request for one of the addresses in
its cache is turned into a reply, which leaves in the frame the request came in. A reply
adds its target to the cache.
-/

namespace RinaSense.Shim

open Common Library.Memory Library.Filler

inductive FrameProcessingResult
  | eReleaseBuffer
  | eProcessBuffer
  | eReturnEthernetFrame
  | eFrameConsumed
deriving DecidableEq, Repr

variable (pf : Platform)

/-- The source of the frame becomes the target, and the address which was looked up the
source. The netbuf belongs to the pool of the frame. -/
def prvARPGetResponse (h : Heap) (pxArp : ARP) (xPool : PoolPtr) (pxEthHdr : EthernetHeader)
    (pxARPReq : ARPPacketData) (pxLookupResult : GHA) : Exec (Option Bytes × Heap) := do
  let unSzAddr := pxARPReq.pxARPHdr.ucPALength.toNat
  let uxLength := sizeofARPStaticHeader + (unSzAddr + macLength) * 2
  match ← arpBuffer pf h pxArp uxLength with
  | (none, h) => return (none, h)
  | (some (a, b), h) => do
    let (pxNbARPRes, h) ← pxNetBufNew pf h (some xPool) .NB_RINA_ARP (some ⟨a, 0⟩) uxLength
      (some .vNetBufFreePool)
    match pxNbARPRes with
    | none => do
      let h ← vRsrcFree pf h (some ⟨a, 0⟩)
      return (none, h)
    | some _ => do
      let b ← writeBuf b 0 pxARPReq.pxARPHdr.toBytes
      let xARPRes := prvARPSetupRequestData (← readHeader b)
      let b ← writeBuf b 6 (leBytes 2 ARP_REPLY.toNat)
      let b ← writeBuf b xARPRes.ucSpa (List.replicate unSzAddr 0)
      let b ← writeBuf b xARPRes.ucSpa pxARPReq.pxTpa.pucAddress
      let b ← writeBuf b xARPRes.ucSha pxLookupResult.xAddress.ucBytes
      let b ← writeBuf b xARPRes.ucTpa (List.replicate unSzAddr 0)
      let b ← writeBuf b xARPRes.ucTpa pxARPReq.pxSpa.pucAddress
      let b ← writeBuf b xARPRes.ucTha pxEthHdr.xSourceAddress.ucBytes
      return (some b, h)

/-- The result, the frame as it is left, the component and the heap. When no response
could be made the request itself is returned. -/
def eARPProcessPacket (h : Heap) (pxARP : ARP) (xPool : PoolPtr) (pxNbEth : ArpFrame) :
    Exec (FrameProcessingResult × ArpFrame × ARP × Heap) := do
  let pxARPHdr ← readHeader pxNbEth.arp
  if pxARPHdr.usHType ≠ RsHtoNS ARP_HARDWARE_TYPE_ETHERNET then
    return (.eReleaseBuffer, pxNbEth, pxARP, h)
  if pxARPHdr.ucHALength.toNat ≠ macLength then return (.eReleaseBuffer, pxNbEth, pxARP, h)
  if pxARPHdr.usOperation ≠ ARP_REPLY ∧ pxARPHdr.usOperation ≠ ARP_REQUEST then
    return (.eReleaseBuffer, pxNbEth, pxARP, h)
  match ← prvARPExtractRequestData pf h pxNbEth.arp with
  | (none, h) => return (.eReleaseBuffer, pxNbEth, pxARP, h)
  | (some d, h) =>
    if pxARPHdr.usOperation = ARP_REQUEST then
      match ← eARPCacheLookupGPA pf h pxARP.pxCache d.pxTpa with
      | (.eARPCacheMiss, _, h) =>
        if pf.ndebug then return (.eReleaseBuffer, pxNbEth, pxARP, h)
        else do
          let (copied, h) := xGPAAddressToString h d.pxTpa
          rsAssert pf copied
          return (.eReleaseBuffer, pxNbEth, pxARP, h)
      | (_, pxLookupResult, h) => do
        let pxLookupResult ← initialised pxLookupResult
        match ← prvARPGetResponse pf h pxARP xPool pxNbEth.eth d pxLookupResult with
        | (none, h) => return (.eReturnEthernetFrame, pxNbEth, pxARP, h)
        | (some pxNbArpRes, h) =>
          return (.eReturnEthernetFrame, { pxNbEth with arp := pxNbArpRes }, pxARP, h)
    else do
      let (_, pxCache, h) ← xARPCacheAdd pf h pxARP.pxCache d.pxTpa d.pxTha
      return (.eReleaseBuffer, pxNbEth, { pxARP with pxCache := pxCache }, h)

def prvShimHandleARPFrame (h : Heap) (pxARP : ARP) (xPool : PoolPtr) (pxNbFrame : ArpFrame) :
    Exec (FrameProcessingResult × ArpFrame × ARP × Heap) :=
  if sizeofARPStaticHeader ≤ pxNbFrame.arp.length then
    eARPProcessPacket pf h pxARP xPool pxNbFrame
  else .ok (.eReleaseBuffer, pxNbFrame, pxARP, h)

/-- The frame which goes back to its source. -/
def prvReturnEthernetFrame (pxNbFrame : ArpFrame) : ArpFrame :=
  { pxNbFrame with
    eth :=
      { pxNbFrame.eth with
        xDestinationAddress := pxNbFrame.eth.xSourceAddress
        xSourceAddress := pxNbFrame.eth.xDestinationAddress } }

/-- The part of `vShimHandleEthernetPacket` for ARP frames: the frame which is put out, if
any. -/
def handleEthernetArp (h : Heap) (pxARP : ARP) (xPool : PoolPtr) (pxNbFrame : ArpFrame) :
    Exec (Option ArpFrame × ARP × Heap) := do
  let (eReturned, pxNbFrame, pxARP, h) ← prvShimHandleARPFrame pf h pxARP xPool pxNbFrame
  if eReturned = .eReturnEthernetFrame then
    return (some (prvReturnEthernetFrame pxNbFrame), pxARP, h)
  else return (none, pxARP, h)

/-- The mapping of an application is an ordinary row. -/
def xARPAddApplication (h : Heap) (pxARP : ARP) (pxPa : GPA) (pxHa : GHA) :
    Exec (Int × ARP × Heap) := do
  let (nHndl, pxCache, h) ← xARPCacheAdd pf h pxARP.pxCache pxPa pxHa
  return (nHndl, { pxARP with pxCache := pxCache }, h)

def xARPResolveGPA (h : Heap) (pxARP : ARP) (pxTpa pxSpa : GPA) (pxSha : GHA) :
    Exec (Option ArpFrame × Heap) :=
  if !xIsGPAOK pxTpa || !xIsGHAOK pxSha || !xIsGPAOK pxSpa then .ok (none, h)
  else vARPSendRequest pf h pxARP pxTpa pxSpa pxSha

/-! ### The response -/

/-- A packet in five parts. -/
def packetParts (hdr sha spa tha tpa : Bytes) : Bytes := hdr ++ (sha ++ (spa ++ (tha ++ tpa)))

theorem exists_packetParts {b : Bytes} {n : ℕ} (hb : b.length = 8 + (n + 6) * 2) :
    ∃ hdr sha spa tha tpa, b = packetParts hdr sha spa tha tpa ∧ hdr.length = 8 ∧
      sha.length = 6 ∧ spa.length = n ∧ tha.length = 6 ∧ tpa.length = n := by
  refine ⟨b.take 8, (b.drop 8).take 6, (b.drop 14).take n, (b.drop (14 + n)).take 6,
    b.drop (20 + n), ?_, ?_, ?_, ?_, ?_, ?_⟩
  · have h1 : b.drop (14 + n) = (b.drop (14 + n)).take 6 ++ b.drop (20 + n) := by
      conv_lhs => rw [← List.take_append_drop 6 (b.drop (14 + n)), List.drop_drop]
      rw [show 14 + n + 6 = 20 + n by omega]
    have h2 : b.drop 14 = (b.drop 14).take n ++ b.drop (14 + n) := by
      conv_lhs => rw [← List.take_append_drop n (b.drop 14), List.drop_drop]
    have h3 : b.drop 8 = (b.drop 8).take 6 ++ b.drop 14 := by
      conv_lhs => rw [← List.take_append_drop 6 (b.drop 8), List.drop_drop]
    rw [packetParts, ← h1, ← h2, ← h3, List.take_append_drop]
  all_goals
    simp only [List.length_take, List.length_drop]
    omega

section Writes

variable {hdr sha spa tha tpa bs : Bytes} {o n : ℕ}

theorem writeBuf_middle (pre : Bytes) {old : Bytes} (post bs : Bytes) (ho : o = pre.length)
    (h : bs.length = old.length) :
    writeBuf (pre ++ (old ++ post)) o bs = .ok (pre ++ (bs ++ post)) := by
  rw [writeBuf, patch_middle pre post bs ho h]
  rfl

theorem write_hdr (h : bs.length = hdr.length) :
    writeBuf (packetParts hdr sha spa tha tpa) 0 bs = .ok (packetParts bs sha spa tha tpa) :=
  writeBuf_middle [] _ bs rfl h

theorem write_sha (ho : o = hdr.length) (h : bs.length = sha.length) :
    writeBuf (packetParts hdr sha spa tha tpa) o bs = .ok (packetParts hdr bs spa tha tpa) :=
  writeBuf_middle hdr _ bs ho h

theorem write_spa (ho : o = (hdr ++ sha).length) (h : bs.length = spa.length) :
    writeBuf (packetParts hdr sha spa tha tpa) o bs = .ok (packetParts hdr sha bs tha tpa) := by
  simpa only [packetParts, List.append_assoc] using
    writeBuf_middle (hdr ++ sha) (tha ++ tpa) bs ho h

theorem write_tha (ho : o = (hdr ++ sha ++ spa).length) (h : bs.length = tha.length) :
    writeBuf (packetParts hdr sha spa tha tpa) o bs = .ok (packetParts hdr sha spa bs tpa) := by
  simpa only [packetParts, List.append_assoc] using
    writeBuf_middle (hdr ++ sha ++ spa) tpa bs ho h

theorem write_tpa (ho : o = (hdr ++ sha ++ spa ++ tha).length) (h : bs.length = tpa.length) :
    writeBuf (packetParts hdr sha spa tha tpa) o bs = .ok (packetParts hdr sha spa tha bs) := by
  simpa only [packetParts, List.append_assoc, List.append_nil] using
    writeBuf_middle (hdr ++ sha ++ spa ++ tha) [] bs ho h

/-- Bytes copied over zero bytes are filled up with them. -/
theorem writeBuf_pad (pre post : Bytes) (ho : o = pre.length) (h : bs.length ≤ n) :
    writeBuf (pre ++ (List.replicate n 0 ++ post)) o bs = .ok (pre ++ (pad 0 n bs ++ post)) := by
  have hsplit : List.replicate n (0 : UInt8) =
      List.replicate bs.length 0 ++ List.replicate (n - bs.length) 0 := by
    rw [List.replicate_append_replicate, Nat.add_sub_cancel' h]
  have hold : bs.length = (List.replicate bs.length (0 : UInt8)).length :=
    List.length_replicate.symm
  rw [hsplit, List.append_assoc, writeBuf_middle pre _ bs ho hold, pad, List.append_assoc]

theorem write_spa_pad (ho : o = (hdr ++ sha).length) (h : bs.length ≤ n) :
    writeBuf (packetParts hdr sha (List.replicate n 0) tha tpa) o bs =
      .ok (packetParts hdr sha (pad 0 n bs) tha tpa) := by
  simpa only [packetParts, List.append_assoc] using
    writeBuf_pad (hdr ++ sha) (tha ++ tpa) ho h

theorem write_tpa_pad (ho : o = (hdr ++ sha ++ spa ++ tha).length) (h : bs.length ≤ n) :
    writeBuf (packetParts hdr sha spa tha (List.replicate n 0)) o bs =
      .ok (packetParts hdr sha spa tha (pad 0 n bs)) := by
  simpa only [packetParts, List.append_assoc, List.append_nil] using
    writeBuf_pad (hdr ++ sha ++ spa ++ tha) [] ho h

end Writes

theorem readHeader_packetParts (hdr : ARPStaticHeader) (sha spa tha tpa : Bytes) :
    readHeader (packetParts hdr.toBytes sha spa tha tpa) = .ok hdr := by
  have hs : slice (packetParts hdr.toBytes sha spa tha tpa) 0 8 = some hdr.toBytes :=
    slice_middle [] hdr.toBytes _ rfl hdr.toBytes_length.symm
  simp [readHeader, readBuf, sizeofARPStaticHeader, hs, pure, Except.pure]

/-- The operation is the last member of the header. -/
theorem write_usOperation (hdr : ARPStaticHeader) (sha spa tha tpa : Bytes) (op : UInt16) :
    writeBuf (packetParts hdr.toBytes sha spa tha tpa) 6 (leBytes 2 op.toNat) =
      .ok (packetParts { hdr with usOperation := op }.toBytes sha spa tha tpa) := by
  have hlen : (leBytes 2 op.toNat).length = (leBytes 2 hdr.usOperation.toNat).length := by
    rw [leBytes_length, leBytes_length]
  have ho : 6 = (leBytes 2 hdr.usHType.toNat ++ leBytes 2 hdr.usPType.toNat ++
      [hdr.ucHALength, hdr.ucPALength]).length := rfl
  simpa only [packetParts, ARPStaticHeader.toBytes, List.append_assoc] using
    writeBuf_middle _ (sha ++ (spa ++ (tha ++ tpa))) (leBytes 2 op.toNat) ho hlen

/-- The writes of `prvARPGetResponse` to its buffer `b`. -/
def fillResponse (b : Bytes) (pxARPReq : ARPPacketData) (ha src : MACAddress) : Exec Bytes := do
  let unSzAddr := pxARPReq.pxARPHdr.ucPALength.toNat
  let b ← writeBuf b 0 pxARPReq.pxARPHdr.toBytes
  let xARPRes := prvARPSetupRequestData (← readHeader b)
  let b ← writeBuf b 6 (leBytes 2 ARP_REPLY.toNat)
  let b ← writeBuf b xARPRes.ucSpa (List.replicate unSzAddr 0)
  let b ← writeBuf b xARPRes.ucSpa pxARPReq.pxTpa.pucAddress
  let b ← writeBuf b xARPRes.ucSha ha.ucBytes
  let b ← writeBuf b xARPRes.ucTpa (List.replicate unSzAddr 0)
  let b ← writeBuf b xARPRes.ucTpa pxARPReq.pxSpa.pucAddress
  writeBuf b xARPRes.ucTha src.ucBytes

/-- The packet which answers a request: its header with the other operation, and its addresses
the other way round, filled up to their length. -/
def responseBytes (pxARPReq : ARPPacketData) (ha src : MACAddress) : Bytes :=
  packetParts { pxARPReq.pxARPHdr with usOperation := ARP_REPLY }.toBytes ha.ucBytes
    (pad 0 pxARPReq.pxARPHdr.ucPALength.toNat pxARPReq.pxTpa.pucAddress) src.ucBytes
    (pad 0 pxARPReq.pxARPHdr.ucPALength.toNat pxARPReq.pxSpa.pucAddress)

/-- The writes leave no byte of the buffer as it was. -/
theorem fillResponse_eq {b : Bytes} {d : ARPPacketData} {n : ℕ}
    (hn : n = d.pxARPHdr.ucPALength.toNat) (hb : b.length = 8 + (n + 6) * 2)
    (hha : d.pxARPHdr.ucHALength.toNat = macLength) (htpa : d.pxTpa.uxLength ≤ n)
    (hspa : d.pxSpa.uxLength ≤ n) (ha src : MACAddress) :
    fillResponse b d ha src = .ok (responseBytes d ha src) := by
  rcases exists_packetParts hb with ⟨hdr, sha, spa, tha, tpa, rfl, h8, hsha, hspa', htha, htpa'⟩
  have hpad : (pad 0 n d.pxTpa.pucAddress).length = n := pad_length htpa
  have hz : (List.replicate n (0 : UInt8)).length = n := List.length_replicate
  have h8' : ({ d.pxARPHdr with usOperation := ARP_REPLY } : ARPStaticHeader).toBytes.length = 8 :=
    ARPStaticHeader.toBytes_length _
  simp only [fillResponse, responseBytes, ← hn, Exec.ok_bind, readHeader_packetParts,
    write_usOperation, setup_ethernet hha,
    write_hdr ((ARPStaticHeader.toBytes_length _).trans h8.symm)]
  rw [write_spa (by simp only [List.length_append, h8', hsha]) (hz.trans hspa'.symm),
    Exec.ok_bind, write_spa_pad (by simp only [List.length_append, h8', hsha]) htpa,
    Exec.ok_bind, write_sha h8'.symm ((MACAddress.ucBytes_length _).trans hsha.symm),
    Exec.ok_bind, write_tpa (by
      simp only [List.length_append, h8', hpad, MACAddress.ucBytes_length, htha]
      omega) (hz.trans htpa'.symm),
    Exec.ok_bind, write_tpa_pad (by
      simp only [List.length_append, h8', hpad, MACAddress.ucBytes_length, htha]
      omega) hspa,
    Exec.ok_bind, write_tha (by
      simp only [List.length_append, h8', hpad, MACAddress.ucBytes_length])
      ((MACAddress.ucBytes_length _).trans htha.symm)]

theorem prvARPGetResponse_eq (h : Heap) (pxArp : ARP) (xPool : PoolPtr) (eth : EthernetHeader)
    (d : ARPPacketData) (m : GHA) : prvARPGetResponse pf h pxArp xPool eth d m = (do
      let uxLength := sizeofARPStaticHeader + (d.pxARPHdr.ucPALength.toNat + macLength) * 2
      match ← arpBuffer pf h pxArp uxLength with
      | (none, h) => return (none, h)
      | (some (a, b), h) => do
        let (pxNbARPRes, h) ← pxNetBufNew pf h (some xPool) .NB_RINA_ARP (some ⟨a, 0⟩) uxLength
          (some .vNetBufFreePool)
        match pxNbARPRes with
        | none => do
          let h ← vRsrcFree pf h (some ⟨a, 0⟩)
          return (none, h)
        | some _ => do
          let b ← fillResponse b d m.xAddress eth.xSourceAddress
          return (some b, h)) := by
  simp only [prvARPGetResponse, fillResponse, bind_assoc]

/-- A reply carries the addresses of the request the other way round, filled up to the
length of the request's addresses. -/
theorem prvARPGetResponse_available {pxArp : ARP} {h : Heap} (hm : ArpMemory pxArp h)
    (xPool : PoolPtr) (eth : EthernetHeader) {d : ARPPacketData} (m : GHA) {n : ℕ}
    {op : UInt16} (hn : n < 256) (hhdr : d.pxARPHdr = arpHeader op n)
    (htpa : d.pxTpa.uxLength ≤ n) (hspa : d.pxSpa.uxLength ≤ n) :
    ∃ h', prvARPGetResponse pf h pxArp xPool eth d m =
      .ok (some (arpPacket ARP_REPLY m.xAddress (pad 0 n d.pxTpa.pucAddress) eth.xSourceAddress
        (pad 0 n d.pxSpa.pucAddress)), h') ∧ h.SameSupply h' := by
  have hpa : d.pxARPHdr.ucPALength.toNat = n := by rw [hhdr, arpHeader_ucPALength op hn]
  have hha : d.pxARPHdr.ucHALength.toNat = macLength := by rw [hhdr]; rfl
  have hn0 : sizeofARPStaticHeader + (n + macLength) * 2 ≠ 0 := by simp [sizeofARPStaticHeader]
  rcases arpBuffer_available pf hm hn0 with ⟨a, h₁, hbuf, hs₁⟩
  rcases pxNetBufNew_available pf (hm.sameSupply hs₁).available xPool .NB_RINA_ARP
    (some ⟨a, 0⟩) hn0 (some .vNetBufFreePool) with ⟨p, h₂, hnb, -, hs₂⟩
  have hfill := fillResponse_eq hpa.symm (freshBytes_length pf h _) hha htpa hspa m.xAddress
    eth.xSourceAddress
  have hdone : responseBytes d m.xAddress eth.xSourceAddress =
      arpPacket ARP_REPLY m.xAddress (pad 0 n d.pxTpa.pucAddress) eth.xSourceAddress
        (pad 0 n d.pxSpa.pucAddress) := by
    rw [arpPacket, pad_length htpa, responseBytes, hpa, hhdr]
    rfl
  refine ⟨h₂, ?_, hs₁.trans hs₂⟩
  rw [hdone] at hfill
  simp only [prvARPGetResponse_eq, hpa, hbuf, hnb, Exec.ok_bind]
  rw [show sizeofARPStaticHeader + (n + macLength) * 2 = 8 + (n + 6) * 2 from rfl, hfill]
  rfl

/-! ### What comes back for a packet -/

/-- The answer to a request which found the hardware address `m`. -/
def replyFrame (eth : EthernetHeader) (spa tpa : Bytes) (m : GHA) : ArpFrame :=
  prvReturnEthernetFrame ⟨eth, arpPacket ARP_REPLY m.xAddress (pad 0 spa.length (cut 0 tpa))
    eth.xSourceAddress (pad 0 spa.length (cut 0 spa))⟩

theorem cut_length_le (f : UInt8) (xs : Bytes) : (cut f xs).length ≤ xs.length :=
  (List.takeWhile_prefix _).length_le

section Processing

variable {pxARP : ARP} {h : Heap} (xPool : PoolPtr) {frame : ArpFrame} {op : UInt16}
  {sha tha : MACAddress} {spa tpa : Bytes}

theorem arpPacket_length_ge (op : UInt16) (sha tha : MACAddress) (spa tpa : Bytes) :
    sizeofARPStaticHeader ≤ (arpPacket op sha spa tha tpa).length := by
  simp [arpPacket, sizeofARPStaticHeader]

/-- A request is answered from the cache, which stays as it is. -/
theorem handleEthernetArp_request (hm : ArpMemory pxARP h)
    (hrows : ∀ r ∈ pxARP.pxCache.pxRows, r.Complete)
    (harp : frame.arp = arpPacket ARP_REQUEST sha spa tha tpa) (hne : spa ≠ [])
    (hlen : tpa.length = spa.length) (hmax : spa.length < 256) (hkey : cut 0 tpa ≠ []) :
    ∃ h', handleEthernetArp pf h pxARP xPool frame =
        .ok ((lookupResult ⟨cut 0 tpa⟩ pxARP.pxCache.pxRows).map
          (replyFrame frame.eth spa tpa), pxARP, h') ∧ h.SameSupply h' := by
  rcases prvARPExtractRequestData_arpPacket pf hm.available ARP_REQUEST sha tha hne hlen hmax with
    ⟨k, hparse⟩
  have hm₁ := hm.available.afterCalls k
  rcases eARPCacheLookupGPA_available pf hrows ⟨cut 0 tpa⟩ hm₁ with ⟨k', hlookup⟩
  rw [Heap.afterCalls_afterCalls] at hlookup
  have hs := h.sameSupply_afterCalls (k + k')
  have hbig := arpPacket_length_ge ARP_REQUEST sha tha spa tpa
  have hty : (arpHeader ARP_REQUEST spa.length).usHType = RsHtoNS ARP_HARDWARE_TYPE_ETHERNET :=
    rfl
  have hha : (arpHeader ARP_REQUEST spa.length).ucHALength.toNat = macLength := rfl
  have hop : (arpHeader ARP_REQUEST spa.length).usOperation = ARP_REQUEST := rfl
  simp only [handleEthernetArp, prvShimHandleARPFrame, eARPProcessPacket, harp, hbig, if_true,
    readHeader_arpPacket, Exec.ok_bind, hty, hha, hop, hparse, hlookup, ne_eq,
    not_true_eq_false, and_false, if_false]
  cases hres : lookupResult ⟨cut 0 tpa⟩ pxARP.pxCache.pxRows with
  | none =>
    by_cases hd : pf.ndebug = true
    · exact ⟨_, by simp [lookupOutcome, hd, pure, Except.pure], hs⟩
    · have hstr := xGPAAddressToString_available (hm.available.afterCalls (k + k'))
        (g := ⟨cut 0 tpa⟩) hkey
      refine ⟨_, ?_, h.sameSupply_afterCalls (k + k' + 1)⟩
      simp [lookupOutcome, hd, hstr, pure, Except.pure]
  | some m =>
    have htpa : (GPA.mk (cut 0 tpa)).uxLength ≤ spa.length := hlen ▸ cut_length_le 0 tpa
    rcases prvARPGetResponse_available pf (hm.sameSupply hs) xPool frame.eth m
      (d := ⟨⟨14, 8, 20 + spa.length, 14 + spa.length⟩, arpHeader ARP_REQUEST spa.length,
        ⟨cut 0 spa⟩, ⟨.MAC_ADDR_802_3, sha⟩, ⟨cut 0 tpa⟩, ⟨.MAC_ADDR_802_3, tha⟩⟩) hmax rfl htpa
      (cut_length_le 0 spa) with ⟨h', hresp, hs'⟩
    refine ⟨h', ?_, hs.trans hs'⟩
    simp [lookupOutcome, hresp, replyFrame, pure, Except.pure]

/-- The target of a reply and its hardware address are added to the cache. -/
theorem handleEthernetArp_reply (pxARP : ARP) (hm : h.MemoryAvailable)
    (harp : frame.arp = arpPacket ARP_REPLY sha spa tha tpa) (hne : spa ≠ [])
    (hlen : tpa.length = spa.length) (hmax : spa.length < 256) :
    ∃ k, handleEthernetArp pf h pxARP xPool frame = (do
      let (_, pxCache, h) ← xARPCacheAdd pf (h.afterCalls k) pxARP.pxCache ⟨cut 0 tpa⟩
        ⟨.MAC_ADDR_802_3, tha⟩
      return (none, { pxARP with pxCache := pxCache }, h)) := by
  rcases prvARPExtractRequestData_arpPacket pf hm ARP_REPLY sha tha hne hlen hmax with
    ⟨k, hparse⟩
  have hbig := arpPacket_length_ge ARP_REPLY sha tha spa tpa
  have hty : (arpHeader ARP_REPLY spa.length).usHType = RsHtoNS ARP_HARDWARE_TYPE_ETHERNET := rfl
  have hha : (arpHeader ARP_REPLY spa.length).ucHALength.toNat = macLength := rfl
  have hop : (arpHeader ARP_REPLY spa.length).usOperation = ARP_REPLY := rfl
  have hne' : ARP_REPLY ≠ ARP_REQUEST := by decide
  refine ⟨k, ?_⟩
  simp only [handleEthernetArp, prvShimHandleARPFrame, eARPProcessPacket, harp, hbig, if_true,
    readHeader_arpPacket, Exec.ok_bind, hty, hha, hop, hparse, ne_eq, not_true_eq_false,
    false_and, if_false, hne']
  cases xARPCacheAdd pf (h.afterCalls k) pxARP.pxCache ⟨cut 0 tpa⟩ ⟨.MAC_ADDR_802_3, tha⟩ with
  | error t => rfl
  | ok out => rfl

end Processing

end RinaSense.Shim
