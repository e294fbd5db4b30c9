import RinaSense.Common.Rsrc
import RinaSense.Common.Netbuf
import RinaSense.Shim.ArpCache

/-!
# ARP packets

The request builder and the parser of `ARP826.c`. A packet is a static header followed
by the sender's and the target's hardware and protocol addresses. Both protocol
addresses take as many bytes as the header says.
-/

namespace RinaSense.Shim

open Common Library.Memory Library.Filler

def ETH_P_RINA : UInt16 := 0xD1F0

def ETH_P_RINA_ARP : UInt16 := 0x4305

def ARP_HARDWARE_TYPE_ETHERNET : UInt16 := 0x0001

/-- The operations are in network order already. -/
def ARP_REQUEST : UInt16 := 0x0100

def ARP_REPLY : UInt16 := 0x0200

/-- The swap of a host with the least significant byte first. -/
def RsHtoNS (x : UInt16) : UInt16 := (x <<< 8) ||| (x >>> 8)

structure EthernetHeader where
  xDestinationAddress : MACAddress
  xSourceAddress : MACAddress
  usFrameType : UInt16
deriving DecidableEq

def sizeofEthernetHeader : ℕ := 14

/-- An Ethernet header with the ARP packet behind it. -/
structure ArpFrame where
  eth : EthernetHeader
  arp : Bytes
deriving DecidableEq

structure ARPStaticHeader where
  usHType : UInt16
  usPType : UInt16
  ucHALength : UInt8
  ucPALength : UInt8
  usOperation : UInt16
deriving DecidableEq, Repr

def sizeofARPStaticHeader : ℕ := 8

def ARPStaticHeader.toBytes (hdr : ARPStaticHeader) : Bytes :=
  leBytes 2 hdr.usHType.toNat ++ leBytes 2 hdr.usPType.toNat ++
    [hdr.ucHALength, hdr.ucPALength] ++ leBytes 2 hdr.usOperation.toNat

def ARPStaticHeader.ofBytes (bs : Bytes) : ARPStaticHeader where
  usHType := (leVal (bs.take 2)).toUInt16
  usPType := (leVal ((bs.drop 2).take 2)).toUInt16
  ucHALength := bs.getD 4 0
  ucPALength := bs.getD 5 0
  usOperation := (leVal ((bs.drop 6).take 2)).toUInt16

def readHeader (pkt : Bytes) : Exec ARPStaticHeader := do
  let bs ← readBuf pkt 0 sizeofARPStaticHeader
  return .ofBytes bs

inductive ARPPacketPtrType
  | SHA
  | SPA
  | THA
  | TPA
  | PACKET_END
deriving DecidableEq, Repr

def ARPPacketPtrType.toNat : ARPPacketPtrType → ℕ
  | .SHA => 0
  | .SPA => 1
  | .THA => 2
  | .TPA => 3
  | .PACKET_END => 4

/-- The position of an item in the packet. -/
def pxARPHeaderGetPtr (ePtrType : ARPPacketPtrType) (hdr : ARPStaticHeader) : ℕ :=
  let e := ePtrType.toNat
  let p := sizeofARPStaticHeader
  if ePtrType = .SHA then p
  else
    let p := if ARPPacketPtrType.SPA.toNat ≤ e then p + hdr.ucHALength.toNat else p
    let p := if ARPPacketPtrType.THA.toNat ≤ e then p + hdr.ucPALength.toNat else p
    let p := if ARPPacketPtrType.TPA.toNat ≤ e then p + hdr.ucHALength.toNat else p
    if ARPPacketPtrType.PACKET_END.toNat ≤ e ∧ hdr.usOperation = ARP_REPLY then
      p + hdr.ucPALength.toNat
    else p

/-- The positions of the four addresses in the packet. -/
structure ARPPacketPtrs where
  ucSpa : ℕ
  ucSha : ℕ
  ucTpa : ℕ
  ucTha : ℕ
deriving DecidableEq, Repr

structure ARPPacketData extends ARPPacketPtrs where
  pxARPHdr : ARPStaticHeader
  pxSpa : GPA
  pxSha : GHA
  pxTpa : GPA
  pxTha : GHA
deriving DecidableEq

/-- What `xARPInit` sets up. -/
structure ARP where
  pxCache : ARPCache
  xEthPool : PoolPtr
  xArpPool : PoolPtr

def xBroadcastHa : GHA := ⟨.MAC_ADDR_802_3, ⟨List.replicate 6 0xFF, rfl⟩⟩

variable (pf : Platform)

def prvARPSetupRequestData (hdr : ARPStaticHeader) : ARPPacketPtrs where
  ucSha := pxARPHeaderGetPtr .SHA hdr
  ucSpa := pxARPHeaderGetPtr .SPA hdr
  ucTha := pxARPHeaderGetPtr .THA hdr
  ucTpa := pxARPHeaderGetPtr .TPA hdr

/-- A failure before the last address is created makes `prvARPFreeRequestData` look at
members which nothing has set. -/
def prvARPExtractRequestData (h : Heap) (pkt : Bytes) :
    Exec (Option ARPPacketData × Heap) := do
  let hdr ← readHeader pkt
  rsAssert pf (hdr.usHType == RsHtoNS ARP_HARDWARE_TYPE_ETHERNET)
  rsAssert pf (hdr.ucHALength.toNat == macLength)
  let nPlen := hdr.ucPALength.toNat
  let ptrs := prvARPSetupRequestData hdr
  let (pxSha, h) ← pxCreateGHA h .MAC_ADDR_802_3 pkt ptrs.ucSha
  let pxSha ← initialised pxSha
  let (pxSpa, h) ← pxCreateGPA h pkt ptrs.ucSpa nPlen
  let pxSpa ← initialised pxSpa
  let (pxTha, h) ← pxCreateGHA h .MAC_ADDR_802_3 pkt ptrs.ucTha
  let pxTha ← initialised pxTha
  let (shrunk, pxSpa, h) := xGPAShrink h pxSpa 0x00
  let pxSpa ← initialised (if shrunk then some pxSpa else none)
  match ← pxCreateGPA h pkt ptrs.ucTpa nPlen with
  | (none, h) => return (none, h)
  | (some pxTpa, h) =>
    let (shrunk, pxTpa, h) := xGPAShrink h pxTpa 0x00
    if !shrunk then return (none, h)
    return (some
      { ptrs with pxARPHdr := hdr, pxSpa := pxSpa, pxSha := pxSha, pxTpa := pxTpa, pxTha := pxTha },
      h)

/-- The contents of a new buffer of the ARP packet pool. -/
def arpBuffer (h : Heap) (pxArp : ARP) (unSz : ℕ) : Exec (Option (ℕ × Bytes) × Heap) := do
  let (pxArpBuf, h) ← pxRsrcVarAlloc pf h (some pxArp.xArpPool) (some "ARP packet") unSz
  match pxArpBuf with
  | none => return (none, h)
  | some a => do
    let b ← inBounds (h.mem a)
    return (some (a, b), h)

/-- The members of the header are assigned one by one, here in a single write. -/
def prvARPGetRequest (h : Heap) (pxArp : ARP) (pxSha : GHA) (pxSpa pxTpa : GPA)
    (usPtype : UInt16) : Exec (Option Bytes × Heap) := do
  let pxTha := xBroadcastHa
  let unSz := sizeofARPStaticHeader + (pxSpa.uxLength + macLength) * 2
  match ← arpBuffer pf h pxArp unSz with
  | (none, h) => return (none, h)
  | (some (a, b), h) => do
    let (pxNbArp, h) ← pxNetBufNew pf h (some pxArp.xArpPool) .NB_RINA_ARP (some ⟨a, 0⟩) unSz
      (some .vNetBufFreePool)
    match pxNbArp with
    | none => return (none, h)
    | some _ => do
      let pxArpHdr : ARPStaticHeader :=
        { usHType := RsHtoNS 0x0001
          usPType := RsHtoNS ETH_P_RINA
          ucHALength := macLength.toUInt8
          ucPALength := pxSpa.uxLength.toUInt8
          usOperation := usPtype }
      let b ← writeBuf b 0 pxArpHdr.toBytes
      let pvArpPtr := sizeofARPStaticHeader
      let b ← writeBuf b pvArpPtr pxSha.xAddress.ucBytes
      let pvArpPtr := pvArpPtr + macLength
      let b ← writeBuf b pvArpPtr pxSpa.pucAddress
      let pvArpPtr := pvArpPtr + pxSpa.uxLength
      let b ← writeBuf b pvArpPtr pxTha.xAddress.ucBytes
      let pvArpPtr := pvArpPtr + macLength
      let b ← writeBuf b pvArpPtr pxTpa.pucAddress
      return (some b, h)

def pxEthAllocHeader (h : Heap) (xEthPool : PoolPtr) (pxSha pxTha : GHA) :
    Exec (Option EthernetHeader × Heap) := do
  let (pxHdr, h) ← pxRsrcAlloc pf h (some xEthPool) (some "")
  match pxHdr with
  | none => return (none, h)
  | some a => do
    let (pxEthNb, h) ← pxNetBufNew pf h (some xEthPool) .NB_ETH_HDR (some ⟨a, 0⟩)
      sizeofEthernetHeader (some .vNetBufFreePool)
    match pxEthNb with
    | none => return (none, h)
    | some _ => do
      let b ← inBounds (h.mem a)
      let _ ← readBuf b 0 sizeofEthernetHeader
      return (some
        { xDestinationAddress := pxTha.xAddress
          xSourceAddress := pxSha.xAddress
          usFrameType := RsHtoNS ETH_P_RINA_ARP }, h)

/-- The frame which is put out, if any. The addresses which were grown to a common length
are not the ones that go into the packet. -/
def vARPSendRequest (h : Heap) (pxArp : ARP) (pxTpa pxSpa : GPA) (pxSha : GHA) :
    Exec (Option ArpFrame × Heap) := do
  let xMaxLen := max pxSpa.uxLength pxTpa.uxLength
  match ← pxDupGPA h pxSpa false 0 with
  | (none, h) => return (none, h)
  | (some pxGrownSpa, h) =>
    match ← pxDupGPA h pxTpa false 0 with
    | (none, h) => return (none, h)
    | (some pxGrownTpa, h) =>
      match xGPAGrow h pxGrownSpa xMaxLen 0x00 with
      | (false, _, h) => return (none, h)
      | (true, _, h) =>
        match xGPAGrow h pxGrownTpa xMaxLen 0x00 with
        | (false, _, h) => return (none, h)
        | (true, _, h) => do
          match ← prvARPGetRequest pf h pxArp pxSha pxSpa pxTpa ARP_REQUEST with
          | (none, h) => return (none, h)
          | (some pxNbArp, h) =>
            match ← pxEthAllocHeader pf h pxArp.xEthPool pxSha xBroadcastHa with
            | (none, h) => return (none, h)
            | (some pxNbEth, h) => return (some ⟨pxNbEth, pxNbArp⟩, h)

/-- The copies which are grown to a common length only cost memory. -/
theorem vARPSendRequest_copies {h : Heap} (hma : h.MemoryAvailable) (pxArp : ARP) (sha : GHA)
    {spa tpa : GPA} (hspa : spa.pucAddress ≠ []) (htpa : tpa.pucAddress ≠ []) :
    ∃ k, vARPSendRequest pf h pxArp tpa spa sha = (do
      match ← prvARPGetRequest pf (h.afterCalls k) pxArp sha spa tpa ARP_REQUEST with
      | (none, h) => return (none, h)
      | (some pxNbArp, h) =>
        match ← pxEthAllocHeader pf h pxArp.xEthPool sha xBroadcastHa with
        | (none, h) => return (none, h)
        | (some pxNbEth, h) => return (some ⟨pxNbEth, pxNbArp⟩, h)) := by
  have hd₁ := pxDupGPA_available hma hspa 0
  have hd₂ := pxDupGPA_available (hma.afterCalls 2) htpa 0
  rcases xGPAGrow_available (hma.afterCalls 4) hspa (Nat.le_max_left _ tpa.uxLength) 0 with
    ⟨k₁, hg₁⟩
  rcases xGPAGrow_available (hma.afterCalls (4 + k₁)) htpa (Nat.le_max_right spa.uxLength _) 0
    with ⟨k₂, hg₂⟩
  refine ⟨4 + k₁ + k₂, ?_⟩
  simp only [Heap.afterCalls_afterCalls] at hd₂ hg₁ hg₂
  simp only [vARPSendRequest, hd₁, hd₂, hg₁, hg₂, Exec.ok_bind]

@[simp] theorem ARPStaticHeader.toBytes_length (hdr : ARPStaticHeader) :
    hdr.toBytes.length = 8 := by
  simp [ARPStaticHeader.toBytes]

theorem toUInt16_leVal_leBytes (x : UInt16) : (leVal (leBytes 2 x.toNat)).toUInt16 = x := by
  have hx : x.toNat < 256 ^ 2 := x.toNat_lt
  rw [leVal_leBytes, Nat.mod_eq_of_lt hx]
  simp

@[simp] theorem ARPStaticHeader.ofBytes_toBytes (hdr : ARPStaticHeader) :
    ARPStaticHeader.ofBytes hdr.toBytes = hdr := by
  have hh : (hdr.toBytes.take 2) = leBytes 2 hdr.usHType.toNat := rfl
  have hp : ((hdr.toBytes.drop 2).take 2) = leBytes 2 hdr.usPType.toNat := rfl
  have ho : ((hdr.toBytes.drop 6).take 2) = leBytes 2 hdr.usOperation.toNat := rfl
  have hha : hdr.toBytes.getD 4 0 = hdr.ucHALength := rfl
  have hpa : hdr.toBytes.getD 5 0 = hdr.ucPALength := rfl
  simp only [ARPStaticHeader.ofBytes, hh, hp, ho, hha, hpa, toUInt16_leVal_leBytes]

/-- The header of a packet over Ethernet. -/
def arpHeader (op : UInt16) (n : ℕ) : ARPStaticHeader where
  usHType := RsHtoNS 0x0001
  usPType := RsHtoNS ETH_P_RINA
  ucHALength := macLength.toUInt8
  ucPALength := n.toUInt8
  usOperation := op

/-- A packet with its four addresses. -/
def arpPacket (op : UInt16) (sha : MACAddress) (spa : Bytes) (tha : MACAddress)
    (tpa : Bytes) : Bytes :=
  (arpHeader op spa.length).toBytes ++ (sha.ucBytes ++ (spa ++ (tha.ucBytes ++ tpa)))

section Parsing

variable (op : UInt16) (sha tha : MACAddress) (spa tpa : Bytes)

theorem slice_header : slice (arpPacket op sha spa tha tpa) 0 8 =
    some (arpHeader op spa.length).toBytes :=
  slice_middle [] (arpHeader op spa.length).toBytes _ rfl
    (ARPStaticHeader.toBytes_length _).symm

theorem readHeader_arpPacket :
    readHeader (arpPacket op sha spa tha tpa) = .ok (arpHeader op spa.length) := by
  simp [readHeader, readBuf, sizeofARPStaticHeader, slice_header, pure, Except.pure]

theorem slice_sha : slice (arpPacket op sha spa tha tpa) 8 6 = some sha.ucBytes :=
  slice_middle _ _ _ (by simp) (by simp)

theorem slice_spa : slice (arpPacket op sha spa tha tpa) 14 spa.length = some spa := by
  rw [arpPacket, ← List.append_assoc]
  exact slice_middle _ _ _ (by simp) rfl

theorem slice_tha :
    slice (arpPacket op sha spa tha tpa) (14 + spa.length) 6 = some tha.ucBytes := by
  have hpre : 14 + spa.length =
      ((arpHeader op spa.length).toBytes ++ sha.ucBytes ++ spa).length := by
    simp only [List.length_append, MACAddress.ucBytes_length, ARPStaticHeader.toBytes_length]
  rw [arpPacket, ← List.append_assoc, ← List.append_assoc]
  exact slice_middle _ _ _ hpre (by simp)

theorem slice_tpa (hlen : tpa.length = spa.length) :
    slice (arpPacket op sha spa tha tpa) (20 + spa.length) spa.length = some tpa := by
  have hpre : 20 + spa.length = ((arpHeader op spa.length).toBytes ++ sha.ucBytes ++ spa ++
      tha.ucBytes).length := by
    simp only [List.length_append, MACAddress.ucBytes_length, ARPStaticHeader.toBytes_length]
    omega
  have hs := slice_middle _ tpa [] hpre hlen.symm
  rw [List.append_nil] at hs
  simpa only [arpPacket, List.append_assoc] using hs

end Parsing

theorem arpHeader_ucPALength (op : UInt16) {n : ℕ} (hn : n < 256) :
    (arpHeader op n).ucPALength.toNat = n := by
  simp only [arpHeader, Nat.toUInt8_eq, UInt8.toNat_ofNat']
  exact Nat.mod_eq_of_lt hn

/-- The positions of the addresses behind a header for Ethernet. -/
theorem setup_ethernet {hdr : ARPStaticHeader} (hha : hdr.ucHALength.toNat = macLength) :
    prvARPSetupRequestData hdr =
      ⟨14, 8, 20 + hdr.ucPALength.toNat, 14 + hdr.ucPALength.toNat⟩ := by
  simp only [prvARPSetupRequestData, pxARPHeaderGetPtr, ARPPacketPtrType.toNat, hha, macLength,
    sizeofARPStaticHeader, ARPPacketPtrs.mk.injEq]
  simp
  omega

/-- The positions of the addresses when the protocol addresses have `n` bytes. -/
theorem setup_arpHeader (op : UInt16) {n : ℕ} (hn : n < 256) :
    prvARPSetupRequestData (arpHeader op n) = ⟨14, 8, 20 + n, 14 + n⟩ := by
  rw [setup_ethernet (rfl : (arpHeader op n).ucHALength.toNat = macLength),
    arpHeader_ucPALength op hn]

/-- Parsing a packet gives back its addresses up to their filler. -/
theorem prvARPExtractRequestData_arpPacket {h : Heap} (hm : h.MemoryAvailable) (op : UInt16)
    (sha tha : MACAddress) {spa tpa : Bytes} (hne : spa ≠ []) (hlen : tpa.length = spa.length)
    (hmax : spa.length < 256) :
    ∃ k, prvARPExtractRequestData pf h (arpPacket op sha spa tha tpa) = .ok (some
      { ucSpa := 14, ucSha := 8, ucTpa := 20 + spa.length, ucTha := 14 + spa.length
        pxARPHdr := arpHeader op spa.length
        pxSpa := ⟨cut 0 spa⟩
        pxSha := ⟨.MAC_ADDR_802_3, sha⟩
        pxTpa := ⟨cut 0 tpa⟩
        pxTha := ⟨.MAC_ADDR_802_3, tha⟩ }, h.afterCalls k) := by
  have hn0 : spa.length ≠ 0 := by simpa using hne
  have hpa := arpHeader_ucPALength op hmax
  have hty : ((arpHeader op spa.length).usHType == RsHtoNS ARP_HARDWARE_TYPE_ETHERNET) = true :=
    rfl
  have hha : ((arpHeader op spa.length).ucHALength.toNat == macLength) = true := rfl
  have hsetup := setup_arpHeader op hmax
  have hsha := pxCreateGHA_available hm (slice_sha op sha tha spa tpa)
  have hspa := pxCreateGPA_available (hm.afterCalls 1) hn0 (slice_spa op sha tha spa tpa)
  have htha := pxCreateGHA_available (hm.afterCalls 3) (slice_tha op sha tha spa tpa)
  rcases xGPAShrink_available (hm.afterCalls 4) (g := ⟨spa⟩) hne 0 with ⟨k, hshrink⟩
  have htpa := pxCreateGPA_available (hm.afterCalls (4 + k)) hn0
    (slice_tpa op sha tha spa tpa hlen)
  have htne : tpa ≠ [] := by
    intro hnil
    rw [hnil, List.length_nil] at hlen
    omega
  rcases xGPAShrink_available (hm.afterCalls (4 + k + 2)) (g := ⟨tpa⟩) htne 0 with ⟨k', hshrink'⟩
  refine ⟨4 + k + 2 + k', ?_⟩
  simp only [Heap.afterCalls_afterCalls] at hspa htha hshrink htpa hshrink'
  simp only [prvARPExtractRequestData, readHeader_arpPacket, Exec.ok_bind, hty, hha,
    rsAssert_true, hpa, hsetup, hsha, initialised_some, hspa, htha, hshrink, htpa, hshrink',
    if_true, Bool.not_true, Bool.false_eq_true, if_false, pure, Except.pure]

end RinaSense.Shim
