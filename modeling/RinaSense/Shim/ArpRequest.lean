import RinaSense.Shim.ArpPacket

/-!
# Building and parsing a request

A request is built in a buffer whose size comes from the source address alone, and the
target address is copied behind everything else. It fits, and reads back, exactly when
it is not longer than the source address.
-/

namespace RinaSense.Shim

open Common Library.Memory Library.Filler

def CFG_ARP_CACHE_ENTRIES : ℕ := 4

/-- The set-up of the ARP component. The pools come from the pool of pools, so their
addresses are given. -/
def xARPInit (h : Heap) (xArpPool xEthPool : PoolPtr) : Exec (Option ARP × Heap) :=
  match pxARPCacheCreate h .MAC_ADDR_802_3 CFG_ARP_CACHE_ENTRIES with
  | (none, h) => .ok (none, h)
  | (some pxCache, h) => do
    let (_, h, pool) ← prviRsrcInitPool h xArpPool "ARP packets memory pool" 0 0 1 0
    let h := h.setPool xArpPool pool
    let (_, h, pool) ← prviRsrcInitPool h xEthPool "ARP ethernet headers pool"
      sizeofEthernetHeader 1 1 0
    return (some ⟨pxCache, xEthPool, xArpPool⟩, h.setPool xEthPool pool)

/-- Memory for ARP packets: `malloc` answers and the pools are those of `xARPInit`, one
for any size and one for Ethernet headers. -/
structure ArpMemory (pxArp : ARP) (h : Heap) : Prop where
  available : h.MemoryAvailable
  arpPool : ∃ pool, h.pools pxArp.xArpPool = some pool ∧ ∀ n, pool.Serves n
  ethPool : ∃ pool, h.pools pxArp.xEthPool = some pool ∧ pool.Serves sizeofEthernetHeader ∧
    pool.uxSizeEach = sizeofEthernetHeader

theorem ArpMemory.sameSupply {pxArp : ARP} {h h' : Heap} (hm : ArpMemory pxArp h)
    (hs : h.SameSupply h') : ArpMemory pxArp h' where
  available := hs.memoryAvailable hm.available
  arpPool := by
    rcases hm.arpPool with ⟨pool, hp, hserves⟩
    rcases hs.pools _ pool hp with ⟨pool', hp', hset⟩
    exact ⟨pool', hp', fun n => (hserves n).congr hset⟩
  ethPool := by
    rcases hm.ethPool with ⟨pool, hp, hserves, hsize⟩
    rcases hs.pools _ pool hp with ⟨pool', hp', hset⟩
    exact ⟨pool', hp', hserves.congr hset, hset.uxSizeEach.trans hsize⟩

/-- The set-up provides the memory which the component works with. -/
theorem xARPInit_available {h : Heap} (hm : h.MemoryAvailable) {xArpPool xEthPool : PoolPtr}
    (hne : xArpPool ≠ xEthPool) :
    ∃ pxArp h', xARPInit h xArpPool xEthPool = .ok (some pxArp, h') ∧ ArpMemory pxArp h' := by
  have hm₁ := hm.afterCalls 1
  rcases prviRsrcInitPool_available hm₁ xArpPool "ARP packets memory pool" 0 0 1 0 with
    ⟨n₁, h₁, arpPool, hinit₁, hmalloc₁, -, hset₁⟩
  have hm₂ : (h₁.setPool xArpPool arpPool).MemoryAvailable := by
    intro n
    exact (congrFun hmalloc₁ n).trans (hm n)
  rcases prviRsrcInitPool_available hm₂ xEthPool "ARP ethernet headers pool"
    sizeofEthernetHeader 1 1 0 with ⟨n₂, h₂, ethPool, hinit₂, hmalloc₂, hpools₂, hset₂⟩
  refine ⟨⟨⟨.MAC_ADDR_802_3, List.replicate CFG_ARP_CACHE_ENTRIES .empty⟩, xEthPool, xArpPool⟩,
    h₂.setPool xEthPool ethPool, ?_, ?_, ?_, ?_⟩
  · simp [xARPInit, pxARPCacheCreate, requestMemory_available hm, hinit₁, hinit₂, pure,
      Except.pure]
  · intro n
    exact (congrFun hmalloc₂ n).trans (hm₂ n)
  · refine ⟨arpPool, ?_, fun n => (RsrcPool.new_serves _ 0 (by decide) (Or.inl rfl)).congr hset₁⟩
    simp [Heap.setPool, hne, hpools₂]
  · refine ⟨ethPool, by simp [Heap.setPool], ?_, hset₂.uxSizeEach⟩
    exact (RsrcPool.new_serves _ 1 (by decide) (Or.inr rfl)).congr hset₂

/-- An address which an application can have on a shim: not empty, without zero bytes and
of a length which the header can say. -/
structure ValidGPA (g : GPA) : Prop where
  nonempty : g.pucAddress ≠ []
  noZero : 0 ∉ g.pucAddress
  length_le : g.uxLength ≤ 255

variable (pf : Platform)

theorem arpBuffer_available {pxArp : ARP} {h : Heap} (hm : ArpMemory pxArp h) {n : ℕ}
    (hn : n ≠ 0) :
    ∃ a h', arpBuffer pf h pxArp n = .ok (some (a, freshBytes pf h n), h') ∧
      h.SameSupply h' := by
  rcases hm.arpPool with ⟨pool, hp, hserves⟩
  rcases pxRsrcVarAlloc_serves pf hm.available hp (hserves n) hn "ARP packet" with
    ⟨a, h', halloc, hmem, hsupply⟩
  refine ⟨a, h', ?_, hsupply⟩
  simp [arpBuffer, halloc, hmem, pure, Except.pure]

theorem pxNetBufNew_available {h : Heap} (hm : h.MemoryAvailable) (pool : PoolPtr)
    (ty : NetBufType) (buf : Option Ptr) {n : ℕ} (hn : n ≠ 0) (free : Option FreeMethod) :
    ∃ p h', pxNetBufNew pf h (some pool) ty buf n free = .ok (some p, h') ∧
      h'.mem = h.mem ∧ h.SameSupply h' := by
  have hcall : h.mallocOk h.calls = true := hm _
  simp only [pxNetBufNew, Option.isSome_some, rsAssert_true, Exec.ok_bind,
    bne_iff_ne.mpr hn, pvRsMemAllocNetbuf, hcall, if_true]
  exact ⟨h.brk, _, rfl, rfl, .of_pools rfl rfl⟩

theorem pxEthAllocHeader_available {pxArp : ARP} {h : Heap} (hm : ArpMemory pxArp h)
    (sha tha : GHA) :
    ∃ h', pxEthAllocHeader pf h pxArp.xEthPool sha tha =
      .ok (some ⟨tha.xAddress, sha.xAddress, RsHtoNS ETH_P_RINA_ARP⟩, h') ∧
        h.SameSupply h' := by
  rcases hm.ethPool with ⟨pool, hp, hserves, hsize⟩
  have hn : sizeofEthernetHeader ≠ 0 := by decide
  rcases pxRsrcVarAlloc_serves pf hm.available hp hserves hn "" with
    ⟨a, h₁, halloc, hmem, hs₁⟩
  rcases pxNetBufNew_available pf (hs₁.memoryAvailable hm.available) pxArp.xEthPool .NB_ETH_HDR
    (some ⟨a, 0⟩) hn (some .vNetBufFreePool) with ⟨p, h₂, hnb, hmem₂, hs₂⟩
  refine ⟨h₂, ?_, hs₁.trans hs₂⟩
  have hread : readBuf (freshBytes pf h sizeofEthernetHeader) 0 sizeofEthernetHeader =
      .ok (freshBytes pf h sizeofEthernetHeader) := by
    have hlen := freshBytes_length pf h sizeofEthernetHeader
    rw [readBuf,
      slice_eq_some.mpr ⟨by omega, by rw [List.drop_zero, List.take_of_length_le hlen.le]⟩]
    rfl
  simp [pxEthAllocHeader, pxRsrcAlloc, hp, hsize, halloc, hnb, hmem₂, hmem, hread, pure,
    Except.pure]

/-- The bytes of a request behind the addresses, which nothing writes. -/
def requestTail (h : Heap) (spa tpa : GPA) : Bytes :=
  (freshBytes pf h (sizeofARPStaticHeader + (spa.uxLength + macLength) * 2)).drop
    (20 + spa.uxLength + tpa.uxLength)

theorem requestTail_length {h : Heap} {spa tpa : GPA} (hfit : tpa.uxLength ≤ spa.uxLength) :
    (tpa.pucAddress ++ requestTail pf h spa tpa).length = spa.pucAddress.length := by
  simp only [requestTail, List.length_append, List.length_drop, freshBytes_length,
    sizeofARPStaticHeader, macLength, GPA.uxLength] at hfit ⊢
  omega

/-- What a request contains in front of the target address. -/
def requestFront (op : UInt16) (sha : GHA) (spa : GPA) : Bytes :=
  (arpHeader op spa.uxLength).toBytes ++ sha.xAddress.ucBytes ++ spa.pucAddress ++
    xBroadcastHa.xAddress.ucBytes

theorem requestFront_length (op : UInt16) (sha : GHA) (spa : GPA) :
    (requestFront op sha spa).length = 20 + spa.uxLength := by
  simp only [requestFront, List.length_append, MACAddress.ucBytes_length,
    ARPStaticHeader.toBytes_length, GPA.uxLength]
  omega

/-- The builder up to the copy of the target address. -/
theorem prvARPGetRequest_front {pxArp : ARP} {h : Heap} (hm : ArpMemory pxArp h) (sha : GHA)
    (spa tpa : GPA) (op : UInt16) :
    ∃ h', h.SameSupply h' ∧ prvARPGetRequest pf h pxArp sha spa tpa op = (do
      let b ← writeBuf (splice
        (freshBytes pf h (sizeofARPStaticHeader + (spa.uxLength + macLength) * 2)) 0
        (requestFront op sha spa)) (20 + spa.uxLength) tpa.pucAddress
      return (some b, h')) := by
  have hn : sizeofARPStaticHeader + (spa.uxLength + macLength) * 2 ≠ 0 := by
    simp [sizeofARPStaticHeader]
  rcases arpBuffer_available pf hm hn with ⟨a, h₁, hbuf, hs₁⟩
  rcases pxNetBufNew_available pf (hm.sameSupply hs₁).available pxArp.xArpPool .NB_RINA_ARP
    (some ⟨a, 0⟩) hn (some .vNetBufFreePool) with ⟨p, h₂, hnb, -, hs₂⟩
  refine ⟨h₂, hs₁.trans hs₂, ?_⟩
  have hlen := freshBytes_length pf h (sizeofARPStaticHeader + (spa.uxLength + macLength) * 2)
  generalize freshBytes pf h (sizeofARPStaticHeader + (spa.uxLength + macLength) * 2) = b
    at hbuf hlen ⊢
  simp only [sizeofARPStaticHeader, macLength] at hlen
  have h0 : writeBuf b 0 (arpHeader op spa.uxLength).toBytes =
      .ok (splice b 0 (arpHeader op spa.uxLength).toBytes) := by
    rw [writeBuf, patch_eq_some (by rw [ARPStaticHeader.toBytes_length]; omega)]
    rfl
  have h1 := writeBuf_next b (arpHeader op spa.uxLength).toBytes sha.xAddress.ucBytes
    (o := 8) (by simp) (by rw [MACAddress.ucBytes_length]; omega)
  have h2 := writeBuf_next b ((arpHeader op spa.uxLength).toBytes ++ sha.xAddress.ucBytes)
    spa.pucAddress (o := 14) (by simp) (by unfold GPA.uxLength at hlen; omega)
  have h3 := writeBuf_next b
    ((arpHeader op spa.uxLength).toBytes ++ sha.xAddress.ucBytes ++ spa.pucAddress)
    xBroadcastHa.xAddress.ucBytes (o := 14 + spa.uxLength)
    (by simp only [List.length_append, ARPStaticHeader.toBytes_length,
      MACAddress.ucBytes_length, GPA.uxLength]) (by rw [MACAddress.ucBytes_length]; omega)
  have hend : 14 + spa.uxLength + 6 = 20 + spa.uxLength := by omega
  simp only [prvARPGetRequest, hbuf, Exec.ok_bind, hnb]
  change (writeBuf b 0 (arpHeader op spa.uxLength).toBytes >>= _) = _
  simp only [h0, Exec.ok_bind, sizeofARPStaticHeader, macLength, h1, h2, h3, hend,
    Nat.reduceAdd, requestFront]

theorem prvARPGetRequest_fits {pxArp : ARP} {h : Heap} (hm : ArpMemory pxArp h) (sha : GHA)
    {spa tpa : GPA} (op : UInt16) (hfit : tpa.uxLength ≤ spa.uxLength) :
    ∃ h', prvARPGetRequest pf h pxArp sha spa tpa op =
      .ok (some (arpPacket op sha.xAddress spa.pucAddress xBroadcastHa.xAddress
        (tpa.pucAddress ++ requestTail pf h spa tpa)), h') ∧ h.SameSupply h' := by
  rcases prvARPGetRequest_front pf hm sha spa tpa op with ⟨h', hs, heq⟩
  refine ⟨h', ?_, hs⟩
  have hroom : 20 + spa.uxLength + tpa.pucAddress.length ≤
      (freshBytes pf h (sizeofARPStaticHeader + (spa.uxLength + macLength) * 2)).length := by
    simp only [freshBytes_length, sizeofARPStaticHeader, macLength, GPA.uxLength] at hfit ⊢
    omega
  have hlen : (requestFront op sha spa ++ tpa.pucAddress).length =
      20 + spa.uxLength + tpa.uxLength := by
    rw [List.length_append, requestFront_length, GPA.uxLength, GPA.uxLength]
  rw [heq, writeBuf_next _ _ _ (requestFront_length op sha spa).symm hroom, splice,
    Nat.zero_add, hlen]
  simp [requestFront, requestTail, arpPacket, GPA.uxLength, pure, Except.pure]

/-- A longer target address is written past the end of the buffer. -/
theorem prvARPGetRequest_overflow {pxArp : ARP} {h : Heap} (hm : ArpMemory pxArp h)
    (sha : GHA) {spa tpa : GPA} (op : UInt16) (hlong : ¬ tpa.uxLength ≤ spa.uxLength) :
    prvARPGetRequest pf h pxArp sha spa tpa op = .error .outOfBounds := by
  rcases prvARPGetRequest_front pf hm sha spa tpa op with ⟨h', -, heq⟩
  have hfront : 0 + (requestFront op sha spa).length ≤
      (freshBytes pf h (sizeofARPStaticHeader + (spa.uxLength + macLength) * 2)).length := by
    simp only [freshBytes_length, requestFront_length, sizeofARPStaticHeader, macLength]
    omega
  rw [heq, writeBuf_outOfBounds]
  · rfl
  · rw [splice_length hfront]
    simp only [freshBytes_length, sizeofARPStaticHeader, macLength, GPA.uxLength] at hlong ⊢
    omega

/-- The frame of a request whose target address fits. -/
def requestFrame (h : Heap) (spa tpa : GPA) (sha : GHA) : ArpFrame where
  eth := ⟨xBroadcastHa.xAddress, sha.xAddress, RsHtoNS ETH_P_RINA_ARP⟩
  arp := arpPacket ARP_REQUEST sha.xAddress spa.pucAddress xBroadcastHa.xAddress
    (tpa.pucAddress ++ requestTail pf h spa tpa)

theorem vARPSendRequest_fits {pxArp : ARP} {h : Heap} (hm : ArpMemory pxArp h) (sha : GHA)
    {spa tpa : GPA} (hspa : spa.pucAddress ≠ []) (htpa : tpa.pucAddress ≠ [])
    (hfit : tpa.uxLength ≤ spa.uxLength) :
    ∃ h', vARPSendRequest pf h pxArp tpa spa sha =
      .ok (some (requestFrame pf h spa tpa sha), h') ∧ h.SameSupply h' := by
  rcases vARPSendRequest_copies pf hm.available pxArp sha hspa htpa with ⟨k, heq⟩
  have hs := h.sameSupply_afterCalls k
  rcases prvARPGetRequest_fits pf (hm.sameSupply hs) sha ARP_REQUEST hfit with ⟨h₁, hreq, hs₁⟩
  rcases pxEthAllocHeader_available pf (hm.sameSupply (hs.trans hs₁)) sha xBroadcastHa with
    ⟨h₂, heth, hs₂⟩
  refine ⟨h₂, ?_, (hs.trans hs₁).trans hs₂⟩
  simp only [heq, hreq, Exec.ok_bind, heth]
  rfl

theorem vARPSendRequest_overflow {pxArp : ARP} {h : Heap} (hm : ArpMemory pxArp h) (sha : GHA)
    {spa tpa : GPA} (hspa : spa.pucAddress ≠ []) (htpa : tpa.pucAddress ≠ [])
    (hlong : ¬ tpa.uxLength ≤ spa.uxLength) :
    vARPSendRequest pf h pxArp tpa spa sha = .error .outOfBounds := by
  rcases vARPSendRequest_copies pf hm.available pxArp sha hspa htpa with ⟨k, heq⟩
  have hs := h.sameSupply_afterCalls k
  simp only [heq, prvARPGetRequest_overflow pf (hm.sameSupply hs) sha ARP_REQUEST hlong,
    Exec.error_bind]

/-! ### The round trip -/

/-- The request is written inside its buffer, and the receiver parses it to the addresses
it was built from. -/
def RequestRoundTrips (pfRecv : Platform) (h hRecv : Heap) (pxArp : ARP) (tpa spa : GPA)
    (sha : GHA) : Prop :=
  ∃ frame h' d hRecv', vARPSendRequest pf h pxArp tpa spa sha = .ok (some frame, h') ∧
    prvARPExtractRequestData pfRecv hRecv frame.arp = .ok (some d, hRecv') ∧
    d.pxSpa = spa ∧ d.pxTpa = tpa ∧ d.pxSha = sha ∧ d.pxTha = xBroadcastHa

/-- The target address is not longer than the source address, and a shorter one is
followed by a zero byte. The pools see to that byte, except under Valgrind, where it is
what the heap left there. -/
def TargetFits (h : Heap) (spa tpa : GPA) : Prop :=
  tpa.uxLength ≤ spa.uxLength ∧
    (pf.valgrind = true → tpa.uxLength < spa.uxLength →
      h.junk h.brk (20 + spa.uxLength + tpa.uxLength) = 0)

theorem cut_eq_nil_iff {xs : Bytes} : cut 0 xs = [] ↔ ∀ x ∈ xs.head?, x = 0 := by
  cases xs with
  | nil => simp [cut]
  | cons x xs => by_cases hx : x = 0 <;> simp [cut_cons, hx]

/-- The tail of a request starts with a zero byte, if there is one. -/
theorem cut_requestTail {h : Heap} {spa tpa : GPA} (hfit : tpa.uxLength ≤ spa.uxLength) :
    cut 0 (requestTail pf h spa tpa) = [] ↔ (pf.valgrind = true →
      tpa.uxLength < spa.uxLength → h.junk h.brk (20 + spa.uxLength + tpa.uxLength) = 0) := by
  rw [cut_eq_nil_iff, requestTail, List.head?_drop]
  by_cases hv : pf.valgrind = true
  · simp only [freshBytes, hv, if_true, Heap.stale, List.getElem?_map, forall_true_left,
      sizeofARPStaticHeader, macLength]
    by_cases hlt : tpa.uxLength < spa.uxLength
    · have hin : 20 + spa.uxLength + tpa.uxLength < 8 + (spa.uxLength + 6) * 2 := by omega
      simp [List.getElem?_range hin, hlt]
    · have hout : 8 + (spa.uxLength + 6) * 2 ≤ 20 + spa.uxLength + tpa.uxLength := by omega
      simp [hlt, hout]
  · simp [freshBytes, hv, List.getElem?_replicate]

/-- A request reads back exactly when its target address fits. -/
theorem requestRoundTrips_iff {pfRecv : Platform} {h hRecv : Heap} {pxArp : ARP}
    {tpa spa : GPA} (sha : GHA) (hm : ArpMemory pxArp h) (hmRecv : hRecv.MemoryAvailable)
    (htpa : ValidGPA tpa) (hspa : ValidGPA spa) :
    RequestRoundTrips pf pfRecv h hRecv pxArp tpa spa sha ↔ TargetFits pf h spa tpa := by
  by_cases hfit : tpa.uxLength ≤ spa.uxLength
  · rcases vARPSendRequest_fits pf hm sha hspa.nonempty htpa.nonempty hfit with ⟨h', hsend, -⟩
    have hmax : spa.pucAddress.length < 256 := Nat.lt_succ_of_le hspa.length_le
    rcases prvARPExtractRequestData_arpPacket pfRecv hmRecv ARP_REQUEST sha.xAddress
      xBroadcastHa.xAddress hspa.nonempty (requestTail_length pf hfit (h := h)) hmax with
      ⟨k, hparse⟩
    have hcut : cut 0 (tpa.pucAddress ++ requestTail pf h spa tpa) =
        tpa.pucAddress ++ cut 0 (requestTail pf h spa tpa) :=
      cut_append_of_not_mem htpa.noZero _
    have hsrc : cut 0 spa.pucAddress = spa.pucAddress := cut_of_not_mem hspa.noZero
    rw [TargetFits, ← cut_requestTail pf hfit]
    constructor
    · rintro ⟨frame, h₁, d, h₂, hsend', hparse', -, hdt, -, -⟩
      rw [hsend] at hsend'
      cases hsend'
      rw [requestFrame, hparse] at hparse'
      cases hparse'
      rw [hcut] at hdt
      have hbytes := congrArg GPA.pucAddress hdt
      exact ⟨hfit, List.append_right_eq_self.mp hbytes⟩
    · rintro ⟨-, htail⟩
      refine ⟨_, h', _, _, hsend, hparse, ?_, ?_, ?_, rfl⟩
      · rw [hsrc]
      · rw [hcut, htail, List.append_nil]
      · cases sha with
        | mk xType xAddress =>
          cases xType
          rfl
  · constructor
    · rintro ⟨frame, h₁, d, h₂, hsend, -⟩
      rw [vARPSendRequest_overflow pf hm sha hspa.nonempty htpa.nonempty hfit] at hsend
      cases hsend
    · intro hf
      exact absurd hf.1 hfit

/-! ### A source and a target of different lengths -/

/-- A heap with the two pools of `xARPInit` before their first use. -/
def exampleArpHeap : Heap where
  mem := fun _ => none
  netbufs := fun _ => none
  rsrcs := fun _ => none
  pools := fun p => some (if p = 0 then .new "ARP packets memory pool" 0 0 1 0
    else .new "ARP ethernet headers pool" sizeofEthernetHeader 1 1 0)
  brk := 2
  calls := 0
  mallocOk := fun _ => true
  junk := fun _ _ => 0xAA

def exampleMac (n : UInt8) : MACAddress := ⟨[2, 0, 0, 0, 0, n], rfl⟩

def exampleArp (pxRows : List ARPCacheRow) : ARP := ⟨⟨.MAC_ADDR_802_3, pxRows⟩, 1, 0⟩

theorem exampleArpHeap_memory (pxRows : List ARPCacheRow) :
    ArpMemory (exampleArp pxRows) exampleArpHeap where
  available := fun _ => rfl
  arpPool := ⟨.new "ARP packets memory pool" 0 0 1 0, rfl,
    fun _ => RsrcPool.new_serves _ 0 (by decide) (Or.inl rfl)⟩
  ethPool := ⟨.new "ARP ethernet headers pool" sizeofEthernetHeader 1 1 0, rfl,
    RsrcPool.new_serves _ 1 (by decide) (Or.inr rfl), rfl⟩

/-- A target of one byte is found again behind a source of two. -/
theorem requestRoundTrips_shorter : RequestRoundTrips ⟨false, false⟩ ⟨false, false⟩
    exampleArpHeap exampleArpHeap (exampleArp []) ⟨[66]⟩ ⟨[65, 65]⟩
    ⟨.MAC_ADDR_802_3, exampleMac 1⟩ :=
  (requestRoundTrips_iff ⟨false, false⟩ ⟨.MAC_ADDR_802_3, exampleMac 1⟩
    (exampleArpHeap_memory []) (fun _ => rfl) ⟨by decide, by decide, by decide⟩
    ⟨by decide, by decide, by decide⟩).mpr ⟨by decide, by decide⟩

/-- A target of two bytes does not fit behind a source of one. -/
theorem requestRoundTrips_longer : ¬ RequestRoundTrips ⟨false, false⟩ ⟨false, false⟩
    exampleArpHeap exampleArpHeap (exampleArp []) ⟨[66, 66]⟩ ⟨[65]⟩
    ⟨.MAC_ADDR_802_3, exampleMac 1⟩ := by
  rintro ⟨frame, h', d, h'', hsend, -⟩
  rw [vARPSendRequest_overflow ⟨false, false⟩ (exampleArpHeap_memory [])
    ⟨.MAC_ADDR_802_3, exampleMac 1⟩ (by decide) (by decide) (by decide)] at hsend
  cases hsend

end RinaSense.Shim
