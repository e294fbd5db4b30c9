import RinaSense.Shim.FrameArp

/-!
# Input of a frame

The packet handler disposes of a frame under an exact condition on its length, its type and what
`malloc` and the surroundings answer. A frame which is only a header reaches the ARP branch
without a packet, and the RINA branch passes it on without a data unit.
-/

namespace RinaSense.Shim.OnChain

open Common Library.Memory Library.Filler

variable {pf : Platform} {f : Frame} {h₀ h h' : Heap} {d : ShimData} {env : Surroundings}

/-! ### The return and the release -/

variable (pf) in
/-- The driver copies a frame out of its netbufs, whether it can send it or not. -/
def Surroundings.CopiesOut (env : Surroundings) : Prop :=
  ∀ h p l, WholeChain pf h p l → h.InUse p → Readable h l →
    ∃ sent h', env.xNetworkInterfaceOutput h p = .ok (sent, h') ∧ h'.Fresh ∧
      h'.netbufs = h.netbufs ∧ ∀ c, (h.mem c).isSome → SameBlock h h' c

/-- A write into a block keeps its length. -/
theorem write_block {a : ℕ} {b : Bytes} (hb : h.mem a = some b) (off : ℕ) (bs : Bytes)
    (hfit : off + bs.length ≤ b.length) :
    ∃ b', b'.length = b.length ∧ h.write (some ⟨a, 0⟩) off bs = .ok (h.setBlock a (some b')) := by
  have hstore : store h.mem ⟨a, off⟩ bs =
      some (Function.update h.mem a (some (splice b off bs))) := by
    simp only [store, hb, if_pos hfit]
  refine ⟨splice b off bs, splice_length hfit, ?_⟩
  simp only [Heap.write, deref_some, Exec.ok_bind, Ptr.add, Nat.zero_add, hstore, inBounds_some]
  rfl

section Block

variable {a : ℕ} {b b' : Bytes} {c : NbPtr} {l : List NbPtr}

theorem setBlock_of_ne {x : ℕ} (hx : x ≠ a) (o : Option Bytes) : (h.setBlock a o).mem x = h.mem x :=
  Function.update_of_ne hx _ _

theorem fresh_setBlock (hf : h.Fresh) (hb : h.mem a = some b) (o : Option Bytes) :
    (h.setBlock a o).Fresh := fun x hx => by
  rw [setBlock_of_ne (Nat.ne_of_gt (Nat.lt_of_lt_of_le (hf.lt_of_block hb) hx))]
  exact hf x hx

theorem sameBlock_setBlock (hb : h.mem a = some b) (b' : Bytes) (x : ℕ) :
    SameBlock h (h.setBlock a (some b')) x := by
  refine ⟨?_, rfl, fun _ hp => hp⟩
  by_cases hx : x = a
  · rw [hx, Heap.setBlock_self, hb]
    rfl
  · rw [setBlock_of_ne hx]

/-- A chain does not depend on the bytes of a block. -/
theorem wholeChain_setBlock (hc : WholeChain pf h c l) (hb : h.mem a = some b) (b' : Bytes) :
    WholeChain pf (h.setBlock a (some b')) c l :=
  hc.congr (fresh_setBlock hc.fresh hb _) (fun _ _ => rfl) fun p _ _ =>
    sameBlock_setBlock hb b' p.block

theorem readable_setBlock (hr : Readable h l) (hb : h.mem a = some b)
    (hlen : b'.length = b.length) : Readable (h.setBlock a (some b')) l := by
  intro q hq nb hnb hlive
  obtain ⟨p, bytes, hptr, hmem, hfit⟩ := hr q hq nb hnb hlive
  by_cases hp : p.block = a
  · rw [hp, hb] at hmem
    cases hmem
    exact ⟨p, b', hptr, hp ▸ Heap.setBlock_self _ _ _, hlen ▸ hfit⟩
  · exact ⟨p, bytes, hptr, (setBlock_of_ne hp _).trans hmem, hfit⟩

end Block

theorem Frame.Held.setBlock (hh : f.Held pf h₀ h) {b b' : Bytes} (hb : h.mem f.block = some b)
    (hlen : b'.length = b.length) : f.Held pf h₀ (h.setBlock f.block (some b')) := by
  obtain ⟨s, last, ho, hlast, hread⟩ := hh.chain
  refine ⟨⟨s, last, ?_, hlast, readable_setBlock hread hb hlen⟩, hh.header,
    ⟨b', Heap.setBlock_self _ _ _, ?_⟩⟩
  · exact ho.congr (fresh_setBlock ho.chain.fresh hb _) rfl fun c _ _ =>
      sameBlock_setBlock hb b' c.block
  · obtain ⟨b₀, hb₀, hle⟩ := hh.bytes
    rw [hb] at hb₀
    cases hb₀
    exact hlen ▸ hle

theorem Frame.Held.released (hh : f.Held pf h₀ h) (hf : h₀.Fresh) :
    ∃ h', vNetBufFreeAll pf h f.pxNbFrame = .ok h' ∧ f.Rejected pf h₀ h' := by
  obtain ⟨s, last, ho, hlast, -⟩ := hh.chain
  exact ho.freeAll hf hlast

/-- The addresses of the header change places, and the driver gets the frame. -/
theorem Frame.Held.returned (hh : f.Held pf h₀ h) (hdriver : env.CopiesOut pf) :
    ∃ s last h', prvReturnEthernetFrame pf h f.pxNbFrame env = .ok h' ∧
      f.Owned pf h₀ h' (s ++ [last]) ∧ h'.InUse last := by
  obtain ⟨nb, hnb, hlive, hty, hptr⟩ := hh.header
  obtain ⟨b, hb, hlen⟩ := hh.bytes
  have h14 : 14 ≤ b.length := hlen
  have hmac : macLength = 6 := rfl
  have hread : ∀ off, off + macLength ≤ 14 →
      h.read (some f.buffer) off macLength = .ok ((b.drop off).take macLength) := fun off hoff => by
    have hin : f.buffer.off + off + macLength ≤ b.length := by
      rw [Frame.buffer, Nat.zero_add]
      exact hoff.trans h14
    rw [Heap.read_of_block hb hin, Frame.buffer, Nat.zero_add]
  have htake : ∀ off, off + macLength ≤ 14 →
      ((b.drop off).take macLength).length = macLength := fun off hoff => by
    rw [List.length_take, List.length_drop]
    omega
  obtain ⟨b₁, hlen₁, hw₁⟩ := write_block hb 0 ((b.drop macLength).take macLength)
    (by rw [htake _ (by decide)]; omega)
  have hheld₁ := hh.setBlock hb hlen₁
  obtain ⟨b₂, hlen₂, hw₂⟩ := write_block (Heap.setBlock_self h f.block (some b₁)) macLength
    ((b.drop 0).take macLength) (by rw [htake _ (by decide)]; omega)
  have hheld₂ := hheld₁.setBlock (Heap.setBlock_self _ _ _) hlen₂
  obtain ⟨s, last, ho, hlast, hrd⟩ := hheld₂.chain
  obtain ⟨sent, h', hout, hfresh, hsame, hblocks⟩ := hdriver _ f.pxNbFrame _ ho.chain
    ⟨nb, hnb, hlive⟩ hrd
  refine ⟨s, last, h', ?_, ho.congr hfresh hsame fun c m hc =>
    hblocks _ (ho.chain.usable c m hc).allocated, ?_⟩
  · have htype : eNetBufType pf h f.pxNbFrame = .ok .NB_ETH_HDR := by
      simp only [eNetBufType, Heap.netbuf_of_some hnb, Exec.ok_bind, hlive, Bool.not_false,
        rsAssert_true, hty]
      rfl
    have hbuf : pvNetBufPtr pf h f.pxNbFrame = .ok (some f.buffer) := by
      simp only [pvNetBufPtr, Heap.netbuf_of_some hnb, Exec.ok_bind, hlive, Bool.not_false,
        rsAssert_true, hptr]
      rfl
    have heth : (NetBufType.NB_ETH_HDR == .NB_ETH_HDR) = true := rfl
    rw [prvReturnEthernetFrame, htype, Exec.ok_bind, heth, rsAssert_true, Exec.ok_bind, hbuf,
      Exec.ok_bind, hread 0 (by decide), Exec.ok_bind, hread macLength (by decide), Exec.ok_bind,
      Frame.buffer, hw₁, Exec.ok_bind, hw₂, Exec.ok_bind, hout]
    rfl
  · obtain ⟨nb', hnb', hlive'⟩ := hlast
    exact ⟨nb', by rw [hsame]; exact hnb', hlive'⟩

/-- Unless the frame was consumed it is released in the end. -/
theorem Frame.Held.finished (hh : f.Held pf h₀ h) (hf : h₀.Fresh) (hdriver : env.CopiesOut pf)
    {r : FrameProcessingResult} (hr : r ≠ .eFrameConsumed) :
    ∃ h', finishFrame pf h f.pxNbFrame env r = .ok h' ∧ f.Rejected pf h₀ h' := by
  cases r with
  | eFrameConsumed => exact absurd rfl hr
  | eReleaseBuffer => exact hh.released hf
  | eProcessBuffer => exact hh.released hf
  | eReturnEthernetFrame =>
    obtain ⟨s, last, h₁, hret, ho, hlast⟩ := hh.returned hdriver
    obtain ⟨h', hfree, hrej⟩ := ho.freeAll hf hlast
    exact ⟨h', by rw [finishFrame, hret]; exact hfree, hrej⟩

/-! ### ARP frames -/

theorem Frame.Parted.held (hp : f.Parted pf h₀ h) (hi : f.In pf h₀)
    (hlen : sizeofEthernetHeader ≤ f.bytes.length) : f.Held pf h₀ h where
  chain := by
    refine ⟨[f.pxNbFrame], h₀.brk, hp.owned, ⟨_, hp.packet hi, rfl⟩, fun q hq nb hnb _ => ?_⟩
    rcases List.mem_cons.mp hq with rfl | hq
    · rw [hp.header] at hnb
      cases hnb
      exact ⟨f.buffer, f.bytes, rfl, hp.bytes, (Nat.zero_add _).trans_le hlen⟩
    · rw [List.mem_singleton.mp hq, hp.packet hi] at hnb
      cases hnb
      refine ⟨f.buffer.add sizeofEthernetHeader, f.bytes, rfl, hp.bytes, ?_⟩
      change 0 + sizeofEthernetHeader + (f.bytes.length - sizeofEthernetHeader) ≤ _
      omega
  header := ⟨_, hp.header, rfl, rfl, rfl⟩
  bytes := ⟨_, hp.bytes, hlen⟩

variable {pxARP : ARP} {pkt : Bytes} {hdr : ARPStaticHeader} {xARPPacketData : ARPPacketData}

variable (pf) in
/-- What is behind the extraction comes back. A debug build prints the address of a request
without an answer, and a row which a reply adds. -/
def Proceeds (h : Heap) (pxARP : ARP) (pkt : Bytes) (hdr : ARPStaticHeader) : Prop :=
  let rows := pxARP.pxCache.pxRows
  let behind := h.afterCalls (lookupCalls pf (target pkt hdr) rows)
  if hdr.usOperation = ARP_REQUEST then
    LookupGranted pf h (target pkt hdr) rows ∧
      if lookupResult (target pkt hdr) rows = none then
        pf.ndebug = true ∨ (target pkt hdr).pucAddress ≠ [] ∧ Granted behind 0
      else ResponseRefused pf behind pxARP.xArpPool hdr.ucPALength.toNat ∨
        ResponseGranted pf behind pxARP.xArpPool hdr.ucPALength.toNat
  else AdditionReturns pf h pxARP.pxCache (target pkt hdr)

variable (pf) in
/-- The ARP branch comes back with every packet which passes its checks. -/
def ArpReturns (h : Heap) (pxARP : ARP) (pkt : Bytes) : Prop :=
  ∀ hdr, PassesChecks pkt hdr → RefusesTarget h pkt hdr.ucPALength.toNat ∨
    Extracts h pkt hdr.ucPALength.toNat ∧
      Proceeds pf (h.afterCalls (callsToExtract pkt hdr.ucPALength.toNat)) pxARP pkt hdr

/-- The run comes back with a frame which is still held if `P` holds, and traps else. -/
def Frame.Ends (pf : Platform) (f : Frame) (h₀ : Heap) (P : Prop)
    (run : Exec (FrameProcessingResult × ARP × Heap)) : Prop :=
  (P ∧ ∃ r pxARP h', run = .ok (r, pxARP, h') ∧ r ≠ .eFrameConsumed ∧ f.Held pf h₀ h') ∨
    (¬ P ∧ ∃ t, run = .error t)

section Extracted

variable (hi : f.In pf h₀) (hlen : sizeofEthernetHeader ≤ f.bytes.length) (k : ℕ)

include hi hlen

theorem Frame.In.held (r : FrameProcessingResult) (hr : r ≠ .eFrameConsumed) (pxARP : ARP) :
    ∃ r' pxARP' h', (Except.ok (r, pxARP, f.parted h₀ k) : Exec _) = .ok (r', pxARP', h') ∧
      r' ≠ .eFrameConsumed ∧ f.Held pf h₀ h' :=
  ⟨r, pxARP, _, rfl, hr, (hi.parted_self k).held hi hlen⟩

/-- A reply goes to the cache. -/
theorem processReply_ends (hrep : hdr.usOperation ≠ ARP_REQUEST)
    (hd : AddressesOf pkt hdr xARPPacketData) :
    f.Ends pf h₀ (AdditionReturns pf (f.parted h₀ k) pxARP.pxCache (target pkt hdr))
      (processExtracted pf (f.parted h₀ k) pxARP f.pxNbFrame hdr xARPPacketData) := by
  rw [processExtracted, if_neg hrep, hd.pxTpa_eq]
  have hzero : (0 : UInt8) ∉ (target pkt hdr).pucAddress := not_mem_cut 0 _
  rcases xARPCacheAdd_cases pf (f.parted h₀ k) pxARP.pxCache hzero xARPPacketData.pxTha with
    ⟨hyes, nHndl, c', j, hrun⟩ | ⟨hno, t, hrun⟩
  · refine Or.inl ⟨hyes, ?_⟩
    rw [hrun]
    refine ⟨.eReleaseBuffer, { pxARP with pxCache := c' }, _, rfl, by decide, ?_⟩
    rw [Frame.parted, Heap.afterCalls_afterCalls]
    exact (hi.parted_self (k + j)).held hi hlen
  · exact Or.inr ⟨hno, t, by rw [hrun]; rfl⟩

/-- A request for an address which is not in the cache is released. -/
theorem processMiss_ends (hreq : hdr.usOperation = ARP_REQUEST)
    (hd : AddressesOf pkt hdr xARPPacketData) {j : ℕ}
    (hrun : eARPCacheLookupGPA pf (f.parted h₀ k) pxARP.pxCache (target pkt hdr) =
      .ok (.eARPCacheMiss, none, f.parted h₀ j)) :
    f.Ends pf h₀ (pf.ndebug = true ∨ (target pkt hdr).pucAddress ≠ [] ∧ Granted (f.parted h₀ j) 0)
      (processExtracted pf (f.parted h₀ k) pxARP f.pxNbFrame hdr xARPPacketData) := by
  rw [processExtracted, if_pos hreq, hd.pxTpa_eq, hrun, Exec.ok_bind]
  dsimp only
  by_cases hdebug : pf.ndebug = true
  · rw [if_pos hdebug]
    exact Or.inl ⟨Or.inl hdebug, hi.held hlen j _ (by decide) pxARP⟩
  · rw [if_neg hdebug, xGPAAddressToString]
    by_cases hok : xIsGPAOK (target pkt hdr) = true
    · have hne := (xIsGPAOK_iff _).mp hok
      rw [hok]
      by_cases hg : Granted (f.parted h₀ j) 0
      · have hcopy : requestMemory (f.parted h₀ j) = (true, f.parted h₀ (j + 1)) :=
          Prod.ext hg rfl
        simp only [hcopy, Bool.not_true, Bool.false_eq_true, if_false, rsAssert_true, Exec.ok_bind]
        exact Or.inl ⟨Or.inr ⟨hne, hg⟩, hi.held hlen (j + 1) _ (by decide) pxARP⟩
      · have hcopy : requestMemory (f.parted h₀ j) = (false, f.parted h₀ (j + 1)) :=
          Prod.ext (eq_false_of_ne_true hg) rfl
        refine Or.inr ⟨by rintro (hd' | ⟨-, hg'⟩) <;> contradiction, .assertion, ?_⟩
        simp [hcopy, rsAssert, hdebug]
    · have hnil : ¬ (target pkt hdr).pucAddress ≠ [] := fun hne => hok ((xIsGPAOK_iff _).mpr hne)
      refine Or.inr ⟨by rintro (hd' | ⟨hne, -⟩) <;> contradiction, .assertion, ?_⟩
      simp [hok, rsAssert, hdebug]

variable (hspare : SparePool h₀ pxARP.xArpPool f.block)

include hspare

/-- A request for an address in the cache is answered if the response can be built. -/
theorem processHit_ends (hp : PassesChecks pkt hdr) (hreq : hdr.usOperation = ARP_REQUEST)
    (hd : AddressesOf pkt hdr xARPPacketData) {j : ℕ} {m : GHA}
    (hrun : eARPCacheLookupGPA pf (f.parted h₀ k) pxARP.pxCache (target pkt hdr) =
      .ok (.eARPCacheHit, some m, f.parted h₀ j)) :
    f.Ends pf h₀
      (ResponseRefused pf (f.parted h₀ j) pxARP.xArpPool hdr.ucPALength.toNat ∨
        ResponseGranted pf (f.parted h₀ j) pxARP.xArpPool hdr.ucPALength.toNat)
      (processExtracted pf (f.parted h₀ k) pxARP f.pxNbFrame hdr xARPPacketData) := by
  have hn : xARPPacketData.pxARPHdr.ucPALength.toNat = hdr.ucPALength.toNat := by
    rw [hd.pxARPHdr]
  rw [processExtracted, if_pos hreq, hd.pxTpa_eq, hrun, Exec.ok_bind]
  simp only [initialised_some, Exec.ok_bind]
  by_cases hr : ResponseRefused pf (f.parted h₀ j) pxARP.xArpPool hdr.ucPALength.toNat
  · obtain ⟨h', hresp, hparted⟩ := getResponse_refused (m := m) hi hspare (by rw [hn]; exact hr)
    rw [hresp]
    exact Or.inl ⟨Or.inl hr, .eReturnEthernetFrame, pxARP, h', rfl, by decide,
      hparted.held hi hlen⟩
  · by_cases hg : ResponseGranted pf (f.parted h₀ j) pxARP.xArpPool hdr.ucPALength.toNat
    · obtain ⟨h', hresp, hheld⟩ := getResponse_granted (m := m) hi hspare hlen hp hd hg
      rw [hresp]
      exact Or.inl ⟨Or.inr hg, .eReturnEthernetFrame, pxARP, h', rfl, by decide, hheld⟩
    · obtain ⟨t, hresp⟩ := getResponse_traps (m := m) hi hn hr hg
      rw [hresp]
      exact Or.inr ⟨not_or.mpr ⟨hr, hg⟩, t, rfl⟩

theorem processExtracted_ends (hrows : pxARP.pxCache.Inv) (hp : PassesChecks pkt hdr)
    (hd : AddressesOf pkt hdr xARPPacketData) :
    f.Ends pf h₀ (Proceeds pf (f.parted h₀ k) pxARP pkt hdr)
      (processExtracted pf (f.parted h₀ k) pxARP f.pxNbFrame hdr xARPPacketData) := by
  by_cases hreq : hdr.usOperation = ARP_REQUEST
  · have hbehind : (f.parted h₀ k).afterCalls
        (lookupCalls pf (target pkt hdr) pxARP.pxCache.pxRows) =
        f.parted h₀ (k + lookupCalls pf (target pkt hdr) pxARP.pxCache.pxRows) :=
      Heap.afterCalls_afterCalls _ _ _
    simp only [Proceeds, if_pos hreq, hbehind]
    rcases lookupRows_cases pf (h := f.parted h₀ k) (q := target pkt hdr) hrows with
      ⟨hyes, hrun⟩ | ⟨hno, hrun⟩
    · rw [hbehind] at hrun
      rw [and_iff_right hyes]
      cases hres : lookupResult (target pkt hdr) pxARP.pxCache.pxRows with
      | none =>
        rw [hres] at hrun
        rw [if_pos rfl]
        exact processMiss_ends hi hlen k hreq hd hrun
      | some m =>
        rw [hres] at hrun
        rw [if_neg (Option.some_ne_none m)]
        exact processHit_ends hi hlen k hspare hp hreq hd hrun
    · refine Or.inr ⟨fun hall => hno hall.1, .assertion, ?_⟩
      rw [processExtracted, if_pos hreq, hd.pxTpa_eq, eARPCacheLookupGPA, hrun]
      rfl
  · rw [Proceeds, if_neg hreq]
    exact processReply_ends hi hlen k hreq hd

end Extracted

theorem arpReturns_iff (hp : PassesChecks pkt hdr) : ArpReturns pf h pxARP pkt ↔
    RefusesTarget h pkt hdr.ucPALength.toNat ∨ Extracts h pkt hdr.ucPALength.toNat ∧
      Proceeds pf (h.afterCalls (callsToExtract pkt hdr.ucPALength.toNat)) pxARP pkt hdr := by
  refine ⟨fun hall => hall hdr hp, fun hone hdr' hp' => ?_⟩
  rw [hp.unique hp']
  exact hone

/-- The netbuf of the header takes no part in what the packet needs. -/
theorem arpReturns_parted : ArpReturns pf (f.parted h 0) pxARP pkt ↔
    ArpReturns pf (h.afterCalls 1) pxARP pkt := by
  have hg : ∀ i, Granted (f.parted h 0) i ↔ Granted (h.afterCalls 1) i := fun i => Iff.rfl
  refine forall₂_congr fun hdr hp => or_congr ?_ (and_congr ?_ Iff.rfl)
  · exact ⟨fun hr => hr.congr hg, fun hr => hr.congr fun i => (hg i).symm⟩
  · exact ⟨fun he => he.congr hg, fun he => he.congr fun i => (hg i).symm⟩

section Packet

variable (hi : f.In pf h₀) (hlen : sizeofEthernetHeader ≤ f.bytes.length)

include hi

theorem Frame.In.next_eq (k : ℕ) :
    pxNetBufNext pf (f.parted h₀ k) f.pxNbFrame = .ok (some h₀.brk) :=
  next_packet (hi.parted_owned k).chain.fresh (Frame.parted_header k) rfl rfl
    (hi.parted_packet k) rfl

variable (pf) in
theorem Frame.In.packet_eq (k : ℕ) :
    (do bytesAt (f.parted h₀ k) (← pvNetBufPtr pf (f.parted h₀ k) h₀.brk)) =
      .ok (f.bytes.drop sizeofEthernetHeader) := by
  have hlive : (f.netbuf.behind .NB_RINA_PCI sizeofEthernetHeader).xFreed = false := rfl
  have hptr : pvNetBufPtr pf (f.parted h₀ k) h₀.brk =
      .ok (some (f.buffer.add sizeofEthernetHeader)) := by
    simp only [pvNetBufPtr, Heap.netbuf_of_some (hi.parted_packet k), Exec.ok_bind, hlive,
      Bool.not_false, rsAssert_true]
    rfl
  rw [hptr, Exec.ok_bind, bytesAt, deref_some, Exec.ok_bind]
  change (inBounds ((f.parted h₀ k).mem f.block) >>= fun b => .ok (b.drop (0 + _))) = _
  rw [hi.parted_mem k, Nat.zero_add]
  rfl

include hlen

/-- The ARP branch comes back under its condition, and holds the frame then. -/
theorem arpFrame_ends (hspare : SparePool h₀ pxARP.xArpPool f.block)
    (hrows : pxARP.pxCache.Inv) :
    f.Ends pf h₀ (ArpReturns pf (f.parted h₀ 0) pxARP (f.bytes.drop sizeofEthernetHeader))
      (prvShimHandleARPFrame pf (f.parted h₀ 0) pxARP f.pxNbFrame) := by
  obtain ⟨pkt, hpkt⟩ : ∃ pkt, pkt = f.bytes.drop sizeofEthernetHeader := ⟨_, rfl⟩
  have hlive : (f.netbuf.behind .NB_RINA_PCI sizeofEthernetHeader).xFreed = false := rfl
  have hsize : unNetBufSize pf (f.parted h₀ 0) h₀.brk = .ok pkt.length := by
    rw [hpkt, List.length_drop]
    simp only [unNetBufSize, Heap.netbuf_of_some (hi.parted_packet 0), Exec.ok_bind, hlive,
      Bool.not_false, rsAssert_true]
    rfl
  obtain ⟨p, hp, hbytes⟩ := Exec.bind_eq_ok.mp (hi.packet_eq pf 0)
  rw [← hpkt] at hbytes
  rw [prvShimHandleARPFrame, hi.next_eq, Exec.ok_bind, deref_some, Exec.ok_bind, hsize,
    Exec.ok_bind, ← hpkt]
  have hdropped : (∀ hdr, ¬ PassesChecks pkt hdr) →
      ArpReturns pf (f.parted h₀ 0) pxARP pkt := fun hno hdr hp => absurd hp (hno hdr)
  by_cases hsz : sizeofARPStaticHeader ≤ pkt.length
  · obtain ⟨hdr, hhdr⟩ := readHeader_of_long hsz
    have hpass : ∀ hdr', PassesChecks pkt hdr' → hdr' = hdr := fun hdr' hp =>
      Except.ok.inj (hp.header.symm.trans hhdr)
    rw [if_pos hsz, eARPProcessPacket, hi.next_eq, Exec.ok_bind, Option.isSome_some,
      rsAssert_true, Exec.ok_bind, Exec.ok_bind, deref_some, Exec.ok_bind, hp, Exec.ok_bind, hbytes,
      Exec.ok_bind, hhdr, Exec.ok_bind]
    by_cases hty : hdr.usHType = RsHtoNS ARP_HARDWARE_TYPE_ETHERNET
    · rw [if_neg (not_not_intro hty)]
      by_cases hha : hdr.ucHALength.toNat = macLength
      · rw [if_neg (not_not_intro hha)]
        by_cases hop : hdr.usOperation = ARP_REPLY ∨ hdr.usOperation = ARP_REQUEST
        · rw [if_neg (by rw [← not_or, not_not]; exact hop)]
          have hpass' : PassesChecks pkt hdr := ⟨hsz, hhdr, hty, hha, hop⟩
          rw [arpReturns_iff hpass']
          rcases extract_outcome pf (f.parted h₀ 0) hpass' rfl with ⟨he, data, hrun, hd⟩ |
            ⟨he, hr, j, hrun⟩ | ⟨he, hr, t, hrun, -⟩
          · have hafter : (f.parted h₀ 0).afterCalls (callsToExtract pkt hdr.ucPALength.toNat) =
                f.parted h₀ (0 + callsToExtract pkt hdr.ucPALength.toNat) :=
              Heap.afterCalls_afterCalls _ _ _
            rw [or_iff_right he.not_refused, and_iff_right he, hrun, Exec.ok_bind, hafter]
            exact processExtracted_ends hi hlen _ hspare hrows hpass' hd
          · rw [hrun, Exec.ok_bind]
            refine Or.inl ⟨Or.inl hr, .eReleaseBuffer, pxARP, _, rfl, by decide, ?_⟩
            rw [Frame.parted, Heap.afterCalls_afterCalls]
            exact (hi.parted_self (0 + j)).held hi hlen
          · rw [hrun]
            exact Or.inr ⟨fun hyes => hyes.elim hr fun hand => he hand.1, t, rfl⟩
        · rw [if_pos (not_or.mp hop)]
          exact Or.inl ⟨hdropped fun hdr' hp => hop (hpass hdr' hp ▸ hp.operation),
            hi.held hlen 0 _ (by decide) pxARP⟩
      · rw [if_pos hha]
        exact Or.inl ⟨hdropped fun hdr' hp => hha (hpass hdr' hp ▸ hp.hardwareLength),
          hi.held hlen 0 _ (by decide) pxARP⟩
    · rw [if_pos hty]
      exact Or.inl ⟨hdropped fun hdr' hp => hty (hpass hdr' hp ▸ hp.hardware),
        hi.held hlen 0 _ (by decide) pxARP⟩
  · rw [if_neg hsz]
    exact Or.inl ⟨hdropped fun hdr' hp => hsz hp.long, hi.held hlen 0 _ (by decide) pxARP⟩

end Packet

/-! ### Frames -/

/-- The handler comes back, and the chain of the frame was freed or handed over once. -/
def Safe (pf : Platform) (f : Frame) (h : Heap) (d : ShimData) (env : Surroundings) : Prop :=
  ∃ event d' h', vShimHandleEthernetPacket pf h d f.pxNbFrame env = .ok (event, d', h') ∧
    f.Disposed pf h h' event

/-- A frame whose header is not cut off is released as it is. -/
theorem safe_uncut (hi : f.In pf h₀) (k : ℕ)
    (hsplit : xNetBufSplit h₀ f.pxNbFrame .NB_RINA_PCI sizeofEthernetHeader =
      .ok (false, h₀.afterCalls k)) : Safe pf f h₀ d env := by
  have hlast : (h₀.afterCalls k).InUse f.pxNbFrame := ⟨_, hi.netbuf, rfl⟩
  obtain ⟨h', hfree, hrej⟩ := Frame.Owned.freeAll (s := []) (hi.owned.afterCalls k) hi.fresh hlast
  refine ⟨none, d, h', ?_, hrej⟩
  rw [vShimHandleEthernetPacket, hsplit]
  simp only [Exec.ok_bind, finishFrame, hfree]
  rfl

theorem safe_iff_of_ok {event : Event} {d' : ShimData}
    (hrun : vShimHandleEthernetPacket pf h₀ d f.pxNbFrame env = .ok (event, d', h')) :
    Safe pf f h₀ d env ↔ f.Disposed pf h₀ h' event := by
  refine ⟨?_, fun hd => ⟨event, d', h', hrun, hd⟩⟩
  rintro ⟨event', d'', h'', hrun', hd⟩
  rw [hrun] at hrun'
  cases hrun'
  exact hd

theorem not_safe_of_error {t : Trap}
    (hrun : vShimHandleEthernetPacket pf h₀ d f.pxNbFrame env = .error t) :
    ¬ Safe pf f h₀ d env := by
  rintro ⟨event, d', h', hrun', -⟩
  rw [hrun] at hrun'
  cases hrun'

variable (pf d env) in
theorem handle_cut
    (hsplit : xNetBufSplit h₀ f.pxNbFrame .NB_RINA_PCI sizeofEthernetHeader = .ok (true, h)) :
    vShimHandleEthernetPacket pf h₀ d f.pxNbFrame env = (do
      let (eReturned, event, d, h) ← interpretFrame pf h d f.pxNbFrame env
      let h ← finishFrame pf h f.pxNbFrame env eReturned
      return (event, d, h)) := by
  rw [vShimHandleEthernetPacket, hsplit]
  rfl

section Cut

variable {nb : Netbuf}
  (hsplit : xNetBufSplit h₀ f.pxNbFrame .NB_RINA_PCI sizeofEthernetHeader = .ok (true, h))
  (hnb : h.netbufs f.pxNbFrame = some nb) (hlive : nb.xFreed = false)
  (hbuf : nb.pxBuf = some f.buffer) (hmem : h.mem f.block = some f.bytes)
  (hlen : sizeofEthernetHeader ≤ f.bytes.length)

include hsplit hnb hlive hbuf hmem hlen

/-- A frame of another type is released. -/
theorem safe_other (harp : frameType f.bytes ≠ ETH_P_RINA_ARP)
    (hrina : frameType f.bytes ≠ ETH_P_RINA)
    (hfree : ∃ h', vNetBufFreeAll pf h f.pxNbFrame = .ok h' ∧ f.Rejected pf h₀ h') :
    Safe pf f h₀ d env := by
  obtain ⟨h', hfree, hrej⟩ := hfree
  refine ⟨none, d, h', ?_, hrej⟩
  rw [handle_cut pf d env hsplit, interpretFrame_eq hnb hlive hbuf hmem hlen, if_neg harp,
    if_neg hrina]
  simp only [finishFrame, hfree, pure, Except.pure, Exec.ok_bind]

/-- A RINA frame stays in memory unless it gets as far as its event. -/
theorem safe_rina (hrina : frameType f.bytes = ETH_P_RINA) {Q : Prop}
    (hpost : ∀ k d' p flow, d'.flows p = some flow → ∃ pxDu h',
      postRinaFrame pf (h.afterCalls k) d' f.pxNbFrame p = .ok (some (flow.unPort, pxDu), h') ∧
        (f.Disposed pf h₀ h' (if env.xSendEventStructToIPCPTask then some (flow.unPort, pxDu)
          else none) ↔ Q)) :
    Safe pf f h₀ d env ↔ Q ∧ FlowFor pf h d env f.bytes := by
  have hne : frameType f.bytes ≠ ETH_P_RINA_ARP := by
    rw [hrina]
    decide
  have hrun := handle_cut pf d env hsplit
  rw [interpretFrame_eq hnb hlive hbuf hmem hlen, if_neg hne, if_pos hrina] at hrun
  rcases rinaFrame_cases pf d env hnb hlive hbuf hmem hlen with
    ⟨hfor, d', p, flow, k, hflow, hcode⟩ | ⟨hno, ⟨t, hcode⟩ | ⟨d', k, hcode⟩⟩
  · obtain ⟨pxDu, h', hposted, hdisposed⟩ := hpost k d' p flow hflow
    rw [hcode, hposted] at hrun
    rw [safe_iff_of_ok hrun, hdisposed, and_iff_left hfor]
  · rw [hcode] at hrun
    exact iff_of_false (not_safe_of_error hrun) fun hand => hno hand.2
  · rw [hcode] at hrun
    rw [safe_iff_of_ok hrun]
    refine iff_of_false (fun hd => ?_) fun hand => hno hand.2
    have hrej : f.Rejected pf h₀ (h.afterCalls k) := by
      rwa [ite_self] at hd
    have hgone : h.netbufs f.pxNbFrame = none := hrej.gone f.pxNbFrame (Or.inl rfl)
    rw [hnb] at hgone
    cases hgone

end Cut

section Handler

variable {xARP : ARP} (hi : f.In pf h₀) (hARP : d.xARP = some xARP)

include hi

/-- There is no packet behind a header to read. -/
theorem not_safe_header_arp (hlen : f.bytes.length = sizeofEthernetHeader)
    (harp : frameType f.bytes = ETH_P_RINA_ARP) : ¬ Safe pf f h₀ d env := by
  have hsplit := hi.split_eq
  rw [hlen, if_neg (Nat.lt_irrefl _), if_pos rfl] at hsplit
  have hnext : pxNetBufNext pf h₀ f.pxNbFrame = .ok none := hi.next_none pf 0
  have hrun := handle_cut pf d env hsplit
  rw [interpretFrame_eq hi.netbuf rfl rfl hi.bytes (Nat.le_of_eq hlen.symm), if_pos harp] at hrun
  rcases hx : d.xARP with - | xARP
  · rw [hx] at hrun
    exact not_safe_of_error hrun
  · rw [hx, deref_some, Exec.ok_bind, prvShimHandleARPFrame, hnext] at hrun
    exact not_safe_of_error hrun

theorem safe_header_rina (hlen : f.bytes.length = sizeofEthernetHeader)
    (hrina : frameType f.bytes = ETH_P_RINA) : Safe pf f h₀ d env ↔
      ¬ env.xSendEventStructToIPCPTask = true ∧ FlowFor pf h₀ d env f.bytes := by
  have hsplit := hi.split_eq
  rw [hlen, if_neg (Nat.lt_irrefl _), if_pos rfl] at hsplit
  refine safe_rina hsplit hi.netbuf rfl rfl hi.bytes (Nat.le_of_eq hlen.symm) hrina
    fun k d' p flow hflow => ?_
  obtain ⟨h', hcode, hrej⟩ := postRinaFrame_header hi k hflow
  refine ⟨none, h', hcode, ?_⟩
  by_cases hsend : env.xSendEventStructToIPCPTask = true
  · rw [if_pos hsend]
    refine iff_of_false ?_ (not_not_intro hsend)
    rintro ⟨q, hq, -⟩
    cases hq
  · rw [if_neg hsend]
    exact iff_of_true hrej hsend

theorem split_parted (hlen : sizeofEthernetHeader < f.bytes.length) (hg : Granted h₀ 0) :
    xNetBufSplit h₀ f.pxNbFrame .NB_RINA_PCI sizeofEthernetHeader =
      .ok (true, f.parted h₀ 0) := by
  rw [hi.split_eq, if_neg (Nat.not_lt_of_le (Nat.le_of_lt hlen)), if_neg (Nat.ne_of_gt hlen),
    if_pos hg]
  rfl

theorem safe_parted_rina (hlen : sizeofEthernetHeader < f.bytes.length) (hg : Granted h₀ 0)
    (hrina : frameType f.bytes = ETH_P_RINA) : Safe pf f h₀ d env ↔
      env.xSendEventStructToIPCPTask = true ∧ FlowFor pf (h₀.afterCalls 1) d env f.bytes := by
  refine safe_rina (split_parted hi hlen hg) (Frame.parted_header 0) rfl rfl (hi.parted_mem 0)
    (Nat.le_of_lt hlen) hrina fun k d' p flow hflow => ?_
  obtain ⟨h', hcode, hover⟩ := postRinaFrame_parted hi k hflow
  rw [Frame.parted, Heap.afterCalls_afterCalls, Nat.zero_add]
  refine ⟨some h₀.brk, h', hcode, ?_⟩
  by_cases hsend : env.xSendEventStructToIPCPTask = true
  · rw [if_pos hsend]
    exact iff_of_true ⟨_, rfl, hover⟩ hsend
  · rw [if_neg hsend]
    refine iff_of_false (fun hrej => ?_) hsend
    obtain ⟨nb, hnb, -⟩ := hover.inUse
    have hgone : h'.netbufs h₀.brk = none := Frame.Rejected.gone hrej _ hover.mine
    rw [hnb] at hgone
    cases hgone

include hARP

theorem safe_parted_arp (hlen : sizeofEthernetHeader < f.bytes.length) (hg : Granted h₀ 0)
    (harp : frameType f.bytes = ETH_P_RINA_ARP) (hrows : xARP.pxCache.Inv)
    (hspare : SparePool h₀ xARP.xArpPool f.block) (hdriver : env.CopiesOut pf) :
    Safe pf f h₀ d env ↔
      ArpReturns pf (h₀.afterCalls 1) xARP (f.bytes.drop sizeofEthernetHeader) := by
  have hrun := handle_cut pf d env (split_parted hi hlen hg)
  rw [interpretFrame_eq (Frame.parted_header 0) rfl rfl (hi.parted_mem 0) (Nat.le_of_lt hlen),
    if_pos harp, hARP, deref_some, Exec.ok_bind] at hrun
  rw [← arpReturns_parted (f := f)]
  rcases arpFrame_ends hi (Nat.le_of_lt hlen) hspare hrows with
    ⟨hyes, r, xARP', h', hcode, hr, hheld⟩ | ⟨hno, t, hcode⟩
  · obtain ⟨h'', hfinish, hrej⟩ := hheld.finished hi.fresh hdriver hr
    refine iff_of_true ⟨none, { d with xARP := some xARP' }, h'', ?_, hrej⟩ hyes
    rw [hrun, hcode]
    simp only [hfinish, pure, Except.pure, Exec.ok_bind]
  · rw [hcode] at hrun
    exact iff_of_false (not_safe_of_error hrun) hno

/-- A frame is disposed of exactly if it is too short or has another type, if there is no memory
for its second netbuf, or if its branch gets to its end: the ARP branch needs a packet and
comes back with it, and the RINA branch has a flow and an event with a data unit. -/
theorem safe_iff (hrows : xARP.pxCache.Inv) (hspare : SparePool h₀ xARP.xArpPool f.block)
    (hdriver : env.CopiesOut pf) :
    Safe pf f h₀ d env ↔
      f.bytes.length < sizeofEthernetHeader ∨
      (sizeofEthernetHeader < f.bytes.length ∧ ¬ Granted h₀ 0) ∨
      (frameType f.bytes ≠ ETH_P_RINA_ARP ∧ frameType f.bytes ≠ ETH_P_RINA) ∨
      (frameType f.bytes = ETH_P_RINA_ARP ∧ sizeofEthernetHeader < f.bytes.length ∧
        ArpReturns pf (h₀.afterCalls 1) xARP (f.bytes.drop sizeofEthernetHeader)) ∨
      (frameType f.bytes = ETH_P_RINA ∧
        (env.xSendEventStructToIPCPTask = true ↔ sizeofEthernetHeader < f.bytes.length) ∧
        FlowFor pf (h₀.afterCalls (if sizeofEthernetHeader < f.bytes.length then 1 else 0)) d env
          f.bytes) := by
  have hne : ETH_P_RINA ≠ ETH_P_RINA_ARP := by decide
  rcases Nat.lt_trichotomy f.bytes.length sizeofEthernetHeader with hlt | heq | hgt
  · have hsplit := hi.split_eq
    rw [if_pos hlt] at hsplit
    exact iff_of_true (safe_uncut hi 0 hsplit) (Or.inl hlt)
  · have hno : ¬ sizeofEthernetHeader < f.bytes.length := Nat.not_lt_of_le (Nat.le_of_eq heq)
    have hno' : ¬ f.bytes.length < sizeofEthernetHeader := Nat.not_lt_of_le (Nat.le_of_eq heq.symm)
    simp only [hno, hno', false_and, and_false, false_or, iff_false, if_false,
      Heap.afterCalls_zero]
    by_cases harp : frameType f.bytes = ETH_P_RINA_ARP
    · refine iff_of_false (not_safe_header_arp hi heq harp) ?_
      rintro (hother | hrina)
      · exact hother.1 harp
      · exact hne (hrina.1.symm.trans harp)
    · by_cases hrina : frameType f.bytes = ETH_P_RINA
      · rw [safe_header_rina hi heq hrina]
        simp [hrina, hne]
      · have hsplit := hi.split_eq
        rw [if_neg hno', if_pos heq] at hsplit
        refine iff_of_true (safe_other hsplit hi.netbuf rfl rfl hi.bytes (Nat.le_of_eq heq.symm)
          harp hrina ?_) (Or.inl ⟨harp, hrina⟩)
        exact Frame.Owned.freeAll (s := []) hi.owned hi.fresh ⟨_, hi.netbuf, rfl⟩
  · have hno : ¬ f.bytes.length < sizeofEthernetHeader := Nat.not_lt_of_lt hgt
    by_cases hg : Granted h₀ 0
    · simp only [hgt, hg, hno, not_true_eq_false, and_false, true_and, false_or, iff_true, if_true]
      by_cases harp : frameType f.bytes = ETH_P_RINA_ARP
      · rw [safe_parted_arp hi hARP hgt hg harp hrows hspare hdriver]
        simp [harp, hne.symm]
      · by_cases hrina : frameType f.bytes = ETH_P_RINA
        · rw [safe_parted_rina hi hgt hg hrina]
          simp [hrina, hne]
        · exact iff_of_true (safe_other (split_parted hi hgt hg) (Frame.parted_header 0) rfl rfl
            (hi.parted_mem 0) (Nat.le_of_lt hgt) harp hrina
            (((hi.parted_self 0).held hi (Nat.le_of_lt hgt)).released hi.fresh))
            (Or.inl ⟨harp, hrina⟩)
    · have hsplit := hi.split_eq
      rw [if_neg hno, if_neg (Nat.ne_of_gt hgt), if_neg hg] at hsplit
      exact iff_of_true (safe_uncut hi 1 hsplit) (Or.inr (Or.inl ⟨hgt, hg⟩))

end Handler

/-- A frame of the given type in the first netbuf of an empty heap. -/
def exampleFrame (usFrameType pvPayload : Bytes) : Frame where
  pxNbFrame := 1
  bytes := List.replicate 6 0 ++ (exampleMac 1).ucBytes ++ usFrameType ++ pvPayload
  block := 0
  pfnFree := some .vNetBufFreeNormal
  xPool := 0

def Frame.heap (f : Frame) : Heap where
  mem := fun a => if a = 0 then some f.bytes else none
  netbufs := fun p => if p = 1 then some f.netbuf else none
  rsrcs := fun _ => none
  pools := fun _ => none
  brk := 2
  calls := 0
  mallocOk := fun _ => true
  junk := fun _ _ => 0

theorem exampleFrame_in (usFrameType pvPayload : Bytes) :
    (exampleFrame usFrameType pvPayload).In ⟨false, false⟩
      (exampleFrame usFrameType pvPayload).heap where
  fresh a ha := by
    have ha : 2 ≤ a := ha
    simp [Frame.heap, show a ≠ 0 by omega, show a ≠ 1 by omega]
  netbuf := rfl
  bytes := rfl
  usable := ⟨rfl, fun _ => rfl, fun hm => by cases hm⟩

def exampleShim : ShimData := { pxShimWiFiCreate 0 1 with xARP := some answeringArp }

/-- A port which the IPC process takes, a queue with room, and a driver which sends. -/
def exampleSurroundings : Surroundings where
  unReserved := 5
  pxIpcp := some fun _ => true
  xSendEventStructToIPCPTask := true
  xNetworkInterfaceOutput := fun h _ => .ok (true, h)

theorem exampleSurroundings_copiesOut (pf : Platform) : exampleSurroundings.CopiesOut pf :=
  fun h _ _ hc _ _ => ⟨true, h, rfl, hc.fresh, rfl, fun c _ => SameBlock.refl h c⟩

/-- A PDU from a new source is handed over. -/
theorem safe_pdu : Safe ⟨false, false⟩ (exampleFrame [0xD1, 0xF0] [1, 2])
    (exampleFrame [0xD1, 0xF0] [1, 2]).heap exampleShim exampleSurroundings :=
  (safe_iff (exampleFrame_in _ _) rfl answeringArp_inv (fun _ hpool => by cases hpool)
    (exampleSurroundings_copiesOut _)).mpr (Or.inr (Or.inr (Or.inr (Or.inr ⟨by decide, by decide,
      none, by rfl, fun _ => ⟨rfl, by decide, rfl, rfl⟩⟩))))

/-- An ARP frame which is only a header reads the packet which it does not have. -/
theorem not_safe_header : ¬ Safe ⟨false, false⟩ (exampleFrame [0x43, 5] [])
    (exampleFrame [0x43, 5] []).heap exampleShim exampleSurroundings :=
  not_safe_header_arp (exampleFrame_in _ _) rfl (by decide)

end RinaSense.Shim.OnChain
