import RinaSense.Shim.ArpOutcome

/-!
# Replies and assertions

Two properties of `vShimHandleEthernetPacket` for ARP frames, for any bytes and any answers of
`malloc`: nothing but complete replies goes back to the network, and no assertion about the
addresses is violated. Both hold on exactly determined inputs only.
-/

namespace RinaSense.Shim

open Common Library.Memory Library.Filler

variable {pf : Platform} {h : Heap} {pxARP : ARP} {xPool : PoolPtr} {frame : ArpFrame}
  {hdr : ARPStaticHeader} {d : ARPPacketData} {m : GHA} {requester : MACAddress}

/-! ### Replies -/

/-- The frame answers a request for an address in the cache. Its addresses are those of the
request the other way round and the one in the cache, and no byte of it is left over. -/
def CompleteReply (pxARP : ARP) (frame : ArpFrame) (requester : MACAddress) (out : ArpFrame) :
    Prop :=
  ∃ hdr d m, PassesChecks frame.arp hdr ∧ hdr.usOperation = ARP_REQUEST ∧
    AddressesOf frame.arp hdr d ∧ lookupResult d.pxTpa pxARP.pxCache.pxRows = some m ∧
    out = prvReturnEthernetFrame { frame with arp := responseBytes d m.xAddress requester }

/-- What goes back to the network is a complete reply to the requester. -/
def ReturnsReplies (pf : Platform) (h : Heap) (pxARP : ARP) (xPool : PoolPtr) (frame : ArpFrame)
    (requester : MACAddress) : Prop :=
  ∀ out pxARP' h', handleEthernetArp pf h pxARP xPool frame = .ok (some out, pxARP', h') →
    CompleteReply pxARP frame requester out

/-- A request gets as far as its response. -/
structure Answered (pf : Platform) (h : Heap) (pxARP : ARP) (pkt : Bytes) (hdr : ARPStaticHeader)
    (m : GHA) : Prop where
  passes : PassesChecks pkt hdr
  request : hdr.usOperation = ARP_REQUEST
  extracts : Extracts h pkt hdr.ucPALength.toNat
  copies : LookupGranted pf (h.afterCalls (callsToExtract pkt hdr.ucPALength.toNat))
    (target pkt hdr) pxARP.pxCache.pxRows
  hit : lookupResult (target pkt hdr) pxARP.pxCache.pxRows = some m

/-- The heap behind the lookup. -/
def lookedUp (pf : Platform) (h : Heap) (pxARP : ARP) (pkt : Bytes) (hdr : ARPStaticHeader) :
    Heap :=
  (h.afterCalls (callsToExtract pkt hdr.ucPALength.toNat)).afterCalls
    (lookupCalls pf (target pkt hdr) pxARP.pxCache.pxRows)

theorem PassesChecks.unique {hdr' : ARPStaticHeader} {pkt : Bytes} (hp : PassesChecks pkt hdr)
    (hp' : PassesChecks pkt hdr') : hdr' = hdr :=
  Except.ok.inj (hp'.header.symm.trans hp.header)

theorem AddressesOf.pxTpa_eq {pkt : Bytes} (ha : AddressesOf pkt hdr d) :
    d.pxTpa = target pkt hdr := ha.tpa

theorem AddressesOf.lengths {pkt : Bytes} (ha : AddressesOf pkt hdr d) :
    d.pxTpa.uxLength ≤ hdr.ucPALength.toNat ∧ d.pxSpa.uxLength ≤ hdr.ucPALength.toNat := by
  rw [ha.tpa, ha.spa]
  exact ⟨(cut_length_le 0 _).trans (List.length_take_le _ _),
    (cut_length_le 0 _).trans (List.length_take_le _ _)⟩

/-- Responses to one packet agree in the address of the host they are for. -/
theorem responseBytes_requester {d' : ARPPacketData} {pkt : Bytes} {ha ha' src src' : MACAddress}
    (hd : AddressesOf pkt hdr d) (hd' : AddressesOf pkt hdr d')
    (heq : responseBytes d ha src = responseBytes d' ha' src') : src = src' := by
  have hslice : ∀ (e : ARPPacketData) (ha src : MACAddress), AddressesOf pkt hdr e →
      slice (responseBytes e ha src) (14 + hdr.ucPALength.toNat) 6 = some src.ucBytes := by
    intro e ha src he
    have hpa : e.pxARPHdr.ucPALength.toNat = hdr.ucPALength.toNat := by rw [he.pxARPHdr]
    have hlen : (pad 0 e.pxARPHdr.ucPALength.toNat e.pxTpa.pucAddress).length =
        hdr.ucPALength.toNat := by
      rw [hpa]
      exact pad_length he.lengths.1
    rw [responseBytes, packetParts, ← List.append_assoc, ← List.append_assoc]
    refine slice_middle _ _ _ ?_ (MACAddress.ucBytes_length _).symm
    simp only [List.length_append, ARPStaticHeader.toBytes_length, MACAddress.ucBytes_length, hlen]
  have hbytes : src.ucBytes = src'.ucBytes := by
    have hs := hslice d ha src hd
    rw [heq, hslice d' ha' src' hd', Option.some.injEq] at hs
    exact hs.symm
  cases src
  cases src'
  cases hbytes
  rfl

/-- A request is no reply to anything. -/
theorem not_completeReply (hp : PassesChecks frame.arp hdr) (hreq : hdr.usOperation = ARP_REQUEST) :
    ¬ CompleteReply pxARP frame requester (prvReturnEthernetFrame frame) := by
  rintro ⟨hdr', d, m, -, -, -, -, hout⟩
  have harp : frame.arp = responseBytes d m.xAddress requester := congrArg ArpFrame.arp hout
  have hread := hp.header
  rw [harp, responseBytes, readHeader_packetParts] at hread
  have hop : ARP_REPLY = hdr.usOperation := by cases hread; rfl
  rw [hreq] at hop
  exact absurd hop (by decide)

section Runs

variable (xPool)

theorem lookedUp_hit (hrows : pxARP.pxCache.Inv) (ha : Answered pf h pxARP frame.arp hdr m) :
    ∃ d, AddressesOf frame.arp hdr d ∧ handleEthernetArp pf h pxARP xPool frame = (do
      match ← prvARPGetResponse pf (lookedUp pf h pxARP frame.arp hdr) pxARP xPool frame.eth d m
        with
      | (none, h) => return (some (prvReturnEthernetFrame frame), pxARP, h)
      | (some pxNbArpRes, h) =>
        return (some (prvReturnEthernetFrame { frame with arp := pxNbArpRes }), pxARP, h)) := by
  rcases extract_outcome pf h ha.passes rfl with ⟨-, d, hrun, hd⟩ | ⟨hno, -⟩ | ⟨hno, -⟩
  · refine ⟨d, hd, ?_⟩
    have htpa := hd.pxTpa_eq
    have hhit := handleExtracted_hit xPool frame (d := d) hrows ha.request
      (htpa ▸ ha.copies) (htpa ▸ ha.hit)
    rw [handleEthernetArp_eq ha.passes, hrun, Exec.ok_bind]
    simp only [hhit, htpa]
    rfl
  · exact absurd ha.extracts hno
  · exact absurd ha.extracts hno

/-- When the response is refused the request itself goes back. -/
theorem handleEthernetArp_refused (hrows : pxARP.pxCache.Inv)
    (ha : Answered pf h pxARP frame.arp hdr m)
    (hr : ResponseRefused pf (lookedUp pf h pxARP frame.arp hdr) pxARP.xArpPool
      hdr.ucPALength.toNat) :
    ∃ h', handleEthernetArp pf h pxARP xPool frame =
      .ok (some (prvReturnEthernetFrame frame), pxARP, h') := by
  obtain ⟨d, hd, hrun⟩ := lookedUp_hit xPool hrows ha
  obtain ⟨h', hresp⟩ := prvARPGetResponse_refused (d := d) frame.eth xPool m
    (by rw [hd.pxARPHdr]) hr
  exact ⟨h', by rw [hrun, hresp]; rfl⟩

theorem handleEthernetArp_answered (hrows : pxARP.pxCache.Inv)
    (ha : Answered pf h pxARP frame.arp hdr m)
    (hg : ResponseGranted pf (lookedUp pf h pxARP frame.arp hdr) pxARP.xArpPool
      hdr.ucPALength.toNat) :
    ∃ d h', AddressesOf frame.arp hdr d ∧ handleEthernetArp pf h pxARP xPool frame =
      .ok (some (prvReturnEthernetFrame { frame with
        arp := responseBytes d m.xAddress frame.eth.xSourceAddress }), pxARP, h') := by
  obtain ⟨d, hd, hrun⟩ := lookedUp_hit xPool hrows ha
  obtain ⟨h', hresp⟩ := prvARPGetResponse_granted (d := d) frame.eth xPool m
    (by rw [hd.pxARPHdr]) (by rw [hd.pxARPHdr]; exact ha.passes.hardwareLength) hd.lengths.1
    hd.lengths.2 hg
  exact ⟨d, h', hd, by rw [hrun, hresp]; rfl⟩

end Runs

/-- Nothing goes back for a packet which is not answered. -/
theorem handleEthernetArp_silent (hrows : pxARP.pxCache.Inv)
    (hno : ∀ hdr m, ¬ Answered pf h pxARP frame.arp hdr m) (out : ArpFrame) (pxARP' : ARP)
    (h' : Heap) : handleEthernetArp pf h pxARP xPool frame ≠ .ok (some out, pxARP', h') := by
  intro hrun
  by_cases hp : ∃ hdr, PassesChecks frame.arp hdr
  · obtain ⟨hdr, hp⟩ := hp
    rw [handleEthernetArp_eq hp] at hrun
    rcases extract_outcome pf h hp rfl with ⟨he, d, hext, hd⟩ | ⟨-, -, h₁, hext⟩ | ⟨-, -, t, hext, -⟩
    · rw [hext, Exec.ok_bind] at hrun
      have htpa := hd.pxTpa_eq
      by_cases hreq : hdr.usOperation = ARP_REQUEST
      · by_cases hcopies : LookupGranted pf (h.afterCalls (callsToExtract frame.arp
            hdr.ucPALength.toNat)) d.pxTpa pxARP.pxCache.pxRows
        · cases hres : lookupResult d.pxTpa pxARP.pxCache.pxRows with
          | none =>
            rcases handleExtracted_miss xPool frame (d := d) hrows hreq
              hcopies hres with ⟨-, h₂, hmiss⟩ | ⟨-, hmiss⟩
            all_goals
              simp only [hmiss] at hrun
              cases hrun
          | some m => exact hno hdr m ⟨hp, hreq, he, htpa ▸ hcopies, htpa ▸ hres⟩
        · have hassert := handleExtracted_asserts xPool frame hrows hreq
            hcopies
          simp only [hassert] at hrun
          cases hrun
      · rcases handleExtracted_reply pf (h := h.afterCalls (callsToExtract frame.arp
          hdr.ucPALength.toNat)) pxARP xPool frame d hreq
          with ⟨pxARP₁, h₁, hrep⟩ | ⟨t, hrep, -⟩
        all_goals
          simp only [hrep] at hrun
          cases hrun
    · rw [hext] at hrun
      cases hrun
    · rw [hext] at hrun
      cases hrun
  · rw [handleEthernetArp_dropped fun hdr hdr' => hp ⟨hdr, hdr'⟩] at hrun
    cases hrun

/-- Exactly the requests whose response is refused, and those sent on behalf of another host,
are not answered as they should be. -/
theorem returnsReplies_iff (pf : Platform) (h : Heap) (xPool : PoolPtr) (frame : ArpFrame)
    (requester : MACAddress) (hrows : pxARP.pxCache.Inv) :
    ReturnsReplies pf h pxARP xPool frame requester ↔
      ∀ hdr m, Answered pf h pxARP frame.arp hdr m →
        ¬ ResponseRefused pf (lookedUp pf h pxARP frame.arp hdr) pxARP.xArpPool
          hdr.ucPALength.toNat ∧
        (ResponseGranted pf (lookedUp pf h pxARP frame.arp hdr) pxARP.xArpPool
          hdr.ucPALength.toNat → frame.eth.xSourceAddress = requester) := by
  constructor
  · intro hall hdr m ha
    refine ⟨fun hr => ?_, fun hg => ?_⟩
    · obtain ⟨h', hrun⟩ := handleEthernetArp_refused xPool hrows ha hr
      exact not_completeReply ha.passes ha.request (hall _ _ _ hrun)
    · obtain ⟨d, h', hd, hrun⟩ := handleEthernetArp_answered xPool hrows ha hg
      obtain ⟨hdr', d', m', hp', -, hd', -, hout⟩ := hall _ _ _ hrun
      rw [ha.passes.unique hp'] at hd'
      exact responseBytes_requester hd hd' (congrArg ArpFrame.arp hout)
  · intro hcond out pxARP' h' hrun
    by_cases hans : ∃ hdr m, Answered pf h pxARP frame.arp hdr m
    · obtain ⟨hdr, m, ha⟩ := hans
      obtain ⟨hno, hsrc⟩ := hcond hdr m ha
      by_cases hg : ResponseGranted pf (lookedUp pf h pxARP frame.arp hdr) pxARP.xArpPool
          hdr.ucPALength.toNat
      · obtain ⟨d, h₁, hd, hrun'⟩ := handleEthernetArp_answered xPool hrows ha hg
        rw [hrun'] at hrun
        cases hrun
        exact ⟨hdr, d, m, ha.passes, ha.request, hd, hd.pxTpa_eq ▸ ha.hit, by rw [hsrc hg]⟩
      · obtain ⟨d, hd, hrun'⟩ := lookedUp_hit xPool hrows ha
        obtain ⟨t, htrap, -⟩ :=
          prvARPGetResponse_traps (d := d) frame.eth xPool m (by rw [hd.pxARPHdr]) hno hg
        rw [hrun', htrap] at hrun
        cases hrun
    · refine absurd hrun (handleEthernetArp_silent hrows ?_ out pxARP' h')
      exact fun hdr m ha => hans ⟨hdr, m, ha⟩

/-- A heap which refuses the request to `malloc` numbered `n`. -/
def refusingArpHeap (n : ℕ) : Heap := { exampleArpHeap with mallocOk := fun i => i != n }

/-- The request of `exampleRequest` as it comes from the host which makes it. -/
def exampleRequestFrame : ArpFrame :=
  ⟨⟨exampleMac 2, exampleMac 1, RsHtoNS ETH_P_RINA_ARP⟩, exampleRequest⟩

/-- A cache with the address which is asked for. -/
def answeringArp : ARP := exampleArp [.live ⟨[66]⟩ (exampleGha 3)]

theorem answeringArp_inv : answeringArp.pxCache.Inv := by
  intro r hr
  rw [List.mem_singleton.mp hr]
  exact Or.inr ⟨_, _, rfl, by decide⟩

/-- A debug build makes seven requests to `malloc` before it builds the response. -/
theorem answered_example {n : ℕ} (hn : 7 ≤ n) : Answered ⟨false, false⟩ (refusingArpHeap n)
    answeringArp exampleRequestFrame.arp (arpHeader ARP_REQUEST 1) (exampleGha 3) := by
  have hg : ∀ i < 7, Granted (refusingArpHeap n) i := by
    intro i hi
    rw [Granted, refusingArpHeap, bne_iff_ne]
    change 0 + i ≠ n
    omega
  refine ⟨exampleRequest_passes, rfl, ⟨⟨by decide, ⟨hg 0 (by decide), by decide⟩,
    ⟨hg 1 (by decide), hg 2 (by decide), by decide⟩, ⟨hg 3 (by decide), by decide⟩,
    fun _ => hg 4 (by decide)⟩, ⟨hg 4 (by decide), hg 5 (by decide), by decide⟩,
    fun _ => hg 6 (by decide)⟩, ?_, rfl⟩
  intro i hi
  have hone : i < 1 := hi
  rw [Nat.lt_one_iff.mp hone, granted_afterCalls]
  exact hg 6 (by decide)

/-- With all its memory the request is answered as it should be. -/
theorem returnsReplies_example : ReturnsReplies ⟨false, false⟩ (refusingArpHeap 9) answeringArp 2
    exampleRequestFrame (exampleMac 1) := by
  refine (returnsReplies_iff ⟨false, false⟩ _ 2 exampleRequestFrame (exampleMac 1)
    answeringArp_inv).mpr fun hdr m ha => ⟨?_, fun _ => rfl⟩
  rw [exampleRequest_passes.unique ha.passes]
  rintro (⟨pool, hpool, hno⟩ | ⟨k, ⟨pool, hpool, -, hk⟩, hno⟩)
  · cases hpool
    revert hno
    decide
  · cases hpool
    rcases hk with ⟨hfree, -⟩ | ⟨-, -, -, rfl⟩
    · exact hfree rfl
    · exact hno rfl

/-- When the netbuf of the response is refused, the request goes back to the one who sent it. -/
theorem not_returnsReplies_refused : ¬ ReturnsReplies ⟨false, false⟩ (refusingArpHeap 8)
    answeringArp 2 exampleRequestFrame (exampleMac 1) := by
  have ha := answered_example (n := 8) (by decide)
  have hr : ResponseRefused ⟨false, false⟩ (lookedUp ⟨false, false⟩ (refusingArpHeap 8)
      answeringArp exampleRequestFrame.arp (arpHeader ARP_REQUEST 1)) answeringArp.xArpPool 1 :=
    Or.inr ⟨1, ⟨_, rfl, rfl, Or.inr ⟨rfl, by decide, rfl, rfl⟩⟩, by decide⟩
  obtain ⟨h', hrun⟩ := handleEthernetArp_refused 2 answeringArp_inv ha hr
  exact fun hall => not_completeReply ha.passes ha.request (hall _ _ _ hrun)

/-! ### Assertions -/

/-- No assertion is violated, and the protocol addresses which the lookup, the log and the
clean-up are given are ones which these functions accept. -/
structure MeetsPreconditions (pf : Platform) (h : Heap) (pxARP : ARP) (xPool : PoolPtr)
    (frame : ArpFrame) : Prop where
  asserts : handleEthernetArp pf h pxARP xPool frame ≠ .error .assertion
  addresses : ∀ hdr d h', PassesChecks frame.arp hdr →
    prvARPExtractRequestData pf h frame.arp = .ok (some d, h') →
    xIsGPAOK d.pxSpa = true ∧ xIsGPAOK d.pxTpa = true

/-- The copies which a debug build makes of addresses to print them are granted. -/
def CopiesGranted (pf : Platform) (h : Heap) (pxARP : ARP) (pkt : Bytes)
    (hdr : ARPStaticHeader) : Prop :=
  LookupGranted pf (h.afterCalls (callsToExtract pkt hdr.ucPALength.toNat)) (target pkt hdr)
      pxARP.pxCache.pxRows ∧
    (lookupResult (target pkt hdr) pxARP.pxCache.pxRows = none → pf.ndebug = false →
      Granted (lookedUp pf h pxARP pkt hdr) 0)

theorem cut_ne_nil_iff {f : UInt8} {xs : Bytes} (hne : xs ≠ []) :
    cut f xs ≠ [] ↔ xs.head? ≠ some f := by
  cases xs with
  | nil => exact absurd rfl hne
  | cons x xs =>
    rw [cut_cons, List.head?_cons]
    split <;> simp_all

theorem Extracts.spa_ne_nil {pkt : Bytes} {n : ℕ} (he : Extracts h pkt n) :
    spaBytes pkt n ≠ [] :=
  ne_nil_of_length (spaBytes_length he.spa.2.2) he.nonempty

theorem Extracts.tpa_ne_nil {pkt : Bytes} {n : ℕ} (he : Extracts h pkt n) :
    tpaBytes pkt n ≠ [] :=
  ne_nil_of_length (tpaBytes_length he.tpa.2.2) he.nonempty

theorem prvARPGetResponse_ne_assertion {pkt : Bytes} {eth : EthernetHeader}
    (hp : PassesChecks pkt hdr) (hd : AddressesOf pkt hdr d) (xPool : PoolPtr) (m : GHA) :
    prvARPGetResponse pf h pxARP xPool eth d m ≠ .error .assertion := by
  have hn : d.pxARPHdr.ucPALength.toNat = hdr.ucPALength.toNat := by rw [hd.pxARPHdr]
  have hha : d.pxARPHdr.ucHALength.toNat = macLength := by rw [hd.pxARPHdr]; exact hp.hardwareLength
  by_cases hr : ResponseRefused pf h pxARP.xArpPool hdr.ucPALength.toNat
  · obtain ⟨h', hrun⟩ := prvARPGetResponse_refused eth xPool m hn hr
    rw [hrun]
    exact fun heq => by cases heq
  · by_cases hg : ResponseGranted pf h pxARP.xArpPool hdr.ucPALength.toNat
    · obtain ⟨h', hrun⟩ := prvARPGetResponse_granted eth xPool m hn hha hd.lengths.1
        hd.lengths.2 hg
      rw [hrun]
      exact fun heq => by cases heq
    · obtain ⟨t, hrun, ht⟩ := prvARPGetResponse_traps eth xPool m hn hr hg
      rw [hrun]
      exact fun heq => ht (by cases heq; rfl)

variable (xPool) in
/-- The assertions behind the extraction are about the copies only, unless the address of the
target is empty. -/
theorem handleExtracted_ne_assertion (hrows : pxARP.pxCache.Inv) (hp : PassesChecks frame.arp hdr)
    (hd : AddressesOf frame.arp hdr d)
    (htpa : cut 0 (tpaBytes frame.arp hdr.ucPALength.toNat) ≠ []) :
    handleExtracted pf (h.afterCalls (callsToExtract frame.arp hdr.ucPALength.toNat)) pxARP xPool
        frame hdr d ≠ .error .assertion ↔
      (hdr.usOperation = ARP_REQUEST → CopiesGranted pf h pxARP frame.arp hdr) := by
  have hkey := hd.pxTpa_eq
  by_cases hreq : hdr.usOperation = ARP_REQUEST
  · rw [forall_prop_of_true hreq]
    by_cases hcopies : LookupGranted pf (h.afterCalls (callsToExtract frame.arp
        hdr.ucPALength.toNat)) (target frame.arp hdr) pxARP.pxCache.pxRows
    · rw [CopiesGranted, and_iff_right hcopies]
      cases hres : lookupResult (target frame.arp hdr) pxARP.pxCache.pxRows with
      | none =>
        have hne : d.pxTpa.pucAddress ≠ [] := by rw [hkey]; exact htpa
        rcases handleExtracted_miss xPool frame (d := d) hrows hreq
          (hkey ▸ hcopies) (hkey ▸ hres) with ⟨hyes, h₁, hrun⟩ | ⟨hno, hrun⟩
        · rw [hrun]
          refine iff_of_true (fun heq => by cases heq) fun _ hdebug => ?_
          rw [hkey] at hyes
          exact (hyes.resolve_left (by rw [hdebug]; decide)).2
        · rw [hrun]
          refine iff_of_false (fun hall => hall rfl) fun hall => hno ?_
          by_cases hdebug : pf.ndebug = true
          · exact Or.inl hdebug
          · rw [hkey]
            exact Or.inr ⟨htpa, hall rfl (eq_false_of_ne_true hdebug)⟩
      | some m =>
        refine iff_of_true ?_ fun hnone => by cases hnone
        rw [handleExtracted_hit xPool frame (d := d) hrows hreq
          (hkey ▸ hcopies) (hkey ▸ hres)]
        refine bind_ne_assertion ?_ ?_
        · exact prvARPGetResponse_ne_assertion hp hd xPool m
        · rintro ⟨_ | b, h₁⟩ <;> exact pure_ne_assertion _
    · rw [handleExtracted_asserts xPool frame hrows hreq (hkey ▸ hcopies)]
      exact iff_of_false (fun hall => hall rfl) fun hall => hcopies hall.1
  · refine iff_of_true ?_ fun hyes => absurd hyes hreq
    rcases handleExtracted_reply pf (h := h.afterCalls (callsToExtract frame.arp
      hdr.ucPALength.toNat)) pxARP xPool frame d hreq
      with ⟨pxARP₁, h₁, hrep⟩ | ⟨t, hrep, ht⟩
    · rw [hrep]
      exact fun heq => by cases heq
    · rw [hrep]
      exact fun heq => ht (by cases heq; rfl)

/-- Exactly the packets one of whose addresses starts with a zero byte are processed against
the preconditions, and in a debug build those which meet a shortage of memory. -/
theorem meetsPreconditions_iff (pf : Platform) (h : Heap) (xPool : PoolPtr) (frame : ArpFrame)
    (hrows : pxARP.pxCache.Inv) :
    MeetsPreconditions pf h pxARP xPool frame ↔
      ∀ hdr, PassesChecks frame.arp hdr → Extracts h frame.arp hdr.ucPALength.toNat →
        (spaBytes frame.arp hdr.ucPALength.toNat).head? ≠ some 0 ∧
        (tpaBytes frame.arp hdr.ucPALength.toNat).head? ≠ some 0 ∧
        (hdr.usOperation = ARP_REQUEST → CopiesGranted pf h pxARP frame.arp hdr) := by
  constructor
  · intro hmeets hdr hp he
    rw [← cut_ne_nil_iff he.spa_ne_nil, ← cut_ne_nil_iff he.tpa_ne_nil]
    rcases extract_outcome pf h hp rfl with ⟨-, d, hrun, hd⟩ | ⟨hno, -⟩ | ⟨hno, -⟩
    · obtain ⟨hspa, htpa⟩ := hmeets.addresses hdr d _ hp hrun
      rw [xIsGPAOK_iff, hd.spa] at hspa
      rw [xIsGPAOK_iff, hd.tpa] at htpa
      refine ⟨hspa, htpa, (handleExtracted_ne_assertion xPool hrows hp hd htpa).mp ?_⟩
      have hrest := hmeets.asserts
      rwa [handleEthernetArp_eq hp, hrun] at hrest
    · exact absurd he hno
    · exact absurd he hno
  · intro hcond
    constructor
    · by_cases hp : ∃ hdr, PassesChecks frame.arp hdr
      · obtain ⟨hdr, hp⟩ := hp
        rw [handleEthernetArp_eq hp]
        rcases extract_outcome pf h hp rfl with ⟨he, d, hrun, hd⟩ | ⟨-, -, h₁, hrun⟩ |
          ⟨-, -, t, hrun, ht, -⟩
        · obtain ⟨-, htpa, hcopies⟩ := hcond hdr hp he
          rw [← cut_ne_nil_iff he.tpa_ne_nil] at htpa
          rw [hrun]
          exact (handleExtracted_ne_assertion xPool hrows hp hd htpa).mpr hcopies
        · rw [hrun]
          exact pure_ne_assertion _
        · rw [hrun]
          exact fun heq => ht (by cases heq; rfl)
      · rw [handleEthernetArp_dropped fun hdr hdr' => hp ⟨hdr, hdr'⟩]
        exact fun heq => by cases heq
    · intro hdr d h' hp hrun
      rcases extract_outcome pf h hp rfl with ⟨he, d', hrun', hd⟩ | ⟨-, -, h₁, hrun'⟩ |
        ⟨-, -, t, hrun', -⟩
      · rw [hrun'] at hrun
        cases hrun
        obtain ⟨hspa, htpa, -⟩ := hcond hdr hp he
        rw [xIsGPAOK_iff, xIsGPAOK_iff, hd.spa, hd.tpa]
        exact ⟨(cut_ne_nil_iff he.spa_ne_nil).mpr hspa, (cut_ne_nil_iff he.tpa_ne_nil).mpr htpa⟩
      · rw [hrun'] at hrun
        cases hrun
      · rw [hrun'] at hrun
        cases hrun

/-- A request for an address which is not all zero bytes. -/
theorem meetsPreconditions_example : MeetsPreconditions ⟨false, false⟩ (refusingArpHeap 9)
    answeringArp 2 exampleRequestFrame := by
  refine (meetsPreconditions_iff ⟨false, false⟩ _ 2 exampleRequestFrame answeringArp_inv).mpr ?_
  intro hdr hp _
  rw [exampleRequest_passes.unique hp]
  refine ⟨by decide, by decide, fun _ => ⟨(answered_example (by decide)).copies, ?_⟩⟩
  exact fun hmiss => absurd hmiss (by decide)

/-- A request for the address with a single zero byte. -/
def zeroRequest : Bytes := arpPacket ARP_REQUEST (exampleMac 1) [65] (exampleMac 2) [0]

theorem zeroRequest_asserts :
    handleEthernetArp ⟨false, false⟩ exampleArpHeap (exampleArp []) 2
      ⟨⟨exampleMac 2, exampleMac 1, RsHtoNS ETH_P_RINA_ARP⟩, zeroRequest⟩ = .error .assertion ∧
    ¬ MeetsPreconditions ⟨false, false⟩ exampleArpHeap (exampleArp []) 2
      ⟨⟨exampleMac 2, exampleMac 1, RsHtoNS ETH_P_RINA_ARP⟩, zeroRequest⟩ :=
  ⟨rfl, fun hmeets => hmeets.asserts rfl⟩

end RinaSense.Shim
