import RinaSense.Shim.Arp826

/-!
# The extraction of the addresses

What `prvARPExtractRequestData` does with a packet which got past the checks in front of it,
for every length of the packet and every answer of `malloc`. Nothing compares the length which
the header states for the protocol addresses with the length of the packet.
-/

namespace RinaSense.Shim

open Common Library.Memory Library.Filler

/-- The checks of `prvShimHandleARPFrame` and `eARPProcessPacket` before the extraction. -/
structure PassesChecks (pkt : Bytes) (hdr : ARPStaticHeader) : Prop where
  long : sizeofARPStaticHeader ≤ pkt.length
  header : readHeader pkt = .ok hdr
  hardware : hdr.usHType = RsHtoNS ARP_HARDWARE_TYPE_ETHERNET
  hardwareLength : hdr.ucHALength.toNat = macLength
  operation : hdr.usOperation = ARP_REPLY ∨ hdr.usOperation = ARP_REQUEST

/-- The `i`-th request to `malloc` from here on is granted. -/
def Granted (h : Heap) (i : ℕ) : Prop := h.mallocOk (h.calls + i) = true

instance (h : Heap) (i : ℕ) : Decidable (Granted h i) := inferInstanceAs (Decidable (_ = true))

theorem Granted.firstRequest {h : Heap} (hg : Granted h 0) :
    requestMemory h = (true, h.afterCalls 1) := Prod.ext hg rfl

theorem firstRequest_refused {h : Heap} (hg : ¬ Granted h 0) :
    requestMemory h = (false, h.afterCalls 1) := Prod.ext (eq_false_of_ne_true hg) rfl

theorem Granted.request {h : Heap} {i : ℕ} (hg : Granted h i) :
    requestMemory (h.afterCalls i) = (true, h.afterCalls (i + 1)) := Prod.ext hg rfl

theorem request_refused {h : Heap} {i : ℕ} (hg : ¬ Granted h i) :
    requestMemory (h.afterCalls i) = (false, h.afterCalls (i + 1)) :=
  Prod.ext (eq_false_of_ne_true hg) rfl

/-- The addresses with `n` bytes which the header promises lie in the packet. Without protocol
addresses nothing behind the first hardware address is read. -/
def AddressesFit (pkt : Bytes) (n : ℕ) : Prop :=
  if n = 0 then 14 ≤ pkt.length else 20 + 2 * n ≤ pkt.length

/-- The sender's protocol address. -/
def spaBytes (pkt : Bytes) (n : ℕ) : Bytes := (pkt.drop 14).take n

/-- The target's protocol address. -/
def tpaBytes (pkt : Bytes) (n : ℕ) : Bytes := (pkt.drop (20 + n)).take n

/-- Every step before the target's protocol address succeeds. -/
structure ReachesTarget (h : Heap) (pkt : Bytes) (n : ℕ) : Prop where
  nonempty : n ≠ 0
  sha : Granted h 0 ∧ 14 ≤ pkt.length
  spa : Granted h 1 ∧ Granted h 2 ∧ 14 + n ≤ pkt.length
  tha : Granted h 3 ∧ 20 + n ≤ pkt.length
  shrink : 0 ∈ spaBytes pkt n → Granted h 4

/-- The number of requests to `malloc` before the target's protocol address. -/
def callsToTarget (pkt : Bytes) (n : ℕ) : ℕ := if 0 ∈ spaBytes pkt n then 5 else 4

/-- The number of requests to `malloc` of an extraction which succeeds. -/
def callsToExtract (pkt : Bytes) (n : ℕ) : ℕ :=
  callsToTarget pkt n + if 0 ∈ tpaBytes pkt n then 3 else 2

/-- Every step of the extraction succeeds. -/
structure Extracts (h : Heap) (pkt : Bytes) (n : ℕ) : Prop extends ReachesTarget h pkt n where
  tpa : Granted h (callsToTarget pkt n) ∧ Granted h (callsToTarget pkt n + 1) ∧
    20 + 2 * n ≤ pkt.length
  shrinkTarget : 0 ∈ tpaBytes pkt n → Granted h (callsToTarget pkt n + 2)

/-- The object for the target's protocol address is refused, or its shrunk copy. -/
structure RefusesTarget (h : Heap) (pkt : Bytes) (n : ℕ) : Prop extends ReachesTarget h pkt n where
  refused : ¬ Granted h (callsToTarget pkt n) ∨
    (Granted h (callsToTarget pkt n) ∧ Granted h (callsToTarget pkt n + 1) ∧
      20 + 2 * n ≤ pkt.length ∧ 0 ∈ tpaBytes pkt n ∧ ¬ Granted h (callsToTarget pkt n + 2))

section Steps

variable (h : Heap) (b : Bytes) (o n : ℕ)

theorem pxCreateGHA_cases :
    (¬ Granted h 0 ∧ pxCreateGHA h .MAC_ADDR_802_3 b o = .ok (none, h.afterCalls 1)) ∨
    (Granted h 0 ∧ ¬ o + 6 ≤ b.length ∧
      pxCreateGHA h .MAC_ADDR_802_3 b o = .error .outOfBounds) ∨
    (Granted h 0 ∧ o + 6 ≤ b.length ∧ ∃ m : MACAddress, slice b o 6 = some m.ucBytes ∧
      pxCreateGHA h .MAC_ADDR_802_3 b o = .ok (some ⟨.MAC_ADDR_802_3, m⟩, h.afterCalls 1)) := by
  rw [pxCreateGHA, if_neg (not_not_intro rfl)]
  by_cases hg : Granted h 0
  · have hreq := hg.firstRequest
    rw [hreq]
    by_cases hin : o + 6 ≤ b.length
    · have hs : slice b o 6 = some ((b.drop o).take 6) := if_pos hin
      let m : MACAddress := ⟨(b.drop o).take 6, slice_length hs⟩
      have hmac : readMAC b o = .ok m := readMAC_eq hs
      refine Or.inr (Or.inr ⟨hg, hin, m, hs, ?_⟩)
      simp [hmac, pure, Except.pure]
    · have hs : slice b o macLength = none := if_neg hin
      have hmac : readMAC b o = .error .outOfBounds := by
        unfold readMAC
        split
        · rfl
        · rename_i bs hsome
          rw [hs] at hsome
          cases hsome
      refine Or.inr (Or.inl ⟨hg, hin, ?_⟩)
      simp [hmac]
  · have hreq := firstRequest_refused hg
    rw [hreq]
    exact Or.inl ⟨hg, rfl⟩

theorem pxCreateGPA_cases :
    (n = 0 ∧ pxCreateGPA h b o n = .ok (none, h)) ∨
    (n ≠ 0 ∧ ¬ Granted h 0 ∧ pxCreateGPA h b o n = .ok (none, h.afterCalls 1)) ∨
    (n ≠ 0 ∧ Granted h 0 ∧ ¬ Granted h 1 ∧ pxCreateGPA h b o n = .error .nullPointer) ∨
    (n ≠ 0 ∧ Granted h 0 ∧ Granted h 1 ∧ ¬ o + n ≤ b.length ∧
      pxCreateGPA h b o n = .error .outOfBounds) ∨
    (n ≠ 0 ∧ Granted h 0 ∧ Granted h 1 ∧ o + n ≤ b.length ∧
      pxCreateGPA h b o n = .ok (some ⟨(b.drop o).take n⟩, h.afterCalls 2)) := by
  by_cases hn : n = 0
  · exact Or.inl ⟨hn, if_pos hn⟩
  · rw [pxCreateGPA, if_neg hn]
    by_cases hg : Granted h 0
    · have hreq := hg.firstRequest
      rw [hreq]
      by_cases hg' : Granted h 1
      · have hreq' : requestMemory (h.afterCalls 1) = (true, h.afterCalls 2) := hg'.request
        simp only [hreq', readBuf, slice]
        by_cases hin : o + n ≤ b.length
        · exact Or.inr (Or.inr (Or.inr (Or.inr ⟨hn, hg, hg', hin, by rw [if_pos hin]; rfl⟩)))
        · exact Or.inr (Or.inr (Or.inr (Or.inl ⟨hn, hg, hg', hin, by rw [if_neg hin]; rfl⟩)))
      · have hreq' : requestMemory (h.afterCalls 1) = (false, h.afterCalls 2) :=
          request_refused hg'
        exact Or.inr (Or.inr (Or.inl ⟨hn, hg, hg', by simp only [hreq']⟩))
    · have hreq := firstRequest_refused hg
      rw [hreq]
      exact Or.inr (Or.inl ⟨hn, hg, rfl⟩)

theorem xGPAShrink_cases {g : GPA} (hg : g.pucAddress ≠ []) :
    (0 ∈ g.pucAddress ∧ ¬ Granted h 0 ∧ xGPAShrink h g 0 = (false, g, h.afterCalls 1)) ∨
    ((0 ∈ g.pucAddress → Granted h 0) ∧ xGPAShrink h g 0 =
      (true, ⟨cut 0 g.pucAddress⟩, h.afterCalls (if 0 ∈ g.pucAddress then 1 else 0))) := by
  have hok := (xIsGPAOK_iff g).mpr hg
  rw [xGPAShrink, hok]
  by_cases hz : 0 ∈ g.pucAddress
  · rw [if_neg (by decide), if_pos hz]
    by_cases hgr : Granted h 0
    · have hreq := hgr.firstRequest
      refine Or.inr ⟨fun _ => hgr, ?_⟩
      rw [hreq, if_pos hz]
    · have hreq := firstRequest_refused hgr
      exact Or.inl ⟨hz, hgr, by rw [hreq]⟩
  · refine Or.inr ⟨fun hmem => absurd hmem hz, ?_⟩
    rw [if_neg (by decide), if_neg hz, if_neg hz, cut_of_not_mem hz, Heap.afterCalls_zero]

end Steps

/-- The last part of `prvARPExtractRequestData`. -/
def extractTarget (h : Heap) (pkt : Bytes) (hdr : ARPStaticHeader) (pxSpa : GPA)
    (pxSha pxTha : GHA) : Exec (Option ARPPacketData × Heap) := do
  let ptrs := prvARPSetupRequestData hdr
  match ← pxCreateGPA h pkt ptrs.ucTpa hdr.ucPALength.toNat with
  | (none, h) => return (none, h)
  | (some pxTpa, h) =>
    let (shrunk, pxTpa, h) := xGPAShrink h pxTpa 0x00
    if !shrunk then return (none, h)
    return (some
      { ptrs with pxARPHdr := hdr, pxSpa := pxSpa, pxSha := pxSha, pxTpa := pxTpa, pxTha := pxTha },
      h)

/-- The addresses in the packet, the protocol addresses up to their filler. -/
structure AddressesOf (pkt : Bytes) (hdr : ARPStaticHeader) (d : ARPPacketData) : Prop where
  pxARPHdr : d.pxARPHdr = hdr
  sha : slice pkt 8 6 = some d.pxSha.xAddress.ucBytes
  spa : d.pxSpa = ⟨cut 0 (spaBytes pkt hdr.ucPALength.toNat)⟩
  tha : slice pkt (14 + hdr.ucPALength.toNat) 6 = some d.pxTha.xAddress.ucBytes
  tpa : d.pxTpa = ⟨cut 0 (tpaBytes pkt hdr.ucPALength.toNat)⟩

/-- A trap which is no failed assertion. It is a read outside the packet only if the packet is
too short, and if it is too short unless some request to `malloc` is refused. -/
def TrapsWith (h : Heap) (pkt : Bytes) (n : ℕ) (run : Exec (Option ARPPacketData × Heap)) : Prop :=
  ∃ t, run = .error t ∧ t ≠ .assertion ∧ (t = .outOfBounds → ¬ AddressesFit pkt n) ∧
    (h.MemoryAvailable → ¬ AddressesFit pkt n → t = .outOfBounds)

theorem TrapsWith.outside {h : Heap} {pkt : Bytes} {n : ℕ} (hshort : ¬ AddressesFit pkt n) :
    TrapsWith h pkt n (.error .outOfBounds) :=
  ⟨_, rfl, by decide, fun _ => hshort, fun _ _ => rfl⟩

theorem TrapsWith.refused {h : Heap} {pkt : Bytes} {n i : ℕ} {t : Trap} (hg : ¬ Granted h i)
    (ht : t ≠ .assertion) (ht' : t ≠ .outOfBounds) : TrapsWith h pkt n (.error t) :=
  ⟨t, rfl, ht, fun heq => absurd heq ht', fun hm => absurd (hm _) hg⟩

variable {pf : Platform} {h : Heap} {pkt : Bytes} {hdr : ARPStaticHeader}

theorem PassesChecks.setup (hp : PassesChecks pkt hdr) : prvARPSetupRequestData hdr =
    ⟨14, 8, 20 + hdr.ucPALength.toNat, 14 + hdr.ucPALength.toNat⟩ :=
  setup_ethernet hp.hardwareLength

theorem AddressesFit.short {n k : ℕ} (hn : n ≠ 0) (hk : k ≤ 20 + 2 * n)
    (hlen : ¬ k ≤ pkt.length) : ¬ AddressesFit pkt n := by
  rw [AddressesFit, if_neg hn]
  omega

theorem spaBytes_length {n : ℕ} (hlen : 14 + n ≤ pkt.length) : (spaBytes pkt n).length = n := by
  rw [spaBytes, List.length_take, List.length_drop]
  omega

theorem tpaBytes_length {n : ℕ} (hlen : 20 + 2 * n ≤ pkt.length) :
    (tpaBytes pkt n).length = n := by
  rw [tpaBytes, List.length_take, List.length_drop]
  omega

theorem ne_nil_of_length {bs : Bytes} {n : ℕ} (hlen : bs.length = n) (hn : n ≠ 0) : bs ≠ [] := by
  rintro rfl
  exact hn hlen.symm

theorem PassesChecks.extract_eq (hp : PassesChecks pkt hdr) {n : ℕ}
    (hn : n = hdr.ucPALength.toNat) : prvARPExtractRequestData pf h pkt = (do
      let (pxSha, h) ← pxCreateGHA h .MAC_ADDR_802_3 pkt 8
      let pxSha ← initialised pxSha
      let (pxSpa, h) ← pxCreateGPA h pkt 14 n
      let pxSpa ← initialised pxSpa
      let (pxTha, h) ← pxCreateGHA h .MAC_ADDR_802_3 pkt (14 + n)
      let pxTha ← initialised pxTha
      let (shrunk, pxSpa, h) := xGPAShrink h pxSpa 0x00
      let pxSpa ← initialised (if shrunk then some pxSpa else none)
      extractTarget h pkt hdr pxSpa pxSha pxTha) := by
  have hty : (hdr.usHType == RsHtoNS ARP_HARDWARE_TYPE_ETHERNET) = true :=
    beq_iff_eq.mpr hp.hardware
  have hha : (hdr.ucHALength.toNat == macLength) = true := beq_iff_eq.mpr hp.hardwareLength
  subst hn
  rw [prvARPExtractRequestData, hp.header, Exec.ok_bind, hty, hha]
  simp only [rsAssert_true, Exec.ok_bind, extractTarget, hp.setup] <;> rfl

variable (pf h) in
/-- The steps before the target's protocol address succeed, or the members of a structure on
the stack are read which nothing has set. -/
theorem extract_cases (hp : PassesChecks pkt hdr) :
    (ReachesTarget h pkt hdr.ucPALength.toNat ∧ ∃ sha tha : MACAddress,
      slice pkt 8 6 = some sha.ucBytes ∧
      slice pkt (14 + hdr.ucPALength.toNat) 6 = some tha.ucBytes ∧
      prvARPExtractRequestData pf h pkt = extractTarget
        (h.afterCalls (callsToTarget pkt hdr.ucPALength.toNat)) pkt hdr
        ⟨cut 0 (spaBytes pkt hdr.ucPALength.toNat)⟩ ⟨.MAC_ADDR_802_3, sha⟩
        ⟨.MAC_ADDR_802_3, tha⟩) ∨
    (¬ ReachesTarget h pkt hdr.ucPALength.toNat ∧
      TrapsWith h pkt hdr.ucPALength.toNat (prvARPExtractRequestData pf h pkt)) := by
  obtain ⟨n, hn⟩ : ∃ n, n = hdr.ucPALength.toNat := ⟨_, rfl⟩
  rw [hp.extract_eq hn, ← hn]
  rcases pxCreateGHA_cases h pkt 8 with ⟨hg, hsha⟩ | ⟨hg, hin, hsha⟩ | ⟨hg₀, hin₀, sha, hs, hsha⟩
  · refine Or.inr ⟨fun hr => hg hr.sha.1, ?_⟩
    rw [hsha]
    exact .refused hg (by decide) (by decide)
  · refine Or.inr ⟨fun hr => hin hr.sha.2, ?_⟩
    rw [hsha]
    refine .outside ?_
    by_cases hz : n = 0
    · rwa [AddressesFit, if_pos hz]
    · exact AddressesFit.short hz (by omega) hin
  rw [hsha]
  simp only [Exec.ok_bind, initialised_some]
  rcases pxCreateGPA_cases (h.afterCalls 1) pkt 14 n with ⟨hz, hspa⟩ | ⟨-, hg, hspa⟩ |
    ⟨-, -, hg, hspa⟩ | ⟨hz, -, -, hin, hspa⟩ | ⟨hz, hg₁, hg₂, hin₁, hspa⟩
  · refine Or.inr ⟨fun hr => hr.nonempty hz, ?_⟩
    rw [hspa]
    refine ⟨.uninitialised, rfl, by decide, by simp, fun _ hshort => absurd ?_ hshort⟩
    rwa [AddressesFit, if_pos hz]
  · refine Or.inr ⟨fun hr => hg hr.spa.1, ?_⟩
    rw [hspa]
    exact .refused (i := 1) hg (by decide) (by decide)
  · refine Or.inr ⟨fun hr => hg hr.spa.2.1, ?_⟩
    rw [hspa]
    exact .refused (i := 2) hg (by decide) (by decide)
  · refine Or.inr ⟨fun hr => hin hr.spa.2.2, ?_⟩
    rw [hspa]
    exact .outside (AddressesFit.short hz (by omega) hin)
  rw [hspa]
  simp only [Exec.ok_bind, initialised_some, Heap.afterCalls_afterCalls]
  rcases pxCreateGHA_cases (h.afterCalls (1 + 2)) pkt (14 + n) with ⟨hg, htha⟩ | ⟨-, hin, htha⟩ |
    ⟨hg₃, hin₂, tha, ht, htha⟩
  · refine Or.inr ⟨fun hr => hg hr.tha.1, ?_⟩
    rw [htha]
    exact .refused (i := 3) hg (by decide) (by decide)
  · refine Or.inr ⟨fun hr => hin (by have := hr.tha.2; omega), ?_⟩
    rw [htha]
    exact .outside (AddressesFit.short hz (by omega) hin)
  rw [htha]
  simp only [Exec.ok_bind, initialised_some, Heap.afterCalls_afterCalls]
  have hne : (spaBytes pkt n) ≠ [] := ne_nil_of_length (spaBytes_length hin₁) hz
  rcases xGPAShrink_cases (h.afterCalls (1 + 2 + 1)) (g := ⟨spaBytes pkt n⟩) hne with
    ⟨hmem, hg, hshrink⟩ | ⟨hg₄, hshrink⟩
  · refine Or.inr ⟨fun hr => hg (hr.shrink hmem), ?_⟩
    have hshrink' : xGPAShrink (h.afterCalls (1 + 2 + 1)) ⟨(pkt.drop 14).take n⟩ 0 = _ := hshrink
    rw [hshrink']
    exact .refused (i := 4) hg (by decide) (by decide)
  · have hshrink' : xGPAShrink (h.afterCalls (1 + 2 + 1)) ⟨(pkt.drop 14).take n⟩ 0 = _ := hshrink
    refine Or.inl ⟨⟨hz, ⟨hg₀, hin₀⟩, ⟨hg₁, hg₂, hin₁⟩, ⟨hg₃, by omega⟩, hg₄⟩, sha, tha, hs, ht, ?_⟩
    rw [hshrink']
    have hcalls : 1 + 2 + 1 + (if 0 ∈ spaBytes pkt n then 1 else 0) = callsToTarget pkt n := by
      unfold callsToTarget
      split <;> rfl
    simp only [if_true, initialised_some, Exec.ok_bind, Heap.afterCalls_afterCalls, hcalls]

/-- The last part refuses, succeeds or traps. -/
theorem extractTarget_cases (hp : PassesChecks pkt hdr) {n : ℕ} (hn : n = hdr.ucPALength.toNat)
    (hr : ReachesTarget h pkt n) (spa : GPA) (sha tha : GHA) :
    (Extracts h pkt n ∧ extractTarget (h.afterCalls (callsToTarget pkt n)) pkt hdr spa sha tha =
      .ok (some ⟨⟨14, 8, 20 + n, 14 + n⟩, hdr, spa, sha, ⟨cut 0 (tpaBytes pkt n)⟩, tha⟩,
        h.afterCalls (callsToExtract pkt n))) ∨
    (¬ Extracts h pkt n ∧ RefusesTarget h pkt n ∧ ∃ j, extractTarget
      (h.afterCalls (callsToTarget pkt n)) pkt hdr spa sha tha = .ok (none, h.afterCalls j)) ∨
    (¬ Extracts h pkt n ∧ ¬ RefusesTarget h pkt n ∧ TrapsWith h pkt n
      (extractTarget (h.afterCalls (callsToTarget pkt n)) pkt hdr spa sha tha)) := by
  rw [extractTarget, hp.setup, ← hn]
  obtain ⟨k, hk⟩ : ∃ k, k = callsToTarget pkt n := ⟨_, rfl⟩
  rw [← hk]
  rcases pxCreateGPA_cases (h.afterCalls k) pkt (20 + n) n with ⟨hz, -⟩ | ⟨-, hg, htpa⟩ |
    ⟨-, hg, hg', htpa⟩ | ⟨hz, hg, hg', hin, htpa⟩ | ⟨hz, hg, hg', hin, htpa⟩
  · exact absurd hz hr.nonempty
  · refine Or.inr (Or.inl ⟨fun he => hg (hk ▸ he.tpa.1), ⟨hr, Or.inl (hk ▸ hg)⟩,
      k + 1, ?_⟩)
    rw [htpa, Heap.afterCalls_afterCalls]
    rfl
  · refine Or.inr (Or.inr ⟨fun he => hg' (hk ▸ he.tpa.2.1), ?_, ?_⟩)
    · rintro ⟨-, href | ⟨-, hg₁, -⟩⟩
      · exact href (hk ▸ hg)
      · exact hg' (hk ▸ hg₁)
    · rw [htpa]
      exact .refused (i := k + 1) hg' (by decide) (by decide)
  · refine Or.inr (Or.inr ⟨fun he => hin (by have := he.tpa.2.2; omega), ?_, ?_⟩)
    · rintro ⟨-, href | ⟨-, -, hlen, -⟩⟩
      · exact href (hk ▸ hg)
      · exact hin (by omega)
    · rw [htpa]
      exact .outside (AddressesFit.short hz (by omega) hin)
  have hlen : 20 + 2 * n ≤ pkt.length := by omega
  have htarget : pxCreateGPA (h.afterCalls k) pkt (20 + n) n =
      .ok (some ⟨tpaBytes pkt n⟩, h.afterCalls (k + 2)) := by
    rw [htpa, Heap.afterCalls_afterCalls]
    rfl
  rw [htarget]
  simp only [Exec.ok_bind]
  have hne : tpaBytes pkt n ≠ [] := ne_nil_of_length (tpaBytes_length hlen) hz
  rcases xGPAShrink_cases (h.afterCalls (k + 2)) (g := ⟨tpaBytes pkt n⟩) hne with
    ⟨hmem, hg₂, hshrink⟩ | ⟨hg₂, hshrink⟩
  · have href : ¬ Granted h (k + 2) := hg₂
    refine Or.inr (Or.inl ⟨fun he => href (hk ▸ he.shrinkTarget hmem),
      ⟨hr, Or.inr ⟨hk ▸ hg, hk ▸ hg', hlen, hmem, hk ▸ href⟩⟩, k + 2 + 1, ?_⟩)
    rw [hshrink, Heap.afterCalls_afterCalls]
    rfl
  · have hg₂ : 0 ∈ tpaBytes pkt n → Granted h (k + 2) := hg₂
    refine Or.inl ⟨⟨hr, ⟨hk ▸ hg, hk ▸ hg', hlen⟩, hk ▸ hg₂⟩, ?_⟩
    have hcalls : k + 2 + (if 0 ∈ tpaBytes pkt n then 1 else 0) = callsToExtract pkt n := by
      rw [callsToExtract, ← hk]
      split <;> rfl
    rw [hshrink, Heap.afterCalls_afterCalls, hcalls]
    rfl

variable (pf h) in
/-- All that the extraction can do with a packet. -/
theorem extract_outcome (hp : PassesChecks pkt hdr) {n : ℕ} (hn : n = hdr.ucPALength.toNat) :
    (Extracts h pkt n ∧ ∃ d, prvARPExtractRequestData pf h pkt =
      .ok (some d, h.afterCalls (callsToExtract pkt n)) ∧ AddressesOf pkt hdr d) ∨
    (¬ Extracts h pkt n ∧ RefusesTarget h pkt n ∧ ∃ j,
      prvARPExtractRequestData pf h pkt = .ok (none, h.afterCalls j)) ∨
    (¬ Extracts h pkt n ∧ ¬ RefusesTarget h pkt n ∧
      TrapsWith h pkt n (prvARPExtractRequestData pf h pkt)) := by
  rcases extract_cases pf h hp with ⟨hr, sha, tha, hs, ht, hrun⟩ | ⟨hr, htrap⟩
  · rw [hrun, ← hn]
    rw [← hn] at hr ht
    rcases extractTarget_cases hp hn hr ⟨cut 0 (spaBytes pkt n)⟩ ⟨.MAC_ADDR_802_3, sha⟩
      ⟨.MAC_ADDR_802_3, tha⟩ with ⟨he, hd⟩ | hrest
    · exact Or.inl ⟨he, _, hd, rfl, hs, by rw [hn], by rw [← hn]; exact ht, by rw [hn]⟩
    · exact Or.inr hrest
  · rw [← hn] at hr htrap
    exact Or.inr (Or.inr ⟨fun he => hr he.toReachesTarget, fun he => hr he.toReachesTarget, htrap⟩)

/-! ### Reads -/

/-- Whatever `malloc` answers, the extraction reads no byte outside the packet. -/
def ReadsInside (pkt : Bytes) : Prop :=
  ∀ pf h, prvARPExtractRequestData pf h pkt ≠ .error .outOfBounds

theorem readHeader_of_long (hlong : sizeofARPStaticHeader ≤ pkt.length) :
    ∃ hdr, readHeader pkt = .ok hdr := by
  have hs : slice pkt 0 8 = some (pkt.take 8) := if_pos (by rw [Nat.zero_add]; exact hlong)
  exact ⟨_, by simp [readHeader, readBuf, sizeofARPStaticHeader, hs, pure, Except.pure]; rfl⟩

/-- A packet which does not pass the checks is dropped before anything is extracted. -/
theorem prvShimHandleARPFrame_dropped {pxARP : ARP} {xPool : PoolPtr} {frame : ArpFrame}
    (hno : ∀ hdr, ¬ PassesChecks frame.arp hdr) :
    prvShimHandleARPFrame pf h pxARP xPool frame = .ok (.eReleaseBuffer, frame, pxARP, h) := by
  by_cases hlong : sizeofARPStaticHeader ≤ frame.arp.length
  · obtain ⟨hdr, hhdr⟩ := readHeader_of_long hlong
    rw [prvShimHandleARPFrame, if_pos hlong, eARPProcessPacket, hhdr, Exec.ok_bind]
    by_cases hty : hdr.usHType = RsHtoNS ARP_HARDWARE_TYPE_ETHERNET
    · rw [if_neg (not_not_intro hty)]
      by_cases hha : hdr.ucHALength.toNat = macLength
      · rw [if_neg (not_not_intro hha)]
        by_cases hop : hdr.usOperation = ARP_REPLY ∨ hdr.usOperation = ARP_REQUEST
        · exact absurd ⟨hlong, hhdr, hty, hha, hop⟩ (hno hdr)
        · rw [if_pos (not_or.mp hop)]
          rfl
      · rw [if_pos hha]
        rfl
    · rw [if_pos hty]
      rfl
  · rw [prvShimHandleARPFrame, if_neg hlong]

theorem ReachesTarget.congr {h' : Heap} {n : ℕ} (hr : ReachesTarget h pkt n)
    (hg : ∀ i, Granted h i ↔ Granted h' i) : ReachesTarget h' pkt n where
  nonempty := hr.nonempty
  sha := by simpa only [hg] using hr.sha
  spa := by simpa only [hg] using hr.spa
  tha := by simpa only [hg] using hr.tha
  shrink := by simpa only [hg] using hr.shrink

theorem Extracts.congr {h' : Heap} {n : ℕ} (he : Extracts h pkt n)
    (hg : ∀ i, Granted h i ↔ Granted h' i) : Extracts h' pkt n where
  toReachesTarget := he.toReachesTarget.congr hg
  tpa := by simpa only [hg] using he.tpa
  shrinkTarget := by simpa only [hg] using he.shrinkTarget

theorem RefusesTarget.congr {h' : Heap} {n : ℕ} (hr : RefusesTarget h pkt n)
    (hg : ∀ i, Granted h i ↔ Granted h' i) : RefusesTarget h' pkt n where
  toReachesTarget := hr.toReachesTarget.congr hg
  refused := by simpa only [hg] using hr.refused

theorem Extracts.not_refused {n : ℕ} (he : Extracts h pkt n) : ¬ RefusesTarget h pkt n := by
  rintro ⟨-, hno | ⟨-, -, -, hmem, hno⟩⟩
  · exact hno he.tpa.1
  · exact hno (he.shrinkTarget hmem)

theorem Extracts.fits {n : ℕ} (he : Extracts h pkt n) : AddressesFit pkt n := by
  rw [AddressesFit, if_neg he.nonempty]
  exact he.tpa.2.2

/-- With memory available the extraction reads behind every packet which is too short. -/
theorem extract_outside (hp : PassesChecks pkt hdr) (hm : h.MemoryAvailable)
    (hshort : ¬ AddressesFit pkt hdr.ucPALength.toNat) :
    prvARPExtractRequestData pf h pkt = .error .outOfBounds := by
  rcases extract_outcome pf h hp rfl with ⟨he, -⟩ | ⟨-, href, -⟩ | ⟨-, -, t, hrun, -, -, ht⟩
  · exact absurd he.fits hshort
  · rcases href.refused with hg | ⟨-, -, -, -, hg⟩
    · exact absurd (hm _) hg
    · exact absurd (hm _) hg
  · rw [hrun, ht hm hshort]

/-- A packet which passes the checks is read within its bounds exactly if it is as long as the
address lengths of its header say. -/
theorem readsInside_iff (hp : PassesChecks pkt hdr) :
    ReadsInside pkt ↔ AddressesFit pkt hdr.ucPALength.toNat := by
  constructor
  · intro hin
    by_contra hshort
    have hm : exampleArpHeap.MemoryAvailable := (exampleArpHeap_memory []).available
    exact hin ⟨false, false⟩ exampleArpHeap (extract_outside hp hm hshort)
  · intro hfit pf h hrun
    rcases extract_outcome pf h hp rfl with ⟨-, d, hok, -⟩ | ⟨-, -, h', hok⟩ |
      ⟨-, -, t, herr, -, ht, -⟩
    · rw [hok] at hrun
      cases hrun
    · rw [hok] at hrun
      cases hrun
    · rw [herr] at hrun
      cases hrun
      exact ht rfl hfit

/-- A request with addresses of one byte. -/
def shortRequest : Bytes := (arpHeader ARP_REQUEST 1).toBytes

/-- A request for an address of one byte, by another one. -/
def exampleRequest : Bytes := arpPacket ARP_REQUEST (exampleMac 1) [65] (exampleMac 2) [66]

theorem exampleRequest_passes : PassesChecks exampleRequest (arpHeader ARP_REQUEST 1) :=
  ⟨by decide, rfl, rfl, rfl, Or.inr rfl⟩

theorem readsInside_request : ReadsInside exampleRequest :=
  (readsInside_iff exampleRequest_passes).mpr (by unfold AddressesFit; decide)

/-- A packet which ends with its header passes the checks and is read behind its end. -/
theorem not_readsInside_header : PassesChecks shortRequest (arpHeader ARP_REQUEST 1) ∧
    ¬ ReadsInside shortRequest := by
  refine ⟨⟨by decide, rfl, rfl, rfl, Or.inr rfl⟩, fun hin => ?_⟩
  exact hin ⟨false, false⟩ exampleArpHeap rfl

end RinaSense.Shim
