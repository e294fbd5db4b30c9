import RinaSense.Rmt.Du
import RinaSense.Shim.Headers

/-!
# The bytes of RINA frames

The driver gets the Ethernet header in front of the bytes of a data unit. The peer's handler
posts what is behind the header, and the netbuf of the header is freed.
-/

namespace RinaSense.Shim.OnChain

open Common Library.Memory

/-- The Ethernet header of a frame with a RINA PDU. -/
def rinaHeader (dest src : MACAddress) : Bytes :=
  dest.ucBytes ++ (src.ucBytes ++ leBytes 2 (RsHtoNS ETH_P_RINA).toNat)

/-- The hardware address which the flow on a port has for the peer. -/
def peerAddress (d : ShimData) (unPort : PortId) : Option GHA := do
  let p ← d.xFlows[unPort.toNat]?.join
  let pxFlow ← d.flows p
  pxFlow.pxDestHa.join

variable {pf : Platform} {h h' : Heap} {d : ShimData} {unPort : PortId} {pxDu p a : ℕ}
  {l : List NbPtr} {bs hdr : Bytes} {pool : RsrcPool}

theorem rinaHeader_length (dest src : MACAddress) :
    (rinaHeader dest src).length = sizeofEthernetHeader := by
  simp only [rinaHeader, List.length_append, MACAddress.ucBytes_length, leBytes_length]
  rfl

theorem frameType_rinaHeader (dest src : MACAddress) (bs : Bytes) :
    frameType (rinaHeader dest src ++ bs) = ETH_P_RINA := by
  have hdrop : (rinaHeader dest src ++ bs).drop 12 =
      leBytes 2 (RsHtoNS ETH_P_RINA).toNat ++ bs := by
    rw [rinaHeader, ← List.append_assoc, List.append_assoc _ _ bs]
    exact List.drop_left' (by simp)
  rw [frameType, hdrop, List.take_left' (leBytes_length 2 _)]
  decide

/-- The assignments to the type and the addresses reach all bytes of the header. -/
theorem splice_rinaHeader (hlen : hdr.length = sizeofEthernetHeader) (dest src : MACAddress) :
    splice (splice (splice hdr 12 (leBytes 2 (RsHtoNS ETH_P_RINA).toNat)) 6 src.ucBytes) 0
      dest.ucBytes = rinaHeader dest src := by
  have h14 : hdr.length = 14 := hlen
  obtain ⟨x, y, z, rfl, hx, hy, hz⟩ : ∃ x y z : Bytes, hdr = x ++ (y ++ z) ∧ x.length = 6 ∧
      y.length = 6 ∧ z.length = 2 := by
    refine ⟨hdr.take 6, (hdr.drop 6).take 6, (hdr.drop 6).drop 6, ?_, ?_, ?_, ?_⟩
    · rw [List.take_append_drop, List.take_append_drop]
    all_goals
      simp only [List.length_take, List.length_drop]
      omega
  have hty : splice (x ++ (y ++ z)) 12 (leBytes 2 (RsHtoNS ETH_P_RINA).toNat) =
      x ++ (y ++ leBytes 2 (RsHtoNS ETH_P_RINA).toNat) := by
    have hpre : (x ++ y).length = 12 := by
      rw [List.length_append, hx, hy]
    have hend := @splice_middle (x ++ y) z [] (leBytes 2 (RsHtoNS ETH_P_RINA).toNat)
      (by rw [leBytes_length, hz])
    rwa [List.append_nil, List.append_nil, hpre, List.append_assoc, List.append_assoc] at hend
  have hsrc := @splice_middle x y (leBytes 2 (RsHtoNS ETH_P_RINA).toNat) src.ucBytes
    (by rw [src.ucBytes_length, hy])
  rw [hx] at hsrc
  rw [hty, hsrc, splice_front (by rw [dest.ucBytes_length, hx]), rinaHeader]

/-! ### The frame which leaves -/

theorem Carries.afterCalls (hc : Carries pf h pxDu l bs) (k : ℕ) :
    Carries pf (h.afterCalls k) pxDu l bs :=
  hc.congr hc.chain.fresh (fun _ _ => rfl) fun _ _ _ => ⟨⟨rfl, rfl, fun _ hp => hp⟩, rfl⟩

theorem readMAC_self (m : MACAddress) : readMAC m.ucBytes 0 = .ok m := by
  apply readMAC_eq
  have hle : 0 + 6 ≤ m.ucBytes.length := Nat.le_of_eq (by rw [m.ucBytes_length])
  rw [slice, if_pos hle, List.drop_zero,
    List.take_of_length_le (Nat.le_of_eq m.ucBytes_length)]

theorem pxCreateGHA_self {m : MACAddress} {ha : GHA}
    (hrun : pxCreateGHA h .MAC_ADDR_802_3 m.ucBytes 0 = .ok (some ha, h')) :
    ha.xAddress = m ∧ h' = h.afterCalls 1 := by
  rcases pxCreateGHA_cases h m.ucBytes 0 with ⟨-, hno⟩ | ⟨-, hout, -⟩ | ⟨-, -, m', hm', hyes⟩
  · rw [hno] at hrun
    cases hrun
  · exact absurd (Nat.le_of_eq (by rw [m.ucBytes_length])) hout
  · rw [hyes] at hrun
    cases hrun
    have hsame := readMAC_eq hm'
    rw [readMAC_self] at hsame
    exact ⟨(Except.ok.inj hsame).symm, rfl⟩

theorem encapsulate_headed {pxSrcHw pxDestHa : GHA} (hc : Carries pf h pxDu l bs)
    (hpool : HeaderPool h d pool l)
    (hrun : encapsulate pf h d pxDu pxSrcHw pxDestHa = .ok (some p, h')) :
    ∃ a, Headed pf h' p l .NB_ETH_HDR a (rinaHeader pxDestHa.xAddress pxSrcHw.xAddress) bs := by
  obtain ⟨⟨o, h₁⟩, halloc, hrun⟩ := Exec.bind_eq_ok.mp hrun
  cases o with
  | none => cases hrun
  | some a =>
    obtain ⟨⟨o, h₂⟩, hnew, hrun⟩ := Exec.bind_eq_ok.mp hrun
    cases o with
    | none => cases hrun
    | some q =>
      obtain ⟨h₃, happend, hrun⟩ := Exec.bind_eq_ok.mp hrun
      obtain ⟨ptr, hptr, hrun⟩ := Exec.bind_eq_ok.mp hrun
      obtain ⟨h₄, hw₁, hrun⟩ := Exec.bind_eq_ok.mp hrun
      obtain ⟨h₅, hw₂, hrun⟩ := Exec.bind_eq_ok.mp hrun
      obtain ⟨h₆, hw₃, hrun⟩ := Exec.bind_eq_ok.mp hrun
      cases hrun
      rw [← hpool.size] at hnew
      obtain ⟨hdr, hlen, hh, -⟩ := hc.header hpool.entry hpool.spare halloc hnew happend
      rw [hpool.size] at hlen
      obtain rfl : ptr = some ⟨a, 0⟩ := Except.ok.inj (hptr.symm.trans hh.ptr)
      have hlen₀ : hdr.length = 14 := hlen
      obtain ⟨hw, hh₁⟩ := hh.write 12 (leBytes 2 (RsHtoNS ETH_P_RINA).toNat)
        (by rw [leBytes_length, hlen₀])
      obtain rfl := Except.ok.inj (hw₁.symm.trans hw)
      have hlen₁ : (splice hdr 12 (leBytes 2 (RsHtoNS ETH_P_RINA).toNat)).length = hdr.length :=
        splice_length (by rw [leBytes_length, hlen₀])
      obtain ⟨hw, hh₂⟩ := hh₁.write 6 pxSrcHw.xAddress.ucBytes
        (by rw [hlen₁, hlen₀, MACAddress.ucBytes_length]; decide)
      obtain rfl := Except.ok.inj (hw₂.symm.trans hw)
      obtain ⟨hw, hh₃⟩ := hh₂.write 0 pxDestHa.xAddress.ucBytes (by
        rw [splice_length (by rw [hlen₁, hlen₀, MACAddress.ucBytes_length]; decide), hlen₁, hlen₀,
          MACAddress.ucBytes_length]
        decide)
      obtain rfl := Except.ok.inj (hw₃.symm.trans hw)
      exact ⟨a, splice_rinaHeader hlen pxDestHa.xAddress pxSrcHw.xAddress ▸ hh₃⟩

/-- The driver gets the addresses, the type and the bytes of the data unit. -/
theorem frameForSDU_headed (hc : Carries pf h pxDu l bs) (hpool : HeaderPool h d pool l)
    (hrun : frameForSDU pf h d unPort pxDu = .ok (some p, h')) :
    ∃ dest a, peerAddress d unPort = some dest ∧
      Headed pf h' p l .NB_ETH_HDR a (rinaHeader dest.xAddress d.xPhyDev) bs := by
  obtain ⟨uxLength, -, hrun⟩ := Exec.bind_eq_ok.mp hrun
  split_ifs at hrun
  · cases hrun
  · obtain ⟨found, hfind, hrun⟩ := Exec.bind_eq_ok.mp hrun
    cases found with
    | none => cases hrun
    | some q =>
      obtain ⟨pxFlow, hflow, hrun⟩ := Exec.bind_eq_ok.mp hrun
      split_ifs at hrun
      · cases hrun
      · obtain ⟨⟨o, h₁⟩, hsrc, hrun⟩ := Exec.bind_eq_ok.mp hrun
        cases o with
        | none => cases hrun
        | some pxSrcHw =>
          obtain ⟨o, hdest, hrun⟩ := Exec.bind_eq_ok.mp hrun
          cases o with
          | none => cases hrun
          | some dest =>
            obtain ⟨haddr, rfl⟩ := pxCreateGHA_self hsrc
            obtain ⟨a, hh⟩ := encapsulate_headed (hc.afterCalls 1)
              ⟨hpool.entry, hpool.size, hpool.spare⟩ hrun
            refine ⟨dest, a, ?_, haddr ▸ hh⟩
            rw [peerAddress, inBounds_eq_ok.mp hfind]
            simp only [Option.join_some, Option.bind_eq_bind, Option.bind_some,
              flow_eq_ok.mp hflow, initialised_eq_ok.mp hdest]

/-! ### The frame which arrives -/

/-- The netbufs of a frame, whose packet was made in `h₀`, and its buffer are as they were in `h`,
whatever has happened to the rest of the memory. -/
structure Frame.Undisturbed (f : Frame) (h₀ h h' : Heap) : Prop where
  fresh : h'.Fresh
  brk : h.brk ≤ h'.brk
  header : h'.netbufs f.pxNbFrame = h.netbufs f.pxNbFrame
  packet : h'.netbufs h₀.brk = h.netbufs h₀.brk
  bytes : h'.mem f.block = h.mem f.block

variable {f : Frame} {h₀ : Heap} {env : Surroundings}

theorem Frame.Undisturbed.refl (hf : h.Fresh) : f.Undisturbed h₀ h h :=
  ⟨hf, Nat.le_refl _, rfl, rfl, rfl⟩

/-- The data unit which is handed over holds what is behind the header. -/
theorem postRinaFrame_received (hi : f.In pf h₀) (hlen : sizeofEthernetHeader ≤ f.bytes.length)
    (k : ℕ) {q : FlowPtr} {flow : ShimFlow} (hflow : d.flows q = some flow) :
    ∃ h', postRinaFrame pf (f.parted h₀ k) d f.pxNbFrame q =
        .ok (some (flow.unPort, some h₀.brk), h') ∧ f.Undisturbed h₀ h' h' ∧
      ∀ h'', f.Undisturbed h₀ h' h'' → ∃ nb ptr,
        Rmt.ReceivedPdu h'' h₀.brk nb ptr (f.bytes.drop sizeofEthernetHeader) [] := by
  have ho := hi.parted_owned k
  have hpacket := hi.parted_packet k
  have hnext : pxNetBufNext pf (f.parted h₀ k) f.pxNbFrame = .ok (some h₀.brk) :=
    next_packet ho.chain.fresh (Frame.parted_header k) rfl rfl hpacket rfl
  obtain ⟨h', hfree, hm⟩ := ho.chain.free ho.head (List.mem_cons_of_mem _ List.mem_cons_self)
    hi.ne_brk.symm ⟨_, hpacket, rfl⟩
  have hpacket' : h'.netbufs h₀.brk = some (f.netbuf.behind .NB_RINA_PCI sizeofEthernetHeader) :=
    (hm.other _ hi.ne_brk.symm).trans hpacket
  have hbrk : h'.brk = h₀.brk + 1 := by
    rw [hm.rest]
    rfl
  refine ⟨h', ?_, .refl hm.chain.fresh, fun h'' hu =>
    ⟨f.netbuf.behind .NB_RINA_PCI sizeofEthernetHeader, ⟨f.block, sizeofEthernetHeader⟩, hu.packet.trans hpacket', rfl, rfl, ?_, rfl, rfl, ?_,
    ⟨[f.pxNbFrame], ?_, ?_⟩, hu.fresh⟩⟩
  · simp only [postRinaFrame, hnext, hfree, flow_eq_ok.mpr hflow, Exec.ok_bind]
    rfl
  · rw [List.length_drop]
    rfl
  · refine ⟨f.bytes.take sizeofEthernetHeader, ?_, List.length_take_of_le hlen⟩
    rw [List.append_nil, List.take_append_drop, hu.bytes, hm.rest]
    exact hi.parted_mem k
  · -- the header is still linked to the packet, and counts as freed
    obtain ⟨-, hdr, hhdr, hnext, -⟩ := hm.chain.links
    refine ⟨rfl, hdr, hu.header.trans hhdr, ?_, hnext⟩
    by_contra hfreed
    exact hm.dead ⟨hdr, hhdr, eq_false_of_ne_true hfreed⟩
  · have hlt := hi.fresh.lt_of_netbuf hi.netbuf
    have hle := hu.brk
    rw [hbrk] at hle
    rw [List.length_singleton]
    exact Nat.lt_of_lt_of_le (Nat.lt_succ_of_le (Nat.one_le_of_lt hlt)) hle

/-- The handler posts the data unit of a RINA frame. -/
theorem handle_received (hi : f.In pf h₀) (hlen : sizeofEthernetHeader < f.bytes.length)
    (hg : Granted h₀ 0) (hrina : frameType f.bytes = ETH_P_RINA)
    (hfor : FlowFor pf (h₀.afterCalls 1) d env f.bytes)
    (hqueue : env.xSendEventStructToIPCPTask = true) :
    ∃ port d' h', vShimHandleEthernetPacket pf h₀ d f.pxNbFrame env =
        .ok (some (port, some h₀.brk), d', h') ∧ f.Undisturbed h₀ h' h' ∧
      ∀ h'', f.Undisturbed h₀ h' h'' → ∃ nb ptr,
        Rmt.ReceivedPdu h'' h₀.brk nb ptr (f.bytes.drop sizeofEthernetHeader) [] := by
  have hne : frameType f.bytes ≠ ETH_P_RINA_ARP := by
    rw [hrina]
    decide
  have hle := Nat.le_of_lt hlen
  have hrun := handle_cut pf d env (split_parted hi hlen hg)
  rw [interpretFrame_eq (Frame.parted_header 0) rfl rfl (hi.parted_mem 0) hle, if_neg hne,
    if_pos hrina] at hrun
  rcases rinaFrame_cases pf d env (Frame.parted_header 0) rfl rfl (hi.parted_mem 0) hle with
    ⟨-, d', q, flow, k, hflow, hcode⟩ | ⟨hno, -⟩
  · obtain ⟨h', hpost, hsame, hreceived⟩ := postRinaFrame_received hi hle (0 + k) hflow
    rw [Frame.parted, Heap.afterCalls_afterCalls] at hcode
    rw [Frame.parted] at hpost
    rw [Frame.parted, hcode, hpost] at hrun
    refine ⟨flow.unPort, d', h', ?_, hsame, hreceived⟩
    rw [hrun]
    simp only [Exec.ok_bind, pure_bind, hqueue, if_true, finishFrame]
    rfl
  · exact absurd hfor hno

end RinaSense.Shim.OnChain
