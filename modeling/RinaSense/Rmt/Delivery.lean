import RinaSense.Rmt.Receive

/-!
# Delivery of data PDUs

What the way of a data PDU through the EFCP container leaves behind: the flow whose waiting
packets it has joined, if any, and the memory as it was.
-/

namespace RinaSense.Flow

open Common Common.RsList

def FlowAllocator.waiting (fa : FlowAllocator) (p : FaiPtr) : List NbPtr :=
  (fa.fais p).pxFlowAllocatorHandle.xListWaitingPackets

/-- A packet is put with the waiting packets of a flow and its reader is signalled. -/
def FlowAllocator.put (fa : FlowAllocator) (p : FaiPtr) (pxDu : NbPtr) : FlowAllocator :=
  fa.setFai p { fa.fais p with
    pxFlowAllocatorHandle := (fa.fais p).pxFlowAllocatorHandle.posted pxDu }

/-- The flow which takes packets for the port. -/
def FlowAllocator.takes (fa : FlowAllocator) (xPortId : PortId) : Option FaiPtr :=
  (pxFAFindInstance fa xPortId).filter fun p => (fa.fais p).eFaiState = .eFAI_ALLOCATED

def FlowAllocator.deliver (fa : FlowAllocator) (pxDu : NbPtr) : Option FaiPtr → FlowAllocator
  | none => fa
  | some p => fa.put p pxDu

variable {pf : Platform} {fa : FlowAllocator} {p p' : FaiPtr} {du q : NbPtr}

theorem FlowAllocator.waiting_put :
    (fa.put p du).waiting p' =
      if p' = p then insertAfterFirst du (fa.waiting p) else fa.waiting p' := by
  rw [FlowAllocator.waiting, FlowAllocator.put, FlowAllocator.setFai]
  by_cases hp : p' = p
  · rw [if_pos hp, hp]
    simp only [Function.update_self]
    rfl
  · rw [if_neg hp]
    simp only [Function.update_of_ne hp]
    rfl

theorem xFlowAllocatorDuPost_delivers {port : PortId} {b : Bool} {fa' : FlowAllocator}
    (hrun : xFlowAllocatorDuPost pf fa port du = .ok (b, fa')) :
    fa' = fa.deliver du (fa.takes port) := by
  obtain ⟨_, -, hrun⟩ := Exec.bind_eq_ok.mp hrun
  rw [FlowAllocator.takes]
  cases hp : pxFAFindInstance fa port with
  | none =>
    rw [hp] at hrun
    cases hrun
    rfl
  | some p =>
    simp only [hp] at hrun
    by_cases hs : (fa.fais p).eFaiState = .eFAI_ALLOCATED
    · rw [if_neg (not_not_intro hs)] at hrun
      cases hrun
      rw [Option.filter_some_pos (by simpa using hs)]
      rfl
    · rw [if_pos hs] at hrun
      cases hrun
      rw [Option.filter_some_neg (by simpa using hs)]
      rfl

end RinaSense.Flow

namespace RinaSense.Rmt

open Common Efcp RinaSense.Flow Library.Memory

variable {pf : Platform} {ip ip' : Ipcp} {du : NbPtr} {m : Bytes} {e : EfcpPtr} {b : Bool}

/-- The flow of the instance, if its data transfer protocol passes the PDU on. -/
def instancePosts (ip : Ipcp) (e : EfcpPtr) (p : Pci) : Option FaiPtr :=
  if (xDtpReceive (ip.efcps e).xDtpStateVector p.xSequenceNumber p.xFlags).posted then
    ip.xFA.takes (ip.efcps e).pxConnection.xPortId
  else none

/-- The flow which the bytes `m`, taken for a header, lead to. -/
def postsTo (ip : Ipcp) (m : Bytes) : Option FaiPtr :=
  let p := Pci.ofBytes m
  if is_address_ok p.xDestination = false ∨ p.xType = PDU_TYPE_MGMT then none
  else (selects ip p.xConnDestination).bind fun e =>
    if (ip.efcps e).xState = .eEfcpDeallocated ∨ pdu_type_is_control p.xType = true then none
    else instancePosts ip e p

theorem BytesAt.get_eq {h : Heap} {f : PciField} {v : ℕ} (hm : BytesAt h du m)
    (hrun : PCI_GET pf h du f = .ok v) : v = fieldOf m f := by
  rw [hm.get] at hrun
  split at hrun
  · cases hrun
    rfl
  · cases hrun

theorem xEfcpEnqueue_delivers {port : PortId} (hrun : xEfcpEnqueue pf ip port du = .ok (b, ip')) :
    ip' = { ip with xFA := ip.xFA.deliver du (ip.xFA.takes port) } := by
  obtain ⟨⟨posted, fa⟩, hpost, hrun⟩ := Exec.bind_eq_ok.mp hrun
  cases hrun
  rw [xFlowAllocatorDuPost_delivers hpost]

/-- The protocol passes a PDU on exactly if it says so, and always while a data run is
required. -/
theorem xDtpReceive_required {sv : DtpSv} (hdrf : sv.xDrfRequired = true) (seq : SeqNum)
    (flags : PduFlags) : (xDtpReceive sv seq flags).posted = true := by
  rw [xDtpReceive, if_pos hdrf]
  split <;> rfl

theorem xDtpReceiveDu_delivers (hm : BytesAt ip.heap du m)
    (hrun : xDtpReceiveDu pf ip e du = .ok (b, ip')) :
    ip'.heap = ip.heap ∧ ip'.xFA = ip.xFA.deliver du (instancePosts ip e (Pci.ofBytes m)) := by
  obtain ⟨seq, hseq, hrun⟩ := Exec.bind_eq_ok.mp hrun
  obtain rfl := hm.get_eq hseq
  rw [instancePosts]
  by_cases hdrf : (ip.efcps e).xDtpStateVector.xDrfRequired = true
  · rw [if_pos hdrf] at hrun
    obtain ⟨flags, hflags, hrun⟩ := Exec.bind_eq_ok.mp hrun
    obtain ⟨⟨posted, ip₁⟩, hpost, hrun⟩ := Exec.bind_eq_ok.mp hrun
    cases hrun
    rw [xEfcpEnqueue_delivers hpost, if_pos (xDtpReceive_required hdrf _ _)]
    exact ⟨rfl, rfl⟩
  · rw [if_neg hdrf] at hrun
    rw [xDtpReceive_flags (eq_false_of_ne_true hdrf) _ _ 0]
    dsimp only at hrun
    split at hrun
    · rename_i hposted
      obtain ⟨⟨posted, ip₁⟩, hpost, hrun⟩ := Exec.bind_eq_ok.mp hrun
      cases hrun
      rw [xEfcpEnqueue_delivers hpost]
      exact ⟨rfl, by rw [if_pos]; rfl; exact hposted⟩
    · rename_i hposted
      cases hrun
      exact ⟨rfl, by rw [if_neg]; rfl; exact hposted⟩

theorem learnDestination_ports {ip : Ipcp} (hrun : learnDestination pf ip e du = .ok ip') :
    ip'.heap = ip.heap ∧ ip'.xFA = ip.xFA ∧
      (ip'.efcps e).xDtpStateVector = (ip.efcps e).xDtpStateVector ∧
      (ip'.efcps e).pxConnection.xPortId = (ip.efcps e).pxConnection.xPortId := by
  obtain ⟨ty, -, hrun⟩ := Exec.bind_eq_ok.mp hrun
  dsimp only at hrun
  split at hrun
  · obtain ⟨cep, -, hrun⟩ := Exec.bind_eq_ok.mp hrun
    cases hrun
    simp [Ipcp.setEfcp]
  · cases hrun
    exact ⟨rfl, rfl, rfl, rfl⟩

theorem instancePosts_congr {p : Pci} (hfa : ip'.xFA = ip.xFA)
    (hsv : (ip'.efcps e).xDtpStateVector = (ip.efcps e).xDtpStateVector)
    (hport : (ip'.efcps e).pxConnection.xPortId = (ip.efcps e).pxConnection.xPortId) :
    instancePosts ip' e p = instancePosts ip e p := by
  rw [instancePosts, instancePosts, hfa, hsv, hport]

/-- The memory is as it was, but for the block which every search leaks. -/
def SearchLeak (h h' : Heap) : Prop := h' = h ∨ h' = (pvRsMemAlloc h 8).2

theorem xEfcpContainerReceive_delivers (hm : BytesAt ip.heap du m) (hf : ip.heap.Fresh)
    (hrun : xEfcpContainerReceive pf ip (Pci.ofBytes m).xConnDestination du = .ok (b, ip')) :
    SearchLeak ip.heap ip'.heap ∧ ip'.xFA = ip.xFA.deliver du
      ((selects ip (Pci.ofBytes m).xConnDestination).bind fun e =>
        if (ip.efcps e).xState = .eEfcpDeallocated ∨
            pdu_type_is_control (Pci.ofBytes m).xType = true then none
        else instancePosts ip e (Pci.ofBytes m)) := by
  rw [selects]
  by_cases hok : is_cep_id_ok (Pci.ofBytes m).xConnDestination = true
  · rw [if_pos hok]
    have hm₁ : BytesAt (pvRsMemAlloc ip.heap 8).2 du m := hm.leak hf 8
    cases hsel : imapLookup ip.xEfcpImapTable (Pci.ofBytes m).xConnDestination with
    | none =>
      simp only [xEfcpContainerReceive, hok, pxEfcpImapFind, hsel] at hrun
      cases hrun
      exact ⟨Or.inr rfl, rfl⟩
    | some e =>
      let ip₀ : Ipcp := { (pxEfcpImapFind ip (Pci.ofBytes m).xConnDestination).2 with
        dispatch := { ip.dispatch with instance? := some e } }
      rw [Option.bind_some]
      by_cases hst : (ip.efcps e).xState = .eEfcpDeallocated
      · have hcode : xEfcpContainerReceive pf ip (Pci.ofBytes m).xConnDestination du =
            .ok (true, ip₀) := by
          simp [xEfcpContainerReceive, hok, pxEfcpImapFind, hsel, hst, ip₀, pure, Except.pure]
        obtain rfl : ip₀ = ip' := congrArg Prod.snd (Except.ok.inj (hcode.symm.trans hrun))
        rw [if_pos (Or.inl hst)]
        exact ⟨Or.inr rfl, rfl⟩
      · have hcode : xEfcpContainerReceive pf ip (Pci.ofBytes m).xConnDestination du = (do
            let ip ← learnDestination pf ip₀ e du
            xEfcpReceive pf ip e du) := by
          simp [xEfcpContainerReceive, hok, pxEfcpImapFind, hsel, hst, ip₀]
        rw [hcode] at hrun
        obtain ⟨ip₁, hlearn, hrun⟩ := Exec.bind_eq_ok.mp hrun
        obtain ⟨hheap, hfa, hsv, hport⟩ := learnDestination_ports hlearn
        obtain ⟨ty, htype, hrun⟩ := Exec.bind_eq_ok.mp hrun
        have hm₂ : BytesAt ip₁.heap du m := by
          rw [hheap]
          exact hm₁
        obtain rfl := hm₂.get_eq htype
        dsimp only at hrun
        by_cases hc : pdu_type_is_control (Pci.ofBytes m).xType = true
        · rw [if_pos (by exact hc)] at hrun
          cases hrun
          rw [if_pos (Or.inr hc), hheap, hfa]
          exact ⟨Or.inr rfl, rfl⟩
        · rw [if_neg (by exact hc)] at hrun
          obtain ⟨hheap', hfa'⟩ := xDtpReceiveDu_delivers hm₂ hrun
          have hposts : instancePosts ip₁ e (Pci.ofBytes m) = instancePosts ip e (Pci.ofBytes m) :=
            instancePosts_congr hfa hsv hport
          rw [if_neg (not_or.mpr ⟨hst, hc⟩), hheap', hfa', hheap, hfa, hposts]
          exact ⟨Or.inr rfl, rfl⟩
  · rw [xEfcpContainerReceive, if_pos hok] at hrun
    cases hrun
    rw [if_neg hok]
    exact ⟨Or.inl rfl, rfl⟩

/-- Where a data PDU has gone when the code comes back. -/
theorem xRmtProcessDtPdu_delivers {port : PortId} (hm : BytesAt ip.heap du m)
    (hf : ip.heap.Fresh) (hrun : xRmtProcessDtPdu pf ip port (some du) = .ok (b, ip')) :
    SearchLeak ip.heap ip'.heap ∧ ip'.xFA = ip.xFA.deliver du (postsTo ip m) := by
  obtain ⟨_, -, hrun⟩ := Exec.bind_eq_ok.mp hrun
  obtain ⟨_, -, hrun⟩ := Exec.bind_eq_ok.mp hrun
  rw [deref_some, Exec.ok_bind] at hrun
  obtain ⟨dst, hdst, hrun⟩ := Exec.bind_eq_ok.mp hrun
  obtain rfl := hm.get_eq hdst
  change (if ¬ is_address_ok (Pci.ofBytes m).xDestination = true then _ else _) = _ at hrun
  rw [postsTo]
  by_cases haddr : is_address_ok (Pci.ofBytes m).xDestination = true
  · rw [if_neg (not_not_intro haddr)] at hrun
    obtain ⟨ty, htype, hrun⟩ := Exec.bind_eq_ok.mp hrun
    obtain rfl := hm.get_eq htype
    change (if (Pci.ofBytes m).xType = PDU_TYPE_MGMT then _ else _) = _ at hrun
    by_cases hmgmt : (Pci.ofBytes m).xType = PDU_TYPE_MGMT
    · rw [if_pos hmgmt] at hrun
      cases hrun
      rw [if_pos (Or.inr hmgmt)]
      exact ⟨Or.inl rfl, rfl⟩
    · rw [if_neg hmgmt] at hrun
      obtain ⟨cep, hcep, hrun⟩ := Exec.bind_eq_ok.mp hrun
      obtain rfl := hm.get_eq hcep
      change (if ¬ is_cep_id_ok (Pci.ofBytes m).xConnDestination = true then _ else _) = _ at hrun
      rw [if_neg (by simp [haddr, hmgmt])]
      by_cases hok : is_cep_id_ok (Pci.ofBytes m).xConnDestination = true
      · rw [if_neg (not_not_intro hok)] at hrun
        exact xEfcpContainerReceive_delivers hm hf hrun
      · rw [if_pos hok] at hrun
        cases hrun
        rw [selects, if_neg hok]
        exact ⟨Or.inl rfl, rfl⟩
  · rw [if_pos haddr] at hrun
    cases hrun
    rw [if_pos (Or.inl (eq_false_of_ne_true haddr))]
    exact ⟨Or.inl rfl, rfl⟩

end RinaSense.Rmt
