import RinaSense.Common.Links
import RinaSense.Shim.Flows

/-!
# Demultiplexing of frames

The RINA frames which a shim receives while nobody asks for flows or gives them up. The first
frame from an address makes a flow, and the table then leads the frames from each address to
the port of its flow.
-/

namespace RinaSense.Shim

open Common Library.Memory Library.Filler Library.Runs

/-- A frame in memory, the address it comes from, the port which the IPC manager would reserve
for it and the normal IPC process. -/
structure RinaFrame where
  heap : Heap
  pxNbFrame : NbPtr
  xSourceAddress : MACAddress
  unReserved : PortId
  pxIpcp : Option (PortId → Bool)

/-- What a shim does. Other calls than for frames are those of `ShimOp`. -/
inductive DemuxOp
  | frame (f : RinaFrame)
  | other (op : ShimOp)

/-- The data of a shim, with the source address of every frame so far and the port to which it
was posted. -/
structure DemuxState where
  data : ShimData
  posted : List (MACAddress × Option PortId)

variable (pf : Platform)

def DemuxState.step (s : DemuxState) : DemuxOp → Option DemuxState
  | .frame f =>
    (prvShimHandleRinaFrame pf f.heap s.data f.pxNbFrame f.unReserved f.pxIpcp).toOption.map
      fun out => ⟨out.2.1, s.posted ++ [(f.xSourceAddress, out.1.map Prod.fst)]⟩
  | .other op => (s.data.step pf op).map fun d => ⟨d, s.posted⟩

/-- Neither a frame nor a request for a flow or its deallocation. -/
def ShimOp.Passive : ShimOp → Prop
  | .request .. => False
  | .deallocate _ => False
  | .frame .. => False
  | .response _ => True
  | .write .. => True
  | .setup .. => True

/-- The frame is a chain whose first live netbuf has the Ethernet header, with a payload behind
it, and there is memory. -/
structure RinaFrame.WellFormed (f : RinaFrame) : Prop where
  available : f.heap.MemoryAvailable
  fresh : f.heap.Fresh
  header : ∃ nb eth b start, f.heap.netbufs f.pxNbFrame = some nb ∧ nb.xFreed = false ∧
    nb.pxBuf = some eth ∧ f.heap.mem eth.block = some b ∧
    slice b (eth.off + 6) 6 = some f.xSourceAddress.ucBytes ∧ nb.pxBufStart = some start ∧
    ∃ l₁ l₂, NbLinks f.heap (some nb.pxFirst) (l₁ ++ f.pxNbFrame :: l₂) none ∧
      (l₁ ++ f.pxNbFrame :: l₂).Nodup ∧
      ∃ du ∈ l₂, ∃ duNb, f.heap.netbufs du = some duNb ∧ duNb.xFreed = false

/-- The frames are well formed. For the first one from an address the port allocator gives a
port which it has not given before and which is below the size of the table, and the port is
bound. The other calls do not trap. -/
def DemuxState.Permitted (s : DemuxState) : DemuxOp → Prop
  | .frame f => f.WellFormed ∧
    ((∀ e ∈ s.posted, e.1 ≠ f.xSourceAddress) →
      f.unReserved.toNat < 256 ∧ (∀ e ∈ s.posted, e.2 ≠ some f.unReserved) ∧
        bindNewFlow pf f.pxIpcp f.unReserved = .ok true)
  | .other op => op.Passive ∧ (s.data.step pf op).isSome

/-- The flow is for frames from the address. -/
def ShimFlow.IsFor (f : ShimFlow) (m : MACAddress) : Prop :=
  f.pxDestHa = some (some ⟨.MAC_ADDR_802_3, m⟩)

/-- Every frame is posted, two frames to the same port exactly if they are from the same
address, and there is one flow for each address from which there was a frame. -/
structure Demultiplexed (s : DemuxState) : Prop where
  posted : ∀ e ∈ s.posted, e.2.isSome
  ports : ∀ e ∈ s.posted, ∀ e' ∈ s.posted, e.1 = e'.1 ↔ e.2 = e'.2
  flow : ∀ e ∈ s.posted, ∃! p, ∃ f, s.data.flows p = some f ∧ f.IsFor e.1
  only : ∀ p f, s.data.flows p = some f → ∃ e ∈ s.posted, f.IsFor e.1 ∧ e.2 = some f.unPort

variable {pf} {d : ShimData} {s : DemuxState} {p : FlowPtr}

theorem xGHACmp_iff (m₁ m₂ : MACAddress) :
    xGHACmp (some ⟨.MAC_ADDR_802_3, m₁⟩) (some ⟨.MAC_ADDR_802_3, m₂⟩) = true ↔ m₁ = m₂ := by
  rw [xGHACmp, beq_iff_eq]
  constructor
  · intro hb
    cases m₁
    cases m₂
    cases hb
    rfl
  · rintro rfl
    rfl

/-- Whether the table has a flow for an address and which one, when all of its flows have an
address. -/
theorem findByGHA_spec (m : MACAddress) {entries : List (Option FlowPtr)}
    (hall : ∀ p, some p ∈ entries → ∃ f m', d.flows p = some f ∧ f.IsFor m') :
    ∃ found, d.findByGHA (some ⟨.MAC_ADDR_802_3, m⟩) entries = .ok found ∧
      (∀ p, found = some p → some p ∈ entries ∧ ∃ f, d.flows p = some f ∧ f.IsFor m) ∧
      (found = none → ∀ p, some p ∈ entries → ∀ f, d.flows p = some f → ¬ f.IsFor m) := by
  induction entries with
  | nil => exact ⟨none, rfl, by simp, by simp⟩
  | cons entry entries ih =>
    obtain ⟨found, hcode, hsome, hnone⟩ := ih fun p hp => hall p (List.mem_cons_of_mem _ hp)
    cases entry with
    | none =>
      refine ⟨found, hcode, fun p hp => ?_, fun hf p hp => ?_⟩
      · exact ⟨List.mem_cons_of_mem _ (hsome p hp).1, (hsome p hp).2⟩
      · exact hnone hf p (by simpa using hp)
    | some p₀ =>
      obtain ⟨f₀, m₀, hf₀, hfor⟩ := hall p₀ List.mem_cons_self
      have hinit : initialised f₀.pxDestHa = .ok (some ⟨.MAC_ADDR_802_3, m₀⟩) := by
        rw [hfor]
        rfl
      by_cases hm : m₀ = m
      · subst hm
        have hcmp := (xGHACmp_iff m₀ m₀).mpr rfl
        refine ⟨some p₀, ?_, fun p hp => ?_, fun hf => by cases hf⟩
        · simp [ShimData.findByGHA, flow_eq_ok.mpr hf₀, hinit, hcmp, pure, Except.pure]
        · cases hp
          exact ⟨List.mem_cons_self, f₀, hf₀, hfor⟩
      · have hcmp : xGHACmp (some ⟨.MAC_ADDR_802_3, m₀⟩) (some ⟨.MAC_ADDR_802_3, m⟩) ≠ true :=
          mt (xGHACmp_iff m₀ m).mp hm
        refine ⟨found, ?_, fun p hp => ?_, fun hf p hp f hpf => ?_⟩
        · simp [ShimData.findByGHA, flow_eq_ok.mpr hf₀, hinit, hcmp, hcode]
        · exact ⟨List.mem_cons_of_mem _ (hsome p hp).1, (hsome p hp).2⟩
        · rcases List.mem_cons.mp hp with heq | hp
          · cases heq
            rw [hf₀] at hpf
            cases hpf
            intro hfor'
            rw [ShimFlow.IsFor, hfor] at hfor'
            cases hfor'
            exact hm rfl
          · exact hnone hf p hp f hpf

/-! ### Frames -/

section Frame

variable {f : RinaFrame}

variable (pf) in
/-- Posting a well-formed frame frees its header and leaves the payload. -/
theorem RinaFrame.WellFormed.post (hw : f.WellFormed) (k : ℕ) {flow : ShimFlow}
    (hflow : d.flows p = some flow) :
    ∃ du h', postRinaFrame pf (f.heap.afterCalls k) d f.pxNbFrame p =
      .ok (some (flow.unPort, du), h') := by
  obtain ⟨nb, -, -, start, hnb, hlive, -, -, -, hstart, l₁, l₂, hl, hnodup, du, hdu, duNb, hduNb,
    hdulive⟩ := hw.header
  have hfresh : (f.heap.afterCalls k).Fresh := hw.fresh
  have hl' : NbLinks (f.heap.afterCalls k) (some nb.pxFirst) (l₁ ++ f.pxNbFrame :: l₂) none :=
    hl.congr fun _ _ => rfl
  have hnb' : (f.heap.afterCalls k).netbufs f.pxNbFrame = some nb := hnb
  have hduNb' : (f.heap.afterCalls k).netbufs du = some duNb := hduNb
  obtain ⟨mid, -, -, nb₁, hnb₁, hl₂⟩ := links_append.mp hl'
  obtain rfl : nb₁ = nb := Option.some.inj (hnb₁.symm.trans hnb')
  have hlen : l₂.length ≤ (f.heap.afterCalls k).brk := by
    have hall := hfresh.length_le hl' hnodup
    rw [List.length_append, List.length_cons] at hall
    omega
  obtain ⟨next, hnext⟩ := hl₂.firstLive hlen hdu hduNb' hdulive
  have hne : du ≠ f.pxNbFrame := by
    rintro rfl
    exact (List.nodup_cons.mp (List.nodup_append.mp hnodup).2.1).1 hdu
  obtain ⟨kept, fully, -, hfully, hfree⟩ :=
    vNetBufFree_spec pf hfresh hnb' hstart hl' hnodup (by simp)
  have hnot : fully = false := eq_false_of_ne_true fun ht => by
    have hfreed := hfully.mp ht du (by simp [hdu]) hne duNb hduNb'
    rw [hdulive] at hfreed
    cases hfreed
  rw [hnot, if_neg Bool.false_ne_true] at hfree
  refine ⟨some next, (f.heap.afterCalls k).setNetbuf f.pxNbFrame (some (nb₁.left kept)), ?_⟩
  simp only [postRinaFrame, pxNetBufNext, Heap.netbuf_of_some hnb', Exec.ok_bind, hlive,
    Bool.not_false, rsAssert_true, hnext, hfree, flow_eq_ok.mpr hflow]
  rfl

variable (pf) in
theorem RinaFrame.WellFormed.source (hw : f.WellFormed) :
    ∃ eth b, pvNetBufPtr pf f.heap f.pxNbFrame = .ok (some eth) ∧
      f.heap.mem eth.block = some b ∧ pxCreateGHA f.heap .MAC_ADDR_802_3 b (eth.off + 6) =
        .ok (some ⟨.MAC_ADDR_802_3, f.xSourceAddress⟩, f.heap.afterCalls 1) := by
  obtain ⟨nb, eth, b, -, hnb, hlive, hbuf, hb, hmac, -⟩ := hw.header
  refine ⟨eth, b, ?_, hb, pxCreateGHA_available hw.available hmac⟩
  simp only [pvNetBufPtr, Heap.netbuf_of_some hnb, Exec.ok_bind, hlive, Bool.not_false,
    rsAssert_true, hbuf]
  rfl

variable (pf) in
theorem frame_known (hw : f.WellFormed) {flow : ShimFlow} (hfind : d.prvShimFindFlowByGHA
      (some ⟨.MAC_ADDR_802_3, f.xSourceAddress⟩) = .ok (some p)) (hflow : d.flows p = some flow) :
    ∃ du h', prvShimHandleRinaFrame pf f.heap d f.pxNbFrame f.unReserved f.pxIpcp =
      .ok (some (flow.unPort, du), d, h') := by
  obtain ⟨eth, b, hptr, hb, hgha⟩ := hw.source pf
  obtain ⟨du, h', hpost⟩ := hw.post pf 1 hflow
  refine ⟨du, h', ?_⟩
  simp only [prvShimHandleRinaFrame, hptr, Exec.ok_bind, deref_some, hb, inBounds_some, hgha, hfind,
    hpost]
  rfl

/-- The flow which a frame makes. -/
def RinaFrame.flow (f : RinaFrame) : ShimFlow :=
  ⟨some (some ⟨.MAC_ADDR_802_3, f.xSourceAddress⟩), none, f.unReserved, .eALLOCATED⟩

theorem frame_new (hw : f.WellFormed) (hfind : d.prvShimFindFlowByGHA
      (some ⟨.MAC_ADDR_802_3, f.xSourceAddress⟩) = .ok none) (hport : f.unReserved.toNat < 256)
    (hbind : bindNewFlow pf f.pxIpcp f.unReserved = .ok true) :
    ∃ du h', prvShimHandleRinaFrame pf f.heap d f.pxNbFrame f.unReserved f.pxIpcp =
      .ok (some (f.unReserved, du), d.enterFlow f.flow hport, h') := by
  obtain ⟨eth, b, hptr, hb, hgha⟩ := hw.source pf
  have hmem := requestMemory_available (hw.available.afterCalls 1)
  have hentered : (d.enterFlow f.flow hport).flows d.brk = some f.flow :=
    ShimData.setFlow_self _ _ _
  obtain ⟨du, h', hpost⟩ := hw.post pf 2 hentered
  refine ⟨du, h', ?_⟩
  have hentry : (d.addFlow f.flow).setEntry f.unReserved d.brk =
      .ok (d.enterFlow f.flow hport) := dif_pos hport
  rw [Heap.afterCalls_afterCalls] at hmem
  change prvShimHandleRinaFrame pf f.heap d f.pxNbFrame f.unReserved f.pxIpcp =
    .ok (some (f.flow.unPort, du), d.enterFlow f.flow hport, h')
  simp only [prvShimHandleRinaFrame, hptr, Exec.ok_bind, deref_some, hb, inBounds_some, hgha, hfind,
    ShimData.pvRsMemAllocFlow, hmem]
  change (do
    let d₁ ← (d.addFlow f.flow).setEntry f.unReserved d.brk
    let bound ← bindNewFlow pf f.pxIpcp f.unReserved
    if !bound then return (none, d₁, f.heap.afterCalls 2)
    let posted ← postRinaFrame pf (f.heap.afterCalls 2) d₁ f.pxNbFrame d.brk
    return (posted.1, d₁, posted.2)) = _
  rw [hentry, Exec.ok_bind, hbind, Exec.ok_bind, Bool.not_true, if_neg Bool.false_ne_true, hpost]
  rfl

end Frame

/-! ### Runs -/

/-- The entries of the table are the flows, each at its port, and the flows are those of the
addresses from which there were frames, one for each. -/
structure DemuxState.Inv (s : DemuxState) : Prop where
  entry : ∀ i p, s.data.xFlows[i]? = some (some p) →
    ∃ f, s.data.flows p = some f ∧ f.unPort.toNat = i
  flow : ∀ p f, s.data.flows p = some f → p < s.data.brk ∧ f.ePortIdState = .eALLOCATED ∧
    s.data.xFlows[f.unPort.toNat]? = some (some p) ∧
    ∃ m, f.IsFor m ∧ (m, some f.unPort) ∈ s.posted
  posted : ∀ e ∈ s.posted, ∃ p f, s.data.flows p = some f ∧ f.IsFor e.1 ∧ e.2 = some f.unPort
  address : ∀ p q f g m, s.data.flows p = some f → s.data.flows q = some g → f.IsFor m →
    g.IsFor m → p = q

theorem ShimFlow.IsFor.unique {f : ShimFlow} {m₁ m₂ : MACAddress} (h₁ : f.IsFor m₁)
    (h₂ : f.IsFor m₂) : m₁ = m₂ := by
  rw [ShimFlow.IsFor, h₁] at h₂
  cases h₂
  rfl

theorem DemuxState.Inv.demultiplexed (hi : s.Inv) : Demultiplexed s where
  posted e he := by
    obtain ⟨p, f, -, -, hport⟩ := hi.posted e he
    rw [hport]
    rfl
  ports e he e' he' := by
    obtain ⟨p, f, hf, hfor, hport⟩ := hi.posted e he
    obtain ⟨p', f', hf', hfor', hport'⟩ := hi.posted e' he'
    constructor
    · intro heq
      obtain rfl := hi.address p p' f f' e.1 hf hf' hfor (heq ▸ hfor')
      rw [hf] at hf'
      cases hf'
      rw [hport, hport']
    · intro heq
      rw [hport, hport', Option.some.injEq] at heq
      have hentry := (hi.flow p f hf).2.2.1
      rw [heq, (hi.flow p' f' hf').2.2.1] at hentry
      cases hentry
      rw [hf] at hf'
      cases hf'
      exact hfor.unique hfor'
  flow e he := by
    obtain ⟨p, f, hf, hfor, -⟩ := hi.posted e he
    refine ⟨p, ⟨f, hf, hfor⟩, ?_⟩
    rintro q ⟨g, hg, hgfor⟩
    exact hi.address q p g f e.1 hg hf hgfor hfor
  only p f hf := by
    obtain ⟨-, -, -, m, hfor, hmem⟩ := hi.flow p f hf
    exact ⟨(m, some f.unPort), hmem, hfor, rfl⟩

theorem DemuxState.inv_create (pxNbPool pxEthPool : PoolPtr) :
    DemuxState.Inv ⟨pxShimWiFiCreate pxNbPool pxEthPool, []⟩ where
  entry i p he := by
    have hmem := Vector.mem_of_getElem? he
    simp [pxShimWiFiCreate] at hmem
  flow _ _ hf := by cases hf
  posted _ he := by cases he
  address _ _ _ _ _ hf := by cases hf

/-- The search finds the flow of an address, if there is one. -/
theorem DemuxState.Inv.find (hi : s.Inv) (m : MACAddress) :
    (∃ p f, s.data.prvShimFindFlowByGHA (some ⟨.MAC_ADDR_802_3, m⟩) = .ok (some p) ∧
      s.data.flows p = some f ∧ f.IsFor m) ∨
    s.data.prvShimFindFlowByGHA (some ⟨.MAC_ADDR_802_3, m⟩) = .ok none ∧
      ∀ p f, s.data.flows p = some f → ¬ f.IsFor m := by
  have hall : ∀ p, some p ∈ s.data.xFlows.toList →
      ∃ f m', s.data.flows p = some f ∧ f.IsFor m' := fun p hp => by
    obtain ⟨i, he⟩ := Vector.mem_iff_getElem?.mp (Vector.mem_toList_iff.mp hp)
    obtain ⟨f, hf, -⟩ := hi.entry i p he
    obtain ⟨-, -, -, m', hfor, -⟩ := hi.flow p f hf
    exact ⟨f, m', hf, hfor⟩
  obtain ⟨found, hcode, hsome, hnone⟩ := findByGHA_spec m hall
  cases found with
  | some p =>
    obtain ⟨-, f, hf, hfor⟩ := hsome p rfl
    exact Or.inl ⟨p, f, hcode, hf, hfor⟩
  | none =>
    refine Or.inr ⟨hcode, fun p f hf => hnone rfl p ?_ f hf⟩
    exact Vector.mem_toList_iff.mpr (Vector.mem_of_getElem? (hi.flow p f hf).2.2.1)

/-- A frame from an address which has a flow. -/
theorem DemuxState.Inv.post (hi : s.Inv) {f : ShimFlow} {m : MACAddress}
    (hf : s.data.flows p = some f) (hfor : f.IsFor m) :
    DemuxState.Inv ⟨s.data, s.posted ++ [(m, some f.unPort)]⟩ where
  entry := hi.entry
  flow q g hg := by
    obtain ⟨hlt, hstate, hentry, m', hfor', hmem⟩ := hi.flow q g hg
    exact ⟨hlt, hstate, hentry, m', hfor', List.mem_append_left _ hmem⟩
  posted e he := by
    rcases List.mem_append.mp he with he | he
    · exact hi.posted e he
    · rw [List.mem_singleton.mp he]
      exact ⟨p, f, hf, hfor, rfl⟩
  address := hi.address

/-- A frame from a new address, whose flow gets a port which was not given before. -/
theorem DemuxState.Inv.enter (hi : s.Inv) {f : ShimFlow} {m : MACAddress} (hfor : f.IsFor m)
    (hstate : f.ePortIdState = .eALLOCATED) (hport : f.unPort.toNat < 256)
    (hnone : ∀ p g, s.data.flows p = some g → ¬ g.IsFor m)
    (hfresh : ∀ e ∈ s.posted, e.2 ≠ some f.unPort) :
    DemuxState.Inv ⟨s.data.enterFlow f hport, s.posted ++ [(m, some f.unPort)]⟩ := by
  have hself : (s.data.enterFlow f hport).flows s.data.brk = some f := ShimData.setFlow_self _ _ _
  have hother : ∀ q, q ≠ s.data.brk → (s.data.enterFlow f hport).flows q = s.data.flows q :=
    fun q hq => ShimData.setFlow_of_ne _ _ hq
  have hapart : ∀ q g, s.data.flows q = some g → g.unPort.toNat ≠ f.unPort.toNat := by
    intro q g hg heq
    obtain ⟨-, -, -, m', -, hmem⟩ := hi.flow q g hg
    exact hfresh _ hmem (congrArg some (UInt32.toNat_inj.mp heq))
  have hset : ∀ i, i ≠ f.unPort.toNat →
      (s.data.enterFlow f hport).xFlows[i]? = s.data.xFlows[i]? := fun i hi =>
    Vector.getElem?_set_ne hport (Ne.symm hi)
  have hnew : (s.data.enterFlow f hport).xFlows[f.unPort.toNat]? = some (some s.data.brk) :=
    Vector.getElem?_set_self hport
  exact {
    entry := fun i q he => by
      by_cases hip : i = f.unPort.toNat
      · subst hip
        have he' : some (some s.data.brk) = some (some q) := hnew.symm.trans he
        cases he'
        exact ⟨f, hself, rfl⟩
      · obtain ⟨g, hg, hgi⟩ := hi.entry i q ((hset i hip).symm.trans he)
        exact ⟨g, (hother q (Nat.ne_of_lt (hi.flow q g hg).1)).trans hg, hgi⟩
    flow := fun q g hg => by
      by_cases hq : q = s.data.brk
      · subst hq
        have hg' : some f = some g := hself.symm.trans hg
        cases hg'
        exact ⟨Nat.lt_succ_self _, hstate, hnew, m, hfor, by simp⟩
      · have hg' := (hother q hq).symm.trans hg
        obtain ⟨hlt, hgstate, hentry, m', hfor', hmem⟩ := hi.flow q g hg'
        exact ⟨Nat.lt_succ_of_lt hlt, hgstate, (hset _ (hapart q g hg')).trans hentry, m', hfor',
          List.mem_append_left _ hmem⟩
    posted := fun e he => by
      rcases List.mem_append.mp he with he | he
      · obtain ⟨q, g, hg, hgfor, hgport⟩ := hi.posted e he
        exact ⟨q, g, (hother q (Nat.ne_of_lt (hi.flow q g hg).1)).trans hg, hgfor, hgport⟩
      · rw [List.mem_singleton.mp he]
        exact ⟨s.data.brk, f, hself, hfor, rfl⟩
    address := fun q₁ q₂ g₁ g₂ m' hg₁ hg₂ hfor₁ hfor₂ => by
      by_cases hq₁ : q₁ = s.data.brk
      · by_cases hq₂ : q₂ = s.data.brk
        · rw [hq₁, hq₂]
        · subst hq₁
          have hg : some f = some g₁ := hself.symm.trans hg₁
          cases hg
          rw [hfor₁.unique hfor] at hfor₂
          exact absurd hfor₂ (hnone q₂ g₂ ((hother q₂ hq₂).symm.trans hg₂))
      · by_cases hq₂ : q₂ = s.data.brk
        · subst hq₂
          have hg : some f = some g₂ := hself.symm.trans hg₂
          cases hg
          rw [hfor₂.unique hfor] at hfor₁
          exact absurd hfor₁ (hnone q₁ g₁ ((hother q₁ hq₁).symm.trans hg₁))
        · exact hi.address q₁ q₂ g₁ g₂ m' ((hother q₁ hq₁).symm.trans hg₁)
            ((hother q₂ hq₂).symm.trans hg₂) hfor₁ hfor₂ }

/-- A response finds no flow which is pending. -/
theorem DemuxState.Inv.passive (hi : s.Inv) {op : ShimOp} (hop : op.Passive)
    (hstep : s.data.step pf op = some d) : DemuxState.Inv ⟨d, s.posted⟩ := by
  cases op with
  | request => exact hop.elim
  | deallocate => exact hop.elim
  | frame => exact hop.elim
  | response unPort =>
    obtain ⟨⟨ret, d₁⟩, hr, rfl⟩ := Exec.toOption_map_eq_some hstep
    rcases response_cases hr with ⟨-, rfl⟩ | ⟨p, f, g, -, hf, hpending, -, -, -⟩
    · exact hi
    · have hstate := (hi.flow p f hf).2.1
      rw [hpending] at hstate
      cases hstate
  | write =>
    obtain ⟨out, -, rfl⟩ := Exec.toOption_map_eq_some hstep
    exact hi
  | setup =>
    cases hstep
    exact ⟨hi.entry, hi.flow, hi.posted, hi.address⟩

theorem DemuxState.Inv.step (hi : s.Inv) {op : DemuxOp} (hp : s.Permitted pf op) :
    ∃ s', s.step pf op = some s' ∧ s'.Inv := by
  cases op with
  | other op =>
    obtain ⟨d, hd⟩ := Option.isSome_iff_exists.mp hp.2
    exact ⟨⟨d, s.posted⟩, by rw [DemuxState.step, hd]; rfl, hi.passive hp.1 hd⟩
  | frame f =>
    obtain ⟨hw, hnew⟩ := hp
    rcases hi.find f.xSourceAddress with ⟨p, flow, hfind, hflow, hfor⟩ | ⟨hfind, hnone⟩
    · obtain ⟨du, h', hcode⟩ := frame_known pf hw hfind hflow
      refine ⟨_, ?_, hi.post hflow hfor⟩
      rw [DemuxState.step, hcode]
      rfl
    · obtain ⟨hport, hfresh, hbind⟩ := hnew fun e he heq => by
        obtain ⟨p, g, hg, hfor, -⟩ := hi.posted e he
        exact hnone p g hg (heq ▸ hfor)
      obtain ⟨du, h', hcode⟩ := frame_new hw hfind hport hbind
      refine ⟨_, ?_, hi.enter (f := f.flow) rfl rfl hport hnone hfresh⟩
      rw [DemuxState.step, hcode]
      rfl

/-- Whatever frames a new shim gets, they are all posted, those from one address to the port of
its one flow and those from different addresses to different ports. -/
theorem frames_demultiplexed {pxNbPool pxEthPool : PoolPtr} {ops : List DemuxOp}
    (hops : GuardedSteps (DemuxState.step pf) (DemuxState.Permitted pf)
      ⟨pxShimWiFiCreate pxNbPool pxEthPool, []⟩ ops) :
    ∃ s, ops.foldlM (DemuxState.step pf) ⟨pxShimWiFiCreate pxNbPool pxEthPool, []⟩ = some s ∧
      Demultiplexed s := by
  obtain ⟨s, hrun, hinv⟩ := foldlM_returns (I := DemuxState.Inv)
    (fun s i hi hp => hi.step hp) (DemuxState.inv_create pxNbPool pxEthPool) hops
  exact ⟨s, hrun, hinv.demultiplexed⟩

/-- A frame with two bytes of payload, cut behind its header. -/
def frameHeap (n : UInt8) : Heap where
  mem := fun a => if a = 0 then some (List.replicate 6 0 ++ (exampleMac n).ucBytes ++ [0, 0, 1, 2])
    else none
  netbufs := fun p =>
    if p = 1 then some ⟨some 2, 1, .NB_ETH_HDR, 14, some ⟨0, 0⟩, some ⟨0, 0⟩, false,
      some .vNetBufFreeNormal, some 0⟩
    else if p = 2 then some ⟨none, 1, .NB_RINA_PCI, 2, some ⟨0, 14⟩, some ⟨0, 0⟩, false,
      some .vNetBufFreeNormal, some 0⟩
    else none
  rsrcs := fun _ => none
  pools := fun _ => none
  brk := 3
  calls := 0
  mallocOk := fun _ => true
  junk := fun _ _ => 0

def exampleFrame (n : UInt8) (unReserved : PortId) : RinaFrame :=
  ⟨frameHeap n, 1, exampleMac n, unReserved, some fun _ => true⟩

theorem exampleFrame_wellFormed (n : UInt8) (unReserved : PortId) :
    (exampleFrame n unReserved).WellFormed where
  available _ := rfl
  fresh a ha := by
    have ha : 3 ≤ a := ha
    simp [exampleFrame, frameHeap, show a ≠ 0 by omega, show a ≠ 1 by omega, show a ≠ 2 by omega]
  header := ⟨_, _, _, _, rfl, rfl, rfl, rfl, rfl, rfl, [], [2],
    ⟨rfl, _, rfl, rfl, _, rfl, rfl⟩, by simp [exampleFrame], 2, by simp, _, rfl, rfl⟩

/-- Three frames from two addresses. -/
theorem frames_demultiplexed_two :
    ∃ s, [DemuxOp.frame (exampleFrame 1 5), .frame (exampleFrame 2 6),
        .frame (exampleFrame 1 7)].foldlM (DemuxState.step ⟨false, false⟩)
          ⟨pxShimWiFiCreate 0 1, []⟩ = some s ∧ Demultiplexed s :=
  frames_demultiplexed
    ⟨⟨exampleFrame_wellFormed 1 5, fun _ => ⟨by decide, by decide, rfl⟩⟩,
      ⟨exampleFrame_wellFormed 2 6, fun _ => ⟨by decide, by decide, rfl⟩⟩,
      ⟨exampleFrame_wellFormed 1 7, fun hnew => absurd rfl (hnew _ List.mem_cons_self)⟩, trivial⟩

end RinaSense.Shim
