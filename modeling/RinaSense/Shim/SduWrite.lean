import RinaSense.Common.Joined
import RinaSense.Shim.FrameInput

/-!
# Data units which leave on a flow

`xShimSDUWrite` takes the data unit which it is passed. The steps in front of the driver build
the frame, and the driver copies the frame out of its netbufs. The data unit is only released
with its frame, so that it is lost by every step which fails before there is one.
-/

namespace RinaSense.Shim.OnChain

open Common Library.Memory

variable (pf : Platform)

/-- The part of `xShimSDUWrite` which puts the Ethernet header in front of the data unit. -/
def encapsulate (h : Heap) (d : ShimData) (pxDu : NbPtr) (pxSrcHw pxDestHa : GHA) :
    Exec (Option NbPtr × Heap) := do
  match ← pxRsrcAlloc pf h (some d.pxEthPool) (some "xShimSDUWrite") with
  | (none, h) => return (none, h)
  | (some a, h) => do
    match ← pxNetBufNew pf h (some d.pxNbPool) .NB_ETH_HDR (some ⟨a, 0⟩) sizeofEthernetHeader
      (some .vNetBufFreePool) with
    | (none, h) => return (none, h)
    | (some pxNbFrame, h) => do
      let h ← vNetBufAppend pf h pxNbFrame pxDu
      let pxEthHdr ← pvNetBufPtr pf h pxNbFrame
      let h ← h.write pxEthHdr 12 (leBytes 2 (RsHtoNS ETH_P_RINA).toNat)
      let h ← h.write pxEthHdr 6 pxSrcHw.xAddress.ucBytes
      let h ← h.write pxEthHdr 0 pxDestHa.xAddress.ucBytes
      return (some pxNbFrame, h)

/-- The steps of `xShimSDUWrite` in front of the driver, with the frame if it could be built. -/
def frameForSDU (h : Heap) (d : ShimData) (unPort : PortId) (pxDu : NbPtr) :
    Exec (Option NbPtr × Heap) := do
  let uxLength ← unNetBufTotalSize h pxDu
  if MTU < uxLength then return (none, h)
  match ← d.prvShimFindFlowByPortId unPort with
  | none => return (none, h)
  | some p => do
    let pxFlow ← d.flow p
    if pxFlow.ePortIdState ≠ .eALLOCATED then return (none, h)
    match ← pxCreateGHA h .MAC_ADDR_802_3 d.xPhyDev.ucBytes 0 with
    | (none, h) => return (none, h)
    | (some pxSrcHw, h) => do
      match ← initialised pxFlow.pxDestHa with
      | none => return (none, h)
      | some pxDestHa => encapsulate pf h d pxDu pxSrcHw pxDestHa

/-- The rest of `xShimSDUWrite`. -/
def sendFrame (xNetworkInterfaceOutput : Heap → NbPtr → Exec (Bool × Heap)) :
    Option NbPtr × Heap → Exec (Bool × Heap)
  | (none, h) => .ok (false, h)
  | (some pxNbFrame, h) => do
    let (xStatus, h) ← xNetworkInterfaceOutput h pxNbFrame
    let h ← vNetBufFreeAll pf h pxNbFrame
    return (xStatus, h)

/-- The netbufs of the list and the buffers they hold are released, and no other netbuf is. -/
structure DuReleased (h h' : Heap) (l : List NbPtr) : Prop where
  gone : ∀ q ∈ l, h'.netbufs q = none
  released : ∀ b m, h.Holds l b m → Released pf h' m b
  other : ∀ q, q ∉ l → h'.netbufs q = h.netbufs q

/-- The driver gets a frame for the data unit and can send it. -/
def Sent (h : Heap) (d : ShimData) (env : Surroundings) (unPort : PortId) (pxDu : NbPtr) : Prop :=
  ∃ pxNbFrame h₁ h₂, frameForSDU pf h d unPort pxDu = .ok (some pxNbFrame, h₁) ∧
    env.xNetworkInterfaceOutput h₁ pxNbFrame = .ok (true, h₂)

/-- The call releases the data unit, whose netbufs are those of the list, and reports whether it
was sent. -/
def OwnsDu (h : Heap) (d : ShimData) (env : Surroundings) (unPort : PortId) (pxDu : NbPtr)
    (l : List NbPtr) : Prop :=
  ∃ xStatus h', xShimSDUWrite pf h d unPort pxDu env.xNetworkInterfaceOutput = .ok (xStatus, h') ∧
    DuReleased pf h h' l ∧ (xStatus = true ↔ Sent pf h d env unPort pxDu)

/-- A data unit in memory, whose netbufs point into their buffers. -/
structure DuIn (h : Heap) (pxDu : NbPtr) (l : List NbPtr) : Prop where
  chain : WholeChain pf h pxDu l
  live : ∀ q ∈ l, h.InUse q
  readable : Readable h l
  inside : ∀ q ∈ l, ∀ nb, h.netbufs q = some nb → ∀ p, nb.pxBuf = some p →
    ∃ s, nb.pxBufStart = some s ∧ s.block = p.block

/-- The pool of Ethernet headers, whose free resources are no buffers of the data unit. -/
structure HeaderPool (h : Heap) (d : ShimData) (pool : RsrcPool) (l : List NbPtr) : Prop where
  entry : h.pools d.pxEthPool = some pool
  size : pool.uxSizeEach = sizeofEthernetHeader
  spare : ∀ b m, h.Holds l b m → SparePool h d.pxEthPool b.block

/-- The pool has a resource for the requestor, or adds some. -/
def HandsOut (h : Heap) (pool : RsrcPool) (pcRequestor : Option String) : Prop :=
  if pf.valgrind then Granted h 0
  else rsrcRefused pool pcRequestor pool.uxSizeEach = false ∧
    (pool.pxFreelist ≠ [] ∨ pool.uiIncrement ≠ 0 ∧ Granted h 0)

/-- The requests to `malloc` of a pool which hands out a resource. -/
def poolRequests (pool : RsrcPool) : ℕ := if pf.valgrind ∨ pool.pxFreelist = [] then 1 else 0

/-- The length, the flow and the memory which a data unit needs to get to the driver. -/
structure Sendable (h : Heap) (d : ShimData) (pool : RsrcPool) (unPort : PortId) (pxDu : NbPtr) :
    Prop where
  size : ∃ uxLength, unNetBufTotalSize h pxDu = .ok uxLength ∧ uxLength ≤ MTU
  flow : ∃ p f ha, d.prvShimFindFlowByPortId unPort = .ok (some p) ∧ d.flows p = some f ∧
    f.ePortIdState = .eALLOCATED ∧ f.pxDestHa = some (some ha)
  address : Granted h 0
  header : HandsOut pf (h.afterCalls 1) pool (some "xShimSDUWrite")
  netbuf : Granted h (1 + poolRequests pf pool)

variable {pf} {h h' : Heap} {d : ShimData} {env : Surroundings} {unPort : PortId} {pxDu : NbPtr}
  {l : List NbPtr} {pool : RsrcPool}

theorem xShimSDUWrite_eq (out : Heap → NbPtr → Exec (Bool × Heap)) :
    xShimSDUWrite pf h d unPort pxDu out =
      frameForSDU pf h d unPort pxDu >>= sendFrame pf out := by
  unfold xShimSDUWrite frameForSDU encapsulate
  simp only [bind_assoc]
  refine bind_congr fun uxLength => ?_
  split_ifs
  · rfl
  · simp only [bind_assoc]
    refine bind_congr fun found => ?_
    cases found with
    | none => rfl
    | some p =>
      simp only [bind_assoc]
      refine bind_congr fun pxFlow => ?_
      split_ifs
      · rfl
      · simp only [bind_assoc]
        refine bind_congr ?_
        rintro ⟨pxSrcHw, h₁⟩
        cases pxSrcHw with
        | none => rfl
        | some pxSrcHw =>
          simp only [bind_assoc]
          refine bind_congr fun pxDestHa => ?_
          cases pxDestHa with
          | none => rfl
          | some pxDestHa =>
            simp only [bind_assoc]
            refine bind_congr ?_
            rintro ⟨a, h₂⟩
            cases a with
            | none => rfl
            | some a =>
              simp only [bind_assoc]
              refine bind_congr ?_
              rintro ⟨pxNbFrame, h₃⟩
              cases pxNbFrame with
              | none => rfl
              | some pxNbFrame =>
                simp only [bind_assoc]
                rfl

/-! ### The header -/

theorem addResources_requests (pp : PoolPtr) (len n : ℕ) (pool : RsrcPool) :
    (addResources pp len n h pool).1.calls = h.calls ∧
      (addResources pp len n h pool).1.mallocOk = h.mallocOk ∧
      (n ≠ 0 ∨ pool.pxFreelist ≠ [] → (addResources pp len n h pool).2.pxFreelist ≠ []) := by
  induction n generalizing h pool with
  | zero => exact ⟨rfl, rfl, fun hn => hn.resolve_left fun hne => hne rfl⟩
  | succ n ih =>
    obtain ⟨h₁, hh₁⟩ : ∃ h₁, h₁ = ({ h.setBlock h.brk (some (h.stale h.brk len)) with
      brk := h.brk + 1 } : Heap) := ⟨_, rfl⟩
    obtain ⟨out, hout⟩ : ∃ out, out = prvvFreeResTail h₁ pp pool h.brk := ⟨_, rfl⟩
    have hrun : addResources pp len (n + 1) h pool = addResources pp len n out.1 out.2 := by
      rw [hout, hh₁]
      rfl
    have hfirst : out.1.calls = h.calls ∧ out.1.mallocOk = h.mallocOk ∧ out.2.pxFreelist ≠ [] := by
      rw [hout, hh₁]
      by_cases hz : pool.uxSizeEach = 0 <;>
        simp [prvvFreeResTail, hz, Heap.setRsrc, Heap.setBlock]
    obtain ⟨hcalls, hmalloc, hlist⟩ := ih (h := out.1) out.2
    rw [hrun]
    exact ⟨hcalls.trans hfirst.1, hmalloc.trans hfirst.2.1, fun _ => hlist (.inr hfirst.2.2)⟩

theorem takeResource_requests (pp : PoolPtr) (name : Option String) (n : ℕ)
    (hlist : pool.pxFreelist ≠ []) :
    ∃ a h', takeResource h pp pool name n = .ok (some a, h') ∧ h'.calls = h.calls ∧
      h'.mallocOk = h.mallocOk := by
  cases hl : pool.pxFreelist with
  | nil => exact absurd hl hlist
  | cons a rest =>
    rw [takeResource, hl]
    exact ⟨a, _, rfl, rfl, rfl⟩

variable (pf) in
/-- A pool hands out a resource exactly when it has one or can add some. -/
theorem pxRsrcAlloc_cases {pp : PoolPtr} (hp : h.pools pp = some pool) (name : Option String) :
    (HandsOut pf h pool name ∧ ∃ a h', pxRsrcAlloc pf h (some pp) name = .ok (some a, h') ∧
      h'.calls = h.calls + poolRequests pf pool ∧ h'.mallocOk = h.mallocOk) ∨
    (¬ HandsOut pf h pool name ∧ ∀ a h', pxRsrcAlloc pf h (some pp) name ≠ .ok (some a, h')) := by
  rw [pxRsrcAlloc, hp, inBounds_some, Exec.ok_bind, pxRsrcVarAlloc, HandsOut, poolRequests]
  by_cases hv : pf.valgrind = true
  · simp only [hv, if_true, true_or, pvRsMemAlloc]
    by_cases hg : h.mallocOk h.calls = true
    · rw [if_pos hg]
      exact .inl ⟨hg, _, _, rfl, rfl, rfl⟩
    · rw [if_neg hg]
      exact .inr ⟨hg, fun a h' hout => by cases hout⟩
  · simp only [hv, Bool.false_eq_true, if_false, false_or, hp, inBounds_some, Exec.ok_bind]
    by_cases hr : rsrcRefused pool name pool.uxSizeEach = true
    · rw [if_pos hr]
      exact .inr ⟨fun hout => by simp [hr] at hout, fun a h' hout => by cases hout⟩
    · rw [if_neg hr]
      have hr := eq_false_of_ne_true hr
      by_cases hl : pool.pxFreelist = []
      · rw [if_pos (List.isEmpty_iff.mpr hl), if_pos hl, prviRsrcAdd2Pool]
        by_cases hz : pool.uiIncrement = 0
        · rw [if_pos hz]
          exact .inr ⟨fun hout => hout.2.elim (absurd hl) fun hadd => hadd.1 hz,
            fun a h' hout => by cases hout⟩
        · rw [if_neg hz]
          by_cases hg : h.mallocOk h.calls = true
          · rw [if_pos hg]
            have hcount : pool.uiIncrement.toNat ≠ 0 := fun hzero =>
              hz (UInt16.toNat_inj.mp hzero)
            obtain ⟨low, hlow⟩ : ∃ low, low =
              (if pool.uiNumInUse.toNat + pool.uiNumFree.toNat = 0 then
                { pool with uiLowWater := pool.uiIncrement } else pool) := ⟨_, rfl⟩
            obtain ⟨hcalls, hmalloc, hadded⟩ := addResources_requests (h := h.called) pp
              pool.uxSizeEach pool.uiIncrement.toNat low
            obtain ⟨a, h', htake, hcalls', hmalloc'⟩ :=
              takeResource_requests pp name pool.uxSizeEach (hadded (.inl hcount))
            refine .inl ⟨⟨hr, .inr ⟨hz, hg⟩⟩, a, h', ?_, hcalls'.trans hcalls,
              hmalloc'.trans hmalloc⟩
            rw [← hlow]
            show (if pool.uiIncrement.toNat = 0 then _ else _) = _
            rw [if_neg hcount]
            exact htake
          · rw [if_neg hg]
            exact .inr ⟨fun hout => hout.2.elim (absurd hl) fun hadd => hg hadd.2,
              fun a h' hout => by cases hout⟩
      · rw [if_neg (mt List.isEmpty_iff.mp hl), if_neg hl]
        obtain ⟨a, h', htake, hcalls, hmalloc⟩ := 
          takeResource_requests (h := h) pp name pool.uxSizeEach hl
        exact .inl ⟨⟨hr, .inl hl⟩, a, h', htake, hcalls, hmalloc⟩

/-! ### The steps in front of the driver -/

theorem DuIn.mem (hd : DuIn pf h pxDu l) : pxDu ∈ l := by
  have hlinks := hd.chain.links
  cases l with
  | nil => cases hlinks
  | cons p ps =>
    obtain ⟨hstart, -⟩ := hlinks
    cases hstart
    exact List.mem_cons_self

theorem DuIn.block_lt (hd : DuIn pf h pxDu l) {b : Ptr} {m : Option FreeMethod}
    (hb : h.Holds l b m) : b.block < h.brk := by
  obtain ⟨bs, hbs⟩ := Option.isSome_iff_exists.mp (hd.chain.usable b m hb).allocated
  exact hd.chain.fresh.lt_of_block hbs

theorem DuIn.holds (hd : DuIn pf h pxDu l) : ∃ b m, h.Holds l b m := by
  obtain ⟨b, hb⟩ := hd.chain.sound.holds pxDu ⟨hd.mem, hd.live pxDu hd.mem⟩
  obtain ⟨hmem, nb, hnb, hstart⟩ := Heap.heldIn_eq_some.mp hb
  exact ⟨b, nb.freemethod, pxDu, hmem, nb, hnb, hstart, rfl⟩

/-- Whether the pool hands out a header or not, the blocks of the data unit stay as they are. -/
theorem DuIn.header (hd : DuIn pf h pxDu l) (hp : HeaderPool h d pool l) {k : ℕ} {o : Option ℕ}
    (hrun : pxRsrcAlloc pf (h.afterCalls k) (some d.pxEthPool) (some "xShimSDUWrite") =
      .ok (o, h')) {b : Ptr} {m : Option FreeMethod} (hb : h.Holds l b m) :
    Beside (h.afterCalls k) h' b.block ∧ ∀ a, o = some a → ∃ bs, Buffer pf h' b.block a bs := by
  have hpool : (h.afterCalls k).pools d.pxEthPool = some pool := hp.entry
  rw [pxRsrcAlloc, hpool, inBounds_some, Exec.ok_bind] at hrun
  exact varAlloc_frame (show (h.afterCalls k).Fresh from hd.chain.fresh) (hp.spare b m hb)
    (hd.block_lt hb) hrun

/-- The netbuf of the header in front of the data unit. -/
def headerNetbuf (d : ShimData) (pxNbFrame : NbPtr) (a : ℕ) : Netbuf where
  pxNext := none
  pxFirst := pxNbFrame
  eType := .NB_ETH_HDR
  unSz := sizeofEthernetHeader
  pxBuf := some ⟨a, 0⟩
  pxBufStart := some ⟨a, 0⟩
  xFreed := false
  freemethod := some .vNetBufFreePool
  xPool := some d.pxNbPool

theorem headerNetbuf_new (d : ShimData) (a : ℕ) :
    pxNetBufNew pf h (some d.pxNbPool) .NB_ETH_HDR (some ⟨a, 0⟩) sizeofEthernetHeader
        (some .vNetBufFreePool) =
      .ok (if h.mallocOk h.calls then (some h.brk, h.withNetbuf (headerNetbuf d h.brk a))
        else (none, h.called)) := by
  have hsize : (sizeofEthernetHeader != 0) = true := rfl
  rw [pxNetBufNew, hsize, Option.isSome_some, rsAssert_true, Exec.ok_bind, Exec.ok_bind,
    pvRsMemAllocNetbuf]
  rfl

/-- Without a header the data unit stays in memory. -/
theorem encapsulate_cases (hd : DuIn pf h pxDu l) (hp : HeaderPool h d pool l)
    {pxSrcHw pxDestHa : GHA} {o : Option NbPtr}
    (hf : encapsulate pf (h.afterCalls 1) d pxDu pxSrcHw pxDestHa = .ok (o, h')) :
    (o = none ∧ h'.netbufs = h.netbufs) ∨
      (HandsOut pf (h.afterCalls 1) pool (some "xShimSDUWrite") ∧
        Granted h (1 + poolRequests pf pool)) := by
  obtain ⟨⟨a, h₂⟩, halloc, hf⟩ := Exec.bind_eq_ok.mp hf
  obtain ⟨b, m, hb⟩ := hd.holds
  obtain ⟨hbeside, -⟩ := hd.header hp halloc hb
  cases a with
  | none =>
    cases hf
    exact .inl ⟨rfl, hbeside.netbufs⟩
  | some a =>
    rcases pxRsrcAlloc_cases pf (show (h.afterCalls 1).pools d.pxEthPool = some pool from hp.entry)
      (some "xShimSDUWrite") with ⟨hout, a', h₂', hrun, hcalls, hmalloc⟩ | ⟨-, hnone⟩
    · rw [halloc] at hrun
      cases hrun
      obtain ⟨⟨pxNbFrame, h₃⟩, hnew, hf⟩ := Exec.bind_eq_ok.mp hf
      rw [headerNetbuf_new] at hnew
      by_cases hg : h₂.mallocOk h₂.calls = true
      · refine .inr ⟨hout, ?_⟩
        rw [hmalloc, hcalls] at hg
        rw [Granted, ← Nat.add_assoc]
        exact hg
      · rw [if_neg hg] at hnew
        cases hnew
        cases hf
        exact .inl ⟨rfl, hbeside.netbufs⟩
    · exact absurd halloc (hnone a h₂)

/-- What comes back without a frame has left the data unit in memory, and with a frame it had
all that it needs. -/
theorem frameForSDU_cases (hd : DuIn pf h pxDu l) (hp : HeaderPool h d pool l)
    {o : Option NbPtr} (hf : frameForSDU pf h d unPort pxDu = .ok (o, h')) :
    (o = none ∧ h'.netbufs = h.netbufs) ∨ Sendable pf h d pool unPort pxDu := by
  rw [frameForSDU, Exec.bind_eq_ok] at hf
  obtain ⟨uxLength, hlength, hf⟩ := hf
  split_ifs at hf with hlong
  · cases hf
    exact .inl ⟨rfl, rfl⟩
  obtain ⟨found, hfind, hf⟩ := Exec.bind_eq_ok.mp hf
  cases found with
  | none =>
    cases hf
    exact .inl ⟨rfl, rfl⟩
  | some p =>
    obtain ⟨pxFlow, hflow, hf⟩ := Exec.bind_eq_ok.mp hf
    split_ifs at hf with hstate
    · cases hf
      exact .inl ⟨rfl, rfl⟩
    obtain ⟨⟨pxSrcHw, h₁⟩, hgha, hf⟩ := Exec.bind_eq_ok.mp hf
    rcases pxCreateGHA_cases h d.xPhyDev.ucBytes 0 with
      ⟨-, hrun⟩ | ⟨-, -, hrun⟩ | ⟨h0, -, m, -, hrun⟩
    · rw [hrun] at hgha
      cases hgha
      cases hf
      exact .inl ⟨rfl, rfl⟩
    · rw [hrun] at hgha
      cases hgha
    rw [hrun] at hgha
    cases hgha
    obtain ⟨pxDestHa, hdest, hf⟩ := Exec.bind_eq_ok.mp hf
    cases pxDestHa with
    | none =>
      cases hf
      exact .inl ⟨rfl, rfl⟩
    | some ha =>
      have hset : pxFlow.pxDestHa = some (some ha) := by
        cases hha : pxFlow.pxDestHa with
        | none =>
          rw [hha] at hdest
          cases hdest
        | some known =>
          rw [hha] at hdest
          cases hdest
          rfl
      rcases encapsulate_cases hd hp hf with hkept | ⟨hout, hnetbuf⟩
      · exact .inl hkept
      · exact .inr ⟨⟨uxLength, hlength, Nat.le_of_not_lt hlong⟩,
          ⟨p, pxFlow, ha, hfind, flow_eq_ok.mp hflow, not_not.mp hstate, hset⟩, h0, hout, hnetbuf⟩

/-! ### The frame -/

/-- The data unit behind its header, whose buffer is the block `a`. -/
structure Framed (pf : Platform) (h h' : Heap) (pxNbFrame a : ℕ) (l : List NbPtr) : Prop where
  chain : WholeChain pf h' pxNbFrame (pxNbFrame :: l)
  live : ∀ q ∈ pxNbFrame :: l, h'.InUse q
  readable : Readable h' (pxNbFrame :: l)
  ptr : pvNetBufPtr pf h' pxNbFrame = .ok (some ⟨a, 0⟩)
  block : ∃ b, h'.mem a = some b ∧ b.length = sizeofEthernetHeader
  new : h.brk ≤ pxNbFrame
  holds : ∀ b m, h.Holds l b m → h'.Holds (pxNbFrame :: l) b m
  other : ∀ q, q ∉ pxNbFrame :: l → h'.netbufs q = h.netbufs q

/-- The header is written in parts. -/
theorem Framed.write {h₁ : Heap} {pxNbFrame a : ℕ} (hf : Framed pf h h₁ pxNbFrame a l) (off : ℕ)
    (bs : Bytes) (hfit : off + bs.length ≤ sizeofEthernetHeader) :
    ∃ h₂, h₁.write (some ⟨a, 0⟩) off bs = .ok h₂ ∧ Framed pf h h₂ pxNbFrame a l := by
  obtain ⟨b, hb, hlen⟩ := hf.block
  obtain ⟨b', hlen', hcode⟩ := write_block hb off bs (hlen.symm ▸ hfit)
  exact ⟨_, hcode, wholeChain_setBlock hf.chain hb b', hf.live,
    readable_setBlock hf.readable hb hlen', hf.ptr,
    ⟨b', Heap.setBlock_self _ _ _, hlen'.trans hlen⟩, hf.new, hf.holds, hf.other⟩

/-- A netbuf with contents it had elsewhere. -/
theorem netbuf_of_content {q : NbPtr} {nb : Netbuf}
    (hsame : (h'.netbufs q).map Netbuf.content = (h.netbufs q).map Netbuf.content)
    (hnb : h.netbufs q = some nb) :
    ∃ nb', h'.netbufs q = some nb' ∧ nb'.xFreed = nb.xFreed ∧ nb'.pxBuf = nb.pxBuf ∧
      nb'.unSz = nb.unSz := by
  rw [hnb, Option.map_some, Option.map_eq_some_iff] at hsame
  obtain ⟨nb', hnb', heq⟩ := hsame
  refine ⟨nb', hnb', ?_, ?_, ?_⟩
  · exact congrArg (·.xFreed) heq
  · exact congrArg (·.pxBuf) heq
  · exact congrArg (·.unSz) heq

theorem readable_of_content (hr : Readable h l)
    (hsame : ∀ x, (h'.netbufs x).map Netbuf.content = (h.netbufs x).map Netbuf.content)
    (hmem : h'.mem = h.mem) : Readable h' l := by
  intro q hq nb hnb hlive
  obtain ⟨nb₀, hnb₀, hfreed, hbuf, hsize⟩ := netbuf_of_content (hsame q).symm hnb
  obtain ⟨p, bytes, hptr, hbytes, hfit⟩ := hr q hq nb₀ hnb₀ (hfreed.trans hlive)
  refine ⟨p, bytes, hbuf.symm.trans hptr, ?_, hsize ▸ hfit⟩
  rw [hmem]
  exact hbytes

/-- The netbuf of a header beside the data unit. -/
structure HeaderMade (pf : Platform) (h h' : Heap) (d : ShimData) (pxDu pxNbFrame a : ℕ)
    (l : List NbPtr) : Prop where
  new : h.brk ≤ pxNbFrame
  netbuf : h'.netbufs pxNbFrame = some (headerNetbuf d pxNbFrame a)
  old : ∀ x, x ≠ pxNbFrame → h'.netbufs x = h.netbufs x
  ne : ∀ x ∈ l, x ≠ pxNbFrame
  header : WholeChain pf h' pxNbFrame [pxNbFrame]
  du : WholeChain pf h' pxDu l
  apart : ∀ b m, h'.Holds l b m → a ≠ b.block
  readable : Readable h' (pxNbFrame :: l)
  block : ∃ b, h'.mem a = some b ∧ b.length = sizeofEthernetHeader

theorem DuIn.headerMade (hd : DuIn pf h pxDu l) (hp : HeaderPool h d pool l) {a : ℕ} {h₂ : Heap}
    (halloc : pxRsrcAlloc pf (h.afterCalls 1) (some d.pxEthPool) (some "xShimSDUWrite") =
      .ok (some a, h₂)) :
    HeaderMade pf h (h₂.withNetbuf (headerNetbuf d h₂.brk a)) d pxDu h₂.brk a l := by
  obtain ⟨b₀, m₀, hb₀⟩ := hd.holds
  obtain ⟨hbeside, -⟩ := hd.header hp halloc hb₀
  obtain ⟨husable, bs, hmem, hlen⟩ := pxRsrcAlloc_usable
    (show (h.afterCalls 1).pools d.pxEthPool = some pool from hp.entry) halloc
  have hbrk : h.brk ≤ h₂.brk := hbeside.brk
  obtain ⟨h₃, hh₃⟩ : ∃ h₃, h₃ = h₂.withNetbuf (headerNetbuf d h₂.brk a) := ⟨_, rfl⟩
  rw [← hh₃]
  have hself : h₃.netbufs h₂.brk = some (headerNetbuf d h₂.brk a) := by
    rw [hh₃, Heap.withNetbuf_self]
  have hold : ∀ x, x ≠ h₂.brk → h₃.netbufs x = h.netbufs x := fun x hx => by
    rw [hh₃, Heap.withNetbuf_of_ne h₂ _ hx]
    exact congrFun hbeside.netbufs x
  have hne : ∀ x ∈ l, x ≠ h₂.brk := fun x hx => by
    obtain ⟨nb, hnb⟩ := hd.chain.netbuf hx
    exact Nat.ne_of_lt (Nat.lt_of_lt_of_le (hd.chain.fresh.lt_of_netbuf hnb) hbrk)
  have hfresh : h₃.Fresh := hh₃ ▸ hbeside.fresh.withNetbuf _
  have hmem₃ : h₃.mem = h₂.mem := by
    rw [hh₃]
    rfl
  have hsame₃ : ∀ c, SameBlock h₂ h₃ c := fun c => by
    rw [hh₃]
    exact ⟨rfl, rfl, fun _ hp => hp⟩
  have hsize : bs.length = sizeofEthernetHeader := hlen.trans hp.size
  refine ⟨hbrk, hself, hold, hne, .single hfresh hself rfl rfl rfl (husable.congr (hsame₃ a)),
    hd.chain.congr hfresh (fun x hx => hold x (hne x hx)) fun b m hb => ?_, fun b m hb => ?_,
    fun q hq nb hnb hfreed => ?_, bs, hmem₃ ▸ hmem, hsize⟩
  · have hsame₂ := (hd.header hp halloc hb).1.same
    have hblock : SameBlock h h₂ b.block := ⟨hsame₂.mem, hsame₂.rsrcs, hsame₂.pools⟩
    exact hblock.trans (hsame₃ b.block)
  · have hheld := (Heap.holds_congr (fun x hx => hold x (hne x hx)) b m).mp hb
    obtain ⟨bs', hbuf⟩ := (hd.header hp halloc hheld).2 a rfl
    exact hbuf.apart
  · rcases List.mem_cons.mp hq with rfl | hql
    · rw [hself] at hnb
      cases hnb
      exact ⟨⟨a, 0⟩, bs, rfl, hmem₃ ▸ hmem, hsize ▸ Nat.le_of_eq (Nat.zero_add _)⟩
    · rw [hold q (hne q hql)] at hnb
      obtain ⟨p, bytes, hptr, hbytes, hfit⟩ := hd.readable q hql nb hnb hfreed
      obtain ⟨start, hstart, hblock⟩ := hd.inside q hql nb hnb p hptr
      have hkept := (hd.header hp halloc ⟨q, hql, nb, hnb, hstart, rfl⟩).1.bytes
      refine ⟨p, bytes, hptr, ?_, hfit⟩
      rw [hmem₃, ← hblock, hkept, hblock]
      exact hbytes

/-- The data unit is hung behind the header. -/
theorem HeaderMade.framed {h₃ : Heap} {pxNbFrame a : ℕ}
    (hm : HeaderMade pf h h₃ d pxDu pxNbFrame a l) (hd : DuIn pf h pxDu l) :
    ∃ h', vNetBufAppend pf h₃ pxNbFrame pxDu = .ok h' ∧ Framed pf h h' pxNbFrame a l := by
  have hlive : ∀ x ∈ l, h₃.InUse x := fun x hx => by
    rw [Heap.InUse, hm.old x (hm.ne x hx)]
    exact hd.live x hx
  have hapart : ∀ b m b' m', h₃.Holds [pxNbFrame] b m → h₃.Holds l b' m' →
      b.block ≠ b'.block := by
    intro b m b' m' hb hb'
    obtain ⟨hstart, -⟩ := (Heap.holds_singleton hm.netbuf).mp hb
    cases hstart
    exact hm.apart b' m' hb'
  obtain ⟨h', hcode, hj⟩ := hm.header.join hm.du List.mem_cons_self ⟨_, hm.netbuf, rfl⟩ hd.mem
    hlive (fun x hx hxf => hm.ne x hx (List.mem_singleton.mp hxf)) hapart
  have hmem' : h'.mem = h₃.mem := by rw [hj.rest]
  obtain ⟨nb', hnb', hfreed, hbuf, -⟩ := netbuf_of_content (hj.same pxNbFrame) hm.netbuf
  refine ⟨h', hcode, hj.chain, fun q hq => ?_, readable_of_content hm.readable hj.same hmem',
    ?_, hmem' ▸ hm.block, hm.new, fun b m hb => ?_, fun q hq => ?_⟩
  · rw [inUse_of_content hj.same]
    rcases List.mem_cons.mp hq with rfl | hql
    · exact ⟨_, hm.netbuf, rfl⟩
    · exact hlive q hql
  · rw [pvNetBufPtr, Heap.netbuf_of_some hnb', Exec.ok_bind, hfreed, hbuf]
    exact congrArg (· >>= _) (rsAssert_true pf)
  · rw [holds_of_content hj.same]
    have hheld := (Heap.holds_congr (fun x hx => hm.old x (hm.ne x hx)) b m).mpr hb
    obtain ⟨q, hq, hrest⟩ := hheld
    exact ⟨q, List.mem_cons_of_mem _ hq, hrest⟩
  · rw [hj.other q hq, hm.old q fun heq => hq (heq ▸ List.mem_cons_self)]

theorem encapsulate_granted (hd : DuIn pf h pxDu l) (hp : HeaderPool h d pool l)
    (hout : HandsOut pf (h.afterCalls 1) pool (some "xShimSDUWrite"))
    (hnetbuf : Granted h (1 + poolRequests pf pool)) (pxSrcHw pxDestHa : GHA) :
    ∃ pxNbFrame a h', encapsulate pf (h.afterCalls 1) d pxDu pxSrcHw pxDestHa =
      .ok (some pxNbFrame, h') ∧ Framed pf h h' pxNbFrame a l := by
  rcases pxRsrcAlloc_cases pf (show (h.afterCalls 1).pools d.pxEthPool = some pool from hp.entry)
    (some "xShimSDUWrite") with ⟨-, a, h₂, halloc, hcalls, hmalloc⟩ | ⟨hno, -⟩
  · have hg : h₂.mallocOk h₂.calls = true := by
      rw [Granted, ← Nat.add_assoc] at hnetbuf
      rw [hmalloc, hcalls]
      exact hnetbuf
    obtain ⟨h₃, happend, hheaded⟩ := (hd.headerMade hp halloc).framed hd
    obtain ⟨h₄, htype, hframed⟩ := hheaded.write 12 (leBytes 2 (RsHtoNS ETH_P_RINA).toNat)
      (by rw [leBytes_length]; decide)
    obtain ⟨h₅, hsrc, hframed⟩ := hframed.write 6 pxSrcHw.xAddress.ucBytes
      (by rw [MACAddress.ucBytes_length]; decide)
    obtain ⟨h₆, hdest, hframed⟩ := hframed.write 0 pxDestHa.xAddress.ucBytes
      (by rw [MACAddress.ucBytes_length]; decide)
    refine ⟨h₂.brk, a, h₆, ?_, hframed⟩
    rw [encapsulate, halloc, Exec.ok_bind]
    show (pxNetBufNew pf h₂ (some d.pxNbPool) .NB_ETH_HDR (some ⟨a, 0⟩) sizeofEthernetHeader
      (some .vNetBufFreePool) >>= _) = _
    rw [headerNetbuf_new, if_pos hg, Exec.ok_bind]
    show (vNetBufAppend pf (h₂.withNetbuf (headerNetbuf d h₂.brk a)) h₂.brk pxDu >>= _) = _
    rw [happend, Exec.ok_bind, hheaded.ptr, Exec.ok_bind, htype, Exec.ok_bind, hsrc, Exec.ok_bind,
      hdest, Exec.ok_bind]
    rfl
  · exact absurd hout hno

theorem frameForSDU_sendable (hd : DuIn pf h pxDu l) (hp : HeaderPool h d pool l)
    (hs : Sendable pf h d pool unPort pxDu) :
    ∃ pxNbFrame a h', frameForSDU pf h d unPort pxDu = .ok (some pxNbFrame, h') ∧
      Framed pf h h' pxNbFrame a l := by
  obtain ⟨uxLength, hlength, hfit⟩ := hs.size
  obtain ⟨p, pxFlow, ha, hfind, hflow, hstate, hdest⟩ := hs.flow
  rcases pxCreateGHA_cases h d.xPhyDev.ucBytes 0 with
    ⟨hno, -⟩ | ⟨-, hshort, -⟩ | ⟨-, -, m, -, hgha⟩
  · exact absurd hs.address hno
  · exact absurd (Nat.le_of_eq (d.xPhyDev.ucBytes_length).symm) hshort
  obtain ⟨pxNbFrame, a, h', hrun, hframed⟩ :=
    encapsulate_granted hd hp hs.header hs.netbuf ⟨.MAC_ADDR_802_3, m⟩ ha
  refine ⟨pxNbFrame, a, h', ?_, hframed⟩
  rw [frameForSDU, hlength, Exec.ok_bind, if_neg (Nat.not_lt.mpr hfit), hfind, Exec.ok_bind]
  show (d.flow p >>= _) = _
  rw [flow_eq_ok.mpr hflow, Exec.ok_bind, if_neg (not_not.mpr hstate), hgha, Exec.ok_bind]
  show (initialised pxFlow.pxDestHa >>= _) = _
  rw [hdest, initialised_some, Exec.ok_bind]
  exact hrun

/-- A data unit is taken over, whatever the driver does with its frame, exactly when it gets as
far as the driver. -/
theorem sdu_owned_iff (hd : DuIn pf h pxDu l) (hp : HeaderPool h d pool l)
    (henv : env.CopiesOut pf) :
    OwnsDu pf h d env unPort pxDu l ↔ Sendable pf h d pool unPort pxDu := by
  constructor
  · rintro ⟨xStatus, h', hrun, hreleased, -⟩
    rw [xShimSDUWrite_eq] at hrun
    obtain ⟨⟨o, h₁⟩, hframe, hsend⟩ := Exec.bind_eq_ok.mp hrun
    rcases frameForSDU_cases hd hp hframe with ⟨rfl, hkept⟩ | hs
    · cases hsend
      have hgone := hreleased.gone pxDu hd.mem
      obtain ⟨nb, hnb, -⟩ := hd.live pxDu hd.mem
      rw [hkept, hnb] at hgone
      cases hgone
    · exact hs
  · intro hs
    obtain ⟨pxNbFrame, a, h₁, hframe, hframed⟩ := frameForSDU_sendable hd hp hs
    obtain ⟨sent, h₂, hout, hfresh, hnb, hblocks⟩ := henv h₁ pxNbFrame (pxNbFrame :: l)
      hframed.chain (hframed.live pxNbFrame List.mem_cons_self) hframed.readable
    have hchain : WholeChain pf h₂ pxNbFrame (pxNbFrame :: l) :=
      hframed.chain.congr hfresh (fun x _ => congrFun hnb x) fun b m hb =>
        hblocks b.block (hframed.chain.usable b m hb).allocated
    obtain ⟨s, last, hlast⟩ : ∃ s last, pxNbFrame :: l = s ++ [last] :=
      ⟨_, _, (List.dropLast_append_getLast (List.cons_ne_nil pxNbFrame l)).symm⟩
    have hin : h₂.InUse last := by
      rw [Heap.InUse, hnb]
      exact hframed.live last (hlast ▸ List.mem_append_right s List.mem_cons_self)
    obtain ⟨h', hfree, hgone⟩ := vNetBufFreeAll_spec (hlast ▸ hchain) hin
      (hlast ▸ List.mem_cons_self : pxNbFrame ∈ s ++ [last])
    rw [← hlast] at hgone
    refine ⟨sent, h', ?_, ⟨fun q hq => hgone.gone q (List.mem_cons_of_mem _ hq), fun b m hb => ?_,
      fun q hq => ?_⟩, ?_⟩
    · rw [xShimSDUWrite_eq, hframe, Exec.ok_bind, sendFrame, hout, Exec.ok_bind]
      show (vNetBufFreeAll pf h₂ pxNbFrame >>= _) = _
      rw [hfree]
      rfl
    · refine hgone.released b m ?_
      rw [Heap.holds_congr fun x _ => congrFun hnb x]
      exact hframed.holds b m hb
    · by_cases hqf : q = pxNbFrame
      · subst hqf
        rw [hgone.gone q List.mem_cons_self, (hd.chain.fresh q hframed.new).1]
      · have hout' : q ∉ pxNbFrame :: l := fun hmem => (List.mem_cons.mp hmem).elim hqf hq
        rw [hgone.other q hout', hnb, hframed.other q hout']
    · constructor
      · rintro rfl
        exact ⟨pxNbFrame, h₁, h₂, hframe, hout⟩
      · rintro ⟨f', h₁', h₂', hframe', hout'⟩
        rw [hframe] at hframe'
        cases hframe'
        rw [hout] at hout'
        cases hout'
        rfl

def exampleDuNetbuf : Netbuf where
  pxNext := none
  pxFirst := 1
  eType := .NB_RINA_PCI
  unSz := 2
  pxBuf := some ⟨0, 0⟩
  pxBufStart := some ⟨0, 0⟩
  xFreed := false
  freemethod := some .vNetBufFreeNormal
  xPool := none

def exampleHeaderPool : RsrcPool := .new "Ethernet shim header pool" sizeofEthernetHeader 5 1 0

/-- A data unit of two bytes. -/
def exampleDuHeap : Heap where
  mem := fun a => if a = 0 then some [1, 2] else none
  netbufs := fun p => if p = 1 then some exampleDuNetbuf else none
  rsrcs := fun _ => none
  pools := fun p => if p = 1 then some exampleHeaderPool else none
  brk := 2
  calls := 0
  mallocOk := fun _ => true
  junk := fun _ _ => 0

theorem exampleDuHeap_netbuf {q : NbPtr} {nb : Netbuf} (hq : q ∈ [1])
    (hnb : exampleDuHeap.netbufs q = some nb) : nb = exampleDuNetbuf := by
  rw [List.mem_singleton.mp hq] at hnb
  exact (Option.some.inj hnb).symm

theorem exampleDuHeap_in : DuIn ⟨false, false⟩ exampleDuHeap 1 [1] where
  chain := by
    refine .single (fun a ha => ?_) rfl rfl rfl rfl ⟨rfl, fun _ => rfl, fun hm => by cases hm⟩
    have ha : 2 ≤ a := ha
    simp [exampleDuHeap, show a ≠ 0 by omega, show a ≠ 1 by omega]
  live q hq := by
    rw [List.mem_singleton.mp hq]
    exact ⟨_, rfl, rfl⟩
  readable q hq nb hnb _ := by
    rw [exampleDuHeap_netbuf hq hnb]
    exact ⟨_, _, rfl, rfl, Nat.le_refl 2⟩
  inside q hq nb hnb p hp := by
    rw [exampleDuHeap_netbuf hq hnb] at hp ⊢
    cases hp
    exact ⟨_, rfl, rfl⟩

/-- The shim of a node, with the port 2 allocated to a known neighbour if there is a flow. -/
def exampleSender (flow : Bool) : ShimData :=
  { pxShimWiFiCreate 0 1 with
    xFlows := (Vector.replicate 256 none).set 2 (if flow then some 0 else none)
    flows := fun p =>
      if p = 0 then some ⟨some (some (exampleGha 2)), none, 2, .eALLOCATED⟩ else none
    brk := 1 }

theorem exampleSender_pool (flow : Bool) :
    HeaderPool exampleDuHeap (exampleSender flow) exampleHeaderPool [1] where
  entry := rfl
  size := rfl
  spare b m _ pool hpool a ha := by
    have hpool : some exampleHeaderPool = some pool := hpool
    cases hpool
    cases ha

/-- A data unit for an allocated flow goes to the driver and is released. -/
theorem sdu_owned_sent :
    OwnsDu ⟨false, false⟩ exampleDuHeap (exampleSender true) exampleSurroundings 2 1 [1] :=
  (sdu_owned_iff exampleDuHeap_in (exampleSender_pool true)
    (exampleSurroundings_copiesOut _)).mpr
    ⟨⟨2, rfl, by decide⟩, ⟨0, _, _, rfl, rfl, rfl, rfl⟩, rfl,
      ⟨rfl, .inr ⟨by decide, rfl⟩⟩, rfl⟩

/-- A data unit for a port without a flow is refused, and stays in memory. -/
theorem sdu_kept : ¬ OwnsDu ⟨false, false⟩ exampleDuHeap (exampleSender false)
    exampleSurroundings 2 1 [1] := by
  rintro ⟨xStatus, h', hrun, hreleased, -⟩
  have hkept : xShimSDUWrite ⟨false, false⟩ exampleDuHeap (exampleSender false) 2 1
      exampleSurroundings.xNetworkInterfaceOutput = .ok (false, exampleDuHeap) := rfl
  rw [hkept] at hrun
  cases hrun
  have hgone := hreleased.gone 1 List.mem_cons_self
  cases hgone

end RinaSense.Shim.OnChain
