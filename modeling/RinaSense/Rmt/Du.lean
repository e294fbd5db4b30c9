import RinaSense.Common.Chain
import RinaSense.Rmt.Pci

/-!
# Data units

Taking the header off a received PDU and putting one in front of a PDU to be sent. A
received PDU is a live netbuf behind the freed headers of the layers below.
-/

namespace RinaSense.Rmt

open Common Library.Memory

variable (pf : Platform)

def xDuDecap (h : Heap) (unSz : ℕ) (pxDu : NbPtr) : Exec (Bool × Heap) := do
  let eType ← eNetBufType pf h pxDu
  rsAssert pf (eType == .NB_RINA_PCI)
  xNetBufSplit h pxDu .NB_RINA_DATA unSz

def xDuEncap (h : Heap) (pvPci : Option Ptr) (unSz : ℕ) (pxDu : NbPtr) :
    Exec (Option NbPtr × Heap) := do
  let eType ← eNetBufType pf h pxDu
  rsAssert pf (eType == .NB_RINA_DATA)
  let du ← h.netbuf pxDu
  match ← pxNetBufNew pf h du.xPool .NB_RINA_PCI pvPci unSz (some .vNetBufFreePool) with
  | (none, h) => return (none, h)
  | (some pxNb, h) =>
    let h ← vNetBufAppend pf h pxNb pxDu
    return (some pxNb, h)

/-- A leaked block does not touch the buffers in use. -/
theorem BytesAt.leak {h : Heap} {du : NbPtr} {m : Bytes} (hm : BytesAt h du m)
    (hf : h.Fresh) (n : ℕ) : BytesAt (pvRsMemAlloc h n).2 du m := by
  obtain ⟨nb, ptr, front, hdu, hlive, hbuf, hmem, hoff⟩ := hm
  refine ⟨nb, ptr, front, ?_, hlive, hbuf, ?_, hoff⟩
  · unfold pvRsMemAlloc
    split_ifs <;> exact hdu
  · have hne : ptr.block ≠ h.brk := Nat.ne_of_lt (hf.lt_of_block hmem)
    unfold pvRsMemAlloc
    split_ifs
    · simp [Heap.setBlock, Heap.called, hne, hmem]
    · exact hmem

/-- The PDU in the netbuf `du`: the bytes `bs`, which lie in a buffer of the heap behind
`front` and before `slack`, at the end of a chain whose other netbufs are freed. -/
structure ReceivedPdu (h : Heap) (du : NbPtr) (nb : Netbuf) (ptr : Ptr) (bs slack : Bytes) :
    Prop where
  netbuf : h.netbufs du = some nb
  live : nb.xFreed = false
  eType : nb.eType = .NB_RINA_PCI
  size : nb.unSz = bs.length
  last : nb.pxNext = none
  buf : nb.pxBuf = some ptr
  bytes : ∃ front, h.mem ptr.block = some (front ++ (bs ++ slack)) ∧ front.length = ptr.off
  chain : ∃ pre, FreedPath h (some nb.pxFirst) pre du ∧ pre.length < h.brk
  fresh : h.Fresh

/-- The header netbuf and the payload netbuf after the cut. -/
def headNetbuf (nb : Netbuf) (payload : NbPtr) : Netbuf :=
  { nb with unSz := sizeofPci, pxNext := some payload }

def payloadNetbuf (nb : Netbuf) (ptr : Ptr) : Netbuf :=
  { nb with
    eType := .NB_RINA_DATA
    pxBuf := some (ptr.add sizeofPci)
    unSz := nb.unSz - sizeofPci }

/-- The heap after a PDU longer than a header was cut behind the header. -/
def cutHeap (h : Heap) (du : NbPtr) (nb : Netbuf) (ptr : Ptr) : Heap :=
  { (h.called.setNetbuf h.brk (some (payloadNetbuf nb ptr))).setNetbuf du
      (some (headNetbuf nb h.brk)) with
    brk := h.brk + 1 }

/-- The heap once the header netbuf is freed as well. -/
def bareHeap (h : Heap) (du : NbPtr) (nb : Netbuf) (ptr : Ptr) : Heap :=
  (cutHeap h du nb ptr).setNetbuf du (some { headNetbuf nb h.brk with
    xFreed := true
    unSz := 0
    pxBuf := none
    pxBufStart := none })

variable {pf} {h : Heap} {du : NbPtr} {nb : Netbuf} {ptr : Ptr} {bs slack : Bytes}

theorem ReceivedPdu.du_ne_brk (r : ReceivedPdu h du nb ptr bs slack) : du ≠ h.brk :=
  Nat.ne_of_lt (r.fresh.lt_of_netbuf r.netbuf)

theorem ReceivedPdu.decap (r : ReceivedPdu h du nb ptr bs slack)
    (hm : h.mallocOk h.calls = true) (hlen : sizeofPci < bs.length) :
    xDuDecap pf h sizeofPci du = .ok (true, cutHeap h du nb ptr) := by
  obtain ⟨pre, hpath, hpre⟩ := r.chain
  obtain ⟨fuel, hfuel⟩ := Nat.exists_eq_add_of_lt hpre
  have hlt : ¬ bs.length < sizeofPci := by omega
  have hne : ¬ bs.length = sizeofPci := by omega
  have hloop : splitLoop .NB_RINA_DATA h h.brk (some nb.pxFirst) sizeofPci =
      .ok (true, cutHeap h du nb ptr) := by
    rw [hfuel, Nat.add_assoc, splitLoop_freedPath hpath]
    simp [splitLoop, r.netbuf, r.live, r.size, hlt, hne, pvRsMemAllocNetbuf, hm, r.buf, cutHeap,
      headNetbuf, payloadNetbuf, pure, Except.pure, Heap.setNetbuf, Heap.called]
  simp [xDuDecap, eNetBufType, xNetBufSplit, r.netbuf, r.live, r.eType, hloop, pure, Except.pure]

/-- A PDU which is only a header is left as it is. -/
theorem ReceivedPdu.decap_headerOnly (r : ReceivedPdu h du nb ptr bs slack)
    (hlen : bs.length = sizeofPci) : xDuDecap pf h sizeofPci du = .ok (true, h) := by
  obtain ⟨pre, hpath, hpre⟩ := r.chain
  obtain ⟨fuel, hfuel⟩ := Nat.exists_eq_add_of_lt hpre
  have hloop : splitLoop .NB_RINA_DATA h h.brk (some nb.pxFirst) sizeofPci = .ok (true, h) := by
    rw [hfuel, Nat.add_assoc, splitLoop_freedPath hpath]
    simp [splitLoop, r.netbuf, r.live, r.size, hlen, pure, Except.pure]
  simp [xDuDecap, eNetBufType, xNetBufSplit, r.netbuf, r.live, r.eType, hloop, pure, Except.pure]

theorem cutHeap_du (h : Heap) (du : NbPtr) (nb : Netbuf) (ptr : Ptr) :
    (cutHeap h du nb ptr).netbufs du = some (headNetbuf nb h.brk) := by
  simp [cutHeap, Heap.setNetbuf]

theorem ReceivedPdu.cutHeap_payload (r : ReceivedPdu h du nb ptr bs slack) :
    (cutHeap h du nb ptr).netbufs h.brk = some (payloadNetbuf nb ptr) := by
  simp [cutHeap, Heap.setNetbuf, r.du_ne_brk.symm]

theorem ReceivedPdu.bareHeap_payload (r : ReceivedPdu h du nb ptr bs slack) :
    (bareHeap h du nb ptr).netbufs h.brk = some (payloadNetbuf nb ptr) := by
  rw [bareHeap, Heap.setNetbuf_of_ne _ _ r.du_ne_brk.symm]
  exact r.cutHeap_payload

theorem bareHeap_mem (h : Heap) (du : NbPtr) (nb : Netbuf) (ptr : Ptr) :
    (bareHeap h du nb ptr).mem = h.mem := rfl

theorem ReceivedPdu.next (r : ReceivedPdu h du nb ptr bs slack) :
    pxNetBufNext pf (cutHeap h du nb ptr) du = .ok (some h.brk) := by
  have hlive : (payloadNetbuf nb ptr).xFreed = false := r.live
  have hfirst : firstLive (cutHeap h du nb ptr) (h.brk + 1) (some h.brk) = .ok (some h.brk) := by
    simp [firstLive, r.cutHeap_payload, hlive, pure, Except.pure]
  have hhead : (headNetbuf nb h.brk).xFreed = false := r.live
  simp only [pxNetBufNext, Heap.netbuf_of_some (cutHeap_du h du nb ptr), Exec.ok_bind, hhead,
    Bool.not_false, rsAssert_true]
  exact hfirst

/-! ### Freeing the header -/

/-- The header netbuf as `vNetBufFree` marks it, which still holds the buffer. -/
def markedNetbuf (nb : Netbuf) (payload : NbPtr) : Netbuf :=
  { headNetbuf nb payload with
    xFreed := true
    unSz := 0
    pxBuf := none }

def markedHeap (h : Heap) (du : NbPtr) (nb : Netbuf) (ptr : Ptr) : Heap :=
  (cutHeap h du nb ptr).setNetbuf du (some (markedNetbuf nb h.brk))

theorem markedHeap_du (h : Heap) (du : NbPtr) (nb : Netbuf) (ptr : Ptr) :
    (markedHeap h du nb ptr).netbufs du = some (markedNetbuf nb h.brk) :=
  Heap.setNetbuf_self _ _ _

theorem ReceivedPdu.markedHeap_payload (r : ReceivedPdu h du nb ptr bs slack) :
    (markedHeap h du nb ptr).netbufs h.brk = some (payloadNetbuf nb ptr) := by
  rw [markedHeap, Heap.setNetbuf_of_ne _ _ r.du_ne_brk.symm]
  exact r.cutHeap_payload

/-- The netbufs of the chain are the freed ones, the header and the payload. -/
theorem ReceivedPdu.markedHeap_chain (r : ReceivedPdu h du nb ptr bs slack) :
    ∃ pre, chainFrom (markedHeap h du nb ptr) (markedHeap h du nb ptr).brk
        (some (markedNetbuf nb h.brk).pxFirst) = .ok (pre ++ [du, h.brk]) ∧
      ∀ q ∈ pre ++ [du, h.brk], ∃ n, (markedHeap h du nb ptr).netbufs q = some n := by
  obtain ⟨pre, hpath, hpre⟩ := r.chain
  have hpremem : ∀ q ∈ pre, (markedHeap h du nb ptr).netbufs q = h.netbufs q := by
    intro q hq
    have hqdu : q ≠ du := fun hc => hpath.not_mem r.netbuf r.live (hc ▸ hq)
    obtain ⟨nbq, hnbq, -⟩ := hpath.freed q hq
    have hqbrk : q ≠ h.brk := Nat.ne_of_lt (r.fresh.lt_of_netbuf hnbq)
    simp [markedHeap, cutHeap, Heap.setNetbuf, hqdu, hqbrk, Heap.called]
  refine ⟨pre, ?_, ?_⟩
  · obtain ⟨fuel, hfuel⟩ := Nat.exists_eq_add_of_lt hpre
    have hbrk : (markedHeap h du nb ptr).brk = pre.length + (fuel + 2) := by
      change h.brk + 1 = _
      omega
    have hnext : (payloadNetbuf nb ptr).pxNext = none := r.last
    rw [hbrk]
    refine chainFrom_freedPath (hpath.congr hpremem) ?_
    simp [chainFrom, markedHeap_du, markedNetbuf, headNetbuf, r.markedHeap_payload, hnext, pure,
      Except.pure]
  · intro q hq
    simp only [List.mem_append, List.mem_cons, List.not_mem_nil, or_false] at hq
    rcases hq with hq | rfl | rfl
    · obtain ⟨n, hn, -⟩ := hpath.freed q hq
      exact ⟨n, (hpremem q hq).trans hn⟩
    · exact ⟨_, markedHeap_du h q nb ptr⟩
    · exact ⟨_, r.markedHeap_payload⟩

/-- Freeing the header leaves the payload netbuf, which shares its buffer, in use. -/
theorem ReceivedPdu.freeHeader (r : ReceivedPdu h du nb ptr bs slack) :
    vNetBufFree pf (cutHeap h du nb ptr) du = .ok (bareHeap h du nb ptr) := by
  obtain ⟨pre, hchain, hall⟩ := r.markedHeap_chain
  have hdu := markedHeap_du h du nb ptr
  have hpl := r.markedHeap_payload
  have hcount : ∃ n, 2 ≤ n ∧ countBuffer (markedHeap h du nb ptr)
      (markedNetbuf nb h.brk).pxBufStart (pre ++ [du, h.brk]) = .ok n := by
    refine ⟨_, ?_, countBuffer_eq hall⟩
    rw [List.countP_append]
    have hstart : (payloadNetbuf nb ptr).pxBufStart = (markedNetbuf nb h.brk).pxBufStart := rfl
    simp [hdu, hpl, hstart]
  have hfreed : allFreed (markedHeap h du nb ptr) (pre ++ [du, h.brk]) = .ok false := by
    rw [allFreed_eq hall]
    have hlive : (payloadNetbuf nb ptr).xFreed = false := r.live
    simp [hpl, hlive]
  obtain ⟨n, hn, hcount⟩ := hcount
  have hbare : (markedHeap h du nb ptr).setNetbuf du
      (some { markedNetbuf nb h.brk with pxBufStart := none }) = bareHeap h du nb ptr := by
    simp [markedHeap, markedNetbuf, bareHeap, Heap.setNetbuf]
  unfold vNetBufFree
  rw [Heap.netbuf_of_some (cutHeap_du h du nb ptr)]
  simp only [Exec.ok_bind]
  change (do
    let chain ← chainFrom (markedHeap h du nb ptr) (markedHeap h du nb ptr).brk
      (some (markedNetbuf nb h.brk).pxFirst)
    let unCnt ← countBuffer (markedHeap h du nb ptr) (markedNetbuf nb h.brk).pxBufStart chain
    let xFullyFreed ← allFreed (markedHeap h du nb ptr) chain
    let h ← if 2 ≤ unCnt then
        .ok ((markedHeap h du nb ptr).setNetbuf du
          (some { markedNetbuf nb h.brk with pxBufStart := none }))
      else if unCnt = 0 then
        callFreeMethod pf (markedHeap h du nb ptr) du (markedNetbuf nb h.brk)
      else .ok (markedHeap h du nb ptr)
    if xFullyFreed then freeChain pf h chain else return h) = _
  rw [hchain]
  simp only [Exec.ok_bind, hcount, hfreed, if_pos hn, hbare]
  rfl

end RinaSense.Rmt
