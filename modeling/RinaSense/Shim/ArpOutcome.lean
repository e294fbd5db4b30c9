import RinaSense.Common.Links
import RinaSense.Shim.ArpBounds
import RinaSense.Shim.ArpLatest

/-!
# Outcomes of received ARP packets

What the shim does with an ARP packet, for every answer of `malloc` and every cache which the
cache functions can leave. An answer which cannot be built is not dropped: the request itself
goes back to the network. A request for an address of zero bytes trips an assertion.
-/

namespace RinaSense.Shim

open Common Library.Memory Library.Filler

/-! ### The lookup -/

/-- The number of rows with an age up to the first one for the address. -/
def rowsRead (q : GPA) : List ARPCacheRow → ℕ
  | [] => 0
  | r :: rows =>
    if r.ucAge = 0 then rowsRead q rows
    else if r.pxPa.any (xGPACmp · q) then 1
    else rowsRead q rows + 1

/-- The requests to `malloc` of a lookup: a debug build copies the address of every row. -/
def lookupCalls (pf : Platform) (q : GPA) (rows : List ARPCacheRow) : ℕ :=
  if pf.ndebug then 0 else rowsRead q rows

/-- The copies of the lookup are granted. -/
def LookupGranted (pf : Platform) (h : Heap) (q : GPA) (rows : List ARPCacheRow) : Prop :=
  ∀ i < lookupCalls pf q rows, Granted h i

variable {pf : Platform} {h : Heap} {q : GPA} {rows : List ARPCacheRow}

theorem granted_afterCalls (k i : ℕ) : Granted (h.afterCalls k) i ↔ Granted h (k + i) := by
  unfold Granted
  rw [← Nat.add_assoc]
  exact Iff.rfl

section Rows

variable (pa : GPA) (ha : GHA)

theorem live_age : (ARPCacheRow.live pa ha).ucAge ≠ 0 := (by decide : (1 : UInt8) ≠ 0)

theorem lookupRows_live : lookupRows pf q h (.live pa ha :: rows) = (do
    let h ← lookupCheck pf h (.live pa ha)
    if xGPACmp pa q then return (.eARPCacheHit, some ha, h) else lookupRows pf q h rows) := by
  have hvalid : (ARPCacheRow.live pa ha).ucValid ≠ 0 := (by decide : (1 : UInt8) ≠ 0)
  rw [lookupRows, if_neg (live_age pa ha)]
  simp only [if_neg hvalid]
  rfl

theorem lookupResult_live : lookupResult q (.live pa ha :: rows) =
    if xGPACmp pa q then some ha else lookupResult q rows := by
  rw [lookupResult]
  simp [ARPCacheRow.live]

theorem rowsRead_live : rowsRead q (.live pa ha :: rows) =
    if xGPACmp pa q then 1 else rowsRead q rows + 1 := by
  rw [rowsRead, if_neg (live_age pa ha)]
  rfl

variable {pa}

/-- The copy of the address of a row in a debug build. -/
theorem lookupCheck_live (hd : pf.ndebug = false) (hpa : pa.pucAddress ≠ []) :
    lookupCheck pf h (.live pa ha) =
      if Granted h 0 then .ok (h.afterCalls 1) else .error .assertion := by
  have hok := (xIsGPAOK_iff pa).mpr hpa
  by_cases hg : Granted h 0
  · have hreq := hg.firstRequest
    simp [lookupCheck, hd, ARPCacheRow.live, xGPAAddressToString, hok, hreq, hg, pure,
      Except.pure]
  · have hreq := firstRequest_refused hg
    simp [lookupCheck, hd, ARPCacheRow.live, xGPAAddressToString, hok, hreq, hg, rsAssert]

end Rows

theorem lookupRows_release (hd : pf.ndebug = true) (hrows : ∀ r ∈ rows, r.Clean) :
    lookupRows pf q h rows = .ok (lookupOutcome (lookupResult q rows), lookupResult q rows, h) := by
  induction rows with
  | nil => rfl
  | cons r rows ih =>
    have hrest := ih fun r' hr' => hrows r' (List.mem_cons_of_mem r hr')
    rcases hrows r List.mem_cons_self with rfl | ⟨pa, ha, rfl, -⟩
    · exact hrest
    · have hcheck : lookupCheck pf h (.live pa ha) = .ok h := if_pos hd
      rw [lookupRows_live, hcheck, Exec.ok_bind, lookupResult_live]
      by_cases hcmp : xGPACmp pa q = true
      · rw [if_pos hcmp, if_pos hcmp]
        rfl
      · rw [if_neg hcmp, if_neg hcmp]
        exact hrest

theorem lookupRows_debug (hd : pf.ndebug = false) (hrows : ∀ r ∈ rows, r.Clean) :
    ((∀ i < rowsRead q rows, Granted h i) ∧ lookupRows pf q h rows =
      .ok (lookupOutcome (lookupResult q rows), lookupResult q rows,
        h.afterCalls (rowsRead q rows))) ∨
    ((∃ i < rowsRead q rows, ¬ Granted h i) ∧ lookupRows pf q h rows = .error .assertion) := by
  induction rows generalizing h with
  | nil => exact Or.inl ⟨by simp [rowsRead], rfl⟩
  | cons r rows ih =>
    have hrest := fun r' hr' => hrows r' (List.mem_cons_of_mem r hr')
    rcases hrows r List.mem_cons_self with rfl | ⟨pa, ha, rfl, hpa⟩
    · exact ih hrest
    · rw [lookupRows_live, lookupCheck_live ha hd hpa, lookupResult_live, rowsRead_live]
      by_cases hg : Granted h 0
      · rw [if_pos hg, Exec.ok_bind]
        by_cases hcmp : xGPACmp pa q = true
        · simp only [if_pos hcmp]
          refine Or.inl ⟨fun i hi => ?_, rfl⟩
          rw [Nat.lt_one_iff.mp hi]
          exact hg
        · simp only [if_neg hcmp]
          rcases ih hrest (h := h.afterCalls 1) with ⟨hall, hrun⟩ | ⟨⟨i, hi, hno⟩, hrun⟩
          · refine Or.inl ⟨fun i hi => ?_, ?_⟩
            · cases i with
              | zero => exact hg
              | succ i =>
                have hrow := (granted_afterCalls 1 i).mp (hall i (Nat.lt_of_succ_lt_succ hi))
                rwa [Nat.add_comm] at hrow
            · rw [hrun, Heap.afterCalls_afterCalls, Nat.add_comm]
          · refine Or.inr ⟨⟨i + 1, Nat.succ_lt_succ hi, fun hyes => hno ?_⟩, hrun⟩
            rw [granted_afterCalls, Nat.add_comm]
            exact hyes
      · rw [if_neg hg]
        refine Or.inr ⟨⟨0, ?_, hg⟩, rfl⟩
        split <;> omega

variable (pf) in
/-- A lookup fails by the assertion about one of its copies only. -/
theorem lookupRows_cases (hrows : ∀ r ∈ rows, r.Clean) :
    (LookupGranted pf h q rows ∧ lookupRows pf q h rows =
      .ok (lookupOutcome (lookupResult q rows), lookupResult q rows,
        h.afterCalls (lookupCalls pf q rows))) ∨
    (¬ LookupGranted pf h q rows ∧ lookupRows pf q h rows = .error .assertion) := by
  by_cases hd : pf.ndebug = true
  · have hzero : lookupCalls pf q rows = 0 := if_pos hd
    refine Or.inl ⟨fun i hi => absurd (hzero ▸ hi) (Nat.not_lt_zero i), ?_⟩
    rw [hzero]
    exact lookupRows_release hd hrows
  · have hcalls : lookupCalls pf q rows = rowsRead q rows := if_neg hd
    rw [LookupGranted, hcalls]
    rcases lookupRows_debug (eq_false_of_ne_true hd) hrows with hyes | ⟨⟨i, hi, hno⟩, hrun⟩
    · exact Or.inl hyes
    · exact Or.inr ⟨fun hall => hno (hall i hi), hrun⟩

/-! ### The response -/

/-- The pool of ARP packets turns the buffer down. -/
def BufferRefused (pf : Platform) (h : Heap) (pp : PoolPtr) (n : ℕ) : Prop :=
  if pf.valgrind then ¬ Granted h 0
  else ∃ pool, h.pools pp = some pool ∧ (rsrcRefused pool (some "ARP packet") n = true ∨
    pool.pxFreelist = [] ∧ pool.uiIncrement = 0)

/-- The pool of ARP packets hands out the buffer after `k` requests to `malloc`. -/
def BufferGranted (pf : Platform) (h : Heap) (pp : PoolPtr) (n k : ℕ) : Prop :=
  if pf.valgrind then Granted h 0 ∧ k = 1
  else ∃ pool, h.pools pp = some pool ∧ rsrcRefused pool (some "ARP packet") n = false ∧
    (pool.pxFreelist ≠ [] ∧ k = 0 ∨
      pool.pxFreelist = [] ∧ pool.uiIncrement ≠ 0 ∧ Granted h 0 ∧ k = 1)

/-- The length of a response to a request with addresses of `n` bytes. -/
def responseLength (n : ℕ) : ℕ := sizeofARPStaticHeader + (n + macLength) * 2

/-- The response cannot be built: its buffer is turned down or its netbuf. -/
def ResponseRefused (pf : Platform) (h : Heap) (pp : PoolPtr) (n : ℕ) : Prop :=
  BufferRefused pf h pp (responseLength n) ∨
    ∃ k, BufferGranted pf h pp (responseLength n) k ∧ ¬ Granted h k

def ResponseGranted (pf : Platform) (h : Heap) (pp : PoolPtr) (n : ℕ) : Prop :=
  ∃ k, BufferGranted pf h pp (responseLength n) k ∧ Granted h k

section Buffers

variable {pxArp : ARP} {n k : ℕ}

theorem arpBuffer_refused (hr : BufferRefused pf h pxArp.xArpPool n) :
    ∃ h', arpBuffer pf h pxArp n = .ok (none, h') := by
  rw [arpBuffer, pxRsrcVarAlloc]
  by_cases hv : pf.valgrind = true
  · rw [BufferRefused, if_pos hv] at hr
    have hno : ¬ h.mallocOk h.calls = true := hr
    rw [if_pos hv, pvRsMemAlloc, if_neg hno]
    exact ⟨_, rfl⟩
  · rw [BufferRefused, if_neg hv] at hr
    obtain ⟨pool, hpool, hr⟩ := hr
    rw [if_neg hv]
    simp only [hpool, inBounds_some, Exec.ok_bind]
    by_cases hcheck : rsrcRefused pool (some "ARP packet") n = true
    · rw [if_pos hcheck]
      exact ⟨h, rfl⟩
    · obtain ⟨hfree, hinc⟩ := hr.resolve_left hcheck
      rw [if_neg hcheck, hfree, hinc]
      exact ⟨h, rfl⟩

/-- A block which a pool has just handed out is taken back. -/
theorem vRsrcFree_taken {pp : PoolPtr} {pool : RsrcPool} {a : ℕ} {name : Option String}
    (hv : ¬ pf.valgrind = true) (hrsrc : h.rsrcs a = some ⟨pp, name, false⟩)
    (hpool : h.pools pp = some pool) : ∃ h', vRsrcFree pf h (some ⟨a, 0⟩) = .ok h' := by
  simp only [vRsrcFree, if_neg hv, if_true, hrsrc, hpool, inBounds_some, Exec.ok_bind,
    Bool.false_eq_true, if_false]
  split <;> exact ⟨_, rfl⟩

theorem takeResource_cons (pp : PoolPtr) {pool : RsrcPool} {a : ℕ} {rest : List ℕ}
    (hv : ¬ pf.valgrind = true) (hfree : pool.pxFreelist = a :: rest) (name : Option String) :
    ∃ h', takeResource h pp pool name n = .ok (some a, h') ∧
      h'.mem a = some (List.replicate n 0) ∧ h'.calls = h.calls ∧ h'.mallocOk = h.mallocOk ∧
      ∃ h'', vRsrcFree pf h'.called (some ⟨a, 0⟩) = .ok h'' := by
  simp only [takeResource, hfree]
  refine ⟨_, rfl, Heap.setBlock_self _ _ _, rfl, rfl, ?_⟩
  exact vRsrcFree_taken hv (Function.update_self _ _ _) (Function.update_self _ _ _)

theorem addResources_calls (pp : PoolPtr) (len m : ℕ) (h : Heap) (pool : RsrcPool) :
    (addResources pp len m h pool).1.calls = h.calls := by
  induction m generalizing h pool with
  | zero => rfl
  | succ m ih =>
    rw [addResources, ih]
    by_cases hz : pool.uxSizeEach = 0 <;> simp [prvvFreeResTail, hz, Heap.setRsrc, Heap.setBlock]

/-- A pool which grows has resources afterwards, and one request has been made. -/
theorem prviRsrcAdd2Pool_granted (pp : PoolPtr) (pool : RsrcPool) {uiCount : UInt16}
    (hz : uiCount ≠ 0) (hg : Granted h 0) (len : ℕ) :
    ∃ h' pool', prviRsrcAdd2Pool h pp pool uiCount len = .ok (uiCount.toNat, h', pool') ∧
      h'.calls = h.calls + 1 ∧ h'.mallocOk = h.mallocOk ∧ pool'.pxFreelist ≠ [] := by
  have hcount : uiCount.toNat ≠ 0 := fun h0 => hz (UInt16.toNat_inj.mp h0)
  have hcall : h.mallocOk h.calls = true := hg
  simp only [prviRsrcAdd2Pool, hz, if_false, hcall, if_true]
  generalize (if pool.uiNumInUse.toNat + pool.uiNumFree.toNat = 0 then
    { pool with uiLowWater := uiCount } else pool) = low
  obtain ⟨hmalloc, -, -, hlen⟩ := addResources_spec pp len uiCount.toNat h.called low
  refine ⟨_, _, rfl, addResources_calls pp len _ h.called low, hmalloc, fun hnil => ?_⟩
  rw [hnil, List.length_nil] at hlen
  omega

theorem granted_of_calls {h' : Heap} (hcalls : h'.calls = h.calls + k)
    (hmalloc : h'.mallocOk = h.mallocOk) (i : ℕ) : Granted h' i ↔ Granted h (k + i) := by
  unfold Granted
  rw [hcalls, hmalloc, Nat.add_assoc]

theorem arpBuffer_granted (hb : BufferGranted pf h pxArp.xArpPool n k) :
    ∃ a b h', arpBuffer pf h pxArp n = .ok (some (a, b), h') ∧ b.length = n ∧
      (∀ i, Granted h' i ↔ Granted h (k + i)) ∧
      ∃ h'', vRsrcFree pf h'.called (some ⟨a, 0⟩) = .ok h'' := by
  rw [arpBuffer, pxRsrcVarAlloc]
  by_cases hv : pf.valgrind = true
  · rw [BufferGranted, if_pos hv] at hb
    obtain ⟨hg, rfl⟩ := hb
    have hyes : h.mallocOk h.calls = true := hg
    rw [if_pos hv, pvRsMemAlloc, if_pos hyes]
    simp only [Exec.ok_bind, Heap.setBlock_self, inBounds_some]
    refine ⟨_, _, _, rfl, Heap.stale_length h _ n, granted_of_calls rfl rfl, ?_⟩
    have hthere : ((h.called.setBlock h.brk (some (h.stale h.brk n))).mem h.brk).isSome :=
      Option.isSome_of_eq_some (Heap.setBlock_self _ _ _)
    rw [vRsrcFree, if_pos hv]
    exact ⟨_, if_pos ⟨rfl, hthere⟩⟩
  · rw [BufferGranted, if_neg hv] at hb
    obtain ⟨pool, hpool, hcheck, hb⟩ := hb
    rw [if_neg hv]
    simp only [hpool, inBounds_some, Exec.ok_bind, hcheck, Bool.false_eq_true, if_false]
    rcases hb with ⟨hfree, rfl⟩ | ⟨hfree, hinc, hg, rfl⟩
    · obtain ⟨a, rest, hcons⟩ := List.exists_cons_of_ne_nil hfree
      obtain ⟨h', htake, hmem, hcalls, hmalloc, hrel⟩ :=
        takeResource_cons (n := n) (h := h) pxArp.xArpPool hv hcons (some "ARP packet")
      have hempty : pool.pxFreelist.isEmpty = false := by rw [hcons]; rfl
      simp only [hempty, Bool.false_eq_true, if_false, htake, hmem, Exec.ok_bind, inBounds_some]
      exact ⟨a, _, h', rfl, List.length_replicate, granted_of_calls hcalls hmalloc, hrel⟩
    · obtain ⟨h₁, pool₁, hadd, hcalls₁, hmalloc₁, hne⟩ :=
        prviRsrcAdd2Pool_granted pxArp.xArpPool pool hinc hg n
      obtain ⟨a, rest, hcons⟩ := List.exists_cons_of_ne_nil hne
      obtain ⟨h', htake, hmem, hcalls, hmalloc, hrel⟩ :=
        takeResource_cons (n := n) (h := h₁) pxArp.xArpPool hv hcons (some "ARP packet")
      have hempty : pool.pxFreelist.isEmpty = true := by rw [hfree]; rfl
      have hcount : pool.uiIncrement.toNat ≠ 0 := fun h0 => hinc (UInt16.toNat_inj.mp h0)
      simp only [hempty, hadd, if_true, if_neg hcount, htake, hmem, Exec.ok_bind, inBounds_some]
      exact ⟨a, _, h', rfl, List.length_replicate,
        granted_of_calls (hcalls.trans hcalls₁) (hmalloc.trans hmalloc₁), hrel⟩

/-- Otherwise there is no pool, or it cannot grow and there is no handler for that. -/
theorem arpBuffer_traps (hr : ¬ BufferRefused pf h pxArp.xArpPool n)
    (hb : ∀ k, ¬ BufferGranted pf h pxArp.xArpPool n k) :
    ∃ t, arpBuffer pf h pxArp n = .error t ∧ t ≠ .assertion := by
  rw [arpBuffer, pxRsrcVarAlloc]
  by_cases hv : pf.valgrind = true
  · rw [BufferRefused, if_pos hv, not_not] at hr
    exact absurd (by rw [BufferGranted, if_pos hv]; exact ⟨hr, rfl⟩) (hb 1)
  · simp only [BufferRefused, BufferGranted, if_neg hv] at hr hb
    rw [if_neg hv]
    cases hpool : h.pools pxArp.xArpPool with
    | none => exact ⟨.outOfBounds, rfl, by decide⟩
    | some pool =>
      rw [hpool] at hr hb
      have hcheck : rsrcRefused pool (some "ARP packet") n = false :=
        eq_false_of_ne_true fun hyes => hr ⟨pool, rfl, Or.inl hyes⟩
      have hfree : pool.pxFreelist = [] := by
        by_contra hne
        exact hb 0 ⟨pool, rfl, hcheck, Or.inl ⟨hne, rfl⟩⟩
      have hinc : pool.uiIncrement ≠ 0 := fun hz => hr ⟨pool, rfl, Or.inr ⟨hfree, hz⟩⟩
      have hg : ¬ h.mallocOk h.calls = true := fun hyes =>
        hb 1 ⟨pool, rfl, hcheck, Or.inr ⟨hfree, hinc, hyes, rfl⟩⟩
      refine ⟨.abort, ?_, by decide⟩
      simp only [inBounds_some, Exec.ok_bind, hcheck, Bool.false_eq_true, if_false, hfree,
        List.isEmpty_nil, if_true, prviRsrcAdd2Pool, hinc, hg]
      rfl

end Buffers

section Response

variable {pxArp : ARP} {d : ARPPacketData} {n : ℕ} (eth : EthernetHeader) (xPool : PoolPtr)
  (m : GHA)

variable (pf) in
theorem pxNetBufNew_cases (hn : n ≠ 0) (ty : NetBufType) (buf : Option Ptr)
    (free : Option FreeMethod) :
    (Granted h 0 ∧ pxNetBufNew pf h (some xPool) ty buf n free = .ok (some h.brk,
      h.withNetbuf ⟨none, h.brk, ty, n, buf, buf, false, free, some xPool⟩)) ∨
    (¬ Granted h 0 ∧ pxNetBufNew pf h (some xPool) ty buf n free = .ok (none, h.called)) := by
  simp only [pxNetBufNew, Option.isSome_some, rsAssert_true, Exec.ok_bind, bne_iff_ne.mpr hn,
    pvRsMemAllocNetbuf]
  by_cases hg : Granted h 0
  · have hyes : h.mallocOk h.calls = true := hg
    rw [if_pos hyes]
    exact Or.inl ⟨hg, rfl⟩
  · have hno : ¬ h.mallocOk h.calls = true := hg
    rw [if_neg hno]
    exact Or.inr ⟨hg, rfl⟩

theorem responseLength_ne_zero (n : ℕ) : responseLength n ≠ 0 := by
  rw [responseLength, sizeofARPStaticHeader]
  omega

theorem prvARPGetResponse_refused (hn : d.pxARPHdr.ucPALength.toNat = n)
    (hr : ResponseRefused pf h pxArp.xArpPool n) :
    ∃ h', prvARPGetResponse pf h pxArp xPool eth d m = .ok (none, h') := by
  rw [prvARPGetResponse_eq, hn, ← responseLength]
  rcases hr with hbuf | ⟨k, hbuf, hno⟩
  · obtain ⟨h', hrun⟩ := arpBuffer_refused hbuf
    simp only [hrun]
    exact ⟨h', rfl⟩
  · obtain ⟨a, b, h₁, hrun, -, hcalls, h₂, hfree⟩ := arpBuffer_granted hbuf
    rcases pxNetBufNew_cases pf (h := h₁) xPool (responseLength_ne_zero n) .NB_RINA_ARP
      (some ⟨a, 0⟩) (some .vNetBufFreePool) with ⟨hg, -⟩ | ⟨-, hnb⟩
    · exact absurd ((hcalls 0).mp hg) hno
    · refine ⟨h₂, ?_⟩
      simp only [hrun, hnb, hfree, Exec.ok_bind]
      rfl

theorem prvARPGetResponse_granted (hn : d.pxARPHdr.ucPALength.toNat = n)
    (hha : d.pxARPHdr.ucHALength.toNat = macLength) (htpa : d.pxTpa.uxLength ≤ n)
    (hspa : d.pxSpa.uxLength ≤ n) (hg : ResponseGranted pf h pxArp.xArpPool n) :
    ∃ h', prvARPGetResponse pf h pxArp xPool eth d m =
      .ok (some (responseBytes d m.xAddress eth.xSourceAddress), h') := by
  obtain ⟨k, hbuf, hyes⟩ := hg
  obtain ⟨a, b, h₁, hrun, hlen, hcalls, -⟩ := arpBuffer_granted hbuf
  have hfill := fillResponse_eq hn.symm hlen hha htpa hspa m.xAddress eth.xSourceAddress
  rw [prvARPGetResponse_eq, hn, ← responseLength]
  rcases pxNetBufNew_cases pf (h := h₁) xPool (responseLength_ne_zero n) .NB_RINA_ARP
    (some ⟨a, 0⟩) (some .vNetBufFreePool) with ⟨-, hnb⟩ | ⟨hno, -⟩
  · simp only [hrun, hnb, hfill, Exec.ok_bind]
    exact ⟨_, rfl⟩
  · exact absurd ((hcalls 0).mpr hyes) hno

theorem prvARPGetResponse_traps (hn : d.pxARPHdr.ucPALength.toNat = n)
    (hr : ¬ ResponseRefused pf h pxArp.xArpPool n)
    (hg : ¬ ResponseGranted pf h pxArp.xArpPool n) :
    ∃ t, prvARPGetResponse pf h pxArp xPool eth d m = .error t ∧ t ≠ .assertion := by
  have hno : ∀ k, ¬ BufferGranted pf h pxArp.xArpPool (responseLength n) k := by
    intro k hk
    by_cases hyes : Granted h k
    · exact hg ⟨k, hk, hyes⟩
    · exact hr (Or.inr ⟨k, hk, hyes⟩)
  obtain ⟨t, hrun, ht⟩ := arpBuffer_traps (fun hbuf => hr (Or.inl hbuf)) hno
  refine ⟨t, ?_, ht⟩
  rw [prvARPGetResponse_eq, hn, ← responseLength]
  simp only [hrun]
  rfl

end Response

/-! ### The packet -/

variable {pxARP : ARP} {xPool : PoolPtr} {frame : ArpFrame} {hdr : ARPStaticHeader}
  {d : ARPPacketData}

/-- The protocol address which the packet asks for. -/
def target (pkt : Bytes) (hdr : ARPStaticHeader) : GPA :=
  ⟨cut 0 (tpaBytes pkt hdr.ucPALength.toNat)⟩

variable (pf) in
/-- What becomes of a packet whose addresses have been extracted. -/
def handleExtracted (h : Heap) (pxARP : ARP) (xPool : PoolPtr) (frame : ArpFrame)
    (hdr : ARPStaticHeader) (d : ARPPacketData) : Exec (Option ArpFrame × ARP × Heap) :=
  if hdr.usOperation = ARP_REQUEST then do
    match ← eARPCacheLookupGPA pf h pxARP.pxCache d.pxTpa with
    | (.eARPCacheMiss, _, h) =>
      if pf.ndebug then return (none, pxARP, h)
      else do
        let (copied, h) := xGPAAddressToString h d.pxTpa
        rsAssert pf copied
        return (none, pxARP, h)
    | (_, pxLookupResult, h) => do
      let pxLookupResult ← initialised pxLookupResult
      match ← prvARPGetResponse pf h pxARP xPool frame.eth d pxLookupResult with
      | (none, h) => return (some (prvReturnEthernetFrame frame), pxARP, h)
      | (some pxNbArpRes, h) =>
        return (some (prvReturnEthernetFrame { frame with arp := pxNbArpRes }), pxARP, h)
  else do
    let (_, pxCache, h) ← xARPCacheAdd pf h pxARP.pxCache d.pxTpa d.pxTha
    return (none, { pxARP with pxCache := pxCache }, h)

theorem handleEthernetArp_dropped (hno : ∀ hdr, ¬ PassesChecks frame.arp hdr) :
    handleEthernetArp pf h pxARP xPool frame = .ok (none, pxARP, h) := by
  rw [handleEthernetArp, prvShimHandleARPFrame_dropped hno]
  rfl

theorem handleEthernetArp_eq (hp : PassesChecks frame.arp hdr) :
    handleEthernetArp pf h pxARP xPool frame = (do
      match ← prvARPExtractRequestData pf h frame.arp with
      | (none, h) => return (none, pxARP, h)
      | (some d, h) => handleExtracted pf h pxARP xPool frame hdr d) := by
  have hop : ¬ (hdr.usOperation ≠ ARP_REPLY ∧ hdr.usOperation ≠ ARP_REQUEST) := by
    rw [← not_or, not_not]
    exact hp.operation
  rw [handleEthernetArp, prvShimHandleARPFrame, if_pos hp.long, eARPProcessPacket, hp.header,
    Exec.ok_bind, if_neg (not_not_intro hp.hardware), if_neg (not_not_intro hp.hardwareLength),
    if_neg hop]
  rcases prvARPExtractRequestData pf h frame.arp with t | ⟨_ | d, h₁⟩
  · rfl
  · rfl
  · simp only [Exec.ok_bind, handleExtracted]
    by_cases hreq : hdr.usOperation = ARP_REQUEST
    · simp only [if_pos hreq]
      rcases eARPCacheLookupGPA pf h₁ pxARP.pxCache d.pxTpa with t | ⟨_ | _ | _, m, h₂⟩
      · rfl
      · by_cases hd : pf.ndebug = true
        · simp only [Exec.ok_bind, if_pos hd]
          rfl
        · simp only [Exec.ok_bind, if_neg hd]
          rcases rsAssert pf (xGPAAddressToString h₂ d.pxTpa).1 with t | u <;> rfl
      all_goals
        rcases m with _ | m
        · rfl
        · simp only [Exec.ok_bind, initialised_some]
          rcases prvARPGetResponse pf h₂ pxARP xPool frame.eth d m with t | ⟨_ | b, h₃⟩ <;> rfl
    · simp only [if_neg hreq]
      rcases xARPCacheAdd pf h₁ pxARP.pxCache d.pxTpa d.pxTha with t | out <;> rfl

section Extracted

variable (xPool frame)

/-- A lookup which is not granted its copies trips the assertion about them. -/
theorem handleExtracted_asserts (hrows : pxARP.pxCache.Inv) (hreq : hdr.usOperation = ARP_REQUEST)
    (hno : ¬ LookupGranted pf h d.pxTpa pxARP.pxCache.pxRows) :
    handleExtracted pf h pxARP xPool frame hdr d = .error .assertion := by
  rcases lookupRows_cases pf (h := h) (q := d.pxTpa) hrows with ⟨hyes, -⟩ | ⟨-, hrun⟩
  · exact absurd hyes hno
  · rw [handleExtracted, if_pos hreq, eARPCacheLookupGPA, hrun]
    rfl

/-- The rest of a request whose target is not in the cache. -/
theorem handleExtracted_miss (hrows : pxARP.pxCache.Inv) (hreq : hdr.usOperation = ARP_REQUEST)
    (hyes : LookupGranted pf h d.pxTpa pxARP.pxCache.pxRows)
    (hmiss : lookupResult d.pxTpa pxARP.pxCache.pxRows = none) :
    ((pf.ndebug = true ∨ d.pxTpa.pucAddress ≠ [] ∧
        Granted (h.afterCalls (lookupCalls pf d.pxTpa pxARP.pxCache.pxRows)) 0) ∧
      ∃ h', handleExtracted pf h pxARP xPool frame hdr d = .ok (none, pxARP, h')) ∨
    (¬ (pf.ndebug = true ∨ d.pxTpa.pucAddress ≠ [] ∧
        Granted (h.afterCalls (lookupCalls pf d.pxTpa pxARP.pxCache.pxRows)) 0) ∧
      handleExtracted pf h pxARP xPool frame hdr d = .error .assertion) := by
  rcases lookupRows_cases pf (h := h) (q := d.pxTpa) hrows with ⟨-, hrun⟩ | ⟨hno, -⟩
  · rw [hmiss] at hrun
    rw [handleExtracted, if_pos hreq, eARPCacheLookupGPA, hrun]
    generalize h.afterCalls (lookupCalls pf d.pxTpa pxARP.pxCache.pxRows) = h₁
    simp only [Exec.ok_bind, lookupOutcome]
    by_cases hd : pf.ndebug = true
    · rw [if_pos hd]
      exact Or.inl ⟨Or.inl hd, h₁, rfl⟩
    · rw [if_neg hd, xGPAAddressToString]
      by_cases hok : xIsGPAOK d.pxTpa = true
      · have hne := (xIsGPAOK_iff _).mp hok
        rw [hok]
        by_cases hg : Granted h₁ 0
        · have hcopy := hg.firstRequest
          refine Or.inl ⟨Or.inr ⟨hne, hg⟩, h₁.afterCalls 1, ?_⟩
          simp [hcopy, pure, Except.pure]
        · have hcopy := firstRequest_refused hg
          refine Or.inr ⟨by rintro (hd' | ⟨-, hg'⟩) <;> contradiction, ?_⟩
          simp [hcopy, rsAssert, hd]
      · have hnil : ¬ d.pxTpa.pucAddress ≠ [] := fun hne => hok ((xIsGPAOK_iff _).mpr hne)
        refine Or.inr ⟨by rintro (hd' | ⟨hne, -⟩) <;> contradiction, ?_⟩
        simp [hok, rsAssert, hd]
  · exact absurd hyes hno

/-- The rest of a request whose target is in the cache. -/
theorem handleExtracted_hit (hrows : pxARP.pxCache.Inv) (hreq : hdr.usOperation = ARP_REQUEST)
    (hyes : LookupGranted pf h d.pxTpa pxARP.pxCache.pxRows) {m : GHA}
    (hhit : lookupResult d.pxTpa pxARP.pxCache.pxRows = some m) :
    handleExtracted pf h pxARP xPool frame hdr d = (do
      match ← prvARPGetResponse pf
        (h.afterCalls (lookupCalls pf d.pxTpa pxARP.pxCache.pxRows)) pxARP xPool frame.eth d m with
      | (none, h) => return (some (prvReturnEthernetFrame frame), pxARP, h)
      | (some pxNbArpRes, h) =>
        return (some (prvReturnEthernetFrame { frame with arp := pxNbArpRes }), pxARP, h)) := by
  rcases lookupRows_cases pf (h := h) (q := d.pxTpa) hrows with ⟨-, hrun⟩ | ⟨hno, -⟩
  · rw [hhit] at hrun
    rw [handleExtracted, if_pos hreq, eARPCacheLookupGPA, hrun]
    rfl
  · exact absurd hyes hno

end Extracted

section Asserts

variable {α β : Type}

theorem inBounds_ne_assertion (o : Option α) : inBounds o ≠ .error .assertion := by
  cases o <;> exact fun heq => by cases heq

theorem deref_ne_assertion (o : Option α) : deref o ≠ .error .assertion := by
  cases o <;> exact fun heq => by cases heq

theorem bind_ne_assertion {x : Exec α} {f : α → Exec β} (hx : x ≠ .error .assertion)
    (hf : ∀ a, f a ≠ .error .assertion) : (x >>= f) ≠ .error .assertion := by
  cases x with
  | error t => exact fun heq => hx (by cases heq; rfl)
  | ok a => exact hf a

theorem pure_ne_assertion (a : α) : (pure a : Exec α) ≠ .error .assertion :=
  fun heq => by cases heq

end Asserts

theorem prvARPCachePrintRow_ne_assertion (r : ARPCacheRow) :
    prvARPCachePrintRow r ≠ .error .assertion := by
  refine bind_ne_assertion (deref_ne_assertion _) fun pxPa => ?_
  refine bind_ne_assertion (inBounds_ne_assertion _) fun sAddr => ?_
  refine bind_ne_assertion (inBounds_ne_assertion _) fun _ => ?_
  exact bind_ne_assertion (deref_ne_assertion _) fun _ => pure_ne_assertion _

theorem pxDupGPA_ne_assertion (g : GPA) (nDoShrink : Bool) (ucFiller : UInt8) :
    pxDupGPA h g nDoShrink ucFiller ≠ .error .assertion := by
  rw [pxDupGPA]
  split
  · exact fun heq => by cases heq
  · split
    · exact fun heq => by cases heq
    · dsimp only
      split
      · refine bind_ne_assertion (inBounds_ne_assertion _) fun bs => ?_
        split <;> exact pure_ne_assertion _
      · rw [Exec.ok_bind]
        split <;> exact pure_ne_assertion _

theorem xARPCacheAdd_ne_assertion (c : ARPCache) (pa : GPA) (ha : GHA) :
    xARPCacheAdd pf h c pa ha ≠ .error .assertion := by
  refine bind_ne_assertion (pxDupGPA_ne_assertion pa true 0) ?_
  rintro ⟨_ | dupPa, h₁⟩
  · exact pure_ne_assertion _
  · rcases hdup : pxDupGHA h₁ ha with ⟨_ | dupHa, h₂⟩
    · simp only [hdup]
      exact pure_ne_assertion _
    · simp only [hdup]
      split
      · exact pure_ne_assertion _
      · split
        · exact bind_ne_assertion (prvARPCachePrintRow_ne_assertion _) fun _ =>
            pure_ne_assertion _
        · exact pure_ne_assertion _

variable (pf pxARP xPool frame d) in
/-- A reply is added to the cache, and nothing comes back for it. -/
theorem handleExtracted_reply (hrep : hdr.usOperation ≠ ARP_REQUEST) :
    (∃ pxARP' h', handleExtracted pf h pxARP xPool frame hdr d = .ok (none, pxARP', h')) ∨
    (∃ t, handleExtracted pf h pxARP xPool frame hdr d = .error t ∧ t ≠ .assertion) := by
  rw [handleExtracted, if_neg hrep]
  rcases hadd : xARPCacheAdd pf h pxARP.pxCache d.pxTpa d.pxTha with t | ⟨nHndl, pxCache, h'⟩
  · refine Or.inr ⟨t, rfl, fun ht => ?_⟩
    exact xARPCacheAdd_ne_assertion pxARP.pxCache d.pxTpa d.pxTha (ht ▸ hadd)
  · exact Or.inl ⟨_, h', rfl⟩

end RinaSense.Shim
