import RinaSense.Common.Joined
import RinaSense.Shim.ArpHandles
import RinaSense.Shim.Frames
import RinaSense.Shim.ArpReplies

/-!
# ARP frames in their netbufs

The ARP branch of the packet handler on the chain of a frame. The pool of ARP packets must not
touch the buffer of the frame, and the response takes the place of the request in the chain.
-/

namespace RinaSense.Shim.OnChain

open Common Library.Memory Library.Filler

variable {pf : Platform} {f : Frame} {h₀ h h' h'' : Heap} {l : List NbPtr}

/-! ### The pool -/

/-- What is done elsewhere leaves the netbufs and the block `c` as they are. -/
structure Beside (h h' : Heap) (c : ℕ) : Prop where
  netbufs : h'.netbufs = h.netbufs
  fresh : h'.Fresh
  brk : h.brk ≤ h'.brk
  bytes : h'.mem c = h.mem c
  same : SameBlock h h' c

theorem Beside.trans {c : ℕ} (h₁ : Beside h h' c) (h₂ : Beside h' h'' c) : Beside h h'' c where
  netbufs := h₂.netbufs.trans h₁.netbufs
  fresh := h₂.fresh
  brk := h₁.brk.trans h₂.brk
  bytes := h₂.bytes.trans h₁.bytes
  same := h₁.same.trans h₂.same

theorem Beside.afterCalls (hf : h.Fresh) (k c : ℕ) : Beside h (h.afterCalls k) c :=
  ⟨rfl, hf, Nat.le_refl _, rfl, ⟨rfl, rfl, fun _ hp => hp⟩⟩

/-- Only the block `a` and the pools change. -/
theorem Beside.of_block {a c : ℕ} (hf : h.Fresh) (ha : a < h.brk) (hac : a ≠ c)
    (hnb : h'.netbufs = h.netbufs) (hbrk : h'.brk = h.brk)
    (hblocks : ∀ x, x ≠ a → h'.mem x = h.mem x ∧ h'.rsrcs x = h.rsrcs x)
    (hpools : ∀ pp, (h.pools pp).isSome → (h'.pools pp).isSome) : Beside h h' c where
  netbufs := hnb
  fresh x hx := by
    rw [hbrk] at hx
    rw [hnb, (hblocks x (Nat.ne_of_gt (Nat.lt_of_lt_of_le ha hx))).1]
    exact hf x hx
  brk := Nat.le_of_eq hbrk.symm
  bytes := (hblocks c hac.symm).1
  same := ⟨congrArg Option.isSome (hblocks c hac.symm).1, (hblocks c hac.symm).2, hpools⟩

/-- New resources are blocks of their own. -/
theorem addResources_frame (pp : PoolPtr) (len n : ℕ) (hf : h.Fresh) (pool : RsrcPool) :
    let out := addResources pp len n h pool
    out.1.netbufs = h.netbufs ∧ out.1.Fresh ∧ h.brk ≤ out.1.brk ∧ out.1.pools = h.pools ∧
      (∀ c < h.brk, out.1.mem c = h.mem c ∧ out.1.rsrcs c = h.rsrcs c) ∧
      ∀ a ∈ out.2.pxFreelist, a ∈ pool.pxFreelist ∨ h.brk ≤ a ∧ a < out.1.brk := by
  induction n generalizing h pool with
  | zero => exact ⟨rfl, hf, Nat.le_refl _, rfl, fun _ _ => ⟨rfl, rfl⟩, fun _ ha => Or.inl ha⟩
  | succ n ih =>
    obtain ⟨h₁, hh₁⟩ : ∃ h₁, h₁ = ({ h.setBlock h.brk (some (h.stale h.brk len)) with
      brk := h.brk + 1 } : Heap) := ⟨_, rfl⟩
    obtain ⟨out, hout⟩ : ∃ out, out = prvvFreeResTail h₁ pp pool h.brk := ⟨_, rfl⟩
    have hbrk : out.1.brk = h.brk + 1 ∧ out.1.netbufs = h.netbufs ∧ out.1.pools = h.pools ∧
        (∀ c, c ≠ h.brk → out.1.mem c = h.mem c ∧ out.1.rsrcs c = h.rsrcs c) ∧
        out.2.pxFreelist = h.brk :: pool.pxFreelist := by
      rw [hout, hh₁]
      by_cases hz : pool.uxSizeEach = 0 <;>
        simp +contextual [prvvFreeResTail, hz, Heap.setRsrc, Heap.setBlock]
    obtain ⟨hbrk, hnb, hpools, hblocks, hlist⟩ := hbrk
    have hfresh : out.1.Fresh := fun a ha => by
      rw [hbrk] at ha
      obtain ⟨hnone, hmem⟩ := hf a (Nat.le_of_succ_le ha)
      rw [hnb, (hblocks a (Nat.ne_of_gt ha)).1]
      exact ⟨hnone, hmem⟩
    obtain ⟨hnb', hfresh', hbrk', hpools', hblocks', hlist'⟩ := ih hfresh out.2
    have hrun : addResources pp len (n + 1) h pool = addResources pp len n out.1 out.2 := by
      rw [hout, hh₁]
      rfl
    rw [hrun]
    rw [hbrk] at hbrk' hblocks' hlist'
    refine ⟨hnb'.trans hnb, hfresh', Nat.le_of_succ_le hbrk', hpools'.trans hpools,
      fun c hc => ?_, fun a ha => ?_⟩
    · obtain ⟨hm, hr⟩ := hblocks' c (Nat.lt_succ_of_lt hc)
      obtain ⟨hm', hr'⟩ := hblocks c (Nat.ne_of_lt hc)
      exact ⟨hm.trans hm', hr.trans hr'⟩
    · rcases hlist' a ha with hold | ⟨hge, hlt⟩
      · rw [hlist] at hold
        rcases List.mem_cons.mp hold with rfl | hold
        · exact Or.inr ⟨Nat.le_refl _, Nat.lt_of_succ_le hbrk'⟩
        · exact Or.inl hold
      · exact Or.inr ⟨Nat.le_of_succ_le hge, hlt⟩

/-- The free resources of the pool are blocks which have been handed out, but not `c`. -/
def SparePool (h : Heap) (pp : PoolPtr) (c : ℕ) : Prop :=
  ∀ pool, h.pools pp = some pool → ∀ a ∈ pool.pxFreelist, a < h.brk ∧ a ≠ c

/-- A buffer from a pool. -/
structure Buffer (pf : Platform) (h : Heap) (c a : ℕ) (b : Bytes) : Prop where
  mem : h.mem a = some b
  usable : Usable pf h (some .vNetBufFreePool) ⟨a, 0⟩
  apart : a ≠ c

theorem takeResource_some {pp : PoolPtr} {pool : RsrcPool} {name : Option String} {n : ℕ}
    {o : Option ℕ} (htake : takeResource h pp pool name n = .ok (o, h')) : ∃ a, o = some a := by
  rw [takeResource] at htake
  split at htake
  · cases htake
  · cases htake
    exact ⟨_, rfl⟩

theorem takeResource_frame {pp : PoolPtr} {pool : RsrcPool} {name : Option String} {n a c : ℕ}
    (hf : h.Fresh) (hspare : ∀ a ∈ pool.pxFreelist, a < h.brk ∧ a ≠ c)
    (htake : takeResource h pp pool name n = .ok (some a, h')) :
    Beside h h' c ∧ Buffer pf h' c a (List.replicate n 0) := by
  rw [takeResource] at htake
  cases hlist : pool.pxFreelist with
  | nil =>
    rw [hlist] at htake
    cases htake
  | cons a₀ rest =>
    obtain ⟨hlt, hne⟩ := hspare a₀ (by rw [hlist]; exact List.mem_cons_self)
    rw [hlist] at htake
    cases htake
    refine ⟨.of_block hf hlt hne rfl rfl (fun x hx => ⟨Function.update_of_ne hx _ _,
        Function.update_of_ne hx _ _⟩) fun pp' hp => isSome_setPool hp,
      Function.update_self _ _ _, ⟨?_, fun hm => absurd hm (by decide),
        fun _ => ⟨rfl, fun _ => ?_⟩⟩, hne⟩
    · exact Option.isSome_of_eq_some (Function.update_self _ _ _)
    · exact ⟨_, Function.update_self _ _ _, rfl,
        Option.isSome_of_eq_some (Function.update_self _ _ _)⟩

theorem add2Pool_frame {pp : PoolPtr} {pool pool' : RsrcPool} {uiCount : UInt16}
    {len added c : ℕ} (hf : h.Fresh) (hc : c < h.brk) (hempty : pool.pxFreelist = [])
    (hrun : prviRsrcAdd2Pool h pp pool uiCount len = .ok (added, h', pool')) :
    Beside h h' c ∧ ∀ a ∈ pool'.pxFreelist, a < h'.brk ∧ a ≠ c := by
  rw [prviRsrcAdd2Pool] at hrun
  by_cases hz : uiCount = 0
  · rw [if_pos hz] at hrun
    cases hrun
    exact ⟨Beside.afterCalls hf 0 c, by simp [hempty]⟩
  · rw [if_neg hz] at hrun
    by_cases hg : h.mallocOk h.calls = true
    · rw [if_pos hg] at hrun
      obtain ⟨low, hlow⟩ : ∃ low, low = (if pool.uiNumInUse.toNat + pool.uiNumFree.toNat = 0 then
        { pool with uiLowWater := uiCount } else pool) := ⟨_, rfl⟩
      have hlist : low.pxFreelist = [] := by
        rw [hlow]
        split <;> exact hempty
      obtain ⟨hnb, hfresh, hbrk, hpools, hblocks, hnew⟩ :=
        addResources_frame pp len uiCount.toNat (show h.called.Fresh from hf) low
      rw [hlist] at hnew
      simp only [← hlow] at hrun
      cases hrun
      obtain ⟨hmem, hrsrcs⟩ := hblocks c hc
      refine ⟨⟨hnb, hfresh, hbrk, hmem, ⟨congrArg Option.isSome hmem, hrsrcs, fun pp' hp => ?_⟩⟩,
        fun a ha => ?_⟩
      · rw [hpools]
        exact hp
      · rcases hnew a ha with hold | ⟨hge, hlt⟩
        · cases hold
        · exact ⟨hlt, Nat.ne_of_gt (Nat.lt_of_lt_of_le hc hge)⟩
    · rw [if_neg hg] at hrun
      cases hrun

theorem varAlloc_frame {pp : PoolPtr} {name : Option String} {n c : ℕ} {o : Option ℕ}
    (hf : h.Fresh) (hspare : SparePool h pp c) (hc : c < h.brk)
    (hrun : pxRsrcVarAlloc pf h (some pp) name n = .ok (o, h')) :
    Beside h h' c ∧ ∀ a, o = some a → ∃ b, Buffer pf h' c a b := by
  rw [pxRsrcVarAlloc] at hrun
  by_cases hv : pf.valgrind = true
  · rw [if_pos hv, pvRsMemAlloc] at hrun
    by_cases hg : h.mallocOk h.calls = true
    · rw [if_pos hg] at hrun
      cases hrun
      have hne : ∀ x, h.brk + 1 ≤ x → x ≠ h.brk := fun x hx => Nat.ne_of_gt hx
      refine ⟨⟨rfl, fun x hx => ?_, Nat.le_succ _, Function.update_of_ne (Nat.ne_of_lt hc) _ _,
        ⟨congrArg Option.isSome (Function.update_of_ne (Nat.ne_of_lt hc) _ _), rfl,
          fun _ hp => hp⟩⟩, ?_⟩
      · obtain ⟨hnone, hmem⟩ := hf x (Nat.le_of_succ_le hx)
        exact ⟨hnone, (Function.update_of_ne (hne x hx) _ _).trans hmem⟩
      · rintro a ⟨⟩
        refine ⟨_, Function.update_self _ _ _,
          ⟨Option.isSome_of_eq_some (Function.update_self _ _ _), fun hm => absurd hm (by decide),
            fun _ => ⟨rfl, fun hno => ?_⟩⟩, (Nat.ne_of_lt hc).symm⟩
        rw [hv] at hno
        cases hno
    · rw [if_neg hg] at hrun
      cases hrun
      exact ⟨Beside.afterCalls hf 1 c, fun a ha => by cases ha⟩
  · rw [if_neg hv] at hrun
    obtain ⟨pool, hpool, hrun⟩ := Exec.bind_eq_ok.mp hrun
    have hpool := inBounds_eq_ok.mp hpool
    have hnone : ∀ {k}, (Except.ok (none, h.afterCalls k) : Exec (Option ℕ × Heap)) = .ok (o, h') →
        Beside h h' c ∧ ∀ a, o = some a → ∃ b, Buffer pf h' c a b := by
      rintro k ⟨⟩
      exact ⟨Beside.afterCalls hf k c, fun a ha => by cases ha⟩
    by_cases hcheck : rsrcRefused pool name n = true
    · rw [if_pos hcheck] at hrun
      exact hnone (k := 0) hrun
    · rw [if_neg hcheck] at hrun
      by_cases hempty : pool.pxFreelist.isEmpty = true
      · rw [if_pos hempty] at hrun
        obtain ⟨⟨added, h₁, pool₁⟩, hadd, hrun⟩ := Exec.bind_eq_ok.mp hrun
        dsimp only at hrun
        obtain ⟨hbeside, hspare₁⟩ := add2Pool_frame hf hc (List.isEmpty_iff.mp hempty) hadd
        by_cases hzero : added = 0
        · rw [if_pos hzero] at hrun
          cases hrun
          exact ⟨hbeside, fun a ha => by cases ha⟩
        · rw [if_neg hzero] at hrun
          obtain ⟨a, rfl⟩ := takeResource_some hrun
          obtain ⟨htaken, hbuf⟩ := takeResource_frame hbeside.fresh hspare₁ hrun
          exact ⟨hbeside.trans htaken, fun a' ha' => by cases ha'; exact ⟨_, hbuf⟩⟩
      · rw [if_neg hempty] at hrun
        obtain ⟨a, rfl⟩ := takeResource_some hrun
        obtain ⟨htaken, hbuf⟩ := takeResource_frame hf (hspare pool hpool) hrun
        exact ⟨htaken, fun a' ha' => by cases ha'; exact ⟨_, hbuf⟩⟩

variable {pxArp : ARP} {n c : ℕ}

/-- Whether the pool hands out a buffer or not, the block `c` stays as it is. -/
theorem arpBuffer_frame {o : Option (ℕ × Bytes)} (hf : h.Fresh)
    (hspare : SparePool h pxArp.xArpPool c) (hc : c < h.brk)
    (hrun : arpBuffer pf h pxArp n = .ok (o, h')) :
    Beside h h' c ∧ ∀ a b, o = some (a, b) → Buffer pf h' c a b := by
  obtain ⟨⟨o', h₁⟩, halloc, hrun⟩ := Exec.bind_eq_ok.mp hrun
  obtain ⟨hbeside, hbuf⟩ := varAlloc_frame hf hspare hc halloc
  cases o' with
  | none =>
    cases hrun
    exact ⟨hbeside, fun a b ho => by cases ho⟩
  | some a =>
    obtain ⟨b, hb, hrun⟩ := Exec.bind_eq_ok.mp hrun
    cases hrun
    obtain ⟨b', hbuf⟩ := hbuf a rfl
    refine ⟨hbeside, fun a' b'' ho => ?_⟩
    cases ho
    have hsame := hbuf.mem.symm.trans (inBounds_eq_ok.mp hb)
    cases hsame
    exact hbuf

/-- A buffer which goes back leaves the other blocks as they are. -/
theorem vRsrcFree_frame {a : ℕ} (hf : h.Fresh) (ha : a < h.brk) (hac : a ≠ c)
    (hrun : vRsrcFree pf h (some ⟨a, 0⟩) = .ok h') : Beside h h' c := by
  rw [vRsrcFree] at hrun
  by_cases hv : pf.valgrind = true
  · rw [if_pos hv, vRsMemFree] at hrun
    split at hrun
    · cases hrun
      exact .of_block hf ha hac rfl rfl
        (fun x hx => ⟨Function.update_of_ne hx _ _, rfl⟩) fun _ hp => hp
    · cases hrun
  · rw [if_neg hv] at hrun
    obtain ⟨rsrc, -, hrun⟩ := Exec.bind_eq_ok.mp hrun
    obtain ⟨pool, -, hrun⟩ := Exec.bind_eq_ok.mp hrun
    by_cases hlist : rsrc.xOnFreelist = true
    · rw [if_pos hlist] at hrun
      cases hrun
    · rw [if_neg hlist] at hrun
      by_cases hfree : pool.uiFreeOnFree = true
      · simp only [hfree, if_true] at hrun
        cases hrun
        exact .of_block hf ha hac rfl rfl (fun x hx => ⟨Function.update_of_ne hx _ _,
          Function.update_of_ne hx _ _⟩) fun _ hp => isSome_setPool hp
      · simp only [hfree] at hrun
        cases hrun
        refine .of_block hf ha hac ?_ ?_ (fun x hx => ?_) fun pp hp => isSome_setPool ?_
        all_goals
          by_cases hz : pool.uxSizeEach = 0 <;>
            simp [prvvFreeResTail, Heap.setRsrc, Heap.setBlock, Heap.setPool, *]

/-! ### The cache -/

/-- The addition to the cache comes back: a debug build prints a new row into an array of 25
bytes. -/
def AdditionReturns (pf : Platform) (h : Heap) (pxCache : ARPCache) (pxPa : GPA) : Prop :=
  pf.ndebug = true ∨ pxPa.uxLength ≤ 24 ∨
    ¬ (Granted h 0 ∧ Granted h 1 ∧ Granted h 2 ∧ ∃ r ∈ pxCache.pxRows, r.ucValid = 0)

variable (pf h) in
theorem xARPCacheAdd_cases (c : ARPCache) {pa : GPA} (h0 : (0 : UInt8) ∉ pa.pucAddress)
    (ha : GHA) :
    (AdditionReturns pf h c pa ∧ ∃ nHndl c' k,
      xARPCacheAdd pf h c pa ha = .ok (nHndl, c', h.afterCalls k)) ∨
    (¬ AdditionReturns pf h c pa ∧ ∃ t, xARPCacheAdd pf h c pa ha = .error t) := by
  have hstrip : strip 0 pa.pucAddress = pa.pucAddress := strip_of_not_mem h0
  by_cases hcopies : CopiesMade h pa
  · have hcode : xARPCacheAdd pf h c pa ha = _ := hcopies.add_eq c ha
    rw [hstrip] at hcode
    cases hfill : fillRow (.live pa ha) c.pxRows with
    | none =>
      have hfull : ¬ ∃ r ∈ c.pxRows, r.ucValid = 0 := fun ⟨r, hr, hv⟩ =>
        fillRow_eq_none hfill r hr hv
      simp only [hfill] at hcode
      exact Or.inl ⟨Or.inr (Or.inr fun hall => hfull hall.2.2.2), 0, c, 3, hcode⟩
    | some rows =>
      have hfree : ∃ r ∈ c.pxRows, r.ucValid = 0 :=
        (exists_fillRow_iff (.live pa ha)).mp ⟨rows, hfill⟩
      simp only [hfill] at hcode
      by_cases hd : pf.ndebug = true
      · rw [hd] at hcode
        exact Or.inl ⟨Or.inl hd, 1, { c with pxRows := rows }, 3, hcode⟩
      · rw [eq_false_of_ne_true hd] at hcode
        simp only [prvARPCachePrintRow_live h0 ha] at hcode
        by_cases hfit : pa.uxLength ≤ 24
        · simp only [if_pos hfit] at hcode
          exact Or.inl ⟨Or.inr (Or.inl hfit), 1, { c with pxRows := rows }, 3, hcode⟩
        · simp only [if_neg hfit] at hcode
          refine Or.inr ⟨?_, .outOfBounds, hcode⟩
          rintro (hd' | hshort | hno)
          · exact hd hd'
          · exact hfit hshort
          · exact hno ⟨hcopies.object, hcopies.address, hcopies.hardware, hfree⟩
  · rcases add_of_not_copiesMade pf hcopies c ha with ⟨hok, hnil, -, -⟩ | ⟨k, hk⟩
    · exact absurd (hstrip.symm.trans hnil) ((xIsGPAOK_iff pa).mp hok)
    · refine Or.inl ⟨?_, ARP_CACHE_INVALID_HANDLE, c, k, hk⟩
      by_cases hpa : pa.pucAddress = []
      · refine Or.inr (Or.inl ?_)
        rw [GPA.uxLength, hpa]
        exact Nat.zero_le _
      · refine Or.inr (Or.inr fun hall => hcopies ?_)
        exact ⟨hstrip.symm ▸ hpa, hall.1, hall.2.1, hall.2.2.1⟩

/-! ### The response -/

theorem readSource {bs : Bytes} (hlen : sizeofEthernetHeader ≤ bs.length) :
    ∃ src, readMAC bs macLength = .ok src := by
  have hs : slice bs macLength 6 = some ((bs.drop macLength).take 6) :=
    if_pos ((by decide : macLength + 6 ≤ 14).trans hlen)
  exact ⟨⟨_, slice_length hs⟩, readMAC_eq hs⟩

theorem responseBytes_length {d : ARPPacketData} {pkt : Bytes} {hdr : ARPStaticHeader}
    (hd : AddressesOf pkt hdr d) (ha src : MACAddress) :
    (responseBytes d ha src).length = responseLength hdr.ucPALength.toNat := by
  have hn : d.pxARPHdr.ucPALength.toNat = hdr.ucPALength.toNat := by rw [hd.pxARPHdr]
  rw [responseBytes, packetParts, hn]
  simp only [List.length_append, ARPStaticHeader.toBytes_length, MACAddress.ucBytes_length,
    pad_length hd.lengths.1, pad_length hd.lengths.2, responseLength, sizeofARPStaticHeader,
    macLength]
  omega

/-- A write of a whole block. -/
theorem write_whole {a : ℕ} {b bs : Bytes} (hb : h.mem a = some b) (hlen : bs.length = b.length) :
    h.write (some ⟨a, 0⟩) 0 bs = .ok (h.setBlock a (some bs)) := by
  have hfit : 0 + bs.length ≤ b.length := by rw [Nat.zero_add, hlen]
  have hsplice : splice b 0 bs = bs := by
    rw [splice, List.take_zero, Nat.zero_add, List.drop_of_length_le (Nat.le_of_eq hlen.symm)]
    exact List.append_nil bs
  have hstore : store h.mem ⟨a, 0⟩ bs = some (Function.update h.mem a (some bs)) := by
    simp only [store, hb, if_pos hfit, hsplice]
  simp only [Heap.write, deref_some, Exec.ok_bind, Ptr.add, Nat.add_zero, hstore, inBounds_some]
  rfl

section Response

variable {pxArp : ARP} {d : ARPPacketData} {m : GHA} {n k : ℕ}

/-- Both parts of a frame hold the one buffer. -/
theorem Frame.In.holds_parted (hi : f.In pf h₀) (k : ℕ) {b : Ptr} {mt : Option FreeMethod}
    (hb : (f.parted h₀ k).Holds [f.pxNbFrame, h₀.brk] b mt) : b = f.buffer := by
  obtain ⟨q, hq, nb, hnb, hstart, -⟩ := hb
  rcases List.mem_cons.mp hq with rfl | hq
  · rw [Frame.parted_header] at hnb
    cases hnb
    exact (Option.some.inj hstart).symm
  · rw [List.mem_singleton.mp hq, hi.parted_packet] at hnb
    cases hnb
    exact (Option.some.inj hstart).symm

/-- The bytes of the netbufs which are in use are in memory. -/
def Readable (h : Heap) (l : List NbPtr) : Prop :=
  ∀ q ∈ l, ∀ nb, h.netbufs q = some nb → nb.xFreed = false →
    ∃ p b, nb.pxBuf = some p ∧ h.mem p.block = some b ∧ p.off + nb.unSz ≤ b.length

/-- The frame is still with the shim, which can send and release it. -/
structure Frame.Held (pf : Platform) (f : Frame) (h₀ h : Heap) : Prop where
  chain : ∃ s last, f.Owned pf h₀ h (s ++ [last]) ∧ h.InUse last ∧ Readable h (s ++ [last])
  header : ∃ nb, h.netbufs f.pxNbFrame = some nb ∧ nb.xFreed = false ∧ nb.eType = .NB_ETH_HDR ∧
    nb.pxBuf = some f.buffer
  bytes : ∃ b, h.mem f.block = some b ∧ sizeofEthernetHeader ≤ b.length

/-- The frame is in its two netbufs. -/
structure Frame.Parted (pf : Platform) (f : Frame) (h₀ h : Heap) : Prop where
  netbufs : h.netbufs = (f.parted h₀ 0).netbufs
  bytes : h.mem f.block = some f.bytes
  owned : f.Owned pf h₀ h [f.pxNbFrame, h₀.brk]

theorem Frame.In.parted_beside (hi : f.In pf h₀) (hb : Beside (f.parted h₀ k) h f.block) :
    f.Parted pf h₀ h where
  netbufs := hb.netbufs
  bytes := hb.bytes.trans (hi.parted_mem k)
  owned := (hi.parted_owned k).congr hb.fresh hb.netbufs fun b mt hholds => by
    rw [hi.holds_parted k hholds]
    exact hb.same

theorem Frame.In.parted_self (hi : f.In pf h₀) (k : ℕ) : f.Parted pf h₀ (f.parted h₀ k) :=
  hi.parted_beside (k := 0) (Beside.afterCalls (hi.parted_owned 0).chain.fresh k f.block)

theorem Frame.Parted.header (hp : f.Parted pf h₀ h) : h.netbufs f.pxNbFrame =
    some { f.netbuf with unSz := sizeofEthernetHeader, pxNext := some h₀.brk } := by
  rw [hp.netbufs]
  exact Frame.parted_header 0

theorem Frame.Parted.packet (hp : f.Parted pf h₀ h) (hi : f.In pf h₀) : h.netbufs h₀.brk =
    some (f.netbuf.behind .NB_RINA_PCI sizeofEthernetHeader) := by
  rw [hp.netbufs]
  exact hi.parted_packet 0

/-- Both parts of a frame hold the one buffer. -/
theorem Frame.Parted.holds (hp : f.Parted pf h₀ h) (hi : f.In pf h₀) {b : Ptr}
    {mt : Option FreeMethod} (hb : h.Holds [f.pxNbFrame, h₀.brk] b mt) : b = f.buffer :=
  hi.holds_parted 0 ((Heap.holds_congr (fun x _ => by rw [hp.netbufs]) b mt).mp hb)

theorem Frame.Parted.pvNetBufPtr_eq (hp : f.Parted pf h₀ h) :
    pvNetBufPtr pf h f.pxNbFrame = .ok (some f.buffer) := by
  have hin : f.netbuf.xFreed = false := rfl
  simp only [pvNetBufPtr, Heap.netbuf_of_some hp.header, Exec.ok_bind, hin, Bool.not_false,
    rsAssert_true]
  rfl

/-- The netbuf of a response in the buffer `a`. -/
def responseNetbuf (r : NbPtr) (n a : ℕ) (xPool : PoolPtr) : Netbuf :=
  ⟨none, r, .NB_RINA_ARP, n, some ⟨a, 0⟩, some ⟨a, 0⟩, false, some .vNetBufFreePool, some xPool⟩

/-- The heap in which the response is filled in. -/
def filled (h : Heap) (n a : ℕ) (xPool : PoolPtr) (bs : Bytes) : Heap :=
  (h.withNetbuf (responseNetbuf h.brk n a xPool)).setBlock a (some bs)

section Filled

variable (n : ℕ) {a : ℕ} {b : Bytes} (xPool : PoolPtr) (bs : Bytes)

theorem filled_new : (filled h n a xPool bs).netbufs h.brk =
    some (responseNetbuf h.brk n a xPool) := Heap.withNetbuf_self _ _

theorem filled_of_ne {x : NbPtr} (hx : x ≠ h.brk) :
    (filled h n a xPool bs).netbufs x = h.netbufs x := Heap.withNetbuf_of_ne h _ hx

theorem filled_mem : (filled h n a xPool bs).mem a = some bs := Heap.setBlock_self _ _ _

theorem filled_mem_of_ne {x : ℕ} (hx : x ≠ a) : (filled h n a xPool bs).mem x = h.mem x :=
  Function.update_of_ne hx _ _

theorem filled_fresh (hf : h.Fresh) (ha : a < h.brk) : (filled h n a xPool bs).Fresh := by
  intro x hx
  have hlt : h.brk < x := hx
  rw [filled_of_ne n xPool bs (Nat.ne_of_gt hlt), filled_mem_of_ne n xPool bs
    (Nat.ne_of_gt (ha.trans hlt))]
  exact hf x (Nat.le_of_lt hlt)

theorem sameBlock_filled (ha : h.mem a = some b) (c : ℕ) :
    SameBlock h (filled h n a xPool bs) c := by
  refine ⟨?_, rfl, fun _ hp => hp⟩
  by_cases hca : c = a
  · rw [hca, ha, filled_mem]
    rfl
  · rw [filled_mem_of_ne n xPool bs hca]

end Filled

theorem Frame.Parted.ne_brk (hp : f.Parted pf h₀ h) :
    ∀ x ∈ [f.pxNbFrame, h₀.brk], x ≠ h.brk := by
  intro x hx
  obtain ⟨nb, hnb⟩ := hp.owned.chain.netbuf hx
  exact Nat.ne_of_lt (hp.owned.chain.fresh.lt_of_netbuf hnb)

theorem Frame.Parted.filled_chain (hp : f.Parted pf h₀ h) (n : ℕ) {a : ℕ} {b : Bytes}
    (ha : h.mem a = some b) (bs : Bytes) :
    WholeChain pf (filled h n a f.xPool bs) f.pxNbFrame [f.pxNbFrame, h₀.brk] :=
  hp.owned.chain.congr (filled_fresh n f.xPool bs hp.owned.chain.fresh
      (hp.owned.chain.fresh.lt_of_block ha))
    (fun x hx => filled_of_ne n f.xPool bs (hp.ne_brk x hx))
    fun c _ _ => sameBlock_filled n f.xPool bs ha c.block

/-- The last steps of the response: the request is freed, and the response hung in its place. -/
theorem Frame.Parted.replace (hi : f.In pf h₀) (hp : f.Parted pf h₀ h) (hbrk : h₀.brk < h.brk)
    {n a : ℕ} {b bs : Bytes} (hbuf : Buffer pf h f.block a b) (hn : n ≤ bs.length)
    (hlen : sizeofEthernetHeader ≤ f.bytes.length) :
    ∃ h₁ h₂, pxNetBufNext pf (filled h n a f.xPool bs) f.pxNbFrame = .ok (some h₀.brk) ∧
      vNetBufFree pf (filled h n a f.xPool bs) h₀.brk = .ok h₁ ∧
      vNetBufAppend pf h₁ f.pxNbFrame h.brk = .ok h₂ ∧ f.Held pf h₀ h₂ := by
  have hold := hp.ne_brk
  have hother : ∀ x ∈ [f.pxNbFrame, h₀.brk], (filled h n a f.xPool bs).netbufs x = h.netbufs x :=
    fun x hx => filled_of_ne n f.xPool bs (hold x hx)
  have hchain := hp.filled_chain n hbuf.mem bs
  have hpq := hi.ne_brk
  have hheader := (hother f.pxNbFrame (by simp)).trans hp.header
  have hnext : pxNetBufNext pf (filled h n a f.xPool bs) f.pxNbFrame = .ok (some h₀.brk) :=
    next_packet hchain.fresh hheader rfl rfl ((hother h₀.brk (by simp)).trans (hp.packet hi)) rfl
  obtain ⟨h₁, hfree, hm⟩ := hchain.free (List.mem_cons_of_mem _ List.mem_cons_self)
    List.mem_cons_self hpq ⟨_, hheader, rfl⟩
  have hheader₁ := (hm.other _ hpq).trans hheader
  have hnew := (hm.other _ (hold h₀.brk (by simp)).symm).trans (filled_new n f.xPool bs)
  have hholds : ∀ b' m', h₁.Holds [f.pxNbFrame, h₀.brk] b' m' ↔
      h.Holds [f.pxNbFrame, h₀.brk] b' m' := fun b' m' =>
    (hm.holds b' m').trans (Heap.holds_congr hother b' m')
  have husable : Usable pf h₁ (some .vNetBufFreePool) ⟨a, 0⟩ := by
    refine (hbuf.usable.congr (sameBlock_filled n f.xPool bs hbuf.mem a)).congr ?_
    rw [hm.rest]
    exact ⟨rfl, rfl, fun _ hpool => hpool⟩
  obtain ⟨h₂, happend, hh⟩ := hm.chain.append List.mem_cons_self ⟨_, hheader₁, rfl⟩ hnew rfl rfl rfl
    rfl husable (fun hx => hold _ hx rfl) fun b' m' hb => by
      rw [hp.holds hi ((hholds b' m').mp hb)]
      exact hbuf.apart.symm
  have hmem : ∀ x, h₂.mem x = (filled h n a f.xPool bs).mem x := fun x => by rw [hh.rest, hm.rest]
  have hframe : h₂.mem f.block = some f.bytes :=
    (hmem _).trans ((filled_mem_of_ne n f.xPool bs hbuf.apart.symm).trans hp.bytes)
  have hsame : ∀ x ∈ [f.pxNbFrame, h₀.brk], ∀ nb, h₂.netbufs x = some nb →
      ∃ nb₁, h₁.netbufs x = some nb₁ ∧ nb.unlinked = nb₁.unlinked := fun x hx nb hnb => by
    have hmap := hh.same x (hold x hx)
    rw [hnb, Option.map_some, eq_comm, Option.map_eq_some_iff] at hmap
    obtain ⟨nb₁, hnb₁, heq⟩ := hmap
    exact ⟨nb₁, hnb₁, heq.symm⟩
  have howned : f.Owned pf h₀ h₂ ([f.pxNbFrame, h₀.brk] ++ [h.brk]) := by
    refine ⟨hh.chain, by simp, fun x hx => ?_, fun x hx => ?_,
      (hh.holds _ _).mpr (Or.inl ((hholds _ _).mpr hp.owned.buffer))⟩
    · rcases List.mem_append.mp hx with hx | hx
      · exact hp.owned.mine x hx
      · rw [List.mem_singleton.mp hx]
        exact Or.inr (Nat.le_of_lt hbrk)
    · have hxs : x ∉ [f.pxNbFrame, h₀.brk] := fun hin => hx (List.mem_append_left _ hin)
      have hxq : x ≠ h₀.brk := fun heq => hxs (by simp [heq])
      have hxr : x ≠ h.brk := fun heq => hx (by simp [heq])
      rw [hh.other x hx, hm.other x hxq, filled_of_ne n f.xPool bs hxr, hp.owned.other x hxs]
  obtain ⟨nb, hnb⟩ := hh.chain.netbuf (q := f.pxNbFrame) (by simp)
  obtain ⟨nb₁, hnb₁, heq⟩ := hsame f.pxNbFrame (by simp) nb hnb
  rw [hheader₁] at hnb₁
  cases hnb₁
  have hbuf₂ : nb.pxBuf = some f.buffer := congrArg Netbuf.pxBuf heq
  refine ⟨h₁, h₂, hnext, hfree, happend, ⟨_, _, howned, ⟨_, hh.new, rfl⟩, fun x hx nb' hnb' hlive =>
    ?_⟩, ⟨nb, hnb, congrArg Netbuf.xFreed heq, congrArg Netbuf.eType heq, hbuf₂⟩, ⟨_, hframe, hlen⟩⟩
  rcases List.mem_append.mp hx with hx | hx
  · obtain ⟨nb₁, hnb₁, heq'⟩ := hsame x hx nb' hnb'
    rcases List.mem_cons.mp hx with rfl | hx
    · rw [hnb] at hnb'
      cases hnb'
      refine ⟨f.buffer, f.bytes, hbuf₂, hframe, ?_⟩
      rw [show nb.unSz = sizeofEthernetHeader from congrArg Netbuf.unSz heq]
      exact (Nat.zero_add _).trans_le hlen
    · rw [List.mem_singleton.mp hx] at hnb₁
      exact absurd ⟨nb₁, hnb₁, (congrArg Netbuf.xFreed heq').symm.trans hlive⟩ hm.dead
  · rw [List.mem_singleton.mp hx, hh.new] at hnb'
    cases hnb'
    exact ⟨⟨a, 0⟩, bs, rfl, (hmem a).trans (filled_mem n f.xPool bs), (Nat.zero_add n).trans_le hn⟩

variable (hi : f.In pf h₀) (hspare : SparePool h₀ pxArp.xArpPool f.block)

include hi hspare

theorem arpBuffer_parted {n : ℕ} {o : Option (ℕ × Bytes)}
    (hrun : arpBuffer pf (f.parted h₀ k) pxArp n = .ok (o, h)) :
    Beside (f.parted h₀ k) h f.block ∧ ∀ a b, o = some (a, b) → Buffer pf h f.block a b := by
  refine arpBuffer_frame (hi.parted_owned k).chain.fresh (fun pool hpool a ha => ?_)
    (Nat.lt_succ_of_lt (hi.fresh.lt_of_block hi.bytes)) hrun
  obtain ⟨hlt, hne⟩ := hspare pool hpool a ha
  exact ⟨Nat.lt_succ_of_lt hlt, hne⟩

theorem getResponse_refused (hr : ResponseRefused pf (f.parted h₀ k) pxArp.xArpPool
      d.pxARPHdr.ucPALength.toNat) :
    ∃ h', prvARPGetResponse pf (f.parted h₀ k) pxArp f.pxNbFrame d m = .ok (none, h') ∧
      f.Parted pf h₀ h' := by
  have hptr := (hi.parted_self k).pvNetBufPtr_eq
  rw [prvARPGetResponse, hptr, Exec.ok_bind]
  rcases hr with hbuf | ⟨j, hbuf, hno⟩
  · obtain ⟨h₁, hrun⟩ := arpBuffer_refused hbuf
    refine ⟨h₁, ?_, hi.parted_beside (arpBuffer_parted hi hspare hrun).1⟩
    rw [hrun]
    rfl
  · obtain ⟨a, b, h₁, hrun, -, hcalls, h₂, hfree⟩ := arpBuffer_granted hbuf
    obtain ⟨hbeside, hbuffer⟩ := arpBuffer_parted hi hspare hrun
    have hbuffer := hbuffer a b rfl
    have heth := (hi.parted_beside hbeside).header
    have hback := vRsrcFree_frame (c := f.block) (show h₁.called.Fresh from hbeside.fresh)
      (hbeside.fresh.lt_of_block hbuffer.mem) hbuffer.apart hfree
    rcases pxNetBufNew_cases pf (h := h₁) f.xPool (responseLength_ne_zero
      d.pxARPHdr.ucPALength.toNat) .NB_RINA_ARP (some ⟨a, 0⟩) (some .vNetBufFreePool) with
      ⟨hg, -⟩ | ⟨-, hnb⟩
    · exact absurd ((hcalls 0).mp hg) hno
    · refine ⟨h₂, ?_, hi.parted_beside (hbeside.trans
        ((Beside.afterCalls hbeside.fresh 1 f.block).trans hback))⟩
      have hpool : f.netbuf.xPool = some f.xPool := rfl
      simp only [hrun, Heap.netbuf_of_some heth, hpool, hnb, hfree, Exec.ok_bind]
      rfl

/-- The response gets into the chain, and the request is freed. -/
theorem getResponse_granted {pkt : Bytes} {hdr : ARPStaticHeader}
    (hlen : sizeofEthernetHeader ≤ f.bytes.length) (hp : PassesChecks pkt hdr)
    (hd : AddressesOf pkt hdr d)
    (hg : ResponseGranted pf (f.parted h₀ k) pxArp.xArpPool hdr.ucPALength.toNat) :
    ∃ h', prvARPGetResponse pf (f.parted h₀ k) pxArp f.pxNbFrame d m =
      .ok (some f.pxNbFrame, h') ∧ f.Held pf h₀ h' := by
  have hptr := (hi.parted_self k).pvNetBufPtr_eq
  have hn : d.pxARPHdr.ucPALength.toNat = hdr.ucPALength.toNat := by rw [hd.pxARPHdr]
  obtain ⟨j, hbuf, hyes⟩ := hg
  obtain ⟨a, b, h₁, hrun, hblen, hcalls, -⟩ := arpBuffer_granted hbuf
  obtain ⟨hbeside, hbuffer⟩ := arpBuffer_parted hi hspare hrun
  have hbuffer := hbuffer a b rfl
  have hp₁ := hi.parted_beside hbeside
  have hfresh₁ := hp₁.owned.chain.fresh
  have hnb : pxNetBufNew pf h₁ (some f.xPool) .NB_RINA_ARP (some ⟨a, 0⟩)
      (responseLength hdr.ucPALength.toNat) (some .vNetBufFreePool) = .ok (some h₁.brk,
        h₁.withNetbuf (responseNetbuf h₁.brk (responseLength hdr.ucPALength.toNat) a f.xPool)) :=
    ((pxNetBufNew_cases pf f.xPool (responseLength_ne_zero _) .NB_RINA_ARP _ _).resolve_right
      fun hno => hno.1 ((hcalls 0).mpr hyes)).2
  obtain ⟨src, hsrc⟩ := readSource hlen
  obtain ⟨bs, hbs, hfill⟩ : ∃ bs : Bytes, bs.length = b.length ∧
      fillResponse b d m.xAddress src = .ok bs := by
    refine ⟨_, ?_, fillResponse_eq hn.symm hblen (by rw [hd.pxARPHdr]; exact hp.hardwareLength)
      hd.lengths.1 hd.lengths.2 m.xAddress src⟩
    rw [hblen]
    exact responseBytes_length hd _ _
  have hwrite : ∀ nb, (h₁.withNetbuf nb).write (some ⟨a, 0⟩) 0 bs =
      .ok ((h₁.withNetbuf nb).setBlock a (some bs)) := fun nb => write_whole hbuffer.mem hbs
  have hblock : ∀ nb, bytesAt (h₁.withNetbuf nb) (some f.buffer) = .ok f.bytes := by
    intro nb
    have hmem : (h₁.withNetbuf nb).mem f.block = some f.bytes := hp₁.bytes
    simp only [bytesAt, Frame.buffer, deref_some, Exec.ok_bind, hmem, inBounds_some]
    rfl
  obtain ⟨h₂, h₃, hnext, hfree, happend, hheld⟩ := hp₁.replace hi hbeside.brk hbuffer
    (Nat.le_of_eq (hbs.trans hblen).symm) hlen
  refine ⟨h₃, ?_, hheld⟩
  have hpool : f.netbuf.xPool = some f.xPool := rfl
  rw [prvARPGetResponse, hptr, Exec.ok_bind, hn]
  simp only [hrun, Heap.netbuf_of_some hp₁.header, hpool, hnb, hblock, hsrc, hfill, hwrite,
    Exec.ok_bind]
  rw [filled] at hnext hfree
  simp only [hnext, hfree, happend, deref_some, Exec.ok_bind]
  rfl

omit hspare in
theorem getResponse_traps (hn : d.pxARPHdr.ucPALength.toNat = n)
    (hr : ¬ ResponseRefused pf (f.parted h₀ k) pxArp.xArpPool n)
    (hg : ¬ ResponseGranted pf (f.parted h₀ k) pxArp.xArpPool n) :
    ∃ t, prvARPGetResponse pf (f.parted h₀ k) pxArp f.pxNbFrame d m = .error t := by
  have hptr := (hi.parted_self k).pvNetBufPtr_eq
  have hno : ∀ j, ¬ BufferGranted pf (f.parted h₀ k) pxArp.xArpPool (responseLength n) j := by
    intro j hj
    by_cases hyes : Granted (f.parted h₀ k) j
    · exact hg ⟨j, hj, hyes⟩
    · exact hr (Or.inr ⟨j, hj, hyes⟩)
  obtain ⟨t, hrun, -⟩ := arpBuffer_traps (fun hbuf => hr (Or.inl hbuf)) hno
  refine ⟨t, ?_⟩
  rw [prvARPGetResponse, hptr, Exec.ok_bind, hn, hrun]
  rfl

end Response

end RinaSense.Shim.OnChain
