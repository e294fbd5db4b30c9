import RinaSense.Common.Content
import RinaSense.Shim.SduWrite

/-!
# Headers in front of a data unit

The normal IPC process and the shim put their headers in front of a data unit in the same way:
a buffer of a pool in a netbuf of its own, on which the chain is hung and which is filled in
then. The chain behind the header carries the bytes it did before.
-/

namespace RinaSense.Shim.OnChain

open Common Library.Memory

variable {pf : Platform} {h h' : Heap} {pxDu p a : ℕ} {l : List NbPtr} {bs hdr : Bytes}

/-- A data unit in memory with its bytes. -/
structure Carries (pf : Platform) (h : Heap) (pxDu : NbPtr) (l : List NbPtr) (bs : Bytes) : Prop
    extends DuIn pf h pxDu l where
  content : chainContent h l = some bs

/-- A buffer of a pool which none of the netbufs holds. -/
structure Loose (pf : Platform) (h : Heap) (l : List NbPtr) (a : ℕ) (hdr : Bytes) : Prop where
  mem : h.mem a = some hdr
  usable : Usable pf h (some .vNetBufFreePool) ⟨a, 0⟩
  apart : ∀ b m, h.Holds l b m → a ≠ b.block

/-- The data unit behind the header in the netbuf `p`, whose buffer is the block `a`. -/
structure Headed (pf : Platform) (h : Heap) (p : NbPtr) (l : List NbPtr) (eType : NetBufType)
    (a : ℕ) (hdr bs : Bytes) : Prop where
  carries : Carries pf h p (p :: l) (hdr ++ bs)
  netbuf : ∃ nb, h.netbufs p = some nb ∧ nb.eType = eType ∧ nb.pxBuf = some ⟨a, 0⟩ ∧
    nb.unSz = hdr.length
  mem : h.mem a = some hdr
  behind : chainContent h l = some bs
  apart : ∀ b m, h.Holds l b m → a ≠ b.block

/-- What a header from the pool `pp` in front of the netbufs `l` leaves alone. Its buffer, the
block `a`, was free in the pool or is new. -/
structure Beyond (h h' : Heap) (pp : PoolPtr) (l : List NbPtr) (a : ℕ) : Prop where
  pools : ∀ pp', pp' ≠ pp → h'.pools pp' = h.pools pp'
  brk : h.brk ≤ h'.brk
  holds : ∀ b m, h'.Holds l b m ↔ h.Holds l b m
  buffer : ∀ pool, h.pools pp = some pool → a ∈ pool.pxFreelist ∨ h.brk ≤ a

/-- The free resources of a pool are blocks in memory, and no buffers of the netbufs. -/
def Spare (h : Heap) (pp : PoolPtr) (l : List NbPtr) : Prop :=
  ∀ b m, h.Holds l b m → SparePool h pp b.block

/-- Two pools which share no free resource. -/
def PoolsApart (h : Heap) (pp pp' : PoolPtr) : Prop :=
  pp' ≠ pp ∧ ∀ pool pool', h.pools pp = some pool → h.pools pp' = some pool' →
    ∀ x ∈ pool.pxFreelist, x ∉ pool'.pxFreelist

/-! ### Contents -/

theorem chainContent_congr (hnb : ∀ q ∈ l, h'.netbufs q = h.netbufs q)
    (hmem : ∀ q ∈ l, ∀ nb, h.netbufs q = some nb → ∀ p, nb.pxBuf = some p →
      h'.mem p.block = h.mem p.block) : chainContent h' l = chainContent h l := by
  induction l with
  | nil => rfl
  | cons q qs ih =>
    have hrest := ih (fun x hx => hnb x (List.mem_cons_of_mem q hx)) fun x hx =>
      hmem x (List.mem_cons_of_mem q hx)
    have hhead : h'.content q = h.content q := by
      rw [Heap.content, Heap.content, hnb q List.mem_cons_self]
      cases hq : h.netbufs q with
      | none => rfl
      | some nb =>
        simp only [Option.bind_eq_bind, Option.bind_some]
        split_ifs
        · rfl
        · cases hbuf : nb.pxBuf with
          | none => rfl
          | some ptr =>
            simp only [Option.bind_some, load, hmem q List.mem_cons_self nb hq ptr hbuf]
    rw [chainContent, chainContent, hhead, hrest]

/-- Contents do not depend on the place of a netbuf in a chain. -/
theorem chainContent_of_content
    (hsame : ∀ x, (h'.netbufs x).map Netbuf.content = (h.netbufs x).map Netbuf.content)
    (hmem : h'.mem = h.mem) : chainContent h' l = chainContent h l := by
  induction l with
  | nil => rfl
  | cons q qs ih =>
    have hhead : h'.content q = h.content q := by
      cases hq : h.netbufs q with
      | none =>
        have hq' := hsame q
        rw [hq, Option.map_none, Option.map_eq_none_iff] at hq'
        rw [Heap.content, Heap.content, hq, hq']
        rfl
      | some nb =>
        obtain ⟨nb', hq', hfreed, hbuf, hsize⟩ := netbuf_of_content (hsame q) hq
        simp only [Heap.content, hq, hq', hfreed, hbuf, hsize, hmem, Option.bind_eq_bind,
          Option.bind_some]
    rw [chainContent, chainContent, hhead, ih]

/-- A chain whose netbufs and buffers are as they were. -/
theorem Carries.congr (hc : Carries pf h pxDu l bs) (hfresh : h'.Fresh)
    (hnb : ∀ q ∈ l, h'.netbufs q = h.netbufs q)
    (hblocks : ∀ b m, h.Holds l b m → SameBlock h h' b.block ∧ h'.mem b.block = h.mem b.block) :
    Carries pf h' pxDu l bs := by
  have hbuf : ∀ q ∈ l, ∀ nb, h.netbufs q = some nb → ∀ p, nb.pxBuf = some p →
      h'.mem p.block = h.mem p.block := by
    intro q hq nb hqnb p hp
    obtain ⟨s, hs, hblock⟩ := hc.inside q hq nb hqnb p hp
    exact hblock ▸ (hblocks s nb.freemethod ⟨q, hq, nb, hqnb, hs, rfl⟩).2
  refine ⟨⟨hc.chain.congr hfresh hnb fun b m hb => (hblocks b m hb).1, fun q hq => ?_,
    fun q hq nb hqnb hlive => ?_, fun q hq nb hqnb p hp => ?_⟩, ?_⟩
  · rw [Heap.InUse, hnb q hq]
    exact hc.live q hq
  · rw [hnb q hq] at hqnb
    obtain ⟨p, b, hp, hb, hfit⟩ := hc.readable q hq nb hqnb hlive
    exact ⟨p, b, hp, (hbuf q hq nb hqnb p hp).trans hb, hfit⟩
  · rw [hnb q hq] at hqnb
    exact hc.inside q hq nb hqnb p hp
  · rw [chainContent_congr hnb hbuf, hc.content]

/-- The size of a data unit is the number of its bytes. -/
theorem Carries.totalSize (hc : Carries pf h pxDu l bs) :
    unNetBufTotalSize h pxDu = .ok bs.length := by
  obtain ⟨nb, hnb⟩ := hc.chain.netbuf hc.mem
  have hchain := hc.chain.links.chainFrom (hc.chain.fresh.length_le hc.chain.links hc.chain.nodup)
  rw [unNetBufTotalSize, Heap.netbuf_of_some hnb, Exec.ok_bind, hc.chain.first pxDu hc.mem nb hnb,
    hchain, Exec.ok_bind, sizeSum_content hc.content]

/-! ### The buffer of a header -/

section Alloc

variable {pp : PoolPtr} {pool : RsrcPool} {name : Option String}

/-- What a pool hands out is a buffer of its own, beside those of the data unit. -/
theorem Carries.alloc (hc : Carries pf h pxDu l bs) (hpool : h.pools pp = some pool)
    (hspare : Spare h pp l) (halloc : pxRsrcAlloc pf h (some pp) name = .ok (some a, h')) :
    Carries pf h' pxDu l bs ∧ h.brk ≤ h'.brk ∧ h'.netbufs = h.netbufs ∧
      ∃ hdr, hdr.length = pool.uxSizeEach ∧ Loose pf h' l a hdr := by
  have hframe : ∀ b m, h.Holds l b m →
      Beside h h' b.block ∧ ∃ bs, Buffer pf h' b.block a bs := by
    intro b m hb
    have hrun := halloc
    rw [pxRsrcAlloc, hpool, inBounds_some, Exec.ok_bind] at hrun
    obtain ⟨hbeside, hbuf⟩ := varAlloc_frame hc.chain.fresh (hspare b m hb) (hc.block_lt hb) hrun
    exact ⟨hbeside, hbuf a rfl⟩
  obtain ⟨b₀, m₀, hb₀⟩ := hc.holds
  have hbeside := (hframe b₀ m₀ hb₀).1
  obtain ⟨husable, hdr, hmem, hlen⟩ := pxRsrcAlloc_usable hpool halloc
  refine ⟨hc.congr hbeside.fresh (fun q _ => congrFun hbeside.netbufs q) fun b m hb =>
    ⟨(hframe b m hb).1.same, (hframe b m hb).1.bytes⟩, hbeside.brk, hbeside.netbufs, hdr, hlen,
    hmem, husable, fun b m hb => ?_⟩
  rw [Heap.holds_congr fun q _ => congrFun hbeside.netbufs q] at hb
  obtain ⟨-, bs', hbuf⟩ := hframe b m hb
  exact hbuf.apart

theorem takeResource_elsewhere {n : ℕ} {o : Option ℕ} {pp' : PoolPtr} (hne : pp' ≠ pp)
    (hrun : takeResource h pp pool name n = .ok (o, h')) :
    h'.pools pp' = h.pools pp' ∧ ∃ x ∈ pool.pxFreelist, o = some x := by
  rw [takeResource] at hrun
  cases hlist : pool.pxFreelist with
  | nil =>
    rw [hlist] at hrun
    cases hrun
  | cons x rest =>
    rw [hlist] at hrun
    cases hrun
    exact ⟨Function.update_of_ne hne _ _, x, List.mem_cons_self, rfl⟩

theorem add2Pool_elsewhere {pool' : RsrcPool} {uiCount : UInt16} {len added : ℕ} (hf : h.Fresh)
    (hrun : prviRsrcAdd2Pool h pp pool uiCount len = .ok (added, h', pool')) :
    h'.pools = h.pools ∧ ∀ x ∈ pool'.pxFreelist, x ∈ pool.pxFreelist ∨ h.brk ≤ x := by
  rw [prviRsrcAdd2Pool] at hrun
  by_cases hz : uiCount = 0
  · rw [if_pos hz] at hrun
    cases hrun
    exact ⟨rfl, fun x hx => Or.inl hx⟩
  · rw [if_neg hz] at hrun
    by_cases hg : h.mallocOk h.calls = true
    · rw [if_pos hg] at hrun
      obtain ⟨low, hlow⟩ : ∃ low, low = (if pool.uiNumInUse.toNat + pool.uiNumFree.toNat = 0 then
        { pool with uiLowWater := uiCount } else pool) := ⟨_, rfl⟩
      have hlist : low.pxFreelist = pool.pxFreelist := by
        rw [hlow]
        split <;> rfl
      obtain ⟨-, -, -, hpools, -, hnew⟩ :=
        addResources_frame pp len uiCount.toNat (show h.called.Fresh from hf) low
      simp only [← hlow] at hrun
      cases hrun
      exact ⟨hpools, fun x hx => (hlist ▸ hnew x hx).imp_right And.left⟩
    · rw [if_neg hg] at hrun
      cases hrun

/-- Another pool stays as it is, and the resource was free or is new. -/
theorem pxRsrcAlloc_elsewhere {pp' : PoolPtr} (hf : h.Fresh) (hpool : h.pools pp = some pool)
    (hne : pp' ≠ pp) (halloc : pxRsrcAlloc pf h (some pp) name = .ok (some a, h')) :
    h'.pools pp' = h.pools pp' ∧ (a ∈ pool.pxFreelist ∨ h.brk ≤ a) := by
  rw [pxRsrcAlloc, hpool, inBounds_some, Exec.ok_bind, pxRsrcVarAlloc] at halloc
  by_cases hv : pf.valgrind = true
  · rw [if_pos hv, pvRsMemAlloc] at halloc
    split_ifs at halloc
    · cases halloc
      exact ⟨rfl, Or.inr (Nat.le_refl _)⟩
    · cases halloc
  · simp only [hv, hpool, inBounds_some, Exec.ok_bind, Bool.false_eq_true, if_false] at halloc
    by_cases hrefused : rsrcRefused pool name pool.uxSizeEach = true
    · rw [if_pos hrefused] at halloc
      cases halloc
    · rw [if_neg hrefused] at halloc
      by_cases hempty : pool.pxFreelist.isEmpty = true
      · rw [if_pos hempty] at halloc
        obtain ⟨⟨added, h₁, pool₁⟩, hadd, halloc⟩ := Exec.bind_eq_ok.mp halloc
        obtain ⟨hpools, hnew⟩ := add2Pool_elsewhere hf hadd
        by_cases hzero : added = 0
        · simp only [hzero, if_true] at halloc
          cases halloc
        · simp only [hzero, if_false] at halloc
          obtain ⟨hother, x, hx, ho⟩ := takeResource_elsewhere hne halloc
          cases ho
          exact ⟨hother.trans (congrFun hpools pp'), hnew a hx⟩
      · rw [if_neg hempty] at halloc
        obtain ⟨hother, x, hx, ho⟩ := takeResource_elsewhere hne halloc
        cases ho
        exact ⟨hother, Or.inl hx⟩

end Alloc

/-! ### The netbuf of a header -/

/-- The netbuf which `pxNetBufNew` makes for the buffer of a header. -/
def headNetbuf (eType : NetBufType) (xPool : Option PoolPtr) (p a n : ℕ) : Netbuf where
  pxNext := none
  pxFirst := p
  eType := eType
  unSz := n
  pxBuf := some ⟨a, 0⟩
  pxBufStart := some ⟨a, 0⟩
  xFreed := false
  freemethod := some .vNetBufFreePool
  xPool := xPool

theorem Carries.netbuf_ne (hc : Carries pf h pxDu l bs) : ∀ x ∈ l, x ≠ h.brk := by
  intro x hx
  obtain ⟨nb, hnb⟩ := hc.chain.netbuf hx
  exact Nat.ne_of_lt (hc.chain.fresh.lt_of_netbuf hnb)

/-- A netbuf in use holds what lies behind its pointer. -/
theorem content_live {nb : Netbuf} {ptr : Ptr} {b : Bytes} (hp : h.netbufs p = some nb)
    (hlive : nb.xFreed = false) (hbuf : nb.pxBuf = some ptr) (hmem : h.mem ptr.block = some b)
    (hin : ptr.off + nb.unSz ≤ b.length) : h.content p = some ((b.drop ptr.off).take nb.unSz) := by
  rw [Heap.content, hp]
  by_cases hz : nb.unSz = 0
  · simp [hlive, hz]
  · simp [hlive, hz, hbuf, load_eq_some hmem hin]

/-- A netbuf which begins and ends with its buffer. -/
theorem content_whole {nb : Netbuf} (hp : h.netbufs p = some nb) (hlive : nb.xFreed = false)
    (hbuf : nb.pxBuf = some ⟨a, 0⟩) (hsize : nb.unSz = hdr.length) (hmem : h.mem a = some hdr) :
    h.content p = some hdr := by
  rw [content_live hp hlive hbuf hmem (by rw [hsize, Nat.zero_add]), hsize, List.drop_zero,
    List.take_of_length_le (Nat.le_refl _)]

section Head

variable {eType : NetBufType} {xPool : Option PoolPtr}

/-- The new netbuf beside the chain. -/
theorem Carries.beside (hc : Carries pf h pxDu l bs) (hloose : Loose pf h l a hdr) (nb : Netbuf) :
    Carries pf (h.withNetbuf nb) pxDu l bs ∧ Loose pf (h.withNetbuf nb) l a hdr := by
  have hold : ∀ x ∈ l, (h.withNetbuf nb).netbufs x = h.netbufs x := fun x hx =>
    Heap.withNetbuf_of_ne h _ (hc.netbuf_ne x hx)
  have hsame : ∀ c, SameBlock h (h.withNetbuf nb) c := fun c => ⟨rfl, rfl, fun _ hp => hp⟩
  refine ⟨hc.congr (hc.chain.fresh.withNetbuf nb) hold fun b m _ => ⟨hsame b.block, rfl⟩,
    hloose.mem, hloose.usable.congr (hsame a), fun b m hb => ?_⟩
  exact hloose.apart b m ((Heap.holds_congr hold b m).mp hb)

variable (hc : Carries pf h pxDu l bs) (hloose : Loose pf h l a hdr)
  (hp : h.netbufs p = some (headNetbuf eType xPool p a hdr.length))

include hc hloose hp

theorem Carries.readable_cons : Readable h (p :: l) := by
  intro q hq nb hnb hlive
  rcases List.mem_cons.mp hq with rfl | hql
  · rw [hp] at hnb
    cases hnb
    exact ⟨⟨a, 0⟩, hdr, rfl, hloose.mem, Nat.le_of_eq (Nat.zero_add _)⟩
  · exact hc.readable q hql nb hnb hlive

omit hloose in
theorem Carries.inside_cons : ∀ q ∈ p :: l, ∀ nb, h.netbufs q = some nb → ∀ ptr,
    nb.pxBuf = some ptr → ∃ s, nb.pxBufStart = some s ∧ s.block = ptr.block := by
  intro q hq nb hnb ptr hptr
  rcases List.mem_cons.mp hq with rfl | hql
  · rw [hp] at hnb
    cases hnb
    cases hptr
    exact ⟨⟨a, 0⟩, rfl, rfl⟩
  · exact hc.inside q hql nb hnb ptr hptr

/-- The chain behind the netbuf of a header. -/
theorem Carries.joined (hj : Joined pf h h' p [p] l) : Headed pf h' p l eType a hdr bs := by
  have hmem : h'.mem = h.mem := by rw [hj.rest]
  obtain ⟨nb, hnb, -, hbuf, hsize⟩ := netbuf_of_content (hj.same p) hp
  have htype := congrArg (Option.map (·.eType)) (hj.same p)
  rw [hnb, hp] at htype
  refine ⟨⟨⟨hj.chain, fun q hq => ?_,
    readable_of_content (hc.readable_cons hloose hp) hj.same hmem,
    fun q hq nb' hnb' ptr hptr => ?_⟩, ?_⟩, ⟨nb, hnb, Option.some.inj htype, hbuf, hsize⟩,
    hmem ▸ hloose.mem, ?_, fun b m hb => ?_⟩
  · rw [inUse_of_content hj.same]
    rcases List.mem_cons.mp hq with rfl | hql
    · exact ⟨_, hp, rfl⟩
    · exact hc.live q hql
  · obtain ⟨nb₀, hnb₀, -, hbuf₀, -⟩ := netbuf_of_content (hj.same q).symm hnb'
    obtain ⟨s, hs, hblock⟩ := hc.inside_cons hp q hq nb₀ hnb₀ ptr (hbuf₀.trans hptr)
    have hheld := held_of_content hj.same q
    rw [Heap.held_of_some hnb', Heap.held_of_some hnb₀, hs] at hheld
    exact ⟨s, hheld, hblock⟩
  · rw [chainContent_of_content hj.same hmem]
    exact chainContent_cons.mpr ⟨hdr, bs, content_whole hp rfl rfl rfl hloose.mem, hc.content, rfl⟩
  · rw [chainContent_of_content hj.same hmem, hc.content]
  · exact hloose.apart b m ((holds_of_content hj.same b m).mp hb)

end Head

/-- The data unit is hung behind a new netbuf. -/
theorem Carries.push {eType : NetBufType} {xPool : Option PoolPtr} (hc : Carries pf h pxDu l bs)
    (hloose : Loose pf h l a hdr) (happend : vNetBufAppend pf
      (h.withNetbuf (headNetbuf eType xPool h.brk a hdr.length)) h.brk pxDu = .ok h') :
    Headed pf h' h.brk l eType a hdr bs ∧ h'.pools = h.pools ∧ h'.brk = h.brk + 1 ∧
      ∀ b m, h'.Holds l b m ↔ h.Holds l b m := by
  obtain ⟨h₁, hh₁⟩ : ∃ h₁, h₁ = h.withNetbuf (headNetbuf eType xPool h.brk a hdr.length) :=
    ⟨_, rfl⟩
  have hself : h₁.netbufs h.brk = some (headNetbuf eType xPool h.brk a hdr.length) := by
    rw [hh₁, Heap.withNetbuf_self]
  obtain ⟨hc₁, hloose₁⟩ := hc.beside hloose (headNetbuf eType xPool h.brk a hdr.length)
  rw [← hh₁] at hc₁ hloose₁ happend
  have hhead : WholeChain pf h₁ h.brk [h.brk] :=
    .single hc₁.chain.fresh hself rfl rfl rfl hloose₁.usable
  obtain ⟨h₂, hcode, hj⟩ := hhead.join hc₁.chain List.mem_cons_self ⟨_, hself, rfl⟩ hc.mem hc₁.live
    (fun x hx hxf => hc.netbuf_ne x hx (List.mem_singleton.mp hxf)) fun b m b' m' hb hb' => by
      obtain ⟨hstart, -⟩ := (Heap.holds_singleton hself).mp hb
      cases hstart
      exact hloose₁.apart b' m' hb'
  obtain rfl : h₂ = h' := Except.ok.inj (hcode.symm.trans happend)
  refine ⟨hc₁.joined hloose₁ hself hj, ?_, ?_, fun b m => ?_⟩
  · rw [hj.rest, hh₁]
    rfl
  · rw [hj.rest, hh₁]
    rfl
  · rw [holds_of_content hj.same]
    exact Heap.holds_congr (fun x hx => by
      rw [hh₁, Heap.withNetbuf_of_ne h _ (hc.netbuf_ne x hx)]) b m

theorem pxNetBufNew_head {eType : NetBufType} {xPool : Option PoolPtr} {n : ℕ}
    (hnew : pxNetBufNew pf h xPool eType (some ⟨a, 0⟩) n (some .vNetBufFreePool) =
      .ok (some p, h')) : p = h.brk ∧ h' = h.withNetbuf (headNetbuf eType xPool h.brk a n) := by
  obtain ⟨-, -, hnew⟩ := Exec.bind_eq_ok.mp hnew
  obtain ⟨-, -, hnew⟩ := Exec.bind_eq_ok.mp hnew
  rw [pvRsMemAllocNetbuf] at hnew
  split_ifs at hnew
  · cases hnew
    exact ⟨rfl, rfl⟩
  · cases hnew

/-- A header from a pool comes in front of the data unit. -/
theorem Carries.header {pp : PoolPtr} {pool : RsrcPool} {name : Option String}
    {eType : NetBufType} {xPool : Option PoolPtr} {h₁ h₂ : Heap} (hc : Carries pf h pxDu l bs)
    (hpool : h.pools pp = some pool) (hspare : Spare h pp l)
    (halloc : pxRsrcAlloc pf h (some pp) name = .ok (some a, h₁))
    (hnew : pxNetBufNew pf h₁ xPool eType (some ⟨a, 0⟩) pool.uxSizeEach
      (some .vNetBufFreePool) = .ok (some p, h₂))
    (happend : vNetBufAppend pf h₂ p pxDu = .ok h') :
    ∃ hdr, hdr.length = pool.uxSizeEach ∧ Headed pf h' p l eType a hdr bs ∧
      Beyond h h' pp l a := by
  obtain ⟨hc₁, hbrk, hnbs, hdr, hlen, hloose⟩ := hc.alloc hpool hspare halloc
  obtain ⟨rfl, rfl⟩ := pxNetBufNew_head hnew
  rw [← hlen] at happend
  obtain ⟨hheaded, hpools, hbrk', hholds⟩ := hc₁.push hloose happend
  refine ⟨hdr, hlen, hheaded, fun pp' hne => ?_, ?_, fun b m => ?_, fun pool' hpool' => ?_⟩
  · rw [hpools]
    exact (pxRsrcAlloc_elsewhere hc.chain.fresh hpool hne halloc).1
  · rw [hbrk']
    exact Nat.le_succ_of_le hbrk
  · rw [hholds]
    exact Heap.holds_congr (fun x _ => congrFun hnbs x) b m
  · obtain rfl : pool = pool' := Option.some.inj (hpool.symm.trans hpool')
    exact (pxRsrcAlloc_elsewhere hc.chain.fresh hpool (Nat.succ_ne_self pp) halloc).2

/-- A pool from which the next header comes can still spare its resources. -/
theorem Headed.spare {pp pp' : PoolPtr} {eType : NetBufType} (hh : Headed pf h' p l eType a hdr bs)
    (hb : Beyond h h' pp l a) (hpool : (h.pools pp).isSome) (hspare : Spare h pp' l)
    (hapart : PoolsApart h pp pp') (hl : ∃ b m, h.Holds l b m) : Spare h' pp' (p :: l) := by
  obtain ⟨pool, hpool⟩ := Option.isSome_iff_exists.mp hpool
  obtain ⟨b₀, m₀, hb₀⟩ := hl
  intro b m hheld pool' hpool' x hx
  rw [hb.pools pp' hapart.1] at hpool'
  have hlt := (hspare b₀ m₀ hb₀ pool' hpool' x hx).1
  refine ⟨Nat.lt_of_lt_of_le hlt hb.brk, ?_⟩
  obtain ⟨q, hq, nb, hnb, hstart, hm⟩ := hheld
  rcases List.mem_cons.mp hq with rfl | hql
  · obtain ⟨nb', hnb', -, hbuf, -⟩ := hh.netbuf
    obtain rfl : nb = nb' := Option.some.inj (hnb.symm.trans hnb')
    obtain ⟨s, hs, hblock⟩ := hh.carries.inside q hq nb hnb _ hbuf
    obtain rfl : b = s := Option.some.inj (hstart.symm.trans hs)
    rw [hblock]
    rintro rfl
    rcases hb.buffer pool hpool with hfree | hge
    · exact hapart.2 pool pool' hpool hpool' _ hfree hx
    · exact absurd hlt (Nat.not_lt.mpr hge)
  · exact (hspare b m ((hb.holds b m).mp ⟨q, hql, nb, hnb, hstart, hm⟩) pool' hpool' x hx).2

theorem Headed.ptr {eType : NetBufType} (hh : Headed pf h p l eType a hdr bs) :
    pvNetBufPtr pf h p = .ok (some ⟨a, 0⟩) := by
  obtain ⟨nb, hnb, -, hbuf, -⟩ := hh.netbuf
  obtain ⟨nb', hnb', hlive⟩ := hh.carries.live p List.mem_cons_self
  obtain rfl : nb = nb' := Option.some.inj (hnb.symm.trans hnb')
  simp only [pvNetBufPtr, Heap.netbuf_of_some hnb, hlive, Bool.not_false, rsAssert_true,
    Exec.ok_bind, hbuf]
  rfl

/-! ### Filling in a header -/

/-- The header is filled in part by part, and nothing else of the data unit changes. -/
theorem Headed.write {eType : NetBufType} (hh : Headed pf h p l eType a hdr bs) (off : ℕ)
    (xs : Bytes) (hfit : off + xs.length ≤ hdr.length) :
    h.write (some ⟨a, 0⟩) off xs = .ok (h.setBlock a (some (splice hdr off xs))) ∧
      Headed pf (h.setBlock a (some (splice hdr off xs))) p l eType a (splice hdr off xs) bs := by
  obtain ⟨nb, hnb, htype, hbuf, hsize⟩ := hh.netbuf
  obtain ⟨nb', hnb', hlive⟩ := hh.carries.live p List.mem_cons_self
  obtain rfl : nb = nb' := Option.some.inj (hnb.symm.trans hnb')
  have hlen : (splice hdr off xs).length = hdr.length := splice_length hfit
  have hself : (h.setBlock a (some (splice hdr off xs))).mem a = some (splice hdr off xs) :=
    Heap.setBlock_self _ _ _
  have hother : ∀ q ∈ l, ∀ nb, h.netbufs q = some nb → ∀ ptr, nb.pxBuf = some ptr →
      (h.setBlock a (some (splice hdr off xs))).mem ptr.block = h.mem ptr.block := by
    intro q hq nb hqnb ptr hptr
    obtain ⟨s, hs, hblock⟩ :=
      hh.carries.inside q (List.mem_cons_of_mem p hq) nb hqnb ptr hptr
    exact setBlock_of_ne (hblock ▸ (hh.apart s nb.freemethod ⟨q, hq, nb, hqnb, hs, rfl⟩).symm) _
  have hbehind : chainContent (h.setBlock a (some (splice hdr off xs))) l = some bs := by
    have hnbs : ∀ q ∈ l, (h.setBlock a (some (splice hdr off xs))).netbufs q = h.netbufs q :=
      fun _ _ => rfl
    rw [chainContent_congr hnbs hother, hh.behind]
  have hfit₀ : (⟨a, 0⟩ : Ptr).off + off + xs.length ≤ hdr.length := by simpa using hfit
  have hwrite := Heap.write_of_block (p := ⟨a, 0⟩) hh.mem hfit₀
  refine ⟨by simpa using hwrite, ⟨⟨wholeChain_setBlock hh.carries.chain hh.mem _, hh.carries.live,
    readable_setBlock hh.carries.readable hh.mem hlen, hh.carries.inside⟩, ?_⟩,
    ⟨nb, hnb, htype, hbuf, hsize.trans hlen.symm⟩, hself, hbehind, hh.apart⟩
  exact chainContent_cons.mpr ⟨splice hdr off xs, bs,
    content_whole hnb hlive hbuf (hsize.trans hlen.symm) hself, hbehind, rfl⟩

end RinaSense.Shim.OnChain
