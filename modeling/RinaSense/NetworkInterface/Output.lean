import RinaSense.Library.Drain
import RinaSense.Shim.Headers

/-!
# Output of the TAP interface

The two builds of `xNetworkInterfaceOutput` of the Linux port. One copies the frame into a
buffer and writes that piece by piece, the other lets the device gather the netbufs. A device is
the list of its answers to the next writes.
-/

namespace RinaSense.NetworkInterface

open Common Shim.OnChain Library.Memory Library.Drain

variable (pf : Platform)

def IFF_UP : BitVec 32 := 1

/-- `nCurrentIffFlags` is the word which the monitor has saved last. -/
def prvLinuxTapCheckFlags (nCurrentIffFlags nFlags : BitVec 32) : Bool :=
  0 < (nCurrentIffFlags &&& nFlags).toInt

/-- The loop of the build which copies. -/
def writeLoop (h : Heap) (pvBuf : Option Ptr) : List Answer → ℕ → ℕ → Exec (Bool × List Bytes)
  | [], _, _ => .error .endless
  | device :: answers, unWrIdx, unWrLeft => do
    let bs ← h.read pvBuf unWrIdx unWrLeft
    match device.taken unWrLeft with
    | none => return (false, [])
    | some nWriteSz => do
      if unWrLeft - nWriteSz > 0 then
        let (xStatus, packets) ←
          writeLoop h pvBuf answers (unWrIdx + nWriteSz) (unWrLeft - nWriteSz)
        return (xStatus, bs.take nWriteSz :: packets)
      else return (true, [bs.take nWriteSz])

/-- The result comes with what the device has taken. A buffer which could not be filled is
released, and used all the same. -/
def xNetworkInterfaceOutput (nCurrentIffFlags : BitVec 32) (answers : List Answer) (h : Heap)
    (pxNbFrame : NbPtr) : Exec (Bool × List Bytes × Heap) := do
  let unTotalSz ← unNetBufTotalSize h pxNbFrame
  if ¬ prvLinuxTapCheckFlags nCurrentIffFlags IFF_UP then return (false, [], h)
  match pvRsMemAlloc h unTotalSz with
  | (none, h) => return (false, [], h)
  | (some pvBuf, h) => do
    let (unRead, h) ← unNetBufRead h pxNbFrame (some ⟨pvBuf, 0⟩) 0 unTotalSz
    let h ← if unRead ≠ unTotalSz then vRsMemFree h (some ⟨pvBuf, 0⟩) else pure h
    let (xStatus, packets) ← writeLoop h (some ⟨pvBuf, 0⟩) answers 0 unTotalSz
    let h ← vRsMemFree h (some ⟨pvBuf, 0⟩)
    return (xStatus, packets, h)

/-! ### The build with vectors -/

def sizeofIovec : ℕ := 16

/-- The live netbufs of a list of addresses, with where their bytes are and how many. -/
def iovecsOf (h : Heap) : List NbPtr → Exec (List (Option Ptr × ℕ))
  | [] => .ok []
  | p :: ps => do
    let nb ← h.netbuf p
    let rest ← iovecsOf h ps
    return if nb.xFreed then rest else (nb.pxBuf, nb.unSz) :: rest

/-- The vectors, which `unNetBufCount` counts first, stand in a block of their own. -/
def prvNetBufToIovec (h : Heap) (pxNb : NbPtr) :
    Exec (Option ℕ × List (Option Ptr × ℕ) × Heap) := do
  let nb ← h.netbuf pxNb
  let chain ← chainFrom h h.brk (some nb.pxFirst)
  let iovecs ← iovecsOf h chain
  let (block, h) := pvRsMemAlloc h (iovecs.length * sizeofIovec)
  return (block, iovecs, h)

/-- What `writev` gathers. -/
def gather (h : Heap) : List (Option Ptr × ℕ) → Exec Bytes
  | [] => .ok []
  | (iov_base, iov_len) :: iovecs => do
    let bs ← h.read iov_base 0 iov_len
    let rest ← gather h iovecs
    return bs ++ rest

/-- The loop of the build with vectors, which are the same for each call. A device does not
follow a null pointer to vectors. -/
def writevLoop (h : Heap) (block : Option ℕ) (iovecs : List (Option Ptr × ℕ)) :
    List Answer → UInt64 → Exec (Bool × List Bytes)
  | [], _ => .error .endless
  | device :: answers, unWriteSzLeft => do
    if block = none ∧ iovecs ≠ [] then return (false, [])
    let bs ← gather h iovecs
    match device.taken bs.length with
    | none => return (false, [])
    | some nWriteSz => do
      if unWriteSzLeft - nWriteSz.toUInt64 > 0 then
        let (xStatus, packets) ←
          writevLoop h block iovecs answers (unWriteSzLeft - nWriteSz.toUInt64)
        return (xStatus, bs.take nWriteSz :: packets)
      else return (true, [bs.take nWriteSz])

/-- The other build of `xNetworkInterfaceOutput`. -/
def xNetworkInterfaceOutputIovec (nCurrentIffFlags : BitVec 32) (answers : List Answer) (h : Heap)
    (pxNbFrame : NbPtr) : Exec (Bool × List Bytes × Heap) := do
  let unWriteSzLeft ← unNetBufTotalSize h pxNbFrame
  if ¬ prvLinuxTapCheckFlags nCurrentIffFlags IFF_UP then return (false, [], h)
  let (block, iovecs, h) ← prvNetBufToIovec h pxNbFrame
  let (xStatus, packets) ← writevLoop h block iovecs answers unWriteSzLeft.toUInt64
  let h ← vRsMemFree h (block.map (⟨·, 0⟩))
  return (xStatus, packets, h)

/-- Memory in which a block was allocated and released again. -/
def spent (h : Heap) : Heap := { h.called with brk := h.brk + 1 }

/-- Memory with a buffer for the bytes. -/
def buffered (h : Heap) (bs : Bytes) : Heap :=
  { h.called.setBlock h.brk (some bs) with brk := h.brk + 1 }

/-- The result of a call in a state of the interface in which it can write. -/
def drained (h : Heap) (answers : List Answer) (bs : Bytes) : Exec (Bool × List Bytes × Heap) :=
  match drain answers bs with
  | none => .error .endless
  | some (xStatus, packets) => .ok (xStatus, packets, spent h)

/-- The netbufs and the blocks which were there are as they were. -/
structure Intact (h h' : Heap) : Prop where
  fresh : h'.Fresh
  netbufs : h'.netbufs = h.netbufs
  blocks : ∀ c, (h.mem c).isSome → SameBlock h h' c ∧ h'.mem c = h.mem c

variable {pf} {h h' : Heap} {p a : ℕ} {l : List NbPtr} {bs b : Bytes} {answers : List Answer}
  {nCurrentIffFlags : BitVec 32}

/-! ### The buffer -/

/-- The loop drains the bytes of the buffer which are left. -/
theorem writeLoop_eq (hb : h.mem a = some b) (answers : List Answer) {i left : ℕ}
    (hend : i + left = b.length) :
    writeLoop h (some ⟨a, 0⟩) answers i left =
      match drain answers (b.drop i) with
      | none => .error .endless
      | some out => .ok out := by
  induction answers generalizing i left with
  | nil => rfl
  | cons device answers ih =>
    have hlen : (b.drop i).length = left := by
      rw [List.length_drop]
      omega
    have hread : h.read (some ⟨a, 0⟩) i left = .ok (b.drop i) := by
      have hin : (⟨a, 0⟩ : Ptr).off + i + left ≤ b.length := by
        rw [Nat.zero_add]
        exact Nat.le_of_eq hend
      rw [Heap.read_of_block hb hin, Nat.zero_add, List.take_of_length_le (Nat.le_of_eq hlen)]
    rw [writeLoop, hread, Exec.ok_bind]
    rcases taken_cases device left with hnone | ⟨k, hk, hshort⟩ | hwhole
    · rw [hnone, drain_error (by rw [hlen]; exact hnone)]
      rfl
    · have hmore : left - k > 0 := Nat.sub_pos_of_lt hk
      rw [hshort, drain_short (by rw [hlen]; exact hshort) (by rw [hlen]; exact hk),
        List.drop_drop]
      simp only [hmore, if_true, ih (show i + k + (left - k) = b.length by omega)]
      cases drain answers (b.drop (i + k)) <;> rfl
    · have hdone : ¬ left - left > 0 := by omega
      rw [hwhole, drain_whole (by rw [hlen]; exact hwhole)]
      simp only [hdone, if_false, List.take_of_length_le (Nat.le_of_eq hlen)]
      rfl

/-- A frame in memory with its bytes. Some of its netbufs may be freed. -/
structure Framed (pf : Platform) (h : Heap) (p : NbPtr) (l : List NbPtr) (bs : Bytes) : Prop where
  chain : WholeChain pf h p l
  inUse : h.InUse p
  readable : Readable h l
  content : chainContent h l = some bs

theorem framed_of_carries (hc : Carries pf h p l bs) : Framed pf h p l bs :=
  ⟨hc.chain, hc.live p hc.mem, hc.readable, hc.content⟩

/-- The bytes of a chain, whose netbufs are there, are in memory. -/
theorem exists_content (hnb : ∀ q ∈ l, ∃ nb, h.netbufs q = some nb) (hr : Readable h l) :
    ∃ bs, chainContent h l = some bs := by
  induction l with
  | nil => exact ⟨[], rfl⟩
  | cons q qs ih =>
    obtain ⟨nb, hq⟩ := hnb q List.mem_cons_self
    obtain ⟨rest, hrest⟩ := ih (fun x hx => hnb x (List.mem_cons_of_mem q hx)) fun x hx =>
      hr x (List.mem_cons_of_mem q hx)
    have hhead : ∃ xs, h.content q = some xs := by
      cases hlive : nb.xFreed with
      | true => exact ⟨[], by simp [Heap.content, hq, hlive]⟩
      | false =>
        obtain ⟨ptr, b, hbuf, hmem, hin⟩ := hr q List.mem_cons_self nb hq hlive
        exact ⟨_, content_live hq hlive hbuf hmem hin⟩
    obtain ⟨xs, hxs⟩ := hhead
    exact ⟨xs ++ rest, chainContent_cons.mpr ⟨xs, rest, hxs, hrest, rfl⟩⟩

/-- Contents stay if the blocks stay. -/
theorem content_kept (hnb : h'.netbufs = h.netbufs)
    (hmem : ∀ c, (h.mem c).isSome → h'.mem c = h.mem c) (hc : chainContent h l = some bs) :
    chainContent h' l = some bs := by
  induction l generalizing bs with
  | nil => exact hc
  | cons q qs ih =>
    obtain ⟨xs, ys, hxs, hys, rfl⟩ := chainContent_cons.mp hc
    refine chainContent_cons.mpr ⟨xs, ys, ?_, ih hys, rfl⟩
    obtain ⟨nb, hq, ⟨hfreed, rfl⟩ | ⟨hlive, hz, rfl⟩ | ⟨hlive, ptr, src, hbuf, hsrc, hin, rfl⟩⟩ :=
      Heap.content_cases hxs
    · simp [Heap.content, hnb, hq, hfreed]
    · simp [Heap.content, hnb, hq, hz]
    · have hsrc' : h'.mem ptr.block = some src := by
        rw [hmem ptr.block (by rw [hsrc]; rfl), hsrc]
      exact content_live (hnb ▸ hq) hlive hbuf hsrc' hin

theorem buffered_kept (hf : h.Fresh) (b : Bytes) (c : ℕ) (hc : (h.mem c).isSome) :
    (buffered h b).mem c = h.mem c := by
  refine Function.update_of_ne (fun heq => ?_) _ _
  rw [heq, (hf h.brk (Nat.le_refl _)).2] at hc
  cases hc

/-- Nothing is left of the buffer. -/
theorem buffer_freed (hf : h.Fresh) (b : Bytes) :
    vRsMemFree (buffered h b) (some ⟨h.brk, 0⟩) = .ok (spent h) := by
  have hself : (buffered h b).mem h.brk = some b := Function.update_self _ _ _
  have hnone : h.mem h.brk = none := (hf h.brk (Nat.le_refl _)).2
  rw [vRsMemFree, hself, if_pos ⟨rfl, rfl⟩]
  refine congrArg Except.ok ?_
  simp only [Heap.setBlock, buffered, spent, Heap.called, Function.update_idem]
  rw [Function.update_eq_self_iff.mpr hnone.symm]

theorem intact_spent (hf : h.Fresh) : Intact h (spent h) where
  fresh x hx := hf x (Nat.le_of_succ_le hx)
  netbufs := rfl
  blocks _ _ := ⟨⟨rfl, rfl, fun _ hp => hp⟩, rfl⟩

theorem intact_called (hf : h.Fresh) : Intact h h.called where
  fresh := hf
  netbufs := rfl
  blocks _ _ := ⟨⟨rfl, rfl, fun _ hp => hp⟩, rfl⟩

section Frame

variable (hc : Framed pf h p l bs)

include hc

theorem Framed.first : ∃ nb, h.netbufs p = some nb ∧ nb.pxFirst = p ∧ p ∈ l := by
  obtain ⟨nb, hnb, -⟩ := hc.inUse
  have hmem : p ∈ l := by
    have hlinks := hc.chain.links
    cases l with
    | nil => cases hlinks
    | cons q qs =>
      cases hlinks.1
      exact List.mem_cons_self
  exact ⟨nb, hnb, hc.chain.first p hmem nb hnb, hmem⟩

/-- The loops over the chain visit the netbufs of the list. -/
theorem Framed.walk (hnb : h'.netbufs = h.netbufs) (hbrk : h.brk ≤ h'.brk) :
    chainFrom h' h'.brk (some p) = .ok l := by
  have hlinks : NbLinks h' (some p) l none := hc.chain.links.congr fun q _ => by rw [hnb]
  exact hlinks.chainFrom ((hc.chain.fresh.length_le hc.chain.links hc.chain.nodup).trans hbrk)

theorem Framed.totalSize : unNetBufTotalSize h p = .ok bs.length := by
  obtain ⟨nb, hnb, hfirst, -⟩ := hc.first
  rw [unNetBufTotalSize, Heap.netbuf_of_some hnb, Exec.ok_bind, hfirst,
    hc.walk rfl (Nat.le_refl _), Exec.ok_bind, sizeSum_content hc.content]

/-- The frame is copied into the buffer as a whole. -/
theorem Framed.read {junk : Bytes} (hjunk : junk.length = bs.length) :
    unNetBufRead (buffered h junk) p (some ⟨h.brk, 0⟩) 0 bs.length =
      .ok (bs.length, buffered h bs) := by
  obtain ⟨nb, hnb, hfirst, -⟩ := hc.first
  have hcontent : chainContent (buffered h junk) l = some bs :=
    content_kept (show (buffered h junk).netbufs = h.netbufs from rfl)
      (buffered_kept hc.chain.fresh junk) hc.content
  have hap : Apart (buffered h junk) h.brk l := by
    intro q hq nb ptr hqnb hlive hptr
    obtain ⟨ptr', b, hptr', hb, -⟩ := hc.readable q hq nb hqnb hlive
    obtain rfl : ptr = ptr' := Option.some.inj (hptr.symm.trans hptr')
    exact Nat.ne_of_lt (hc.chain.fresh.lt_of_block hb)
  have hall : ((bs.drop 0).take bs.length) = bs := by
    rw [List.drop_zero, List.take_of_length_le (Nat.le_refl _)]
  have hself : (buffered h junk).mem h.brk = some junk := Function.update_self _ _ _
  have hread : readLoop (some ⟨h.brk, 0⟩) (buffered h junk) l 0 0 bs.length = _ :=
    readLoop_content hcontent hself hap
      (by rw [hall, hjunk]; exact Nat.le_of_eq (Nat.zero_add _))
  rw [hall, Nat.zero_add, Nat.zero_add] at hread
  have hcopied : splice junk 0 bs = bs := by
    have hfront := @splice_front junk [] bs hjunk.symm
    rwa [List.append_nil, List.append_nil] at hfront
  have hnb' : (buffered h junk).netbufs p = some nb := hnb
  have hwalk := hc.walk (show (buffered h junk).netbufs = h.netbufs from rfl) (Nat.le_succ h.brk)
  rw [unNetBufRead, Heap.netbuf_of_some hnb', Exec.ok_bind, hfirst,
    hwalk, Exec.ok_bind, hread, hcopied]
  simp [Heap.putBlock, buffered, Heap.setBlock]

/-- An interface which is up and has memory drains the bytes of the frame. -/
theorem output_eq (hup : prvLinuxTapCheckFlags nCurrentIffFlags IFF_UP = true)
    (hm : h.mallocOk h.calls = true) (answers : List Answer) :
    xNetworkInterfaceOutput nCurrentIffFlags answers h p = drained h answers bs := by
  have halloc : pvRsMemAlloc h bs.length = (some h.brk, buffered h (h.stale h.brk bs.length)) :=
    if_pos hm
  have hself : (buffered h bs).mem h.brk = some bs := Function.update_self _ _ _
  have hloop : writeLoop (buffered h bs) (some ⟨h.brk, 0⟩) answers 0 bs.length = _ :=
    writeLoop_eq hself answers (Nat.zero_add _)
  rw [List.drop_zero] at hloop
  rw [xNetworkInterfaceOutput, hc.totalSize, Exec.ok_bind, if_neg (not_not_intro hup), halloc]
  simp only [hc.read (h.stale_length h.brk bs.length), Exec.ok_bind, ne_eq, not_true_eq_false,
    if_false, pure_bind, hloop, drained]
  cases drain answers bs with
  | none => rfl
  | some out =>
    simp only [Exec.ok_bind, buffer_freed hc.chain.fresh]
    rfl

/-- Without the interface or memory nothing is written. -/
theorem output_refused (hno : ¬ (prvLinuxTapCheckFlags nCurrentIffFlags IFF_UP = true ∧
      h.mallocOk h.calls = true)) (answers : List Answer) :
    ∃ h', xNetworkInterfaceOutput nCurrentIffFlags answers h p = .ok (false, [], h') ∧
      Intact h h' := by
  rw [xNetworkInterfaceOutput, hc.totalSize, Exec.ok_bind]
  by_cases hup : prvLinuxTapCheckFlags nCurrentIffFlags IFF_UP = true
  · have hm : h.mallocOk h.calls = false := eq_false_of_ne_true fun hm => hno ⟨hup, hm⟩
    rw [if_neg (not_not_intro hup), pvRsMemAlloc, hm, if_neg Bool.false_ne_true]
    exact ⟨h.called, rfl, intact_called hc.chain.fresh⟩
  · rw [if_pos hup]
    exact ⟨h, rfl, hc.chain.fresh, rfl, fun c _ => ⟨.refl h c, rfl⟩⟩

/-- What the interface has taken is the beginning of the frame, and all of it exactly if the call
reports that it was sent. The frame stays in memory, and a device which settles some write lets
the call come to its end. -/
theorem output_writes_frame (nCurrentIffFlags : BitVec 32) (answers : List Answer) :
    ((∃ a ∈ answers, ∀ n, a.Settles n) →
      ∃ out, xNetworkInterfaceOutput nCurrentIffFlags answers h p = .ok out) ∧
    ∀ xStatus packets h',
      xNetworkInterfaceOutput nCurrentIffFlags answers h p = .ok (xStatus, packets, h') →
        packets.flatten <+: bs ∧ (xStatus = true ↔ packets ≠ [] ∧ packets.flatten = bs) ∧
          Intact h h' := by
  by_cases hyes : prvLinuxTapCheckFlags nCurrentIffFlags IFF_UP = true ∧ h.mallocOk h.calls = true
  · rw [output_eq hc hyes.1 hyes.2, drained]
    refine ⟨fun hsettles => ?_, fun xStatus packets h' hrun => ?_⟩
    · obtain ⟨⟨xStatus, packets⟩, hdrain⟩ := drain_ends hsettles bs
      exact ⟨_, by rw [hdrain]⟩
    · cases hdrain : drain answers bs with
      | none =>
        rw [hdrain] at hrun
        cases hrun
      | some out =>
        rw [hdrain] at hrun
        cases hrun
        obtain ⟨hbegin, hall⟩ := drain_pieces hdrain
        exact ⟨hbegin, hall, intact_spent hc.chain.fresh⟩
  · obtain ⟨h₁, hrun, hintact⟩ := output_refused hc hyes answers
    rw [hrun]
    refine ⟨fun _ => ⟨_, rfl⟩, fun xStatus packets h' heq => ?_⟩
    cases heq
    exact ⟨List.nil_prefix, by simp, hintact⟩

end Frame

/-- The interface satisfies what the shim assumes of a driver. -/
theorem output_copiesOut (nCurrentIffFlags : BitVec 32)
    (hsettles : ∃ a ∈ answers, ∀ n, a.Settles n) (env : Surroundings)
    (henv : env.xNetworkInterfaceOutput = fun h p => do
      let (xStatus, _, h) ← xNetworkInterfaceOutput nCurrentIffFlags answers h p
      return (xStatus, h)) : env.CopiesOut pf := by
  intro h p l hchain hin hread
  obtain ⟨bs, hbs⟩ := exists_content (fun q hq => hchain.netbuf hq) hread
  obtain ⟨hends, hruns⟩ := output_writes_frame ⟨hchain, hin, hread, hbs⟩ nCurrentIffFlags answers
  obtain ⟨⟨xStatus, packets, h'⟩, hrun⟩ := hends hsettles
  obtain ⟨-, -, hintact⟩ := hruns xStatus packets h' hrun
  refine ⟨xStatus, h', ?_, hintact.fresh, hintact.netbufs, fun c hc => (hintact.blocks c hc).1⟩
  rw [henv]
  simp only [hrun, Exec.ok_bind]
  rfl

/-! ### The build with vectors -/

/-- What the loop with vectors writes: each call offers the whole frame. -/
def redrain (bs : Bytes) : List Answer → UInt64 → Option (Bool × List Bytes)
  | [], _ => none
  | device :: answers, unWriteSzLeft =>
    match device.taken bs.length with
    | none => some (false, [])
    | some nWriteSz =>
      if unWriteSzLeft - nWriteSz.toUInt64 > 0 then
        (redrain bs answers (unWriteSzLeft - nWriteSz.toUInt64)).map fun out =>
          (out.1, bs.take nWriteSz :: out.2)
      else some (true, [bs.take nWriteSz])

theorem writevLoop_eq {block : ℕ} {iovecs : List (Option Ptr × ℕ)}
    (hgather : gather h iovecs = .ok bs) (answers : List Answer) (left : UInt64) :
    writevLoop h (some block) iovecs answers left =
      match redrain bs answers left with
      | none => .error .endless
      | some out => .ok out := by
  induction answers generalizing left with
  | nil => rfl
  | cons device answers ih =>
    have hblock : ¬ (some block = none ∧ iovecs ≠ []) := fun hand => by cases hand.1
    rw [writevLoop, if_neg hblock, hgather, Exec.ok_bind, redrain]
    cases htaken : device.taken bs.length with
    | none => rfl
    | some k =>
      by_cases hmore : left - k.toUInt64 > 0
      · simp only [hmore, if_true, ih]
        cases redrain bs answers (left - k.toUInt64) <;> rfl
      · simp only [hmore, if_false]
        rfl

/-- The vectors of a chain are those of its bytes. -/
theorem gather_iovecs (hmem : ∀ c, (h.mem c).isSome → h'.mem c = h.mem c)
    (hr : Readable h l) (hc : chainContent h l = some bs) :
    ∃ iovecs, iovecsOf h l = .ok iovecs ∧ gather h' iovecs = .ok bs ∧
      ((∃ q ∈ l, h.InUse q) → iovecs ≠ []) := by
  induction l generalizing bs with
  | nil =>
    cases hc
    refine ⟨[], rfl, rfl, ?_⟩
    rintro ⟨q, hq, -⟩
    cases hq
  | cons q qs ih =>
    obtain ⟨xs, ys, hxs, hys, rfl⟩ := chainContent_cons.mp hc
    obtain ⟨iovecs, hiov, hgather, hne⟩ := ih (fun x hx => hr x (List.mem_cons_of_mem q hx)) hys
    obtain ⟨nb, hq, -⟩ := Heap.content_cases hxs
    cases hlive : nb.xFreed with
    | true =>
      have hxs' : xs = [] := by
        simpa [Heap.content, hq, hlive] using hxs.symm
      refine ⟨iovecs, ?_, by rw [hxs', List.nil_append, hgather], ?_⟩
      · simp [iovecsOf, hq, hiov, hlive, pure, Except.pure]
      · rintro ⟨r, hr', hin⟩
        rcases List.mem_cons.mp hr' with rfl | hrest
        · obtain ⟨nb', hq', hlive'⟩ := hin
          rw [hq] at hq'
          cases hq'
          rw [hlive] at hlive'
          cases hlive'
        · exact hne ⟨r, hrest, hin⟩
    | false =>
      obtain ⟨ptr, b, hbuf, hb, hin⟩ := hr q List.mem_cons_self nb hq hlive
      have hxs' : (b.drop ptr.off).take nb.unSz = xs :=
        Option.some.inj ((content_live hq hlive hbuf hb hin).symm.trans hxs)
      have hb' : h'.mem ptr.block = some b := by
        rw [hmem ptr.block (by rw [hb]; rfl), hb]
      have hread : h'.read (some ptr) 0 nb.unSz = .ok xs := by
        rw [Heap.read_of_block hb' hin, Nat.add_zero, hxs']
      refine ⟨(nb.pxBuf, nb.unSz) :: iovecs, ?_, ?_, fun _ => List.cons_ne_nil _ _⟩
      · simp [iovecsOf, hq, hiov, hlive, pure, Except.pure]
      · simp only [gather, hbuf, hread, hgather, Exec.ok_bind]
        rfl

theorem redrain_settled {device : Answer} (hset : device.Settles bs.length) :
    redrain bs (device :: answers) bs.length.toUInt64 = drain (device :: answers) bs := by
  rcases hset with hnone | hwhole
  · rw [drain_error hnone, redrain, hnone]
  · have hdone : ¬ bs.length.toUInt64 - bs.length.toUInt64 > 0 := by
      rw [UInt64.sub_self]
      decide
    rw [drain_whole hwhole, redrain, hwhole]
    simp only [hdone, if_false, List.take_of_length_le (Nat.le_refl bs.length)]

/-- No call of the loop with vectors goes on behind what was taken. -/
theorem redrain_prefixes {left : UInt64} {xStatus : Bool} {packets : List Bytes}
    (hrun : redrain bs answers left = some (xStatus, packets)) :
    ∀ packet ∈ packets, packet <+: bs := by
  induction answers generalizing left xStatus packets with
  | nil => cases hrun
  | cons device answers ih =>
    rw [redrain] at hrun
    cases htaken : device.taken bs.length with
    | none =>
      rw [htaken] at hrun
      cases hrun
      exact fun packet hp => by cases hp
    | some k =>
      simp only [htaken] at hrun
      split at hrun
      · obtain ⟨⟨st, rest⟩, hrest, heq⟩ := Option.map_eq_some_iff.mp hrun
        cases heq
        exact List.forall_mem_cons.mpr ⟨List.take_prefix k bs, ih hrest⟩
      · cases hrun
        exact List.forall_mem_cons.mpr ⟨List.take_prefix k bs, fun packet hp => by cases hp⟩

/-- The device takes each write as a whole. -/
def whole : Answer := some

theorem taken_whole (n : ℕ) : whole.taken n = some n := by
  simp [Answer.taken, whole]

theorem sub_size_pos {m k : ℕ} (h : k < m) (hm : m < 2 ^ 64) : m.toUInt64 - k.toUInt64 > 0 := by
  have htoNat : ∀ n, n < 2 ^ 64 → n.toUInt64.toNat = n := fun n hn => UInt64.toNat_ofNat_of_lt' hn
  rw [gt_iff_lt, UInt64.lt_iff_toNat_lt, UInt64.toNat_sub, htoNat m hm, htoNat k (h.trans hm)]
  simp
  omega

theorem neg_size_pos {m : ℕ} (h : 0 < m) (hm : m < 2 ^ 64) : (0 : UInt64) - m.toUInt64 > 0 := by
  have htoNat : m.toUInt64.toNat = m := UInt64.toNat_ofNat_of_lt' hm
  rw [gt_iff_lt, UInt64.lt_iff_toNat_lt, UInt64.toNat_sub, htoNat]
  simp
  omega

/-- Once more was taken than the frame has, the count of what is left has passed zero. -/
theorem redrain_whole {n m : ℕ} (hm : 0 < m) (hn : m + n * bs.length < 2 ^ 64) :
    redrain bs (List.replicate n whole) (0 - m.toUInt64) = none := by
  induction n generalizing m with
  | zero => rfl
  | succ n ih =>
    have hle : m + bs.length + n * bs.length < 2 ^ 64 := by
      rw [Nat.succ_mul] at hn
      omega
    have hsum : (0 : UInt64) - m.toUInt64 - bs.length.toUInt64 = 0 - (m + bs.length).toUInt64 := by
      have hadd : (m + bs.length).toUInt64 = m.toUInt64 + bs.length.toUInt64 :=
        UInt64.ofNat_add m bs.length
      grind
    have hpos : 0 < m + bs.length := Nat.add_pos_left hm _
    have hmore : (0 : UInt64) - (m + bs.length).toUInt64 > 0 :=
      neg_size_pos hpos (Nat.lt_of_le_of_lt (Nat.le_add_right _ _) hle)
    rw [List.replicate_succ, redrain, taken_whole]
    simp only [hsum, hmore, if_true, ih hpos hle, Option.map_none]

section Paths

variable (hc : Framed pf h p l bs)
  (hup : prvLinuxTapCheckFlags nCurrentIffFlags IFF_UP = true)
  (hm : h.mallocOk h.calls = true)

include hc hup hm

theorem outputIovec_eq (answers : List Answer) :
    xNetworkInterfaceOutputIovec nCurrentIffFlags answers h p =
      match redrain bs answers bs.length.toUInt64 with
      | none => .error .endless
      | some (xStatus, packets) => .ok (xStatus, packets, spent h) := by
  obtain ⟨nb, hnb, hfirst, -⟩ := hc.first
  have hbuffer : ∀ k, pvRsMemAlloc h k = (some h.brk, buffered h (h.stale h.brk k)) :=
    fun k => if_pos hm
  obtain ⟨iovecs, hiov, -, -⟩ := gather_iovecs (fun _ _ => rfl) hc.readable hc.content
  obtain ⟨iovecs', hiov', hgather, -⟩ := gather_iovecs
    (buffered_kept hc.chain.fresh (h.stale h.brk (iovecs.length * sizeofIovec))) hc.readable
    hc.content
  obtain rfl : iovecs = iovecs' := Except.ok.inj (hiov.symm.trans hiov')
  have hvectors : prvNetBufToIovec h p = .ok (some h.brk, iovecs,
      buffered h (h.stale h.brk (iovecs.length * sizeofIovec))) := by
    simp only [prvNetBufToIovec, Heap.netbuf_of_some hnb, Exec.ok_bind, hfirst,
      hc.walk rfl (Nat.le_refl _), hiov, hbuffer]
    rfl
  rw [xNetworkInterfaceOutputIovec, hc.totalSize, Exec.ok_bind, if_neg (not_not_intro hup),
    hvectors]
  simp only [Exec.ok_bind, writevLoop_eq hgather]
  cases redrain bs answers bs.length.toUInt64 with
  | none => rfl
  | some out =>
    have hfreed := buffer_freed hc.chain.fresh (h.stale h.brk (iovecs.length * sizeofIovec))
    simp only [Exec.ok_bind, Option.map_some, hfreed]
    rfl

/-- The two builds agree on a device which takes the first write as a whole or turns it down.
After a short write the build which copies goes on behind it; the build with vectors offers the
frame again and, on a device which takes that, does not come to an end before the count of what
is left has wrapped around. -/
theorem output_paths (hsize : bs.length < 2 ^ 64) (device : Answer) (answers : List Answer) :
    (device.Settles bs.length →
      xNetworkInterfaceOutputIovec nCurrentIffFlags (device :: answers) h p =
        xNetworkInterfaceOutput nCurrentIffFlags (device :: answers) h p) ∧
    (∀ xStatus packets h',
      xNetworkInterfaceOutputIovec nCurrentIffFlags (device :: answers) h p =
        .ok (xStatus, packets, h') → ∀ packet ∈ packets, packet <+: bs) ∧
    ∀ k n, device.taken bs.length = some k → 0 < k → k < bs.length → 0 < n →
      k + n * bs.length < 2 ^ 64 →
      xNetworkInterfaceOutput nCurrentIffFlags (device :: List.replicate n whole) h p =
        .ok (true, [bs.take k, bs.drop k], spent h) ∧
      xNetworkInterfaceOutputIovec nCurrentIffFlags (device :: List.replicate n whole) h p =
        .error .endless := by
  refine ⟨fun hset => ?_, fun xStatus packets h' hrun => ?_,
    fun k n htaken hk hlt hn hbound => ⟨?_, ?_⟩⟩
  · rw [outputIovec_eq hc hup hm, output_eq hc hup hm, redrain_settled hset]
    rfl
  · rw [outputIovec_eq hc hup hm] at hrun
    cases hdrain : redrain bs (device :: answers) bs.length.toUInt64 with
    | none =>
      rw [hdrain] at hrun
      cases hrun
    | some out =>
      rw [hdrain] at hrun
      cases hrun
      exact redrain_prefixes hdrain
  · obtain ⟨n, rfl⟩ := Nat.exists_eq_succ_of_ne_zero (Nat.ne_of_gt hn)
    rw [output_eq hc hup hm, drained, drain_short htaken hlt, List.replicate_succ,
      drain_whole (taken_whole _)]
    rfl
  · obtain ⟨n, rfl⟩ := Nat.exists_eq_succ_of_ne_zero (Nat.ne_of_gt hn)
    have hbound' : k + n * bs.length < 2 ^ 64 := by
      rw [Nat.succ_mul] at hbound
      omega
    have hmore := sub_size_pos hlt hsize
    have hpast : bs.length.toUInt64 - k.toUInt64 - bs.length.toUInt64 = 0 - k.toUInt64 := by
      grind
    have hmore' := neg_size_pos hk (Nat.lt_of_le_of_lt (Nat.le_add_right _ _) hbound')
    rw [outputIovec_eq hc hup hm, redrain, htaken, List.replicate_succ]
    simp only [hmore, if_true, redrain, taken_whole, hpast, hmore', redrain_whole hk hbound',
      Option.map_none]

end Paths

theorem exampleDuHeap_framed : Framed ⟨false, false⟩ exampleDuHeap 1 [1] [1, 2] :=
  framed_of_carries ⟨exampleDuHeap_in, rfl⟩

/-- Two bytes which a device takes one by one. -/
theorem output_writes_frame_pieces : ∃ h', xNetworkInterfaceOutput IFF_UP
    [fun _ => some 1, whole] exampleDuHeap 1 = .ok (true, [[1], [2]], h') ∧
      Intact exampleDuHeap h' := by
  obtain ⟨h', hrun⟩ : ∃ h', xNetworkInterfaceOutput IFF_UP [fun _ => some 1, whole]
      exampleDuHeap 1 = .ok (true, [[1], [2]], h') := ⟨_, rfl⟩
  exact ⟨h', hrun, ((output_writes_frame exampleDuHeap_framed IFF_UP _).2 _ _ _ hrun).2.2⟩

theorem output_paths_short :
    xNetworkInterfaceOutput IFF_UP [fun _ => some 1, whole, whole] exampleDuHeap 1 =
      .ok (true, [[1], [2]], spent exampleDuHeap) ∧
    xNetworkInterfaceOutputIovec IFF_UP [fun _ => some 1, whole, whole] exampleDuHeap 1 =
      .error .endless :=
  (output_paths exampleDuHeap_framed rfl rfl (by decide) (fun _ => some 1) []).2.2 1 2 rfl
    (by decide) (by decide) (by decide) (by decide)

end RinaSense.NetworkInterface
