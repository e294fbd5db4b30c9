import RinaSense.Common.Lifecycle
import RinaSense.Library.Buffer

/-!
# The content of a chain

The bytes which the netbufs of a chain hold one behind the other, and `unNetBufRead`, which
copies a part of them.
-/

namespace RinaSense.Common

open Library.Memory

/-- The loop of `unNetBufRead`. -/
def readLoop (pvBuffer : Option Ptr) (h : Heap) : List NbPtr → ℕ → ℕ → ℕ → Exec (ℕ × Heap)
  | [], _, unWrIdx, _ => .ok (unWrIdx, h)
  | p :: ps, unRdOff, unWrIdx, unSzDstBufLeft => do
    let nb ← h.netbuf p
    if nb.xFreed then readLoop pvBuffer h ps unRdOff unWrIdx unSzDstBufLeft
    else if nb.unSz ≤ unRdOff then
      readLoop pvBuffer h ps (unRdOff - nb.unSz) unWrIdx unSzDstBufLeft
    else
      let szNbBufLeft := nb.unSz - unRdOff
      let szCpy := if szNbBufLeft ≤ unSzDstBufLeft then szNbBufLeft else unSzDstBufLeft
      let bs ← h.read nb.pxBuf unRdOff szCpy
      let h ← h.write pvBuffer unWrIdx bs
      if unSzDstBufLeft - szCpy = 0 then return (unWrIdx + szCpy, h)
      else readLoop pvBuffer h ps 0 (unWrIdx + szCpy) (unSzDstBufLeft - szCpy)

def unNetBufRead (h : Heap) (pxNb : NbPtr) (pvBuffer : Option Ptr) (unRdOff unSzBuf : ℕ) :
    Exec (ℕ × Heap) := do
  let nb ← h.netbuf pxNb
  let chain ← chainFrom h h.brk (some nb.pxFirst)
  readLoop pvBuffer h chain unRdOff 0 unSzBuf

/-- The bytes of a netbuf. One which was freed has none. -/
def Heap.content (h : Heap) (p : NbPtr) : Option Bytes := do
  let nb ← h.netbufs p
  if nb.xFreed ∨ nb.unSz = 0 then return []
  let ptr ← nb.pxBuf
  load h.mem ptr nb.unSz

/-- The bytes of the netbufs of a list. -/
def chainContent (h : Heap) : List NbPtr → Option Bytes
  | [] => some []
  | p :: ps => do
    let bs ← h.content p
    let rest ← chainContent h ps
    return bs ++ rest

/-- None of the netbufs in use has its bytes in the block `b`. -/
def Apart (h : Heap) (b : ℕ) (l : List NbPtr) : Prop :=
  ∀ p ∈ l, ∀ nb ptr, h.netbufs p = some nb → nb.xFreed = false → nb.pxBuf = some ptr →
    ptr.block ≠ b

/-- None of the netbufs in use has one of the `n` bytes from `dst` on. -/
def Clear (h : Heap) (dst : Ptr) (n : ℕ) (l : List NbPtr) : Prop :=
  ∀ p ∈ l, ∀ nb ptr, h.netbufs p = some nb → nb.xFreed = false → nb.pxBuf = some ptr →
    ptr.block = dst.block → ∀ i < nb.unSz, ∀ j < n, ptr.off + i ≠ dst.off + j

/-- The heap with other bytes in a block. -/
def Heap.putBlock (h : Heap) (b : ℕ) (bs : Bytes) : Heap :=
  { h with mem := Function.update h.mem b (some bs) }

variable {h : Heap} {p : NbPtr} {ps l : List NbPtr} {bs b : Bytes} {dst : Ptr}

theorem chainContent_cons : chainContent h (p :: ps) = some bs ↔
    ∃ xs ys, h.content p = some xs ∧ chainContent h ps = some ys ∧ xs ++ ys = bs := by
  simp only [chainContent, Option.bind_eq_bind, Option.bind_eq_some_iff, Option.pure_def,
    Option.some.injEq]
  constructor
  · rintro ⟨xs, hxs, ys, hys, heq⟩
    exact ⟨xs, ys, hxs, hys, heq⟩
  · rintro ⟨xs, ys, hxs, hys, heq⟩
    exact ⟨xs, hxs, ys, hys, heq⟩

/-- A netbuf with contents is freed or empty, or its bytes stand in a block. -/
theorem Heap.content_cases (hc : h.content p = some bs) : ∃ nb, h.netbufs p = some nb ∧
    (nb.xFreed = true ∧ bs = [] ∨ nb.xFreed = false ∧ nb.unSz = 0 ∧ bs = [] ∨
      nb.xFreed = false ∧ ∃ ptr src, nb.pxBuf = some ptr ∧ h.mem ptr.block = some src ∧
        ptr.off + nb.unSz ≤ src.length ∧ bs = (src.drop ptr.off).take nb.unSz) := by
  cases hp : h.netbufs p with
  | none => simp [Heap.content, hp] at hc
  | some nb =>
    refine ⟨nb, rfl, ?_⟩
    by_cases hfreed : nb.xFreed = true
    · simp [Heap.content, hp, hfreed] at hc
      exact Or.inl ⟨hfreed, hc⟩
    · have hlive := eq_false_of_ne_true hfreed
      by_cases hz : nb.unSz = 0
      · simp [Heap.content, hp, hz] at hc
        exact Or.inr (Or.inl ⟨hlive, hz, hc⟩)
      · simp only [Heap.content, hp, hlive, hz, Option.bind_eq_bind, Option.bind_some,
          Bool.false_eq_true, or_self, if_false, Option.bind_eq_some_iff] at hc
        obtain ⟨ptr, hbuf, hload⟩ := hc
        cases hsrc : h.mem ptr.block with
        | none => simp [load, hsrc] at hload
        | some src =>
          by_cases hin : ptr.off + nb.unSz ≤ src.length
          · rw [load_eq_some hsrc hin] at hload
            exact Or.inr (Or.inr ⟨hlive, ptr, src, hbuf, hsrc, hin, (Option.some.inj hload).symm⟩)
          · simp [load, hsrc, hin] at hload

theorem sizeSum_content (hc : chainContent h l = some bs) : sizeSum h l = .ok bs.length := by
  induction l generalizing bs with
  | nil =>
    cases hc
    rfl
  | cons p ps ih =>
    obtain ⟨xs, ys, hxs, hys, rfl⟩ := chainContent_cons.mp hc
    have hrest := ih hys
    obtain ⟨nb, hp, ⟨hfreed, rfl⟩ | ⟨hlive, hz, rfl⟩ | ⟨hlive, ptr, src, -, -, hin, rfl⟩⟩ :=
      Heap.content_cases hxs
    · simp [sizeSum, hp, hfreed, hrest, pure, Except.pure]
    · simp [sizeSum, hp, hlive, hz, hrest, pure, Except.pure]
    · have hlen : ((src.drop ptr.off).take nb.unSz).length = nb.unSz := by
        rw [List.length_take, List.length_drop]
        omega
      simp [sizeSum, hp, hlive, hrest, hlen, pure, Except.pure]

/-- The size of a list depends on its own netbufs only. -/
theorem sizeSum_congr {h' : Heap} (hsame : ∀ q ∈ l, h'.netbufs q = h.netbufs q) :
    sizeSum h' l = sizeSum h l := by
  induction l with
  | nil => rfl
  | cons p ps ih =>
    rw [sizeSum, sizeSum, Heap.netbuf, Heap.netbuf, hsame p List.mem_cons_self,
      ih fun q hq => hsame q (List.mem_cons_of_mem p hq)]

@[simp] theorem Heap.putBlock_putBlock (a : ℕ) (xs ys : Bytes) :
    (h.putBlock a xs).putBlock a ys = h.putBlock a ys := by
  simp [Heap.putBlock]

theorem Heap.putBlock_same {a : ℕ} (hb : h.mem a = some b) : h.putBlock a b = h := by
  simp [Heap.putBlock, ← hb]

theorem Apart.clear (hap : Apart h dst.block l) (n : ℕ) : Clear h dst n l :=
  fun p hp nb ptr hnb hlive hbuf hblock => absurd hblock (hap p hp nb ptr hnb hlive hbuf)

theorem Clear.mono {dst' : Ptr} {n n' k : ℕ} (hcl : Clear h dst n (p :: ps))
    (hblock : dst'.block = dst.block) (hoff : dst'.off = dst.off + k) (hn : k + n' ≤ n) :
    Clear h dst' n' ps := by
  intro q hq nb ptr hnb hlive hbuf hptr i hi j hj
  have hne := hcl q (List.mem_cons_of_mem p hq) nb ptr hnb hlive hbuf (hptr.trans hblock) i hi
    (k + j) (by omega)
  omega

/-- The bytes of a netbuf in use lie in front of the others or behind them. -/
theorem Clear.interval {n : ℕ} (hcl : Clear h dst n l) (hp : p ∈ l) {nb : Netbuf} {ptr : Ptr}
    (hnb : h.netbufs p = some nb) (hlive : nb.xFreed = false) (hbuf : nb.pxBuf = some ptr)
    (hblock : ptr.block = dst.block) (hz : nb.unSz ≠ 0) (hn : n ≠ 0) :
    ptr.off + nb.unSz ≤ dst.off ∨ dst.off + n ≤ ptr.off := by
  by_contra hover
  obtain ⟨hfront, hback⟩ := not_or.mp hover
  rcases Nat.le_total ptr.off dst.off with hle | hle
  · exact hcl p hp nb ptr hnb hlive hbuf hblock (dst.off - ptr.off) (by omega) 0 (by omega)
      (by omega)
  · exact hcl p hp nb ptr hnb hlive hbuf hblock 0 (by omega) (ptr.off - dst.off) (by omega)
      (by omega)

/-- A write which leaves alone what is loaded. -/
theorem load_putBlock (ptr : Ptr) (n : ℕ) (hb : h.mem dst.block = some b)
    (hin : dst.off + bs.length ≤ b.length)
    (hout : ptr.block = dst.block → ptr.off + n ≤ dst.off ∨ dst.off + bs.length ≤ ptr.off) :
    load (h.putBlock dst.block (splice b dst.off bs)).mem ptr n = load h.mem ptr n := by
  by_cases hblock : ptr.block = dst.block
  · have hself : (h.putBlock dst.block (splice b dst.off bs)).mem ptr.block =
        some (splice b dst.off bs) := hblock ▸ Function.update_self _ _ _
    have hold : h.mem ptr.block = some b := by rw [hblock, hb]
    simp only [load, hself, hold, splice_length hin, take_drop_splice hin (hout hblock)]
  · simp [load, Heap.putBlock, Function.update_of_ne hblock]

/-- Bytes which are written next to those of a chain do not change the chain. -/
theorem chainContent_putBlock (hb : h.mem dst.block = some b)
    (hin : dst.off + bs.length ≤ b.length) (hcl : Clear h dst bs.length l) :
    chainContent (h.putBlock dst.block (splice b dst.off bs)) l = chainContent h l := by
  by_cases hn : bs.length = 0
  · have hsame : splice b dst.off bs = b := by simp [splice, List.length_eq_zero_iff.mp hn]
    rw [hsame, Heap.putBlock_same hb]
  induction l with
  | nil => rfl
  | cons p ps ih =>
    have hrest := ih fun q hq => hcl q (List.mem_cons_of_mem p hq)
    have hhead : (h.putBlock dst.block (splice b dst.off bs)).content p = h.content p := by
      cases hp : h.netbufs p with
      | none => simp [Heap.content, Heap.putBlock, hp]
      | some nb =>
        by_cases hempty : nb.xFreed = true ∨ nb.unSz = 0
        · simp [Heap.content, Heap.putBlock, hp, hempty]
        · obtain ⟨hlive, hz⟩ := not_or.mp hempty
          cases hbuf : nb.pxBuf with
          | none => simp [Heap.content, Heap.putBlock, hp, hbuf]
          | some ptr =>
            have hload := load_putBlock ptr nb.unSz hb hin fun hblock =>
              hcl.interval List.mem_cons_self hp (eq_false_of_ne_true hlive) hbuf hblock hz hn
            have hnb : (h.putBlock dst.block (splice b dst.off bs)).netbufs p = some nb := hp
            simp only [Heap.content, hp, hnb, hbuf, Option.bind_eq_bind, Option.bind_some, hload]
    rw [chainContent, chainContent, hhead, hrest]

theorem Heap.write_eq {off : ℕ} (bs : Bytes) (hb : h.mem dst.block = some b)
    (hin : dst.off + off + bs.length ≤ b.length) :
    h.write (some dst) off bs = .ok (h.putBlock dst.block (splice b (dst.off + off) bs)) :=
  Heap.write_of_block hb hin

/-- A part of two lists one behind the other which begins in the first one. -/
theorem take_drop_append (xs ys : Bytes) {rd : ℕ} (left : ℕ) (hrd : rd ≤ xs.length) :
    ((xs ++ ys).drop rd).take left = (xs.drop rd).take (min (xs.length - rd) left) ++
      ys.take (left - min (xs.length - rd) left) := by
  rw [List.drop_append_of_le_length hrd, List.take_append, List.length_drop]
  by_cases hle : xs.length - rd ≤ left
  · have hall : (xs.drop rd).take left = xs.drop rd :=
      List.take_of_length_le (by rwa [List.length_drop])
    have hall' : (xs.drop rd).take (xs.length - rd) = xs.drop rd :=
      List.take_of_length_le (by rw [List.length_drop])
    rw [Nat.min_eq_left hle, hall, hall']
  · rw [Nat.min_eq_right (by omega), Nat.sub_self, show left - (xs.length - rd) = 0 by omega]

/-- A turn of the loop at a netbuf in use which is not skipped. -/
theorem readLoop_live {nb : Netbuf} {ptr : Ptr} {src chunk : Bytes} {ps : List NbPtr}
    {rd wr left n : ℕ} (hp : h.netbufs p = some nb) (hlive : nb.xFreed = false)
    (hbuf : nb.pxBuf = some ptr) (hsrc : h.mem ptr.block = some src)
    (hsz : ptr.off + nb.unSz ≤ src.length) (hskip : ¬ nb.unSz ≤ rd)
    (hn : n = min (nb.unSz - rd) left)
    (hchunk : chunk = (((src.drop ptr.off).take nb.unSz).drop rd).take n)
    (hb : h.mem dst.block = some b) (hin : dst.off + wr + n ≤ b.length) :
    readLoop (some dst) h (p :: ps) rd wr left =
      if left - n = 0 then .ok (wr + n, h.putBlock dst.block (splice b (dst.off + wr) chunk))
      else readLoop (some dst) (h.putBlock dst.block (splice b (dst.off + wr) chunk)) ps 0
        (wr + n) (left - n) := by
  have hread : h.read nb.pxBuf rd n = .ok chunk := by
    rw [hbuf, Heap.read_of_block hsrc (by omega), hchunk, List.drop_take, List.take_take,
      List.drop_drop, Nat.min_eq_left (by omega)]
  have htaken : chunk.length = n := by
    rw [hchunk, List.length_take, List.length_drop, List.length_take, List.length_drop]
    omega
  have hwrite : h.write (some dst) wr chunk = _ := Heap.write_eq _ hb (by rwa [htaken])
  have hmin : (if nb.unSz - rd ≤ left then nb.unSz - rd else left) = n := by
    rw [hn, Nat.min_def]
  simp only [readLoop, Heap.netbuf_of_some hp, Exec.ok_bind, hlive, hskip, Bool.false_eq_true,
    if_false, hmin, hread, hwrite]
  rfl

/-- The loop copies what its two sizes select of the content of the chain. -/
theorem readLoop_clear {rd wr left : ℕ} (hc : chainContent h l = some bs)
    (hb : h.mem dst.block = some b)
    (hcl : Clear h (dst.add wr) ((bs.drop rd).take left).length l)
    (hin : dst.off + wr + ((bs.drop rd).take left).length ≤ b.length) :
    readLoop (some dst) h l rd wr left = .ok (wr + ((bs.drop rd).take left).length,
      h.putBlock dst.block (splice b (dst.off + wr) ((bs.drop rd).take left))) := by
  induction l generalizing h bs b rd wr left with
  | nil =>
    cases hc
    have hsame : h.putBlock dst.block (splice b (dst.off + wr) []) = h := by
      rw [show splice b (dst.off + wr) [] = b by simp [splice], Heap.putBlock_same hb]
    simp [readLoop, hsame]
  | cons p ps ih =>
    obtain ⟨xs, ys, hxs, hys, rfl⟩ := chainContent_cons.mp hc
    obtain ⟨nb, hp, ⟨hfreed, rfl⟩ | ⟨hlive, hz, rfl⟩ | ⟨hlive, ptr, src, hbuf, hsrc, hsz, rfl⟩⟩ :=
      Heap.content_cases hxs
    · simp only [readLoop, Heap.netbuf_of_some hp, Exec.ok_bind, hfreed, if_true]
      exact ih hys hb (hcl.mono rfl rfl (Nat.le_of_eq (Nat.zero_add _))) hin
    · simp only [readLoop, Heap.netbuf_of_some hp, Exec.ok_bind, hlive, hz, Nat.zero_le,
        Bool.false_eq_true, if_false, if_true, Nat.sub_zero]
      exact ih hys hb (hcl.mono rfl rfl (Nat.le_of_eq (Nat.zero_add _))) hin
    · obtain ⟨xs, hxsdef⟩ : ∃ xs, xs = (src.drop ptr.off).take nb.unSz := ⟨_, rfl⟩
      have hxslen : xs.length = nb.unSz := by
        rw [hxsdef, List.length_take, List.length_drop]
        omega
      rw [← hxsdef] at hin hxs hc hcl ⊢
      by_cases hskip : nb.unSz ≤ rd
      · have hdrop : (xs ++ ys).drop rd = ys.drop (rd - nb.unSz) := by
          rw [List.drop_append, hxslen, List.drop_of_length_le (by omega), List.nil_append]
        rw [hdrop] at hin hcl ⊢
        simp only [readLoop, Heap.netbuf_of_some hp, Exec.ok_bind, hlive, hskip,
          Bool.false_eq_true, if_false, if_true]
        exact ih hys hb (hcl.mono rfl rfl (Nat.le_of_eq (Nat.zero_add _))) hin
      · obtain ⟨n, hn⟩ : ∃ n, n = min (nb.unSz - rd) left := ⟨_, rfl⟩
        have htaken : ((xs.drop rd).take n).length = n := by
          rw [List.length_take, List.length_drop, hxslen]
          omega
        have hfront := take_drop_append xs ys left (by omega : rd ≤ xs.length)
        rw [hxslen, ← hn] at hfront
        rw [hfront] at hin hcl ⊢
        rw [List.length_append, htaken] at hin hcl
        have hchunk : (xs.drop rd).take n =
            (((src.drop ptr.off).take nb.unSz).drop rd).take n := by rw [hxsdef]
        rw [readLoop_live hp hlive hbuf hsrc hsz hskip hn hchunk hb (by omega)]
        by_cases hfull : left - n = 0
        · rw [if_pos hfull, hfull, List.take_zero, List.append_nil, htaken]
        · have hsplen : (splice b (dst.off + wr) ((xs.drop rd).take n)).length = b.length :=
            splice_length (by rw [htaken]; omega)
          have hrestcl : Clear h (dst.add (wr + n)) ((ys.drop 0).take (left - n)).length ps := by
            rw [List.drop_zero]
            exact hcl.mono rfl (Nat.add_assoc _ _ _).symm (Nat.le_refl _)
          have hys' : chainContent (h.putBlock dst.block (splice b (dst.off + wr)
              ((xs.drop rd).take n))) ps = some ys := by
            have hput : Clear h (dst.add wr) ((xs.drop rd).take n).length ps :=
              hcl.mono rfl (Nat.add_zero _).symm (by rw [htaken]; omega)
            have hblock : h.mem (dst.add wr).block = some b := hb
            refine (chainContent_putBlock hblock ?_ hput).trans hys
            rw [Ptr.add_off, htaken]
            omega
          have hroom : dst.off + (wr + n) + ((ys.drop 0).take (left - n)).length ≤
              (splice b (dst.off + wr) ((xs.drop rd).take n)).length := by
            rw [hsplen, List.drop_zero]
            omega
          have hrest := ih hys' (Function.update_self _ _ _) hrestcl hroom
          rw [if_neg hfull, hrest, List.drop_zero, Heap.putBlock_putBlock, ← Nat.add_assoc]
          have hinside : dst.off + wr + ((xs.drop rd).take n).length ≤ b.length := by
            rw [htaken]
            omega
          have hsplice := splice_splice (ys.take (left - n)) hinside
          rw [htaken] at hsplice
          rw [hsplice, List.length_append, htaken, Nat.add_assoc]

/-- `unNetBufRead` copies into a block which holds nothing of the chain. -/
theorem readLoop_content {rd wr left : ℕ} (hc : chainContent h l = some bs)
    (hb : h.mem dst.block = some b) (hap : Apart h dst.block l)
    (hin : dst.off + wr + ((bs.drop rd).take left).length ≤ b.length) :
    readLoop (some dst) h l rd wr left = .ok (wr + ((bs.drop rd).take left).length,
      h.putBlock dst.block (splice b (dst.off + wr) ((bs.drop rd).take left))) :=
  readLoop_clear hc hb (Apart.clear (show Apart h (dst.add wr).block l from hap) _) hin

/-- The count which the loop returns. -/
theorem readLoop_count {pvBuffer : Option Ptr} {rd wr left n total : ℕ} {h' : Heap}
    (hsum : sizeSum h l = .ok total)
    (hrun : readLoop pvBuffer h l rd wr left = .ok (n, h')) :
    n = wr + min left (total - rd) := by
  induction l generalizing h rd wr left total with
  | nil =>
    cases hsum
    cases hrun
    simp
  | cons p ps ih =>
    cases hp : h.netbufs p with
    | none => simp [readLoop, Heap.netbuf, hp] at hrun
    | some nb =>
      simp only [sizeSum, Heap.netbuf_of_some hp, Exec.ok_bind, Exec.bind_eq_ok] at hsum
      obtain ⟨rest, hrest, hsum⟩ := hsum
      obtain rfl : (if nb.xFreed then 0 else nb.unSz) + rest = total := Except.ok.inj hsum
      simp only [readLoop, Heap.netbuf_of_some hp, Exec.ok_bind] at hrun
      by_cases hfreed : nb.xFreed = true
      · rw [if_pos hfreed] at hrun
        rw [if_pos hfreed, Nat.zero_add]
        exact ih hrest hrun
      · rw [if_neg hfreed] at hrun ⊢
        by_cases hskip : nb.unSz ≤ rd
        · rw [if_pos hskip] at hrun
          rw [ih hrest hrun]
          omega
        · rw [if_neg hskip] at hrun
          obtain ⟨bs, -, hrun⟩ := Exec.bind_eq_ok.mp hrun
          obtain ⟨h₁, hwrite, hrun⟩ := Exec.bind_eq_ok.mp hrun
          have hsame : sizeSum h₁ ps = .ok rest := by
            obtain ⟨ptr, -, hwrite⟩ := Exec.bind_eq_ok.mp hwrite
            obtain ⟨mem, -, hmem⟩ := Exec.bind_eq_ok.mp hwrite
            cases hmem
            rw [← hrest]
            exact sizeSum_congr fun _ _ => rfl
          have hmin : (if nb.unSz - rd ≤ left then nb.unSz - rd else left) =
              min (nb.unSz - rd) left := (Nat.min_def ..).symm
          rw [hmin] at hrun
          by_cases hfull : left - min (nb.unSz - rd) left = 0
          · rw [if_pos hfull] at hrun
            cases hrun
            omega
          · rw [if_neg hfull] at hrun
            rw [ih hsame hrun]
            omega

end RinaSense.Common
