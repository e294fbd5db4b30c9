import RinaSense.Common.Links
import RinaSense.Library.Runs

/-!
# The lifecycle of netbufs

Programs which make, split, append and free netbufs. A ledger keeps what such a program
knows: its chains, the netbufs it has not freed yet and the buffers it handed over. The heap
has to agree with the ledger after every call.
-/

namespace RinaSense.Common

open Library.Handover Library.Memory Library.Runs

/-- A buffer which was handed over to a chain. -/
structure Given where
  chain : NbPtr
  pxBuf : Ptr
  pfnFree : Option FreeMethod

/-- The chain of every netbuf, named by its first netbuf, the netbufs which were not freed, and
the buffers by their blocks. Nothing is ever struck out. -/
structure Ledger where
  chain : NbPtr → Option NbPtr
  live : NbPtr → Bool
  given : ℕ → Option Given

def Ledger.empty : Ledger := ⟨fun _ => none, fun _ => false, fun _ => none⟩

def Ledger.enter (d : Ledger) (p : NbPtr) (pxBuf : Ptr) (pfnFree : Option FreeMethod) : Ledger where
  chain := Function.update d.chain p (some p)
  live := Function.update d.live p true
  given := Function.update d.given pxBuf.block (some ⟨p, pxBuf, pfnFree⟩)

/-- A new netbuf in the chain of another one. -/
def Ledger.cut (d : Ledger) (pxNb p : NbPtr) : Ledger :=
  { d with
    chain := Function.update d.chain p (d.chain pxNb)
    live := Function.update d.live p true }

theorem Ledger.enter_chain (d : Ledger) (p : NbPtr) (pxBuf : Ptr) (pfnFree : Option FreeMethod)
    (q : NbPtr) : (d.enter p pxBuf pfnFree).chain q = if q = p then some p else d.chain q :=
  Function.update_apply d.chain p (some p) q

theorem Ledger.cut_chain (d : Ledger) (pxNb p q : NbPtr) :
    (d.cut pxNb p).chain q = if q = p then d.chain pxNb else d.chain q :=
  Function.update_apply d.chain p (d.chain pxNb) q

def Given.join (c r : NbPtr) (g : Given) : Given :=
  if g.chain = r then { g with chain := c } else g

/-- The chain `r` becomes a part of the chain `c`. -/
def Ledger.join (d : Ledger) (c r : NbPtr) : Ledger where
  chain q := if d.chain q = some r then some c else d.chain q
  live := d.live
  given b := (d.given b).map (Given.join c r)

def Ledger.leave (d : Ledger) (p : NbPtr) : Ledger :=
  { d with live := Function.update d.live p false }

/-- All netbufs of the chain were freed. -/
def Ledger.Over (d : Ledger) (c : NbPtr) : Prop := ∀ q, d.chain q = some c → d.live q = false

structure NbState where
  heap : Heap
  ledger : Ledger

/-- A call, or what the rest of the program does to the heap. -/
inductive NbOp
  | new (xPool : Option PoolPtr) (eType : NetBufType) (pxBuf : Ptr) (unSz : ℕ)
    (pfnFree : Option FreeMethod)
  | split (pxNb : NbPtr) (eType : NetBufType) (unSz : ℕ)
  | append (pxNbLeft pxNbRight : NbPtr)
  | free (pxNb : NbPtr)
  | other (h : Heap)

variable (pf : Platform)

def NbState.step (s : NbState) : NbOp → Option NbState
  | .new xPool eType pxBuf unSz pfnFree =>
    (pxNetBufNew pf s.heap xPool eType (some pxBuf) unSz pfnFree).toOption.map fun out =>
      ⟨out.2, out.1.elim s.ledger fun p => s.ledger.enter p pxBuf pfnFree⟩
  | .split pxNb eType unSz =>
    (xNetBufSplit s.heap pxNb eType unSz).toOption.map fun out =>
      ⟨out.2, if (out.2.netbufs s.heap.brk).isSome then s.ledger.cut pxNb s.heap.brk
        else s.ledger⟩
  | .append pxNbLeft pxNbRight =>
    (vNetBufAppend pf s.heap pxNbLeft pxNbRight).toOption.map fun h =>
      ⟨h, (s.ledger.chain pxNbLeft).elim s.ledger fun c => s.ledger.join c pxNbRight⟩
  | .free pxNb =>
    (vNetBufFree pf s.heap pxNb).toOption.map fun h => ⟨h, s.ledger.leave pxNb⟩
  | .other h => some ⟨h, s.ledger⟩

/-- The rest of the program allocates, writes and releases what it likes, but neither netbufs
nor the buffers which were handed over. -/
structure Leaves (s : NbState) (h : Heap) : Prop where
  fresh : h.Fresh
  brk : s.heap.brk ≤ h.brk
  netbufs : h.netbufs = s.heap.netbufs
  given : ∀ b, (s.ledger.given b).isSome → SameBlock s.heap h b

/-- The contract of a call. The assertions of `pxNetBufNew` hold, every new netbuf has a buffer
of its own which its release function can release, and the other calls are about netbufs which
were not freed. The chain to append is given by its first netbuf and is another one. -/
def Permitted (s : NbState) : NbOp → Prop
  | .new xPool _ pxBuf unSz pfnFree =>
    rsAssert pf xPool.isSome = .ok () ∧ rsAssert pf (unSz != 0) = .ok () ∧
      s.ledger.given pxBuf.block = none ∧ Usable pf s.heap pfnFree pxBuf
  | .split pxNb _ _ => s.ledger.live pxNb = true
  | .append pxNbLeft pxNbRight =>
    s.ledger.live pxNbLeft = true ∧ s.ledger.live pxNbRight = true ∧
      s.ledger.chain pxNbRight = some pxNbRight ∧ s.ledger.chain pxNbLeft ≠ some pxNbRight
  | .free pxNb => s.ledger.live pxNb = true
  | .other h => Leaves s h

/-- Every netbuf which was not freed has its buffer. While there is one of them the chain has
all of its netbufs and buffers, and after that it has none of them left, apart from the
buffers which are not to be released. -/
structure Accounted (s : NbState) : Prop where
  live : ∀ p, s.ledger.live p = true → ∃ nb ptr, s.heap.netbufs p = some nb ∧
    nb.xFreed = false ∧ nb.pxBufStart = some ptr ∧ Usable pf s.heap nb.freemethod ptr
  kept : ∀ c, ¬ s.ledger.Over c → (∀ q, s.ledger.chain q = some c → (s.heap.netbufs q).isSome) ∧
    ∀ b g, s.ledger.given b = some g → g.chain = c → Usable pf s.heap g.pfnFree g.pxBuf
  ended : ∀ c, s.ledger.Over c → (∀ q, s.ledger.chain q = some c → s.heap.netbufs q = none) ∧
    ∀ b g, s.ledger.given b = some g → g.chain = c → Released pf s.heap g.pfnFree g.pxBuf

/-! ### The invariant -/

/-- The netbufs of a chain which is not over are linked from its first one on and only they hold
its buffers. -/
structure NbState.Inv (s : NbState) : Prop where
  fresh : s.heap.Fresh
  below : ∀ p c, s.ledger.chain p = some c → p < s.heap.brk ∧ c < s.heap.brk
  named : ∀ b g, s.ledger.given b = some g → g.chain < s.heap.brk ∧ g.pxBuf.block = b
  known : ∀ p nb, s.heap.netbufs p = some nb → ∃ c, s.ledger.chain p = some c
  entered : ∀ p, s.ledger.live p = true → ∃ c, s.ledger.chain p = some c
  links : ∀ p c, s.ledger.live p = true → s.ledger.chain p = some c →
    ∃ l, NbLinks s.heap (some c) l none ∧ l.Nodup ∧ ∀ q, q ∈ l ↔ s.ledger.chain q = some c
  marks : ∀ p nb, s.heap.netbufs p = some nb → nb.xFreed = !s.ledger.live p
  first : ∀ p nb c, s.heap.netbufs p = some nb → s.ledger.live p = true →
    s.ledger.chain p = some c → nb.pxFirst = c
  sound : Sound (s.ledger.live · = true) s.heap.held
  holders : ∀ p nb ptr, s.heap.netbufs p = some nb → nb.pxBufStart = some ptr →
    ∃ c, s.ledger.chain p = some c ∧ s.ledger.given ptr.block = some ⟨c, ptr, nb.freemethod⟩
  gone : ∀ c, s.ledger.Over c → ∀ q, s.ledger.chain q = some c → s.heap.netbufs q = none
  usable : ∀ b g, s.ledger.given b = some g → ¬ s.ledger.Over g.chain →
    (∃ q, s.heap.held q = some g.pxBuf) ∧ Usable pf s.heap g.pfnFree g.pxBuf
  released : ∀ b g, s.ledger.given b = some g → s.ledger.Over g.chain →
    Released pf s.heap g.pfnFree g.pxBuf

variable {pf} {s : NbState} {h : Heap} {p q c r : NbPtr} {nb : Netbuf} {ptr : Ptr}

theorem Ledger.not_over {d : Ledger} (hp : d.live p = true) (hc : d.chain p = some c) :
    ¬ d.Over c := fun hover => by
  rw [hover p hc] at hp
  cases hp

theorem Ledger.exists_live {d : Ledger} (hc : ¬ d.Over c) :
    ∃ p, d.chain p = some c ∧ d.live p = true := by
  by_contra hno
  refine hc fun q hq => eq_false_of_ne_true fun hlive => hno ⟨q, hq, hlive⟩

theorem NbState.Inv.live_netbuf (hi : s.Inv pf) (hp : s.ledger.live p = true) :
    ∃ nb ptr, s.heap.netbufs p = some nb ∧ nb.xFreed = false ∧ nb.pxBufStart = some ptr := by
  obtain ⟨ptr, hheld⟩ := hi.sound.holds p hp
  obtain ⟨nb, hnb, hstart⟩ := Heap.held_eq_some.mp hheld
  refine ⟨nb, ptr, hnb, ?_, hstart⟩
  rw [hi.marks p nb hnb, hp]
  rfl

theorem NbState.Inv.accounted (hi : s.Inv pf) : Accounted pf s where
  live p hp := by
    obtain ⟨nb, ptr, hnb, hfreed, hstart⟩ := hi.live_netbuf hp
    obtain ⟨c, hc, hg⟩ := hi.holders p nb ptr hnb hstart
    exact ⟨nb, ptr, hnb, hfreed, hstart, (hi.usable _ _ hg (Ledger.not_over hp hc)).2⟩
  kept c hc := by
    obtain ⟨p, hpc, hp⟩ := Ledger.exists_live hc
    obtain ⟨l, hl, -, hmem⟩ := hi.links p c hp hpc
    refine ⟨fun q hq => ?_, fun b g hg hgc => ?_⟩
    · obtain ⟨nb, hnb⟩ := hl.netbuf q ((hmem q).mpr hq)
      exact Option.isSome_iff_exists.mpr ⟨nb, hnb⟩
    · subst hgc
      exact (hi.usable b g hg hc).2
  ended c hc := ⟨hi.gone c hc, fun b g hg hgc => hi.released b g hg (hgc ▸ hc)⟩

theorem inv_empty {h : Heap} (hf : h.Fresh) (hnone : ∀ p, h.netbufs p = none) :
    NbState.Inv pf ⟨h, .empty⟩ where
  fresh := hf
  below _ _ hc := by cases hc
  named _ _ hg := by cases hg
  known p nb hp := by rw [hnone p] at hp; cases hp
  entered _ hp := by cases hp
  links _ _ hp := by cases hp
  marks p nb hp := by rw [hnone p] at hp; cases hp
  first p nb _ hp := by rw [hnone p] at hp; cases hp
  sound := {
    holds := fun _ hp => by cases hp
    shares := fun p _ _ hp => by
      rw [Heap.held, hnone p] at hp
      cases hp }
  holders p nb _ hp := by rw [hnone p] at hp; cases hp
  gone _ _ q _ := hnone q
  usable _ _ hg := by cases hg
  released _ _ hg := by cases hg

theorem NbState.Inv.leaves (hi : s.Inv pf) (hl : Leaves s h) : NbState.Inv pf ⟨h, s.ledger⟩ := by
  have hheld : h.held = s.heap.held := funext fun q => by rw [Heap.held, hl.netbufs, Heap.held]
  have hblock : ∀ b g, s.ledger.given b = some g → SameBlock s.heap h g.pxBuf.block :=
    fun b g hg => by
      rw [(hi.named b g hg).2]
      exact hl.given b (Option.isSome_iff_exists.mpr ⟨g, hg⟩)
  exact {
    fresh := hl.fresh
    below := fun p c hc =>
      ⟨Nat.lt_of_lt_of_le (hi.below p c hc).1 hl.brk, Nat.lt_of_lt_of_le (hi.below p c hc).2 hl.brk⟩
    named := fun b g hg => ⟨Nat.lt_of_lt_of_le (hi.named b g hg).1 hl.brk, (hi.named b g hg).2⟩
    known := fun p nb hp => hi.known p nb (hl.netbufs ▸ hp)
    entered := hi.entered
    links := fun p c hp hc => by
      obtain ⟨l, hlinks, hrest⟩ := hi.links p c hp hc
      exact ⟨l, hlinks.congr fun q _ => by rw [hl.netbufs], hrest⟩
    marks := fun p nb hp => hi.marks p nb (hl.netbufs ▸ hp)
    first := fun p nb c hp => hi.first p nb c (hl.netbufs ▸ hp)
    sound := hi.sound.congr (fun _ => Iff.rfl) fun q => congrFun hheld q
    holders := fun p nb ptr hp => hi.holders p nb ptr (hl.netbufs ▸ hp)
    gone := fun c hc q hq => by
      change h.netbufs q = none
      rw [hl.netbufs]
      exact hi.gone c hc q hq
    usable := fun b g hg hc => by
      obtain ⟨hheldBy, hu⟩ := hi.usable b g hg hc
      exact ⟨by simpa only [hheld] using hheldBy, hu.congr (hblock b g hg)⟩
    released := fun b g hg hc => (hi.released b g hg hc).congr (hblock b g hg) }

/-! ### New netbufs -/

/-- What of a netbuf matters for its buffer. -/
def Netbuf.tag (nb : Netbuf) : Option Ptr × Bool × Option FreeMethod :=
  (nb.pxBufStart, nb.xFreed, nb.freemethod)

theorem held_of_tag {h h' : Heap}
    (ht : (h'.netbufs q).map Netbuf.tag = (h.netbufs q).map Netbuf.tag) :
    h'.held q = h.held q := by
  have hmap := congrArg (Option.bind · Prod.fst) ht
  simp only [Option.bind_map] at hmap
  exact hmap

theorem netbuf_of_tag {h h' : Heap}
    (ht : (h'.netbufs q).map Netbuf.tag = (h.netbufs q).map Netbuf.tag)
    (hq : h'.netbufs q = some nb) :
    ∃ nb₀, h.netbufs q = some nb₀ ∧ nb₀.pxBufStart = nb.pxBufStart ∧ nb₀.xFreed = nb.xFreed ∧
      nb₀.freemethod = nb.freemethod := by
  rw [hq, Option.map_some, eq_comm, Option.map_eq_some_iff] at ht
  obtain ⟨nb₀, hq₀, htag⟩ := ht
  simp only [Netbuf.tag, Prod.mk.injEq] at htag
  exact ⟨nb₀, hq₀, htag⟩

/-- A netbuf at the first address which was never handed out joins the chain `c` as a holder of
the buffer at `ptr`. The others change in their links and sizes only. -/
structure Grown (pf : Platform) (s s' : NbState) (c : NbPtr) (nb : Netbuf) (ptr : Ptr) : Prop where
  fresh : s'.heap.Fresh
  brk : s'.heap.brk = s.heap.brk + 1
  blocks : ∀ b, SameBlock s.heap s'.heap b
  named : c < s.heap.brk + 1
  chain : ∀ q, s'.ledger.chain q = if q = s.heap.brk then some c else s.ledger.chain q
  live : ∀ q, s'.ledger.live q = true ↔ q = s.heap.brk ∨ s.ledger.live q = true
  new : s'.heap.netbufs s.heap.brk = some nb
  xFreed : nb.xFreed = false
  pxFirst : nb.pxFirst = c
  pxBufStart : nb.pxBufStart = some ptr
  usable : Usable pf s.heap nb.freemethod ptr
  tags : ∀ q, q ≠ s.heap.brk →
    (s'.heap.netbufs q).map Netbuf.tag = (s.heap.netbufs q).map Netbuf.tag
  firsts : ∀ q, q ≠ s.heap.brk →
    (s'.heap.netbufs q).map (·.pxFirst) = (s.heap.netbufs q).map (·.pxFirst)
  nexts : ∀ q, q ≠ s.heap.brk → s.ledger.chain q ≠ some c →
    (s'.heap.netbufs q).map (·.pxNext) = (s.heap.netbufs q).map (·.pxNext)
  links : ∃ l, NbLinks s'.heap (some c) l none ∧ l.Nodup ∧ ∀ q, q ∈ l ↔ s'.ledger.chain q = some c
  given : ∀ b, s'.ledger.given b =
    if b = ptr.block then some ⟨c, ptr, nb.freemethod⟩ else s.ledger.given b
  sound : Sound (s'.ledger.live · = true) s'.heap.held

section Grown

variable {s' : NbState}

theorem Grown.over_iff (hg : Grown pf s s' c nb ptr) (hi : s.Inv pf) (c' : NbPtr) :
    s'.ledger.Over c' ↔ c' ≠ c ∧ s.ledger.Over c' := by
  have hnone : s.ledger.chain s.heap.brk ≠ some c' := fun hc =>
    Nat.lt_irrefl _ (hi.below _ _ hc).1
  constructor
  · intro hover
    refine ⟨?_, fun q hq => ?_⟩
    · rintro rfl
      have hnew := hover s.heap.brk (by rw [hg.chain, if_pos rfl])
      rw [(hg.live _).mpr (Or.inl rfl)] at hnew
      cases hnew
    · have hqn : q ≠ s.heap.brk := by
        rintro rfl
        exact hnone hq
      have hdead := hover q (by rw [hg.chain, if_neg hqn, hq])
      exact eq_false_of_ne_true fun hlive => by
        rw [(hg.live q).mpr (Or.inr hlive)] at hdead
        cases hdead
  · rintro ⟨hne, hover⟩ q hq
    rw [hg.chain] at hq
    split at hq
    · exact absurd (Option.some.inj hq).symm hne
    · rename_i hqn
      refine eq_false_of_ne_true fun hlive => ?_
      rcases (hg.live q).mp hlive with heq | hlive
      · exact hqn heq
      · rw [hover q hq] at hlive
        cases hlive

/-- Another netbuf was there before. -/
theorem Grown.old (hg : Grown pf s s' c nb ptr) {nb' : Netbuf} (hq : s'.heap.netbufs q = some nb')
    (hqn : q ≠ s.heap.brk) :
    ∃ nb₀, s.heap.netbufs q = some nb₀ ∧ nb₀.pxBufStart = nb'.pxBufStart ∧
      nb₀.xFreed = nb'.xFreed ∧ nb₀.freemethod = nb'.freemethod ∧ nb₀.pxFirst = nb'.pxFirst := by
  obtain ⟨nb₀, hq₀, hstart, hfreed, hmethod⟩ := netbuf_of_tag (hg.tags q hqn) hq
  have hfirst := hg.firsts q hqn
  rw [hq, hq₀] at hfirst
  exact ⟨nb₀, hq₀, hstart, hfreed, hmethod, (Option.some.inj hfirst).symm⟩

theorem Grown.chain_old (hg : Grown pf s s' c nb ptr) {c' : NbPtr}
    (hc : s'.ledger.chain q = some c') (hqn : q ≠ s.heap.brk) : s.ledger.chain q = some c' := by
  rwa [hg.chain, if_neg hqn] at hc

theorem Grown.live_old (hg : Grown pf s s' c nb ptr) (hq : s'.ledger.live q = true)
    (hqn : q ≠ s.heap.brk) : s.ledger.live q = true :=
  ((hg.live q).mp hq).resolve_left hqn

theorem Grown.given_old (hg : Grown pf s s' c nb ptr) {b : ℕ} {g : Given}
    (hb : s'.ledger.given b = some g) (hne : g ≠ ⟨c, ptr, nb.freemethod⟩) :
    s.ledger.given b = some g := by
  rw [hg.given] at hb
  split at hb
  · exact absurd (Option.some.inj hb).symm hne
  · exact hb

/-- A netbuf with a chain is the new one, in the chain `c`, or had its chain before. -/
theorem Grown.entered (hg : Grown pf s s' c nb ptr)
    (hq : q ≠ s.heap.brk → ∃ c', s.ledger.chain q = some c') :
    ∃ c', s'.ledger.chain q = some c' := by
  by_cases hqn : q = s.heap.brk
  · exact ⟨c, by rw [hg.chain, if_pos hqn]⟩
  · obtain ⟨c', hc'⟩ := hq hqn
    exact ⟨c', by rw [hg.chain, if_neg hqn, hc']⟩

/-- The links of the chain `c` are given, and those of another chain are as before. -/
theorem NbState.Inv.grow_links (hi : s.Inv pf) (hg : Grown pf s s' c nb ptr) {c' : NbPtr}
    (hq : s'.ledger.live q = true) (hc : s'.ledger.chain q = some c') :
    ∃ l, NbLinks s'.heap (some c') l none ∧ l.Nodup ∧
      ∀ x, x ∈ l ↔ s'.ledger.chain x = some c' := by
  by_cases hcc : c' = c
  · exact hcc ▸ hg.links
  · have hqn : q ≠ s.heap.brk := fun heq => by
      rw [hg.chain, if_pos heq, Option.some.injEq] at hc
      exact hcc hc.symm
    obtain ⟨l, hl, hnodup, hmem⟩ := hi.links q c' (hg.live_old hq hqn) (hg.chain_old hc hqn)
    have hne : ∀ x ∈ l, x ≠ s.heap.brk := fun x hx heq =>
      Nat.ne_of_lt (hi.below x c' ((hmem x).mp hx)).1 heq
    refine ⟨l, hl.congr fun x hx => hg.nexts x (hne x hx) ?_, hnodup, fun x => ?_⟩
    · rw [(hmem x).mp hx]
      exact fun heq => hcc (Option.some.inj heq)
    · rw [hmem x, hg.chain]
      split
      · rename_i hx
        refine iff_of_false (fun hx' => ?_) fun heq => hcc (Option.some.inj heq).symm
        exact hne x ((hmem x).mpr hx') hx
      · rfl

theorem NbState.Inv.grow_holders (hi : s.Inv pf) (hg : Grown pf s s' c nb ptr)
    (hblock : ∀ g, s.ledger.given ptr.block = some g → g = ⟨c, ptr, nb.freemethod⟩)
    {nb' : Netbuf} {b : Ptr} (hq : s'.heap.netbufs q = some nb') (hb : nb'.pxBufStart = some b) :
    ∃ c', s'.ledger.chain q = some c' ∧
      s'.ledger.given b.block = some ⟨c', b, nb'.freemethod⟩ := by
  by_cases hqn : q = s.heap.brk
  · subst hqn
    rw [hg.new] at hq
    cases hq
    rw [hg.pxBufStart] at hb
    cases hb
    exact ⟨c, by rw [hg.chain, if_pos rfl], by rw [hg.given, if_pos rfl]⟩
  · obtain ⟨nb₀, hq₀, hstart, -, hmethod, -⟩ := hg.old hq hqn
    obtain ⟨c', hc', hgiven⟩ := hi.holders q nb₀ b hq₀ (hstart.trans hb)
    rw [hmethod] at hgiven
    refine ⟨c', by rw [hg.chain, if_neg hqn, hc'], ?_⟩
    rw [hg.given]
    split
    · rename_i hblk
      rw [hblk] at hgiven
      rw [hblock _ hgiven]
    · exact hgiven

/-- What was given to a chain which goes on still has a holder and can be released. -/
theorem NbState.Inv.grow_usable (hi : s.Inv pf) (hg : Grown pf s s' c nb ptr)
    (hold : ∀ b g, s.ledger.given b = some g → g.chain = c → ¬ s.ledger.Over c) {b : ℕ}
    {g : Given} (hb : s'.ledger.given b = some g) (hover : ¬ s'.ledger.Over g.chain) :
    (∃ q, s'.heap.held q = some g.pxBuf) ∧ Usable pf s'.heap g.pfnFree g.pxBuf := by
  by_cases hgn : g = ⟨c, ptr, nb.freemethod⟩
  · subst hgn
    exact ⟨⟨_, (Heap.held_of_some hg.new).trans hg.pxBufStart⟩, hg.usable.congr (hg.blocks _)⟩
  · have hb := hg.given_old hb hgn
    have hover₀ : ¬ s.ledger.Over g.chain := fun hover₀ => by
      by_cases hgc : g.chain = c
      · exact hold b g hb hgc (hgc ▸ hover₀)
      · exact hover ((hg.over_iff hi _).mpr ⟨hgc, hover₀⟩)
    obtain ⟨⟨q, hq⟩, hu⟩ := hi.usable b g hb hover₀
    have hqn : q ≠ s.heap.brk := by
      rintro rfl
      obtain ⟨nb₀, hq₀, -⟩ := Heap.held_eq_some.mp hq
      exact Nat.lt_irrefl _ (hi.fresh.lt_of_netbuf hq₀)
    exact ⟨⟨q, (held_of_tag (hg.tags q hqn)).trans hq⟩, hu.congr (hg.blocks _)⟩

/-- The chain `c` has not ended unless it is new, and what it was given before has its block. -/
theorem NbState.Inv.grow (hi : s.Inv pf) (hg : Grown pf s s' c nb ptr)
    (hold : ∀ b g, s.ledger.given b = some g → g.chain = c → ¬ s.ledger.Over c)
    (hblock : ∀ g, s.ledger.given ptr.block = some g → g = ⟨c, ptr, nb.freemethod⟩) :
    s'.Inv pf where
  fresh := hg.fresh
  below q c' hc := by
    rw [hg.brk]
    by_cases hqn : q = s.heap.brk
    · rw [hg.chain, if_pos hqn, Option.some.injEq] at hc
      exact ⟨hqn ▸ Nat.lt_succ_self _, hc ▸ hg.named⟩
    · have hb := hi.below q c' (hg.chain_old hc hqn)
      exact ⟨Nat.lt_succ_of_lt hb.1, Nat.lt_succ_of_lt hb.2⟩
  named b g hb := by
    rw [hg.brk]
    rw [hg.given] at hb
    split at hb
    · rename_i hbp
      cases hb
      exact ⟨hg.named, hbp.symm⟩
    · have hn := hi.named b g hb
      exact ⟨Nat.lt_succ_of_lt hn.1, hn.2⟩
  known q nb' hq := hg.entered fun hqn => by
    obtain ⟨nb₀, hq₀, -⟩ := hg.old hq hqn
    exact hi.known q nb₀ hq₀
  entered q hq := hg.entered fun hqn => hi.entered q (hg.live_old hq hqn)
  links q c' hq hc := hi.grow_links hg hq hc
  marks q nb' hq := by
    by_cases hqn : q = s.heap.brk
    · subst hqn
      rw [hg.new] at hq
      cases hq
      rw [hg.xFreed, (hg.live _).mpr (Or.inl rfl)]
      rfl
    · obtain ⟨nb₀, hq₀, -, hfreed, -⟩ := hg.old hq hqn
      have hlive : s'.ledger.live q = s.ledger.live q := by
        rw [Bool.eq_iff_iff, hg.live]
        exact or_iff_right hqn
      rw [← hfreed, hlive]
      exact hi.marks q nb₀ hq₀
  first q nb' c' hq hlive hc := by
    by_cases hqn : q = s.heap.brk
    · subst hqn
      rw [hg.new] at hq
      rw [hg.chain, if_pos rfl] at hc
      cases hq
      cases hc
      exact hg.pxFirst
    · obtain ⟨nb₀, hq₀, -, -, -, hfirst⟩ := hg.old hq hqn
      rw [← hfirst]
      exact hi.first q nb₀ c' hq₀ (hg.live_old hlive hqn) (hg.chain_old hc hqn)
  sound := hg.sound
  holders q nb' b hq hb := hi.grow_holders hg hblock hq hb
  gone c' hover q hq := by
    obtain ⟨hne, hover⟩ := (hg.over_iff hi c').mp hover
    have hqn : q ≠ s.heap.brk := fun heq => by
      rw [hg.chain, if_pos heq, Option.some.injEq] at hq
      exact hne hq.symm
    have htags := hg.tags q hqn
    rwa [hi.gone c' hover q (hg.chain_old hq hqn), Option.map_none, Option.map_eq_none_iff]
      at htags
  usable b g hb hover := hi.grow_usable hg hold hb hover
  released b g hb hover := by
    obtain ⟨hne, hover⟩ := (hg.over_iff hi _).mp hover
    have hgn : g ≠ ⟨c, ptr, nb.freemethod⟩ := by
      rintro rfl
      exact hne rfl
    exact (hi.released b g (hg.given_old hb hgn) hover).congr (hg.blocks _)

end Grown

theorem NbState.Inv.held_brk (hi : s.Inv pf) : s.heap.held s.heap.brk = none := by
  rw [Heap.held, (hi.fresh _ (Nat.le_refl _)).1, Option.bind_none]

theorem NbState.Inv.chain_brk (hi : s.Inv pf) (c : NbPtr) :
    s.ledger.chain s.heap.brk ≠ some c := fun hc => Nat.lt_irrefl _ (hi.below _ _ hc).1

theorem update_live_iff {live : NbPtr → Bool} (p q : NbPtr) :
    Function.update live p true q = true ↔ q = p ∨ live q = true := by
  by_cases hq : q = p
  · simp [hq]
  · simp [hq]

theorem NbState.Inv.new (hi : s.Inv pf) {pfnFree : Option FreeMethod}
    (hfree : s.ledger.given ptr.block = none) (hu : Usable pf s.heap pfnFree ptr)
    (hnext : nb.pxNext = none) (hfirst : nb.pxFirst = s.heap.brk) (hlive : nb.xFreed = false)
    (hstart : nb.pxBufStart = some ptr) (hmethod : nb.freemethod = pfnFree) :
    NbState.Inv pf ⟨s.heap.withNetbuf nb, s.ledger.enter s.heap.brk ptr pfnFree⟩ := by
  subst hmethod
  have hnobody : ∀ q, s.heap.held q ≠ some ptr := fun q hq => by
    obtain ⟨nb', hq', hb⟩ := Heap.held_eq_some.mp hq
    obtain ⟨c, -, hgiven⟩ := hi.holders q nb' ptr hq' hb
    rw [hfree] at hgiven
    cases hgiven
  have hself : (s.heap.withNetbuf nb).held s.heap.brk = some ptr :=
    (Heap.held_of_some (Heap.withNetbuf_self _ nb)).trans hstart
  have hother : ∀ q, q ≠ s.heap.brk → (s.heap.withNetbuf nb).netbufs q = s.heap.netbufs q :=
    fun q hq => Heap.withNetbuf_of_ne _ nb hq
  refine hi.grow (show Grown pf s
    ⟨s.heap.withNetbuf nb, s.ledger.enter s.heap.brk ptr nb.freemethod⟩ s.heap.brk nb ptr from {
      fresh := hi.fresh.withNetbuf nb
      brk := rfl
      blocks := fun b => ⟨rfl, rfl, fun _ hp => hp⟩
      named := Nat.lt_succ_self _
      chain := Ledger.enter_chain _ _ _ _
      live := fun q => update_live_iff _ q
      new := Heap.withNetbuf_self _ nb
      xFreed := hlive
      pxFirst := hfirst
      pxBufStart := hstart
      usable := hu
      tags := fun q hq => by rw [hother q hq]
      firsts := fun q hq => by rw [hother q hq]
      nexts := fun q hq _ => by rw [hother q hq]
      links := ⟨[s.heap.brk], ⟨rfl, nb, Heap.withNetbuf_self _ nb, hnext⟩,
        List.pairwise_singleton _ _, fun q => ?_⟩
      given := fun b => Function.update_apply _ _ _ b
      sound := hi.sound.enter hi.held_brk hnobody (fun q => update_live_iff _ q) hself
        fun q hq => by rw [Heap.held, hother q hq, Heap.held] }) ?_ ?_
  · rw [List.mem_singleton]
    change _ ↔ (s.ledger.enter s.heap.brk ptr nb.freemethod).chain q = _
    rw [Ledger.enter_chain]
    split
    · rename_i hq
      exact iff_of_true hq rfl
    · rename_i hq
      exact iff_of_false hq fun hc => Nat.lt_irrefl _ (hi.below q _ hc).2
  · intro b g hb hgc
    exact absurd (hi.named b g hb).1 (hgc ▸ Nat.lt_irrefl _)
  · intro g hg
    rw [hfree] at hg
    cases hg

/-- The cut may be in another netbuf of the chain than the one which the split was called
with. -/
theorem NbState.Inv.cut (hi : s.Inv pf) {pxNb : NbPtr} {eType : NetBufType} {k : ℕ}
    (hp : s.heap.netbufs p = some nb) (hlive : s.ledger.live p = true)
    (hc : s.ledger.chain p = some c) (hc' : s.ledger.chain pxNb = some c) :
    NbState.Inv pf ⟨splitHeap s.heap p nb eType k, s.ledger.cut pxNb s.heap.brk⟩ := by
  obtain ⟨nb', ptr, hp', hfreed, hstart⟩ := hi.live_netbuf hlive
  obtain rfl : nb' = nb := Option.some.inj (hp'.symm.trans hp)
  obtain ⟨c', hcc, hgiven⟩ := hi.holders p nb' ptr hp hstart
  obtain rfl : c' = c := Option.some.inj (hcc.symm.trans hc)
  have hlt := hi.below p c' hc
  have hpn : p ≠ s.heap.brk := Nat.ne_of_lt hlt.1
  have hover : ¬ s.ledger.Over c' := Ledger.not_over hlive hc
  have hnew : (splitHeap s.heap p nb' eType k).netbufs s.heap.brk = some (nb'.behind eType k) :=
    splitHeap_new hpn
  have hsame : ∀ {β : Type} (f : Netbuf → β),
      f { nb' with unSz := k, pxNext := some s.heap.brk } = f nb' → ∀ q, q ≠ s.heap.brk →
        ((splitHeap s.heap p nb' eType k).netbufs q).map f = (s.heap.netbufs q).map f := by
    intro β f hf q hq
    by_cases hqp : q = p
    · subst hqp
      rw [hp, splitHeap, Heap.setNetbuf_self, Option.map_some, Option.map_some, hf]
    · rw [splitHeap_of_ne hq hqp]
  obtain ⟨l, hl, hnodup, hmem⟩ := hi.links p c' hlive hc
  obtain ⟨l₁, l₂, rfl⟩ := List.append_of_mem ((hmem p).mpr hc)
  have hout : s.heap.brk ∉ l₁ ++ p :: l₂ := fun hin => hi.chain_brk c' ((hmem _).mp hin)
  have hperm := perm_cut l₁ l₂ p s.heap.brk
  refine hi.grow (show Grown pf s ⟨splitHeap s.heap p nb' eType k, s.ledger.cut pxNb s.heap.brk⟩
    c' (nb'.behind eType k) ptr from {
      fresh := (hi.fresh.withNetbuf _).setNetbuf (Nat.lt_succ_of_lt hlt.1) _
      brk := rfl
      blocks := fun b => ⟨rfl, rfl, fun _ hp => hp⟩
      named := Nat.lt_succ_of_lt hlt.2
      chain := fun q => by
        rw [← hc']
        exact Ledger.cut_chain _ _ _ q
      live := fun q => update_live_iff _ q
      new := hnew
      xFreed := rfl
      pxFirst := hi.first p nb' c' hp hlive hc
      pxBufStart := hstart
      usable := (hi.usable _ _ hgiven hover).2
      tags := hsame Netbuf.tag rfl
      firsts := hsame (·.pxFirst) rfl
      nexts := fun q hq hqc => ?_
      links := ⟨_, links_split hi.fresh hl hnodup hp, ?_, fun q => ?_⟩
      given := fun b => ?_
      sound := hi.sound.share hlive ((Heap.held_of_some hp).trans hstart) hi.held_brk
        (fun q => update_live_iff _ q) ((Heap.held_of_some hnew).trans hstart)
        fun q hq => held_of_tag (hsame Netbuf.tag rfl q hq) }) (fun _ _ _ _ => hover) ?_
  · rw [splitHeap_of_ne hq fun heq => hqc (heq ▸ hc)]
  · exact hperm.nodup_iff.mpr (List.nodup_cons.mpr ⟨hout, hnodup⟩)
  · rw [hperm.mem_iff, List.mem_cons, hmem q]
    change _ ↔ (s.ledger.cut pxNb s.heap.brk).chain q = _
    rw [Ledger.cut_chain, hc']
    split
    · rename_i hq
      exact iff_of_true (Or.inl hq) rfl
    · rename_i hq
      exact or_iff_right hq
  · change s.ledger.given b = _
    split
    · rename_i hb
      rw [hb, hgiven]
      rfl
    · rfl
  · intro g hg
    exact Option.some.inj (hg.symm.trans hgiven)

/-! ### Joined chains -/

theorem Ledger.join_chain_eq {d : Ledger} {c r c' : NbPtr} (hcr : c ≠ r) (q : NbPtr) :
    (d.join c r).chain q = some c' ↔
      c' = c ∧ (d.chain q = some c ∨ d.chain q = some r) ∨
        c' ≠ c ∧ c' ≠ r ∧ d.chain q = some c' := by
  change (if d.chain q = some r then some c else d.chain q) = some c' ↔ _
  by_cases hq : d.chain q = some r
  · rw [if_pos hq, hq]
    constructor
    · intro heq
      exact Or.inl ⟨(Option.some.inj heq).symm, Or.inr rfl⟩
    · rintro (⟨rfl, -⟩ | ⟨-, hne, heq⟩)
      · rfl
      · exact absurd (Option.some.inj heq).symm hne
  · rw [if_neg hq]
    by_cases hcc : c' = c
    · subst hcc
      simp [hq]
    · simp only [hcc, false_and, false_or, ne_eq, not_false_eq_true, true_and]
      refine ⟨fun heq => ⟨?_, heq⟩, And.right⟩
      rintro rfl
      exact hq heq

theorem Ledger.join_over {d : Ledger} {c r c' : NbPtr} (hcr : c ≠ r) (hc : c' ≠ c) (hr : c' ≠ r) :
    (d.join c r).Over c' ↔ d.Over c' := by
  refine forall_congr' fun q => ?_
  rw [Ledger.join_chain_eq hcr]
  simp only [hc, hr, false_and, false_or, ne_eq, not_false_eq_true, true_and]
  rfl

/-- A buffer in the joined ledger was given to one of the two chains or is in another one. -/
theorem Ledger.join_given {d : Ledger} {c r : NbPtr} {b : ℕ} {g : Given}
    (hg : (d.join c r).given b = some g) :
    ∃ g₀, d.given b = some g₀ ∧ g₀.pxBuf = g.pxBuf ∧ g₀.pfnFree = g.pfnFree ∧
      (g.chain = c ∧ (g₀.chain = c ∨ g₀.chain = r) ∨
        g.chain ≠ c ∧ g.chain ≠ r ∧ g₀.chain = g.chain) := by
  obtain ⟨g₀, hg₀, rfl⟩ := Option.map_eq_some_iff.mp hg
  refine ⟨g₀, hg₀, ?_⟩
  unfold Given.join
  by_cases hgr : g₀.chain = r
  · rw [if_pos hgr]
    exact ⟨rfl, rfl, Or.inl ⟨rfl, Or.inr hgr⟩⟩
  · rw [if_neg hgr]
    by_cases hgc : g₀.chain = c
    · exact ⟨rfl, rfl, Or.inl ⟨hgc, Or.inl hgc⟩⟩
    · exact ⟨rfl, rfl, Or.inr ⟨hgc, hgr, rfl⟩⟩

theorem Netbuf.relink_tag (first : NbPtr) (nb : Netbuf) : (nb.relink first).tag = nb.tag := by
  unfold Netbuf.relink
  split <;> rfl

theorem Appended.tags {h h' : Heap} {first last : NbPtr} {l : List NbPtr}
    (ha : Appended h h' first last r l) (q : NbPtr) :
    (h'.netbufs q).map Netbuf.tag = (h.netbufs q).map Netbuf.tag := by
  by_cases hq : q ∈ l
  · rw [ha.right q hq, Option.map_map]
    exact congrFun (congrArg Option.map (funext fun nb => Netbuf.relink_tag first nb)) _
  · by_cases hqlast : q = last
    · rw [hqlast, ha.hung, Option.map_map]
      rfl
    · rw [ha.other q hq hqlast]

theorem Appended.sameBlock {h h' : Heap} {first last : NbPtr} {l : List NbPtr}
    (ha : Appended h h' first last r l) (b : ℕ) : SameBlock h h' b := by
  rw [ha.rest]
  exact ⟨rfl, rfl, fun _ hp => hp⟩

theorem Appended.brk {h h' : Heap} {first last : NbPtr} {l : List NbPtr}
    (ha : Appended h h' first last r l) : h'.brk = h.brk := by
  rw [ha.rest]

theorem Appended.fresh {h h' : Heap} {first last : NbPtr} {l : List NbPtr}
    (ha : Appended h h' first last r l) (hf : h.Fresh) : h'.Fresh := fun a ha' => by
  rw [ha.brk] at ha'
  have hold := hf a ha'
  have hnone := ha.tags a
  rw [hold.1, Option.map_none, Option.map_eq_none_iff] at hnone
  refine ⟨hnone, ?_⟩
  rw [ha.rest]
  exact hold.2

/-- The chain `r` with the netbufs `l'` is hung to the last netbuf of the chain `c`. -/
structure Joining (s : NbState) (h' : Heap) (c r last : NbPtr) (l l' : List NbPtr) : Prop where
  ne : c ≠ r
  left : NbLinks s.heap (some c) (l ++ [last]) none
  nodup : (l ++ [last]).Nodup
  mem : ∀ q, q ∈ l ++ [last] ↔ s.ledger.chain q = some c
  right : NbLinks s.heap (some r) l' none
  nodup' : l'.Nodup
  mem' : ∀ q, q ∈ l' ↔ s.ledger.chain q = some r
  appended : Appended s.heap h' c last r l'

section Joining

variable {h' : Heap} {last : NbPtr} {l l' : List NbPtr}

theorem Joining.disjoint (hu : Joining s h' c r last l l') : ∀ q ∈ l', q ∉ l ++ [last] :=
  fun q hq hq' => by
    have heq := ((hu.mem q).mp hq').symm.trans ((hu.mem' q).mp hq)
    exact hu.ne (Option.some.inj heq)

theorem Joining.held (hu : Joining s h' c r last l l') (q : NbPtr) : h'.held q = s.heap.held q :=
  held_of_tag (hu.appended.tags q)

/-- Netbufs of other chains are the same. -/
theorem Joining.apart (hu : Joining s h' c r last l l') {c' : NbPtr}
    (hq : s.ledger.chain q = some c') (hne : c' ≠ c) (hne' : c' ≠ r) :
    h'.netbufs q = s.heap.netbufs q := by
  refine hu.appended.other q (fun hin => ?_) fun heq => ?_
  · exact hne' (Option.some.inj (hq.symm.trans ((hu.mem' q).mp hin)))
  · subst heq
    exact hne (Option.some.inj (hq.symm.trans ((hu.mem q).mp (by simp))))

theorem Ledger.join_chain_some (d : Ledger) (c r : NbPtr) {c' : NbPtr}
    (hq : d.chain q = some c') : ∃ c₁, (d.join c r).chain q = some c₁ := by
  by_cases hqr : d.chain q = some r
  · exact ⟨c, if_pos hqr⟩
  · exact ⟨c', (if_neg hqr).trans hq⟩

theorem NbState.Inv.join_links (hi : s.Inv pf) (hu : Joining s h' c r last l l') {c' : NbPtr}
    (hq : s.ledger.live q = true) (hqc : (s.ledger.join c r).chain q = some c') :
    ∃ lq, NbLinks h' (some c') lq none ∧ lq.Nodup ∧
      ∀ x, x ∈ lq ↔ (s.ledger.join c r).chain x = some c' := by
  rcases (Ledger.join_chain_eq hu.ne q).mp hqc with ⟨rfl, -⟩ | ⟨hne, hne', hqc⟩
  · refine ⟨_, hu.appended.links hu.left hu.nodup hu.right hu.disjoint, ?_, fun x => ?_⟩
    · refine List.nodup_append.mpr ⟨hu.nodup, hu.nodup', fun x hx y hy hxy => ?_⟩
      subst hxy
      exact hu.disjoint x hy hx
    · rw [List.mem_append, hu.mem x, hu.mem' x, Ledger.join_chain_eq hu.ne]
      simp
  · obtain ⟨lq, hlq, hnodupq, hmemq⟩ := hi.links q c' hq hqc
    refine ⟨lq, hlq.congr fun x hx => ?_, hnodupq, fun x => ?_⟩
    · exact congrArg _ (hu.apart ((hmemq x).mp hx) hne hne')
    · rw [hmemq x, Ledger.join_chain_eq hu.ne]
      simp [hne, hne']

theorem NbState.Inv.join_first (hi : s.Inv pf) (hu : Joining s h' c r last l l') {c' : NbPtr}
    (hq : h'.netbufs q = some nb) (hlive : s.ledger.live q = true)
    (hqc : (s.ledger.join c r).chain q = some c') : nb.pxFirst = c' := by
  rcases (Ledger.join_chain_eq hu.ne q).mp hqc with ⟨rfl, hqc | hqc⟩ | ⟨hne, hne', hqc⟩
  · -- A netbuf of the left chain keeps its first one.
    have hq' : q ∉ l' := fun hin => hu.disjoint q hin ((hu.mem q).mpr hqc)
    by_cases hqlast : q = last
    · subst hqlast
      have hhung := hu.appended.hung
      rw [hq, eq_comm, Option.map_eq_some_iff] at hhung
      obtain ⟨nb₀, hq₀, rfl⟩ := hhung
      exact hi.first q nb₀ c' hq₀ hlive hqc
    · exact hi.first q nb c' ((hu.appended.other q hq' hqlast).symm.trans hq) hlive hqc
  · have hright := hu.appended.right q ((hu.mem' q).mpr hqc)
    rw [hq, eq_comm, Option.map_eq_some_iff] at hright
    obtain ⟨nb₀, hq₀, rfl⟩ := hright
    have hfreed : nb₀.xFreed = false := by
      rw [hi.marks q nb₀ hq₀, hlive]
      rfl
    simp [Netbuf.relink, hfreed]
  · exact hi.first q nb c' ((hu.apart hqc hne hne').symm.trans hq) hlive hqc

theorem NbState.Inv.join_holders (hi : s.Inv pf) (hu : Joining s h' c r last l l') {b : Ptr}
    (hq : h'.netbufs q = some nb) (hb : nb.pxBufStart = some b) :
    ∃ c', (s.ledger.join c r).chain q = some c' ∧
      (s.ledger.join c r).given b.block = some ⟨c', b, nb.freemethod⟩ := by
  obtain ⟨nb₀, hq₀, hstart, -, hmethod⟩ := netbuf_of_tag (hu.appended.tags q) hq
  obtain ⟨c', hc', hg⟩ := hi.holders q nb₀ b hq₀ (hstart.trans hb)
  rw [hmethod] at hg
  have hg' : (s.ledger.join c r).given b.block =
      some (Given.join c r ⟨c', b, nb.freemethod⟩) :=
    congrArg (Option.map (Given.join c r)) hg
  by_cases hcr' : c' = r
  · subst hcr'
    exact ⟨c, if_pos hc', by rw [hg', Given.join, if_pos rfl]⟩
  · have hqr : s.ledger.chain q ≠ some r := fun heq =>
      hcr' (Option.some.inj (hc'.symm.trans heq))
    exact ⟨c', (if_neg hqr).trans hc', by rw [hg', Given.join, if_neg hcr']⟩

theorem NbState.Inv.join (hi : s.Inv pf) (hu : Joining s h' c r last l l')
    (hp : s.ledger.live p = true) (hc : s.ledger.chain p = some c)
    (hr : s.ledger.live q = true) (hrr : s.ledger.chain q = some r) :
    NbState.Inv pf ⟨h', s.ledger.join c r⟩ := by
  have hcover : ¬ s.ledger.Over c := Ledger.not_over hp hc
  have hrover : ¬ s.ledger.Over r := Ledger.not_over hr hrr
  have hcover' : ¬ (s.ledger.join c r).Over c :=
    Ledger.not_over hp ((Ledger.join_chain_eq hu.ne p).mpr (Or.inl ⟨rfl, Or.inl hc⟩))
  exact {
    fresh := hu.appended.fresh hi.fresh
    below := fun q c' hq => by
      change q < h'.brk ∧ c' < h'.brk
      rw [hu.appended.brk]
      rcases (Ledger.join_chain_eq hu.ne q).mp hq with ⟨rfl, hq | hq⟩ | ⟨-, -, hq⟩
      · exact hi.below q c' hq
      · exact ⟨(hi.below q r hq).1, (hi.below p c' hc).2⟩
      · exact hi.below q c' hq
    named := fun b g hg => by
      change g.chain < h'.brk ∧ _
      rw [hu.appended.brk]
      obtain ⟨g₀, hg₀, hbuf, -, hcases⟩ := Ledger.join_given hg
      have hn := hi.named b g₀ hg₀
      refine ⟨?_, hbuf ▸ hn.2⟩
      rcases hcases with ⟨heq, -⟩ | ⟨-, -, heq⟩
      · exact heq ▸ (hi.below p c hc).2
      · exact heq ▸ hn.1
    known := fun q nb hq => by
      obtain ⟨nb₀, hq₀, -⟩ := netbuf_of_tag (hu.appended.tags q) hq
      obtain ⟨c', hc'⟩ := hi.known q nb₀ hq₀
      exact s.ledger.join_chain_some c r hc'
    entered := fun q hq => by
      obtain ⟨c', hc'⟩ := hi.entered q hq
      exact s.ledger.join_chain_some c r hc'
    links := fun q c' hq hqc => hi.join_links hu hq hqc
    marks := fun q nb hq => by
      obtain ⟨nb₀, hq₀, -, hfreed, -⟩ := netbuf_of_tag (hu.appended.tags q) hq
      rw [← hfreed]
      exact hi.marks q nb₀ hq₀
    first := fun q nb c' hq hlive hqc => hi.join_first hu hq hlive hqc
    sound := hi.sound.congr (fun _ => Iff.rfl) hu.held
    holders := fun q nb b hq hb => hi.join_holders hu hq hb
    gone := fun c' hover q hq => by
      rcases (Ledger.join_chain_eq hu.ne q).mp hq with ⟨rfl, -⟩ | ⟨hne, hne', hq⟩
      · exact absurd hover hcover'
      · exact (hu.apart hq hne hne').trans
          (hi.gone c' ((Ledger.join_over hu.ne hne hne').mp hover) q hq)
    usable := fun b g hg hover => by
      obtain ⟨g₀, hg₀, hbuf, hmethod, hcases⟩ := Ledger.join_given hg
      have hover₀ : ¬ s.ledger.Over g₀.chain := by
        rcases hcases with ⟨-, heq | heq⟩ | ⟨hne, hne', heq⟩
        · rwa [heq]
        · rwa [heq]
        · rw [heq]
          exact fun ho => hover ((Ledger.join_over hu.ne hne hne').mpr ho)
      obtain ⟨⟨q, hq⟩, hus⟩ := hi.usable b g₀ hg₀ hover₀
      rw [hbuf, hmethod] at hus
      exact ⟨⟨q, (hu.held q).trans (hq.trans (congrArg some hbuf))⟩,
        hus.congr (hu.appended.sameBlock _)⟩
    released := fun b g hg hover => by
      obtain ⟨g₀, hg₀, hbuf, hmethod, ⟨heq, -⟩ | ⟨hne, hne', heq⟩⟩ := Ledger.join_given hg
      · rw [heq] at hover
        exact absurd hover hcover'
      · have hover₀ : s.ledger.Over g₀.chain := heq ▸ (Ledger.join_over hu.ne hne hne').mp hover
        have hrel := hi.released b g₀ hg₀ hover₀
        rw [hbuf, hmethod] at hrel
        exact hrel.congr (hu.appended.sameBlock _) }

end Joining

/-! ### Freed netbufs -/

theorem Ledger.leave_live (d : Ledger) (p q : NbPtr) :
    (d.leave p).live q = true ↔ q ≠ p ∧ d.live q = true := by
  by_cases hq : q = p
  · simp [Ledger.leave, hq]
  · simp [Ledger.leave, hq]

theorem Ledger.Over.leave {d : Ledger} (hc : d.Over c) (p : NbPtr) : (d.leave p).Over c :=
  fun q hq => eq_false_of_ne_true fun hlive => by
    have hlive := ((Ledger.leave_live d p q).mp hlive).2
    rw [hc q hq] at hlive
    cases hlive

theorem Ledger.over_of_leave {d : Ledger} {c' : NbPtr} (hp : d.chain p = some c) (hne : c' ≠ c)
    (hc : (d.leave p).Over c') : d.Over c' := fun q hq => by
  refine eq_false_of_ne_true fun hlive => ?_
  have hqp : q ≠ p := by
    rintro rfl
    exact hne (Option.some.inj (hq.symm.trans hp))
  have hdead := hc q hq
  rw [(Ledger.leave_live d p q).mpr ⟨hqp, hlive⟩] at hdead
  cases hdead

/-- The netbuf `p` is marked as freed and has let go of its buffer if that is shared. -/
structure Leaving (s : NbState) (p : NbPtr) (h : Heap) : Prop where
  fresh : h.Fresh
  brk : h.brk = s.heap.brk
  blocks : ∀ b, SameBlock s.heap h b
  self : ∃ nb, h.netbufs p = some nb ∧ nb.xFreed = true
  other : ∀ q, q ≠ p → h.netbufs q = s.heap.netbufs q
  nexts : ∀ q, (h.netbufs q).map (·.pxNext) = (s.heap.netbufs q).map (·.pxNext)
  sound : Sound ((s.ledger.leave p).live · = true) h.held
  cover : ∀ b, (∃ q, h.held q = some b) ↔ ∃ q, s.heap.held q = some b
  holders : ∀ q nb b, h.netbufs q = some nb → nb.pxBufStart = some b →
    ∃ c, s.ledger.chain q = some c ∧ s.ledger.given b.block = some ⟨c, b, nb.freemethod⟩

/-- What is held is in the ledger under the chain of its holder. -/
theorem Leaving.given (hl : Leaving s p h) {b : Ptr} (hq : h.held q = some b) :
    ∃ c m, s.ledger.chain q = some c ∧ s.ledger.given b.block = some ⟨c, b, m⟩ := by
  obtain ⟨nb, hqnb, hstart⟩ := Heap.held_eq_some.mp hq
  obtain ⟨c, hc, hg⟩ := hl.holders q nb b hqnb hstart
  exact ⟨c, nb.freemethod, hc, hg⟩

theorem NbState.Inv.leaving (hi : s.Inv pf) (hc : s.ledger.chain p = some c)
    (hp : s.heap.netbufs p = some nb) (hstart : nb.pxBufStart = some ptr) {kept : Option Ptr}
    (hkept : Kept s.heap.held p ptr kept) :
    Leaving s p (s.heap.setNetbuf p (some (nb.left kept))) := by
  have hother : ∀ q, q ≠ p →
      (s.heap.setNetbuf p (some (nb.left kept))).netbufs q = s.heap.netbufs q :=
    fun q hq => Heap.setNetbuf_of_ne _ _ hq
  have hself : (s.heap.setNetbuf p (some (nb.left kept))).netbufs p = some (nb.left kept) :=
    Heap.setNetbuf_self _ _ _
  have hheldp : (s.heap.setNetbuf p (some (nb.left kept))).held p = kept :=
    Heap.held_of_some hself
  have hheld : ∀ q, q ≠ p →
      (s.heap.setNetbuf p (some (nb.left kept))).held q = s.heap.held q := fun q hq => by
    rw [Heap.held, hother q hq, Heap.held]
  have hptr : s.heap.held p = some ptr := (Heap.held_of_some hp).trans hstart
  rw [← hheldp] at hkept
  exact {
    fresh := hi.fresh.setNetbuf (hi.below p c hc).1 _
    brk := rfl
    blocks := fun b => (SameBlock.refl s.heap b).setNetbuf p _
    self := ⟨_, hself, rfl⟩
    other := hother
    nexts := fun q => by
      by_cases hq : q = p
      · subst hq
        rw [hself, hp]
        rfl
      · rw [hother q hq]
    sound := hi.sound.leave hptr (fun q => Ledger.leave_live _ p q) hkept hheld
    cover := held_leave hptr hkept hheld
    holders := fun q nb' b hq hb => by
      by_cases hqp : q = p
      · subst hqp
        rw [hself] at hq
        cases hq
        have hb' : kept = some b := hb
        rw [hheldp, hb'] at hkept
        obtain ⟨rfl, -⟩ := hkept
        exact hi.holders q nb b hp hstart
      · rw [hother q hqp] at hq
        exact hi.holders q nb' b hq hb }

section Leaving

variable (hi : s.Inv pf) (hc : s.ledger.chain p = some c) (hl : Leaving s p h)

include hi hc hl in
/-- The chain goes on without the netbuf. -/
theorem Leaving.inv (hopen : ¬ (s.ledger.leave p).Over c) :
    NbState.Inv pf ⟨h, s.ledger.leave p⟩ := by
  have hne : ∀ q, (s.ledger.leave p).live q = true → q ≠ p := fun q hq =>
    ((Ledger.leave_live _ p q).mp hq).1
  have hlive : ∀ q, (s.ledger.leave p).live q = true → s.ledger.live q = true := fun q hq =>
    ((Ledger.leave_live _ p q).mp hq).2
  have hover : ∀ c', (s.ledger.leave p).Over c' → c' ≠ c ∧ s.ledger.Over c' := fun c' hc' => by
    have hcc : c' ≠ c := by
      rintro rfl
      exact hopen hc'
    exact ⟨hcc, Ledger.over_of_leave hc hcc hc'⟩
  exact {
    fresh := hl.fresh
    below := fun q c' hq => hl.brk ▸ hi.below q c' hq
    named := fun b g hg => hl.brk ▸ hi.named b g hg
    known := fun q nb hq => by
      by_cases hqp : q = p
      · exact ⟨c, hqp ▸ hc⟩
      · exact hi.known q nb ((hl.other q hqp).symm.trans hq)
    entered := fun q hq => hi.entered q (hlive q hq)
    links := fun q c' hq hqc => by
      obtain ⟨l, hlinks, hrest⟩ := hi.links q c' (hlive q hq) hqc
      exact ⟨l, hlinks.congr fun x _ => hl.nexts x, hrest⟩
    marks := fun q nb hq => by
      by_cases hqp : q = p
      · subst hqp
        obtain ⟨nb', hq', hfreed⟩ := hl.self
        rw [hq'] at hq
        cases hq
        change nb.xFreed = !Function.update s.ledger.live q false q
        rw [hfreed, Function.update_self]
        rfl
      · change nb.xFreed = !Function.update s.ledger.live p false q
        rw [Function.update_of_ne hqp]
        exact hi.marks q nb ((hl.other q hqp).symm.trans hq)
    first := fun q nb c' hq hqlive hqc =>
      hi.first q nb c' ((hl.other q (hne q hqlive)).symm.trans hq) (hlive q hqlive) hqc
    sound := hl.sound
    holders := hl.holders
    gone := fun c' hc' q hq => by
      obtain ⟨hcc, hc'⟩ := hover c' hc'
      have hqp : q ≠ p := by
        rintro rfl
        exact hcc (Option.some.inj (hq.symm.trans hc))
      exact (hl.other q hqp).trans (hi.gone c' hc' q hq)
    usable := fun b g hg hgc => by
      obtain ⟨hheld, hu⟩ := hi.usable b g hg fun ho => hgc (ho.leave p)
      exact ⟨(hl.cover _).mpr hheld, hu.congr (hl.blocks _)⟩
    released := fun b g hg hgc =>
      (hi.released b g hg (hover _ hgc).2).congr (hl.blocks _) }

/-! The netbuf is the last one of its chain, whose netbufs are `l`. -/

section Last

variable {l : List NbPtr} (hmem : ∀ q, q ∈ l ↔ s.ledger.chain q = some c)

include hl hmem in
theorem Leaving.given_mem {b : Ptr} (hq : q ∈ l) (hb : h.held q = some b) :
    ∃ m, s.ledger.given b.block = some ⟨c, b, m⟩ := by
  obtain ⟨c', m, hc', hg⟩ := hl.given hb
  obtain rfl : c' = c := Option.some.inj (hc'.symm.trans ((hmem q).mp hq))
  exact ⟨m, hg⟩

include hi hl in
/-- Who holds a buffer of the ledger is in its chain. -/
theorem Leaving.inside {b : ℕ} {g : Given} (hg : s.ledger.given b = some g)
    (hq : h.held q = some g.pxBuf) : s.ledger.chain q = some g.chain := by
  obtain ⟨c', m, hc', hg'⟩ := hl.given hq
  rw [(hi.named b g hg).2, hg] at hg'
  have hchain : g.chain = c' := congrArg Given.chain (Option.some.inj hg')
  rw [hchain]
  exact hc'

include hi hl hmem in
/-- The netbufs of the chain hold no buffer of another one. -/
theorem Leaving.apart {b : ℕ} {g : Given} (hg : s.ledger.given b = some g) (hgc : g.chain ≠ c) :
    ∀ q ∈ l, ∀ b', h.held q = some b' → b'.block ≠ g.pxBuf.block := by
  intro q hq b' hb' heq
  obtain ⟨m, hm⟩ := hl.given_mem hmem hq hb'
  rw [heq, (hi.named b g hg).2, hg] at hm
  cases hm
  exact hgc rfl

variable (hlast : (s.ledger.leave p).Over c)

include hmem hlast in
theorem Ledger.leave_live_last (hq : (s.ledger.leave p).live q = true) :
    q ∉ l ∧ s.ledger.live q = true := by
  refine ⟨fun hin => ?_, ((Ledger.leave_live _ p q).mp hq).2⟩
  rw [hlast q ((hmem q).mp hin)] at hq
  cases hq

/-- The netbufs of the chain are gone and what was given to it is released. -/
structure Emptied (pf : Platform) (s : NbState) (c : NbPtr) (l : List NbPtr) (h h' : Heap) :
    Prop where
  fresh : h'.Fresh
  brk : h'.brk = h.brk
  none : ∀ q ∈ l, h'.netbufs q = none
  out : ∀ q, q ∉ l → h'.netbufs q = h.netbufs q
  released : ∀ b g, s.ledger.given b = some g → g.chain = c → Released pf h' g.pfnFree g.pxBuf
  blocks : ∀ b g, s.ledger.given b = some g → g.chain ≠ c → SameBlock h h' g.pxBuf.block

include hi hc hl hmem hlast in
/-- The chain was not over, so that its buffers can be released, each once. -/
theorem Leaving.emptied (hp : s.ledger.live p = true) (hnodup : l.Nodup)
    (hlinks : NbLinks s.heap (some c) l none) :
    ∃ h', freeChain pf h l = .ok h' ∧ Emptied pf s c l h h' := by
  have hcover : ¬ s.ledger.Over c := Ledger.not_over hp hc
  have hall : ∀ q ∈ l, ∃ nb, h.netbufs q = some nb :=
    (hlinks.congr fun x _ => hl.nexts x).netbuf
  obtain ⟨h', hcode, hnone, hout, hbrk, hrel, hsame⟩ := freeChain_spec pf hnodup hall
    (fun q hq q' hq' b b' hb hb' heq => by
      obtain ⟨m, hm⟩ := hl.given_mem hmem hq hb
      obtain ⟨m', hm'⟩ := hl.given_mem hmem hq' hb'
      rw [heq, hm'] at hm
      cases hm
      rcases hl.sound.shares q q' _ hb hb' with hqq | ⟨hlive', -⟩
      · exact hqq
      · exact absurd hq (Ledger.leave_live_last hmem hlast hlive').1)
    (fun q hq nb b hqnb hb => by
      obtain ⟨c', hc', hg⟩ := hl.holders q nb b hqnb hb
      obtain rfl : c' = c := Option.some.inj (hc'.symm.trans ((hmem q).mp hq))
      exact ((hi.usable _ _ hg hcover).2).congr (hl.blocks _))
  refine ⟨h', hcode, fun a ha => ?_, hbrk, hnone, hout, fun b g hg hgc => ?_, fun b g hg hgc =>
    hsame _ (hl.apart hi hmem hg hgc)⟩
  · have hbrk' : h.brk ≤ a := hbrk ▸ ha
    have hold := hl.fresh a hbrk'
    have hal : a ∉ l := fun hin => by
      obtain ⟨nb, hnb⟩ := hall a hin
      rw [hold.1] at hnb
      cases hnb
    have hblock := hsame a fun q hq b hb => by
      obtain ⟨m, hm⟩ := hl.given_mem hmem hq hb
      obtain ⟨bs, hbs⟩ := Option.isSome_iff_exists.mp (hi.usable _ _ hm hcover).2.allocated
      rw [hl.brk] at hbrk'
      exact Nat.ne_of_lt (Nat.lt_of_lt_of_le (hi.fresh.lt_of_block hbs) hbrk')
    refine ⟨(hout a hal).trans hold.1, ?_⟩
    have hmem' := hblock.mem
    rwa [hold.2, Option.isSome_none, Option.isSome_eq_false_iff, Option.isNone_iff_eq_none] at hmem'
  · obtain ⟨q, hq⟩ := (hl.cover _).mpr (hi.usable b g hg (hgc ▸ hcover)).1
    have hql : q ∈ l := (hmem q).mpr (hgc ▸ hl.inside hi hg hq)
    obtain ⟨nb, hqnb, hstart⟩ := Heap.held_eq_some.mp hq
    obtain ⟨c', -, hg'⟩ := hl.holders q nb _ hqnb hstart
    rw [(hi.named b g hg).2, hg] at hg'
    have hmethod : g.pfnFree = nb.freemethod := congrArg Given.pfnFree (Option.some.inj hg')
    rw [hmethod]
    exact hrel q hql nb _ hqnb hstart

include hi hc hl hmem hlast in
theorem Emptied.inv {h' : Heap} (he : Emptied pf s c l h h') :
    NbState.Inv pf ⟨h', s.ledger.leave p⟩ := by
  have hne : ∀ q, q ∉ l → q ≠ p := by
    rintro q hq rfl
    exact hq ((hmem q).mpr hc)
  have hlive : ∀ q, (s.ledger.leave p).live q = true → q ∉ l ∧ s.ledger.live q = true :=
    fun q hq => Ledger.leave_live_last hmem hlast hq
  have hover : ∀ c', c' ≠ c → (s.ledger.leave p).Over c' → s.ledger.Over c' := fun c' hcc hc' =>
    Ledger.over_of_leave hc hcc hc'
  have hkept : ∀ q, q ∉ l → h'.netbufs q = s.heap.netbufs q := fun q hq =>
    (he.out q hq).trans (hl.other q (hne q hq))
  have hinto : ∀ q nb, h'.netbufs q = some nb → q ∉ l := fun q nb hq hin => by
    rw [he.none q hin] at hq
    cases hq
  have hheld : ∀ q, q ∉ l → h'.held q = h.held q := fun q hq => by
    rw [Heap.held, he.out q hq, Heap.held]
  exact {
    fresh := he.fresh
    below := fun q c' hq => by
      change q < h'.brk ∧ c' < h'.brk
      rw [he.brk, hl.brk]
      exact hi.below q c' hq
    named := fun b g hg => by
      change g.chain < h'.brk ∧ _
      rw [he.brk, hl.brk]
      exact hi.named b g hg
    known := fun q nb hq => hi.known q nb ((hkept q (hinto q nb hq)).symm.trans hq)
    entered := fun q hq => hi.entered q (hlive q hq).2
    links := fun q c' hq hqc => by
      have hcc : c' ≠ c := by
        rintro rfl
        exact (hlive q hq).1 ((hmem q).mpr hqc)
      obtain ⟨lq, hlq, hrest, hmemq⟩ := hi.links q c' (hlive q hq).2 hqc
      refine ⟨lq, hlq.congr fun x hx => ?_, hrest, hmemq⟩
      have hxl : x ∉ l := fun hin =>
        hcc (Option.some.inj (((hmemq x).mp hx).symm.trans ((hmem x).mp hin)))
      exact congrArg _ (hkept x hxl)
    marks := fun q nb hq => by
      have hql := hinto q nb hq
      change nb.xFreed = !Function.update s.ledger.live p false q
      rw [Function.update_of_ne (hne q hql)]
      exact hi.marks q nb ((hkept q hql).symm.trans hq)
    first := fun q nb c' hq hqlive hqc =>
      hi.first q nb c' ((hkept q (hinto q nb hq)).symm.trans hq) (hlive q hqlive).2 hqc
    sound := hl.sound.release (fun q hq => hheld q (hlive q hq).1) fun q b hq => by
      obtain ⟨nb, hqnb, -⟩ := Heap.held_eq_some.mp hq
      rw [← hheld q (hinto q nb hqnb)]
      exact hq
    holders := fun q nb b hq hb =>
      hl.holders q nb b ((he.out q (hinto q nb hq)).symm.trans hq) hb
    gone := fun c' hc' q hq => by
      by_cases hcc : c' = c
      · subst hcc
        exact he.none q ((hmem q).mpr hq)
      · have hql : q ∉ l := fun hin =>
          hcc (Option.some.inj (hq.symm.trans ((hmem q).mp hin)))
        exact (hkept q hql).trans (hi.gone c' (hover c' hcc hc') q hq)
    usable := fun b g hg hgc => by
      have hgcc : g.chain ≠ c := by
        intro heq
        exact hgc (heq ▸ hlast)
      obtain ⟨hheldBy, hu⟩ := hi.usable b g hg fun ho => hgc (ho.leave p)
      obtain ⟨q, hq⟩ := (hl.cover _).mpr hheldBy
      have hql : q ∉ l := fun hin =>
        hgcc (Option.some.inj ((hl.inside hi hg hq).symm.trans ((hmem q).mp hin)))
      exact ⟨⟨q, (hheld q hql).trans hq⟩, (hu.congr (hl.blocks _)).congr (he.blocks b g hg hgcc)⟩
    released := fun b g hg hgc => by
      by_cases hgcc : g.chain = c
      · exact he.released b g hg hgcc
      · exact ((hi.released b g hg (hover _ hgcc hgc)).congr (hl.blocks _)).congr
          (he.blocks b g hg hgcc) }

end Last

end Leaving

/-! ### Calls -/

/-- There is a new netbuf, with a buffer which had none before, or no memory for it. -/
theorem NbState.new_cases {xPool : Option PoolPtr} {eType : NetBufType} {unSz : ℕ}
    {pfnFree : Option FreeMethod} (hperm : Permitted pf s (.new xPool eType ptr unSz pfnFree)) :
    ∃ s', s.step pf (.new xPool eType ptr unSz pfnFree) = some s' ∧
      (s' = ⟨s.heap.called, s.ledger⟩ ∨
        s' = ⟨s.heap.withNetbuf
            ⟨none, s.heap.brk, eType, unSz, some ptr, some ptr, false, pfnFree, xPool⟩,
          s.ledger.enter s.heap.brk ptr pfnFree⟩) := by
  obtain ⟨hpool, hsize, -, -⟩ := hperm
  simp only [NbState.step, pxNetBufNew, hpool, hsize, Exec.ok_bind, pvRsMemAllocNetbuf]
  by_cases hmem : s.heap.mallocOk s.heap.calls = true
  · rw [if_pos hmem]
    exact ⟨_, rfl, Or.inr rfl⟩
  · rw [if_neg hmem]
    exact ⟨_, rfl, Or.inl rfl⟩

theorem NbState.Inv.called (hi : s.Inv pf) : NbState.Inv pf ⟨s.heap.called, s.ledger⟩ :=
  hi.leaves ⟨hi.fresh, Nat.le_refl _, rfl, fun _ _ => ⟨rfl, rfl, fun _ h => h⟩⟩

theorem NbState.Inv.new_step (hi : s.Inv pf) {xPool : Option PoolPtr} {eType : NetBufType}
    {unSz : ℕ} {pfnFree : Option FreeMethod}
    (hperm : Permitted pf s (.new xPool eType ptr unSz pfnFree)) :
    ∃ s', s.step pf (.new xPool eType ptr unSz pfnFree) = some s' ∧ s'.Inv pf := by
  obtain ⟨s', hstep, rfl | rfl⟩ := NbState.new_cases hperm
  · exact ⟨_, hstep, hi.called⟩
  · exact ⟨_, hstep, hi.new hperm.2.2.1 hperm.2.2.2 rfl rfl rfl rfl rfl⟩

/-- Some netbuf in use of the chain is cut, unless nothing has to be cut or there is no memory. -/
theorem NbState.Inv.split_cases (hi : s.Inv pf) {pxNb : NbPtr} (eType : NetBufType) (unSz : ℕ)
    (hlive : s.ledger.live pxNb = true) :
    ∃ s', s.step pf (.split pxNb eType unSz) = some s' ∧
      (s' = s ∨ s' = ⟨s.heap.called, s.ledger⟩ ∨ ∃ p nb k c, s.heap.netbufs p = some nb ∧
        nb.xFreed = false ∧ s.ledger.chain p = some c ∧ s.ledger.chain pxNb = some c ∧
        s' = ⟨splitHeap s.heap p nb eType k, s.ledger.cut pxNb s.heap.brk⟩) := by
  obtain ⟨c, hc⟩ := hi.entered pxNb hlive
  obtain ⟨nb, -, hnb, -, -⟩ := hi.live_netbuf hlive
  obtain ⟨l, hl, hnodup, hmem⟩ := hi.links pxNb c hlive hc
  have hfirst : nb.pxFirst = c := hi.first pxNb nb c hnb hlive hc
  obtain ⟨ok, h', hcode, hcases⟩ :=
    splitLoop_cases eType hl (hi.fresh.length_le hl hnodup) unSz
  have hnone := (hi.fresh s.heap.brk (Nat.le_refl _)).1
  have hstep : s.step pf (.split pxNb eType unSz) = some ⟨h',
      if (h'.netbufs s.heap.brk).isSome then s.ledger.cut pxNb s.heap.brk else s.ledger⟩ := by
    rw [NbState.step, xNetBufSplit, Heap.netbuf_of_some hnb, Exec.ok_bind, hfirst, hcode]
    rfl
  refine ⟨_, hstep, ?_⟩
  rcases hcases with rfl | rfl | ⟨p, hp, nb', k, hpnb, hfreed, rfl⟩
  · rw [if_neg (by simp [hnone])]
    exact Or.inl rfl
  · have hnone' : s.heap.called.netbufs s.heap.brk = none := hnone
    rw [if_neg (by simp [hnone'])]
    exact Or.inr (Or.inl rfl)
  · have hpc := (hmem p).mp hp
    have hnew : (splitHeap s.heap p nb' eType k).netbufs s.heap.brk = some (nb'.behind eType k) :=
      splitHeap_new (Nat.ne_of_lt (hi.below p c hpc).1)
    rw [hnew, Option.isSome_some, if_pos rfl]
    exact Or.inr (Or.inr ⟨p, nb', k, c, hpnb, hfreed, hpc, hc, rfl⟩)

theorem NbState.Inv.live_of_netbuf (hi : s.Inv pf) (hp : s.heap.netbufs p = some nb)
    (hfreed : nb.xFreed = false) : s.ledger.live p = true := by
  have hmark := hi.marks p nb hp
  rw [hfreed] at hmark
  simpa using hmark

theorem NbState.Inv.split_step (hi : s.Inv pf) {pxNb : NbPtr} {eType : NetBufType} {unSz : ℕ}
    (hlive : s.ledger.live pxNb = true) :
    ∃ s', s.step pf (.split pxNb eType unSz) = some s' ∧ s'.Inv pf := by
  obtain ⟨s', hstep, heq | rfl | ⟨p, nb, k, c, hp, hfreed, hpc, hc, rfl⟩⟩ :=
    hi.split_cases eType unSz hlive
  · exact ⟨s', hstep, heq ▸ hi⟩
  · exact ⟨_, hstep, hi.called⟩
  · exact ⟨_, hstep, hi.cut hp (hi.live_of_netbuf hp hfreed) hpc hc⟩

theorem NbState.Inv.append_step (hi : s.Inv pf) {pxNbLeft pxNbRight : NbPtr}
    (hperm : Permitted pf s (.append pxNbLeft pxNbRight)) :
    ∃ s', s.step pf (.append pxNbLeft pxNbRight) = some s' ∧ s'.Inv pf := by
  obtain ⟨hp, hr, hrr, hne⟩ := hperm
  obtain ⟨c, hc⟩ := hi.entered pxNbLeft hp
  obtain ⟨left, -, hleft, hfreed, -⟩ := hi.live_netbuf hp
  obtain ⟨right, -, hright, -, -⟩ := hi.live_netbuf hr
  have hfirst : left.pxFirst = c := hi.first pxNbLeft left c hleft hp hc
  have hfirst' : right.pxFirst = pxNbRight := hi.first _ right _ hright hr hrr
  have hcr : c ≠ pxNbRight := by
    rintro rfl
    exact hne hc
  obtain ⟨l, hl, hnodup, hmem⟩ := hi.links pxNbLeft c hp hc
  obtain ⟨l', hl', hnodup', hmem'⟩ := hi.links pxNbRight pxNbRight hr hrr
  have hpl : pxNbLeft ∈ l := (hmem _).mpr hc
  rcases List.eq_nil_or_concat' l with rfl | ⟨l, last, rfl⟩
  · cases hpl
  · have hdisj : ∀ q ∈ l', q ∉ l ++ [last] := fun q hq hq' =>
      hcr (Option.some.inj (((hmem q).mp hq').symm.trans ((hmem' q).mp hq)))
    obtain ⟨h', hcode, happ⟩ := vNetBufAppend_spec pf hi.fresh hleft hfreed (hfirst ▸ hl) hright
      hfirst' hl' hdisj
    rw [hfirst] at happ
    refine ⟨⟨h', s.ledger.join c pxNbRight⟩, ?_,
      hi.join ⟨hcr, hl, hnodup, hmem, hl', hnodup', hmem', happ⟩ hp hc hr hrr⟩
    rw [NbState.step, hcode, hc]
    rfl

/-- A netbuf in use is marked, or its chain is released with it. -/
theorem NbState.Inv.free_cases (hi : s.Inv pf) (hp : s.ledger.live p = true)
    (hc : s.ledger.chain p = some c) :
    ∃ h', vNetBufFree pf s.heap p = .ok h' ∧ NbState.Inv pf ⟨h', s.ledger.leave p⟩ ∧
      ((¬ (s.ledger.leave p).Over c ∧ ∃ nb kept, s.heap.netbufs p = some nb ∧
          h' = s.heap.setNetbuf p (some (nb.left kept))) ∨
        ((s.ledger.leave p).Over c ∧
          ∀ q, s.ledger.chain q ≠ some c → h'.netbufs q = s.heap.netbufs q)) := by
  obtain ⟨nb, ptr, hnb, -, hstart⟩ := hi.live_netbuf hp
  obtain ⟨l, hl, hnodup, hmem⟩ := hi.links p c hp hc
  have hfirst : nb.pxFirst = c := hi.first p nb c hnb hp hc
  obtain ⟨kept, fully, hkept, hfully, hcode⟩ := vNetBufFree_spec pf hi.fresh hnb hstart
    (hfirst ▸ hl) hnodup ((hmem p).mpr hc)
  -- All netbufs which hold the buffer are in this chain.
  have hown : ∀ q, s.heap.held q = some ptr → q ∈ l := by
    intro q hq
    obtain ⟨nb', hq', hb⟩ := Heap.held_eq_some.mp hq
    obtain ⟨c₁, hc₁, hg₁⟩ := hi.holders p nb ptr hnb hstart
    obtain ⟨c₂, hc₂, hg₂⟩ := hi.holders q nb' ptr hq' hb
    rw [hg₁] at hg₂
    have hcc : c₁ = c₂ := congrArg Given.chain (Option.some.inj hg₂)
    rw [← hcc, ← hc₁, hc] at hc₂
    exact (hmem q).mpr hc₂
  have hkept' : Kept s.heap.held p ptr kept := by
    cases kept with
    | none =>
      obtain ⟨q, hqp, hq⟩ := hkept
      by_cases hql : q ∈ l
      · exact ⟨q, hqp, (if_pos hql).symm.trans hq⟩
      · cases (if_neg hql).symm.trans hq
    | some b =>
      exact ⟨hkept.1, fun q hqp hq => hkept.2 q hqp ((if_pos (hown q hq)).trans hq)⟩
  have hleaving := hi.leaving hc hnb hstart hkept'
  have hover : fully = true ↔ (s.ledger.leave p).Over c := by
    rw [hfully]
    constructor
    · intro hall q hq
      refine eq_false_of_ne_true fun hqlive => ?_
      obtain ⟨hqp, hqlive⟩ := (Ledger.leave_live _ p q).mp hqlive
      obtain ⟨nb', -, hq', hfreed, -⟩ := hi.live_netbuf hqlive
      rw [hall q ((hmem q).mpr hq) hqp nb' hq'] at hfreed
      cases hfreed
    · intro hover q hq hqp nb' hq'
      rw [hi.marks q nb' hq', Bool.not_eq_true']
      refine eq_false_of_ne_true fun hqlive => ?_
      have hdead := hover q ((hmem q).mp hq)
      rw [(Ledger.leave_live _ p q).mpr ⟨hqp, hqlive⟩] at hdead
      cases hdead
  by_cases hlast : fully = true
  · obtain ⟨h', hfree, he⟩ :=
      hleaving.emptied hi hc hmem (hover.mp hlast) hp hnodup hl
    refine ⟨h', hcode.trans ((if_pos hlast).trans hfree),
      he.inv hi hc hleaving hmem (hover.mp hlast), .inr ⟨hover.mp hlast, fun q hq => ?_⟩⟩
    have hql : q ∉ l := fun hin => hq ((hmem q).mp hin)
    exact (he.out q hql).trans (hleaving.other q fun heq => hq (heq ▸ hc))
  · have hopen : ¬ (s.ledger.leave p).Over c := fun ho => hlast (hover.mpr ho)
    exact ⟨_, hcode.trans (if_neg hlast), hleaving.inv hi hc hopen,
      .inl ⟨hopen, nb, kept, hnb, rfl⟩⟩

theorem NbState.Inv.free_step (hi : s.Inv pf) {pxNb : NbPtr} (hp : s.ledger.live pxNb = true) :
    ∃ s', s.step pf (.free pxNb) = some s' ∧ s'.Inv pf := by
  obtain ⟨c, hc⟩ := hi.entered pxNb hp
  obtain ⟨h', hcode, hinv, -⟩ := hi.free_cases hp hc
  refine ⟨⟨h', s.ledger.leave pxNb⟩, ?_, hinv⟩
  rw [NbState.step, hcode]
  rfl

theorem NbState.Inv.step (hi : s.Inv pf) {op : NbOp} (hperm : Permitted pf s op) :
    ∃ s', s.step pf op = some s' ∧ s'.Inv pf := by
  cases op with
  | new xPool eType pxBuf unSz pfnFree => exact hi.new_step hperm
  | split pxNb eType unSz => exact hi.split_step hperm
  | append pxNbLeft pxNbRight => exact hi.append_step hperm
  | free pxNb => exact hi.free_step hperm
  | other h => exact ⟨_, rfl, hi.leaves hperm⟩

/-- Every program which keeps to the contract runs without a trap, so that nothing is released
which is not allocated, and its netbufs and buffers are accounted for in every state it comes
to. -/
theorem netbufs_accounted {h : Heap} (hf : h.Fresh) (hnone : ∀ p, h.netbufs p = none)
    {ops : List NbOp} (hg : GuardedSteps (NbState.step pf) (Permitted pf) ⟨h, .empty⟩ ops) :
    ∃ s, ops.foldlM (NbState.step pf) ⟨h, .empty⟩ = some s ∧ Accounted pf s := by
  obtain ⟨s, hrun, hinv⟩ := foldlM_returns (I := NbState.Inv pf)
    (fun s i hi hperm => hi.step hperm) (inv_empty hf hnone) hg
  exact ⟨s, hrun, hinv.accounted⟩

/-- A heap with two buffers of four bytes. -/
def bufferHeap : Heap where
  mem := fun a => if a < 2 then some [1, 2, 3, 4] else none
  netbufs := fun _ => none
  rsrcs := fun _ => none
  pools := fun _ => none
  brk := 2
  calls := 0
  mallocOk := fun _ => true
  junk := fun _ _ => 0

theorem bufferHeap_fresh : bufferHeap.Fresh := fun _ ha =>
  ⟨rfl, if_neg (Nat.not_lt.mpr ha)⟩

/-- Two netbufs of which the first is cut in two, and all three are freed. -/
def exampleProgram (pfnFree : FreeMethod) : List NbOp :=
  [.new (some 0) .NB_RINA_DATA ⟨0, 0⟩ 4 (some pfnFree),
    .new (some 0) .NB_RINA_DATA ⟨1, 0⟩ 4 (some pfnFree), .split 2 .NB_RINA_PCI 2,
    .append 2 3, .free 2, .free 3, .free 4]

theorem exampleProgram_accounted :
    ∃ s, (exampleProgram .vNetBufFreeNormal).foldlM (NbState.step ⟨false, false⟩)
      ⟨bufferHeap, .empty⟩ = some s ∧ Accounted ⟨false, false⟩ s :=
  netbufs_accounted bufferHeap_fresh (fun _ => rfl)
    ⟨⟨rfl, rfl, rfl, rfl, fun _ => rfl, fun hm => nomatch hm⟩,
      ⟨rfl, rfl, rfl, rfl, fun _ => rfl, fun hm => nomatch hm⟩, rfl,
      ⟨rfl, rfl, rfl, fun hc => nomatch hc⟩, rfl, rfl, rfl, trivial⟩

/-- With `vNetBufFreeButDont` the buffers are still there when all netbufs were freed and
released. -/
theorem buffer_not_freed :
    ∃ s, (exampleProgram .vNetBufFreeButDont).foldlM (NbState.step ⟨false, false⟩)
        ⟨bufferHeap, .empty⟩ = some s ∧
      (∀ p ∈ [2, 3, 4], s.ledger.chain p = some 2 ∧ s.ledger.live p = false ∧
        s.heap.netbufs p = none) ∧ s.heap.mem 0 = some [1, 2, 3, 4] :=
  ⟨_, rfl, by decide, rfl⟩

end RinaSense.Common
