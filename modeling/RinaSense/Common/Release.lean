import RinaSense.Common.Links

/-!
# The release of whole chains

One chain by itself. Its netbufs can be freed in any order, and again, while one of them is in
use. With the last one the whole chain is released, every netbuf and every buffer of it once,
and nothing else. `vNetBufFreeAll` does that to a chain whose last netbuf is in use.
-/

namespace RinaSense.Common

open Library.Handover Library.Memory

/-- A netbuf of the heap which was not freed. -/
def Heap.InUse (h : Heap) (q : NbPtr) : Prop := ∃ nb, h.netbufs q = some nb ∧ nb.xFreed = false

/-- A netbuf of the list holds the buffer, which goes with the release function. -/
def Heap.Holds (h : Heap) (l : List NbPtr) (b : Ptr) (m : Option FreeMethod) : Prop :=
  ∃ q ∈ l, ∃ nb, h.netbufs q = some nb ∧ nb.pxBufStart = some b ∧ nb.freemethod = m

/-- The buffer of a netbuf with its release function. -/
def Netbuf.buffer (nb : Netbuf) : Option Ptr × Option FreeMethod := (nb.pxBufStart, nb.freemethod)

def Heap.heldIn (h : Heap) (l : List NbPtr) (q : NbPtr) : Option Ptr :=
  if q ∈ l then h.held q else none

/-- The netbufs of the chain from `c` on. Those in use have a buffer, and what is held by one
which was freed is held by no other. -/
structure WholeChain (pf : Platform) (h : Heap) (c : NbPtr) (l : List NbPtr) : Prop where
  fresh : h.Fresh
  links : NbLinks h (some c) l none
  nodup : l.Nodup
  first : ∀ q ∈ l, ∀ nb, h.netbufs q = some nb → nb.pxFirst = c
  sound : Sound (fun q => q ∈ l ∧ h.InUse q) (h.heldIn l)
  blocks : ∀ b m b' m', h.Holds l b m → h.Holds l b' m' → b.block = b'.block → b = b' ∧ m = m'
  usable : ∀ b m, h.Holds l b m → Usable pf h m b

/-- Every netbuf of the list is released with the buffers they hold, and nothing else. -/
structure Gone (pf : Platform) (h h' : Heap) (l : List NbPtr) : Prop where
  gone : ∀ q ∈ l, h'.netbufs q = none
  other : ∀ q, q ∉ l → h'.netbufs q = h.netbufs q
  brk : h'.brk = h.brk
  released : ∀ b m, h.Holds l b m → Released pf h' m b
  blocks : ∀ b, (∀ b' m, h.Holds l b' m → b'.block ≠ b) → SameBlock h h' b

variable {pf : Platform} {h h' : Heap} {c q : NbPtr} {l : List NbPtr} {nb : Netbuf} {ptr : Ptr}

theorem Heap.heldIn_of_mem (hq : q ∈ l) : h.heldIn l q = h.held q := if_pos hq

theorem Heap.heldIn_eq_some : h.heldIn l q = some ptr ↔
    q ∈ l ∧ ∃ nb, h.netbufs q = some nb ∧ nb.pxBufStart = some ptr := by
  rw [Heap.heldIn]
  split
  · rename_i hq
    rw [Heap.held_eq_some, and_iff_right hq]
  · rename_i hq
    exact iff_of_false (fun hnone => by cases hnone) fun hand => hq hand.1

theorem Heap.inUse_iff : h.InUse q ↔ (h.netbufs q).map (·.xFreed) = some false := by
  rw [Option.map_eq_some_iff]
  rfl

theorem Heap.held_congr
    (hsame : (h'.netbufs q).map (·.pxBufStart) = (h.netbufs q).map (·.pxBufStart)) :
    h'.held q = h.held q := by
  have hbind := congrArg (Option.bind · id) hsame
  simp only [Option.bind_map] at hbind
  exact hbind

theorem Heap.holds_iff {b : Ptr} {m : Option FreeMethod} :
    h.Holds l b m ↔ ∃ q ∈ l, (h.netbufs q).map Netbuf.buffer = some (some b, m) := by
  refine exists_congr fun q => and_congr_right fun _ => ?_
  rw [Option.map_eq_some_iff]
  exact exists_congr fun nb => by rw [Netbuf.buffer, Prod.mk.injEq]

theorem Heap.holds_append {l' : List NbPtr} {b : Ptr} {m : Option FreeMethod} :
    h.Holds (l ++ l') b m ↔ h.Holds l b m ∨ h.Holds l' b m := by
  rw [Heap.Holds, Heap.Holds, Heap.Holds, ← exists_or]
  exact exists_congr fun q => by rw [List.mem_append, or_and_right]

theorem Heap.holds_singleton {b : Ptr} {m : Option FreeMethod} (hq : h.netbufs q = some nb) :
    h.Holds [q] b m ↔ nb.pxBufStart = some b ∧ nb.freemethod = m := by
  rw [Heap.holds_iff]
  simp only [List.mem_singleton, exists_eq_left, hq, Option.map_some, Option.some.injEq,
    Netbuf.buffer, Prod.mk.injEq]

theorem WholeChain.netbuf (hc : WholeChain pf h c l) (hq : q ∈ l) :
    ∃ nb, h.netbufs q = some nb := hc.links.netbuf q hq

/-! ### One netbuf -/

section Marked

variable {kept : Option Ptr}

theorem Netbuf.left_of_none (hnone : nb.pxBufStart = none) :
    ({ nb with xFreed := true, unSz := 0, pxBuf := none } : Netbuf) = nb.left none := by
  rw [Netbuf.left, ← hnone]

variable (pf) in
/-- A netbuf without a buffer which is freed once more. -/
theorem vNetBufFree_again (hf : h.Fresh) (hq : h.netbufs q = some nb)
    (hnone : nb.pxBufStart = none) (hl : NbLinks h (some nb.pxFirst) l none) (hnodup : l.Nodup)
    (hql : q ∈ l) {r : NbPtr} (hrl : r ∈ l) (hrq : r ≠ q) (hr : h.InUse r) :
    vNetBufFree pf h q = .ok (h.setNetbuf q (some (nb.left none))) := by
  obtain ⟨h₁, hh₁⟩ : ∃ h₁, h₁ = h.setNetbuf q (some (nb.left none)) := ⟨_, rfl⟩
  have hself : h₁.netbufs q = some (nb.left none) := by rw [hh₁, Heap.setNetbuf_self]
  have hl₁ : NbLinks h₁ (some nb.pxFirst) l none := hl.congr fun x _ => by
    by_cases hxq : x = q
    · rw [hxq, hself, hq]
      rfl
    · rw [hh₁, Heap.setNetbuf_of_ne h _ hxq]
  have hchain : chainFrom h₁ h₁.brk (some nb.pxFirst) = .ok l := by
    rw [hh₁] at hl₁ ⊢
    exact hl₁.chainFrom (hf.length_le hl hnodup)
  have hfreed : allFreed h₁ l = .ok false := by
    rw [allFreed_eq hl₁.netbuf, Except.ok.injEq, List.all_eq_false]
    obtain ⟨nb', hnb', hlive⟩ := hr
    refine ⟨r, hrl, ?_⟩
    rw [hh₁, Heap.setNetbuf_of_ne h _ hrq, hnb']
    simpa using hlive
  have hcount : countBuffer h₁ nb.pxBufStart l = .ok _ := countBuffer_eq hl₁.netbuf
  have hpos : 0 < l.countP fun x => (h₁.netbufs x).map (·.pxBufStart) = some nb.pxBufStart := by
    rw [List.countP_pos_iff]
    refine ⟨q, hql, ?_⟩
    rw [hself, hnone]
    rfl
  have hsame : h₁.setNetbuf q (some (nb.left none)) = h₁ := by
    rw [hh₁, Heap.setNetbuf, Heap.setNetbuf]
    simp
  have hcode := vNetBufFree.eq_1 pf h q
  simp only [Heap.netbuf_of_some hq, Exec.ok_bind, Netbuf.left_of_none hnone, ← hh₁, hchain,
    hcount, hfreed] at hcode
  rw [hcode]
  split
  · exact congrArg Except.ok (hsame.trans hh₁)
  · rw [if_neg (Nat.ne_of_gt hpos)]
    exact congrArg Except.ok hh₁

/-- A netbuf of the chain is marked as freed and keeps what nobody else holds. -/
theorem WholeChain.mark (hc : WholeChain pf h c l) (hql : q ∈ l) (hq : h.netbufs q = some nb)
    (hkept : ∀ b, kept = some b → nb.pxBufStart = some b)
    (hsound : Sound (fun x => x ∈ l ∧ (h.setNetbuf q (some (nb.left kept))).InUse x)
      ((h.setNetbuf q (some (nb.left kept))).heldIn l)) :
    WholeChain pf (h.setNetbuf q (some (nb.left kept))) c l := by
  have hself := Heap.setNetbuf_self h q (some (nb.left kept))
  have hother : ∀ x, x ≠ q → (h.setNetbuf q (some (nb.left kept))).netbufs x = h.netbufs x :=
    fun x hx => Heap.setNetbuf_of_ne h _ hx
  have hold : ∀ b m, (h.setNetbuf q (some (nb.left kept))).Holds l b m → h.Holds l b m := by
    rintro b m ⟨x, hx, nb', hnb', hb, hm⟩
    by_cases hxq : x = q
    · subst hxq
      rw [hself] at hnb'
      cases hnb'
      exact ⟨x, hx, nb, hq, hkept b hb, hm⟩
    · rw [hother x hxq] at hnb'
      exact ⟨x, hx, nb', hnb', hb, hm⟩
  refine ⟨fun a ha => ?_, hc.links.congr fun x _ => ?_, hc.nodup, fun x hx nb' hnb' => ?_, hsound,
    fun b m b' m' hb hb' => hc.blocks b m b' m' (hold b m hb) (hold b' m' hb'),
    fun b m hb => (hc.usable b m (hold b m hb)).congr ((SameBlock.refl h b.block).setNetbuf q _)⟩
  · have hne : a ≠ q := Nat.ne_of_gt (Nat.lt_of_lt_of_le (hc.fresh.lt_of_netbuf hq) ha)
    rw [hother a hne]
    exact hc.fresh a ha
  · by_cases hxq : x = q
    · rw [hxq, hself, hq]
      rfl
    · rw [hother x hxq]
  · by_cases hxq : x = q
    · subst hxq
      rw [hself] at hnb'
      cases hnb'
      exact hc.first x hx nb hq
    · rw [hother x hxq] at hnb'
      exact hc.first x hx nb' hnb'

/-- The heap behind the call, in which the netbuf is marked. -/
structure MarkedBy (pf : Platform) (h h' : Heap) (c q : NbPtr) (l : List NbPtr) : Prop where
  chain : WholeChain pf h' c l
  dead : ¬ h'.InUse q
  other : ∀ x, x ≠ q → h'.netbufs x = h.netbufs x
  holds : ∀ b m, h'.Holds l b m ↔ h.Holds l b m
  rest : h' = { h with netbufs := h'.netbufs }

theorem WholeChain.markedBy (hc : WholeChain pf h c l) (hql : q ∈ l) (hq : h.netbufs q = some nb)
    (hkept : ∀ b, kept = some b → nb.pxBufStart = some b)
    (hsound : Sound (fun x => x ∈ l ∧ (h.setNetbuf q (some (nb.left kept))).InUse x)
      ((h.setNetbuf q (some (nb.left kept))).heldIn l))
    (hlost : ∀ b, nb.pxBufStart = some b → kept = some b ∨
      ∃ x ∈ l, x ≠ q ∧ h.held x = some b) :
    MarkedBy pf h (h.setNetbuf q (some (nb.left kept))) c q l where
  chain := hc.mark hql hq hkept hsound
  dead := by
    rintro ⟨nb', hnb', hlive⟩
    rw [Heap.setNetbuf_self] at hnb'
    cases hnb'
    cases hlive
  other x hx := Heap.setNetbuf_of_ne h _ hx
  holds b m := by
    constructor
    · rintro ⟨x, hx, nb', hnb', hb, hm⟩
      by_cases hxq : x = q
      · subst hxq
        rw [Heap.setNetbuf_self] at hnb'
        cases hnb'
        exact ⟨x, hx, nb, hq, hkept b hb, hm⟩
      · rw [Heap.setNetbuf_of_ne h _ hxq] at hnb'
        exact ⟨x, hx, nb', hnb', hb, hm⟩
    · rintro ⟨x, hx, nb', hnb', hb, hm⟩
      have hstays : ∀ y ∈ l, y ≠ q → h.held y = some b →
          (h.setNetbuf q (some (nb.left kept))).Holds l b m := by
        intro y hy hyq hyb
        obtain ⟨nb'', hy', hstart⟩ := Heap.held_eq_some.mp hyb
        have hsame := (hc.blocks b m b nb''.freemethod ⟨x, hx, nb', hnb', hb, hm⟩
          ⟨y, hy, nb'', hy', hstart, rfl⟩ rfl).2
        exact ⟨y, hy, nb'', (Heap.setNetbuf_of_ne h _ hyq).trans hy', hstart, hsame.symm⟩
      by_cases hxq : x = q
      · subst hxq
        rw [hq] at hnb'
        cases hnb'
        rcases hlost b hb with hk | ⟨y, hy, hyq, hyb⟩
        · exact ⟨x, hx, nb.left kept, Heap.setNetbuf_self _ _ _, hk, hm⟩
        · exact hstays y hy hyq hyb
      · exact hstays x hx hxq ((Heap.held_of_some hnb').trans hb)
  rest := rfl

theorem Heap.inUse_left {x : NbPtr} :
    (h.setNetbuf q (some (nb.left kept))).InUse x ↔ x ≠ q ∧ h.InUse x := by
  by_cases hxq : x = q
  · subst hxq
    refine iff_of_false ?_ fun hx => hx.1 rfl
    rintro ⟨nb', hnb', hlive⟩
    rw [Heap.setNetbuf_self] at hnb'
    cases hnb'
    cases hlive
  · rw [Heap.InUse, Heap.setNetbuf_of_ne h _ hxq, and_iff_right hxq]
    rfl

theorem Heap.heldIn_left (hql : q ∈ l) :
    (h.setNetbuf q (some (nb.left kept))).heldIn l q = kept := by
  rw [Heap.heldIn_of_mem hql, Heap.held, Heap.setNetbuf_self]
  rfl

theorem Heap.heldIn_left_of_ne {x : NbPtr} (hxq : x ≠ q) :
    (h.setNetbuf q (some (nb.left kept))).heldIn l x = h.heldIn l x := by
  simp only [Heap.heldIn, Heap.held, Heap.setNetbuf_of_ne h _ hxq]

/-- Nothing new for a netbuf which was freed before and keeps what it has. -/
theorem WholeChain.sound_again (hc : WholeChain pf h c l) (hql : q ∈ l)
    (hq : h.netbufs q = some nb) (hno : ¬ h.InUse q) (hkept : kept = nb.pxBufStart) :
    Sound (fun x => x ∈ l ∧ (h.setNetbuf q (some (nb.left kept))).InUse x)
      ((h.setNetbuf q (some (nb.left kept))).heldIn l) := by
  refine hc.sound.congr (fun x => and_congr_right fun _ => ?_) fun x => ?_
  · rw [Heap.inUse_left]
    exact and_iff_right_of_imp fun hx heq => hno (heq ▸ hx)
  · by_cases hxq : x = q
    · rw [hxq, Heap.heldIn_left hql, hkept, Heap.heldIn_of_mem hql, Heap.held_of_some hq]
    · exact Heap.heldIn_left_of_ne hxq

/-- A netbuf with a buffer is marked, and keeps what it does not leave to another one. -/
theorem WholeChain.marks (hc : WholeChain pf h c l) (hql : q ∈ l) (hq : h.netbufs q = some nb)
    (hstart : nb.pxBufStart = some ptr) (hkept : Kept (h.heldIn l) q ptr kept) :
    MarkedBy pf h (h.setNetbuf q (some (nb.left kept))) c q l := by
  have hheldq : h.heldIn l q = some ptr := by
    rw [Heap.heldIn_of_mem hql, Heap.held_of_some hq, hstart]
  refine hc.markedBy hql hq (fun b hb => ?_) ?_ fun b hb => ?_
  · rw [hb] at hkept
    rw [hstart, hkept.1]
  · by_cases hin : h.InUse q
    · refine hc.sound.leave hheldq (fun x => ?_) (by rw [Heap.heldIn_left hql]; exact hkept)
        fun x hxq => Heap.heldIn_left_of_ne hxq
      rw [Heap.inUse_left]
      exact and_left_comm
    · refine hc.sound_again hql hq hin ?_
      rw [hstart]
      cases kept with
      | none =>
        obtain ⟨x, hxq, hx⟩ := hkept
        exact absurd (hc.sound.unique hheldq (fun hand => hin hand.2) hx) hxq
      | some b => exact congrArg some hkept.1
  · rw [hstart] at hb
    cases hb
    cases kept with
    | none =>
      obtain ⟨x, hxq, hx⟩ := hkept
      obtain ⟨hxl, hx⟩ := Heap.heldIn_eq_some.mp hx
      exact Or.inr ⟨x, hxl, hxq, Heap.held_eq_some.mpr hx⟩
    | some b => exact Or.inl (congrArg some hkept.1)

/-- A netbuf of a chain in which another one is in use is only marked, also if it was freed
before. -/
theorem WholeChain.free (hc : WholeChain pf h c l) (hql : q ∈ l) {r : NbPtr} (hrl : r ∈ l)
    (hrq : r ≠ q) (hr : h.InUse r) :
    ∃ h', vNetBufFree pf h q = .ok h' ∧ MarkedBy pf h h' c q l := by
  obtain ⟨nb, hq⟩ := hc.netbuf hql
  have hlinks : NbLinks h (some nb.pxFirst) l none := (hc.first q hql nb hq).symm ▸ hc.links
  cases hstart : nb.pxBufStart with
  | none =>
    have hno : ¬ h.InUse q := fun hin => by
      obtain ⟨b, hb⟩ := hc.sound.holds q ⟨hql, hin⟩
      rw [Heap.heldIn_of_mem hql, Heap.held_of_some hq, hstart] at hb
      cases hb
    refine ⟨_, vNetBufFree_again pf hc.fresh hq hstart hlinks hc.nodup hql hrl hrq hr,
      hc.markedBy hql hq (fun b hb => by cases hb) (hc.sound_again hql hq hno hstart.symm)
        fun b hb => ?_⟩
    rw [hstart] at hb
    cases hb
  | some ptr =>
    obtain ⟨kept, fully, hkept, hfully, hcode⟩ :=
      vNetBufFree_spec pf hc.fresh hq hstart hlinks hc.nodup hql
    have hnot : ¬ fully = true := fun hall => by
      obtain ⟨nb', hnb', hlive⟩ := hr
      rw [hfully.mp hall r hrl hrq nb' hnb'] at hlive
      cases hlive
    rw [if_neg hnot] at hcode
    exact ⟨_, hcode, hc.marks hql hq hstart hkept⟩

end Marked

/-! ### The whole chain -/

theorem MarkedBy.gone {h₁ : Heap} (hm : MarkedBy pf h h₁ c q l) (hql : q ∈ l)
    (hg : Gone pf h₁ h' l) : Gone pf h h' l where
  gone := hg.gone
  other x hx := (hg.other x hx).trans (hm.other x fun heq => hx (heq ▸ hql))
  brk := hg.brk.trans (by rw [hm.rest])
  released b m hb := hg.released b m ((hm.holds b m).mpr hb)
  blocks b hb := by
    refine SameBlock.trans ?_ (hg.blocks b fun b' m hb' => hb b' m ((hm.holds b' m).mp hb'))
    rw [hm.rest]
    exact ⟨rfl, rfl, fun _ hp => hp⟩

/-- The last netbuf which is in use takes the chain with it. -/
theorem WholeChain.free_last (hc : WholeChain pf h c l) (hql : q ∈ l) (hin : h.InUse q)
    (hdead : ∀ r ∈ l, r ≠ q → ¬ h.InUse r) :
    ∃ h', vNetBufFree pf h q = .ok h' ∧ Gone pf h h' l := by
  obtain ⟨nb, hq⟩ := hc.netbuf hql
  have hlinks : NbLinks h (some nb.pxFirst) l none := (hc.first q hql nb hq).symm ▸ hc.links
  obtain ⟨ptr, hptr⟩ := hc.sound.holds q ⟨hql, hin⟩
  obtain ⟨-, nb', hq', hstart⟩ := Heap.heldIn_eq_some.mp hptr
  rw [hq] at hq'
  cases hq'
  obtain ⟨kept, fully, hkept, hfully, hcode⟩ :=
    vNetBufFree_spec pf hc.fresh hq hstart hlinks hc.nodup hql
  have hall : fully = true := hfully.mpr fun r hr hrq nb' hnb' => by
    by_contra hlive
    exact hdead r hr hrq ⟨nb', hnb', eq_false_of_ne_true hlive⟩
  rw [if_pos hall] at hcode
  have hm := hc.marks hql hq hstart hkept
  obtain ⟨h₁, hh₁⟩ : ∃ h₁, h₁ = h.setNetbuf q (some (nb.left kept)) := ⟨_, rfl⟩
  rw [← hh₁] at hcode hm
  have hnone : ∀ r ∈ l, ¬ h₁.InUse r := by
    intro r hr
    by_cases hrq : r = q
    · exact hrq ▸ hm.dead
    · rw [Heap.InUse, hm.other r hrq]
      exact hdead r hr hrq
  have hholds : ∀ r ∈ l, ∀ nb' b, h₁.netbufs r = some nb' → nb'.pxBufStart = some b →
      h₁.Holds l b nb'.freemethod := fun r hr nb' b hnb' hb => ⟨r, hr, nb', hnb', hb, rfl⟩
  obtain ⟨h', hrun, hgone, hother, hbrk, hrel, hsame⟩ := freeChain_spec pf (h := h₁) hc.nodup
    hm.chain.links.netbuf
    (fun r hr r' hr' b b' hb hb' hblock => by
      obtain ⟨nb₁, hnb₁, hb₁⟩ := Heap.held_eq_some.mp hb
      obtain ⟨nb₂, hnb₂, hb₂⟩ := Heap.held_eq_some.mp hb'
      obtain rfl := (hm.chain.blocks b _ b' _ (hholds r hr nb₁ b hnb₁ hb₁)
        (hholds r' hr' nb₂ b' hnb₂ hb₂) hblock).1
      exact (hm.chain.sound.unique ((Heap.heldIn_of_mem hr').trans hb')
        (fun hand => hnone r' hr' hand.2) ((Heap.heldIn_of_mem hr).trans hb)))
    fun r hr nb' b hnb' hb => hm.chain.usable b _ (hholds r hr nb' b hnb' hb)
  refine ⟨h', hcode.trans hrun, hm.gone hql ⟨hgone, hother, hbrk, ?_, fun b hb => ?_⟩⟩
  · rintro b m ⟨r, hr, nb', hnb', hb, rfl⟩
    exact hrel r hr nb' b hnb' hb
  · refine hsame b fun r hr b' hb' => ?_
    obtain ⟨nb', hnb', hstart'⟩ := Heap.held_eq_some.mp hb'
    exact hb b' _ (hholds r hr nb' b' hnb' hstart')

/-- The loop of `vNetBufFreeAll` from a place of the chain on. Those in front of it have been
freed, and the last one is in use. -/
theorem freeAllLoop_spec {s : List NbPtr} {last : NbPtr} {start : Option NbPtr} {fuel : ℕ}
    (hc : WholeChain pf h c l) (hs : NbLinks h start (s ++ [last]) none)
    (hsub : ∀ x ∈ s ++ [last], x ∈ l) (hnodup : (s ++ [last]).Nodup) (hlast : h.InUse last)
    (hdead : ∀ x ∈ l, x ∉ s ++ [last] → ¬ h.InUse x) (hfuel : (s ++ [last]).length ≤ fuel) :
    ∃ h', freeAllLoop pf h fuel start = .ok h' ∧ Gone pf h h' l := by
  induction s generalizing h start fuel with
  | nil =>
    obtain ⟨rfl, nb, hnb, hnext⟩ := hs
    have hnext : nb.pxNext = none := hnext
    obtain ⟨fuel, rfl⟩ := Nat.exists_eq_succ_of_ne_zero (Nat.ne_of_gt hfuel)
    obtain ⟨h', hcode, hgone⟩ := hc.free_last (hsub last List.mem_cons_self) hlast
      fun r hr hrq => hdead r hr (mt List.mem_singleton.mp hrq)
    refine ⟨h', ?_, hgone⟩
    simp only [freeAllLoop, Heap.netbuf_of_some hnb, Exec.ok_bind, hcode, hnext]
  | cons q s ih =>
    obtain ⟨rfl, nb, hnb, hrest⟩ := hs
    obtain ⟨hqs, hnodup⟩ := List.nodup_cons.mp hnodup
    have hql : q ∈ l := hsub q List.mem_cons_self
    have hne : ∀ x ∈ s ++ [last], x ≠ q := fun x hx heq => hqs (heq ▸ hx)
    have hlastmem : last ∈ s ++ [last] := List.mem_append_right s List.mem_cons_self
    obtain ⟨fuel, rfl⟩ := Nat.exists_eq_succ_of_ne_zero (Nat.ne_of_gt (Nat.lt_of_lt_of_le
      (Nat.succ_pos (s ++ [last]).length) hfuel))
    obtain ⟨h₁, hcode, hm⟩ := hc.free hql (hsub last (List.mem_cons_of_mem q hlastmem))
      (hne last hlastmem) hlast
    have hsame : ∀ x, x ≠ q → (h₁.InUse x ↔ h.InUse x) := fun x hx => by
      rw [Heap.InUse, Heap.InUse, hm.other x hx]
    obtain ⟨h', hloop, hgone⟩ := ih hm.chain
      (hrest.congr fun x hx => by rw [hm.other x (hne x hx)])
      (fun x hx => hsub x (List.mem_cons_of_mem q hx)) hnodup
      ((hsame last (hne last hlastmem)).mpr hlast)
      (fun x hx hxs => by
        by_cases hxq : x = q
        · exact hxq ▸ hm.dead
        · rw [hsame x hxq]
          exact hdead x hx fun hmem => (List.mem_cons.mp hmem).elim hxq hxs)
      (Nat.le_of_succ_le_succ hfuel)
    refine ⟨h', ?_, hm.gone hql hgone⟩
    simp only [freeAllLoop, Heap.netbuf_of_some hnb, Exec.ok_bind, hcode, hloop]

/-- Every netbuf of a chain whose last one is in use is released, and every buffer once. -/
theorem vNetBufFreeAll_spec {s : List NbPtr} {last : NbPtr} (hc : WholeChain pf h c (s ++ [last]))
    (hlast : h.InUse last) (hq : q ∈ s ++ [last]) :
    ∃ h', vNetBufFreeAll pf h q = .ok h' ∧ Gone pf h h' (s ++ [last]) := by
  obtain ⟨nb, hnb⟩ := hc.netbuf hq
  obtain ⟨h', hloop, hgone⟩ := freeAllLoop_spec hc hc.links (fun x hx => hx) hc.nodup hlast
    (fun x hx hno => absurd hx hno) (hc.fresh.length_le hc.links hc.nodup)
  refine ⟨h', ?_, hgone⟩
  rw [vNetBufFreeAll, Heap.netbuf_of_some hnb, Exec.ok_bind, hc.first q hq nb hnb]
  exact hloop

/-! ### Chains which grow -/

theorem Heap.holds_congr (hsame : ∀ x ∈ l, h'.netbufs x = h.netbufs x) (b : Ptr)
    (m : Option FreeMethod) : h'.Holds l b m ↔ h.Holds l b m := by
  refine exists_congr fun x => and_congr_right fun hx => ?_
  rw [hsame x hx]

/-- A chain depends on its own netbufs and on the blocks they hold. -/
theorem WholeChain.congr (hc : WholeChain pf h c l) (hfresh : h'.Fresh)
    (hsame : ∀ x ∈ l, h'.netbufs x = h.netbufs x)
    (hblocks : ∀ b m, h.Holds l b m → SameBlock h h' b.block) : WholeChain pf h' c l where
  fresh := hfresh
  links := hc.links.congr fun x hx => by rw [hsame x hx]
  nodup := hc.nodup
  first x hx nb hnb := hc.first x hx nb (by rw [← hsame x hx, hnb])
  sound := by
    refine hc.sound.congr (fun x => and_congr_right fun hx => ?_) fun x => ?_
    · rw [Heap.InUse, hsame x hx]
      rfl
    · rw [Heap.heldIn, Heap.heldIn]
      split
      · rename_i hx
        rw [Heap.held, hsame x hx]
        rfl
      · rfl
  blocks b m b' m' hb hb' :=
    hc.blocks b m b' m' ((Heap.holds_congr hsame b m).mp hb) ((Heap.holds_congr hsame b' m').mp hb')
  usable b m hb :=
    (hc.usable b m ((Heap.holds_congr hsame b m).mp hb)).congr
      (hblocks b m ((Heap.holds_congr hsame b m).mp hb))

/-- The chain of a new netbuf. -/
theorem WholeChain.single (hf : h.Fresh) (hc : h.netbufs c = some nb) (hnext : nb.pxNext = none)
    (hfirst : nb.pxFirst = c) (hstart : nb.pxBufStart = some ptr)
    (hu : Usable pf h nb.freemethod ptr) : WholeChain pf h c [c] := by
  have hnb : ∀ x ∈ [c], ∀ nb', h.netbufs x = some nb' → x = c ∧ nb' = nb := by
    intro x hx nb' hnb'
    rw [List.mem_singleton.mp hx, hc] at hnb'
    exact ⟨List.mem_singleton.mp hx, (Option.some.inj hnb').symm⟩
  have hholds : ∀ b m, h.Holds [c] b m → b = ptr ∧ m = nb.freemethod := by
    rintro b m ⟨x, hx, nb', hnb', hb, rfl⟩
    obtain ⟨-, rfl⟩ := hnb x hx nb' hnb'
    rw [hstart] at hb
    exact ⟨(Option.some.inj hb).symm, rfl⟩
  refine ⟨hf, ⟨rfl, nb, hc, hnext⟩, by simp, fun x hx nb' hnb' => ?_,
    ⟨fun x hx => ?_, fun x y b hx hy => ?_⟩, fun b m b' m' hb hb' _ => ?_, fun b m hb => ?_⟩
  · obtain ⟨-, rfl⟩ := hnb x hx nb' hnb'
    exact hfirst
  · obtain rfl := List.mem_singleton.mp hx.1
    exact ⟨ptr, (Heap.heldIn_of_mem hx.1).trans ((Heap.held_of_some hc).trans hstart)⟩
  · have hx := List.mem_singleton.mp (Heap.heldIn_eq_some.mp hx).1
    exact Or.inl (hx.trans (List.mem_singleton.mp (Heap.heldIn_eq_some.mp hy).1).symm)
  · obtain ⟨rfl, rfl⟩ := hholds b m hb
    obtain ⟨rfl, rfl⟩ := hholds b' m' hb'
    exact ⟨rfl, rfl⟩
  · obtain ⟨rfl, rfl⟩ := hholds b m hb
    exact hu

/-- A cut changes the size of the netbuf and what is behind it. -/
theorem splitHeap_map {x : NbPtr} {β : Type} (eType : NetBufType) (k : ℕ) (f : Netbuf → β)
    (hq : h.netbufs q = some nb) (hx : x ≠ h.brk)
    (hf : ∀ n, f { n with unSz := k, pxNext := some h.brk } = f n) :
    ((splitHeap h q nb eType k).netbufs x).map f = (h.netbufs x).map f := by
  by_cases hxq : x = q
  · have hself : (splitHeap h q nb eType k).netbufs q =
        some { nb with unSz := k, pxNext := some h.brk } := Heap.setNetbuf_self _ _ _
    rw [hxq, hself, hq, Option.map_some, Option.map_some, hf]
  · rw [splitHeap_of_ne hx hxq]

/-- A cut brings in no buffer. -/
theorem splitHeap_holds {l l' : List NbPtr} {eType : NetBufType} {k : ℕ} {b : Ptr}
    {m : Option FreeMethod} (hq : h.netbufs q = some nb) (hql : q ∈ l) (hqne : q ≠ h.brk)
    (hmem : ∀ x ∈ l', x = h.brk ∨ x ≠ h.brk ∧ x ∈ l)
    (hb : (splitHeap h q nb eType k).Holds l' b m) : h.Holds l b m := by
  obtain ⟨x, hx, nb', hnb', hb, rfl⟩ := hb
  rcases hmem x hx with rfl | ⟨hne, hx⟩
  · rw [splitHeap_new hqne] at hnb'
    cases hnb'
    exact ⟨q, hql, nb, hq, hb, rfl⟩
  · have hsame := splitHeap_map eType k (fun n => (n.pxBufStart, n.freemethod)) hq hne fun _ => rfl
    cases hx₀ : h.netbufs x with
    | none =>
      rw [hnb', hx₀] at hsame
      cases hsame
    | some nb₀ =>
      rw [hnb', hx₀, Option.map_some, Option.map_some, Option.some.injEq, Prod.mk.injEq] at hsame
      exact ⟨x, hx, nb₀, hx₀, hsame.1.symm.trans hb, hsame.2.symm⟩

/-- A netbuf in use is cut, and the new one behind it shares its buffer. -/
theorem WholeChain.split {l₁ l₂ : List NbPtr} {eType : NetBufType} {k : ℕ}
    (hc : WholeChain pf h c (l₁ ++ q :: l₂)) (hq : h.netbufs q = some nb)
    (hlive : nb.xFreed = false) :
    WholeChain pf (splitHeap h q nb eType k) c (l₁ ++ q :: h.brk :: l₂) := by
  have hold : ∀ x ∈ l₁ ++ q :: l₂, x ≠ h.brk := fun x hx => by
    obtain ⟨nb', hx'⟩ := hc.netbuf hx
    exact Nat.ne_of_lt (hc.fresh.lt_of_netbuf hx')
  have hqmem : q ∈ l₁ ++ q :: l₂ := List.mem_append_right l₁ List.mem_cons_self
  have hqne := hold q hqmem
  have hperm := perm_cut l₁ l₂ q h.brk
  have hmem : ∀ x, x ∈ l₁ ++ q :: h.brk :: l₂ ↔ x = h.brk ∨ x ∈ l₁ ++ q :: l₂ := fun x => by
    rw [hperm.mem_iff, List.mem_cons]
  have hnew : (splitHeap h q nb eType k).netbufs h.brk = some (nb.behind eType k) :=
    splitHeap_new hqne
  have hholds : ∀ b m, (splitHeap h q nb eType k).Holds (l₁ ++ q :: h.brk :: l₂) b m →
      h.Holds (l₁ ++ q :: l₂) b m :=
    fun b m hb => splitHeap_holds hq hqmem hqne
      (fun x hx => ((hmem x).mp hx).imp id fun hin => ⟨hold x hin, hin⟩) hb
  obtain ⟨ptr, hptr⟩ := hc.sound.holds q ⟨hqmem, nb, hq, hlive⟩
  have hstart : nb.pxBufStart = some ptr := by
    rw [Heap.heldIn_of_mem hqmem, Heap.held_of_some hq] at hptr
    exact hptr
  refine ⟨(hc.fresh.withNetbuf _).setNetbuf (Nat.lt_succ_of_lt (hc.fresh.lt_of_netbuf hq)) _,
    links_split hc.fresh hc.links hc.nodup hq,
    hperm.nodup_iff.mpr (List.nodup_cons.mpr ⟨fun hx => hold _ hx rfl, hc.nodup⟩),
    fun x hx nb' hnb' => ?_,
    hc.sound.share (n := h.brk) ⟨hqmem, nb, hq, hlive⟩ hptr (if_neg fun hx => hold _ hx rfl)
      (fun x => ?_) ?_ fun x hx => ?_,
    fun b m b' m' hb hb' => hc.blocks b m b' m' (hholds b m hb) (hholds b' m' hb'),
    fun b m hb => (hc.usable b m (hholds b m hb)).congr ⟨rfl, rfl, fun _ hp => hp⟩⟩
  · rcases (hmem x).mp hx with rfl | hx
    · rw [hnew] at hnb'
      cases hnb'
      exact hc.first q hqmem nb hq
    · have hsame := splitHeap_map eType k (·.pxFirst) hq (hold x hx) fun _ => rfl
      obtain ⟨nb₀, hnb₀⟩ := hc.netbuf hx
      rw [hnb', hnb₀, Option.map_some, Option.map_some, Option.some.injEq] at hsame
      exact hsame.trans (hc.first x hx nb₀ hnb₀)
  · by_cases hxn : x = h.brk
    · rw [hxn]
      exact iff_of_true ⟨(hmem _).mpr (Or.inl rfl), _, hnew, rfl⟩ (Or.inl rfl)
    · rw [hmem, or_iff_right hxn, or_iff_right hxn]
      refine and_congr_right fun hx => ?_
      rw [Heap.inUse_iff, Heap.inUse_iff,
        splitHeap_map eType k (·.xFreed) hq (hold x hx) fun _ => rfl]
  · rw [Heap.heldIn_of_mem ((hmem _).mpr (Or.inl rfl)), Heap.held_of_some hnew]
    exact hstart
  · simp only [Heap.heldIn, hmem, or_iff_right hx]
    split
    · rename_i hin
      exact Heap.held_congr (splitHeap_map eType k (·.pxBufStart) hq (hold x hin) fun _ => rfl)
    · rfl

end RinaSense.Common
