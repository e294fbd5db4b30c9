import RinaSense.Common.Release

/-!
# Chains which are joined

`vNetBufAppend` on two whole chains. The second one is hung behind the first one and its netbufs
get the first netbuf of the chain, so that both are released together.
-/

namespace RinaSense.Common

open Library.Handover Library.Memory

variable {pf : Platform} {h h' : Heap} {c q : NbPtr} {l l' : List NbPtr} {ptr : Ptr}

/-- A netbuf up to its place in a chain. -/
def Netbuf.content (nb : Netbuf) : Netbuf := { nb with pxNext := none, pxFirst := 0 }

/-- A netbuf up to its place in the chain. -/
def Netbuf.unlinked (nb : Netbuf) : Netbuf := { nb with pxNext := none }

/-- The netbufs of two chains are those of one chain, with the contents they had. -/
structure Joined (pf : Platform) (h h' : Heap) (c : NbPtr) (l l' : List NbPtr) : Prop where
  chain : WholeChain pf h' c (l ++ l')
  same : ∀ x, (h'.netbufs x).map Netbuf.content = (h.netbufs x).map Netbuf.content
  other : ∀ x, x ∉ l ++ l' → h'.netbufs x = h.netbufs x
  rest : h' = { h with netbufs := h'.netbufs }

theorem map_of_unlinked {β : Type} {x : NbPtr}
    (hsame : (h'.netbufs x).map Netbuf.unlinked = (h.netbufs x).map Netbuf.unlinked)
    (f : Netbuf → β) :
    (h'.netbufs x).map (f ∘ Netbuf.unlinked) = (h.netbufs x).map (f ∘ Netbuf.unlinked) := by
  rw [← Option.map_map, hsame, Option.map_map]

section Content

variable (hsame : ∀ x, (h'.netbufs x).map Netbuf.content = (h.netbufs x).map Netbuf.content)

include hsame

theorem map_of_content {β : Type} (f : Netbuf → β) (x : NbPtr) :
    (h'.netbufs x).map (f ∘ Netbuf.content) = (h.netbufs x).map (f ∘ Netbuf.content) := by
  rw [← Option.map_map, hsame, Option.map_map]

theorem inUse_of_content (x : NbPtr) : h'.InUse x ↔ h.InUse x := by
  rw [Heap.inUse_iff, Heap.inUse_iff]
  exact iff_of_eq (congrArg (· = some false) (map_of_content hsame (·.xFreed) x))

theorem holds_of_content (b : Ptr) (m : Option FreeMethod) : h'.Holds l b m ↔ h.Holds l b m := by
  rw [Heap.holds_iff, Heap.holds_iff]
  exact exists_congr fun x => and_congr_right fun _ =>
    iff_of_eq (congrArg (· = some (some b, m)) (map_of_content hsame Netbuf.buffer x))

theorem held_of_content (x : NbPtr) : h'.held x = h.held x :=
  Heap.held_congr (map_of_content hsame (·.pxBufStart) x)

end Content

/-! ### The netbufs behind the call -/

/-- The netbufs `l'` follow those of the chain `l`. They have the same first netbuf, and of the
other ones at most a link has changed. -/
structure Attached (h h' : Heap) (c : NbPtr) (l l' : List NbPtr) : Prop where
  links : NbLinks h' (some c) (l ++ l') none
  moved : ∀ x ∈ l', ∀ nb, h.netbufs x = some nb → h'.netbufs x = some { nb with pxFirst := c }
  linked : ∀ x, x ∉ l' → (h'.netbufs x).map Netbuf.unlinked = (h.netbufs x).map Netbuf.unlinked
  other : ∀ x, x ∉ l ++ l' → h'.netbufs x = h.netbufs x
  rest : h' = { h with netbufs := h'.netbufs }

theorem WholeChain.attach {r : NbPtr} (hc : WholeChain pf h c l) (hc' : WholeChain pf h r l')
    (hql : q ∈ l) (hin : h.InUse q) (hr : r ∈ l') (hlive : ∀ x ∈ l', h.InUse x)
    (hdisj : ∀ x ∈ l', x ∉ l) :
    ∃ h', vNetBufAppend pf h q r = .ok h' ∧ Attached h h' c l l' := by
  obtain ⟨left, hq, hqlive⟩ := hin
  obtain ⟨right, hright⟩ := hc'.netbuf hr
  obtain ⟨pre, last, rfl⟩ : ∃ pre last, l = pre ++ [last] := by
    rcases List.eq_nil_or_concat l with rfl | ⟨pre, last, rfl⟩
    · cases hql
    · exact ⟨pre, last, List.concat_eq_append⟩
  have hleft := hc.first q hql left hq
  obtain ⟨h', hcode, ha⟩ := vNetBufAppend_spec pf hc.fresh hq hqlive (hleft.symm ▸ hc.links)
    hright (hc'.first r hr right hright) hc'.links hdisj
  have hlastmem : last ∈ pre ++ [last] := List.mem_append_right pre List.mem_cons_self
  refine ⟨h', hcode, ha.links hc.links hc.nodup hc'.links hdisj, fun x hx nb hnb => ?_,
    fun x hx => ?_, fun x hx => ?_, ha.rest⟩
  · obtain ⟨nb₀, hnb₀, hfreed⟩ := hlive x hx
    rw [hnb] at hnb₀
    cases hnb₀
    rw [ha.right x hx, hnb, Option.map_some, Netbuf.relink, hfreed, hleft]
    rfl
  · by_cases hxl : x = last
    · rw [hxl, ha.hung, Option.map_map]
      rfl
    · rw [ha.other x hx hxl]
  · obtain ⟨hxl, hxl'⟩ := not_or.mp (mt List.mem_append.mpr hx)
    exact ha.other x hxl' fun heq => hxl (heq ▸ hlastmem)

namespace Attached

variable {r : NbPtr} (ha : Attached h h' c l l') (hc : WholeChain pf h c l)
  (hc' : WholeChain pf h r l')

include ha hc'

theorem same (x : NbPtr) :
    (h'.netbufs x).map Netbuf.content = (h.netbufs x).map Netbuf.content := by
  by_cases hx : x ∈ l'
  · obtain ⟨nb, hnb⟩ := hc'.netbuf hx
    rw [ha.moved x hx nb hnb, hnb]
    rfl
  · exact map_of_unlinked (ha.linked x hx) Netbuf.content

theorem holds (b : Ptr) (m : Option FreeMethod) :
    h'.Holds (l ++ l') b m ↔ h.Holds l b m ∨ h.Holds l' b m := by
  rw [holds_of_content (ha.same hc'), Heap.holds_append]

include hc

theorem fresh : h'.Fresh := by
  intro a hle
  have hbrk : h'.brk = h.brk := by rw [ha.rest]
  rw [hbrk] at hle
  obtain ⟨hnone, hmem⟩ := hc.fresh a hle
  have hin : a ∉ l ++ l' := fun hx => by
    rcases List.mem_append.mp hx with hx | hx
    · obtain ⟨nb, hnb⟩ := hc.netbuf hx
      rw [hnone] at hnb
      cases hnb
    · obtain ⟨nb, hnb⟩ := hc'.netbuf hx
      rw [hnone] at hnb
      cases hnb
  rw [ha.other a hin, ha.rest]
  exact ⟨hnone, hmem⟩

theorem first {x : NbPtr} (hx : x ∈ l ++ l') {nb' : Netbuf} (hnb' : h'.netbufs x = some nb') :
    nb'.pxFirst = c := by
  by_cases hxr : x ∈ l'
  · obtain ⟨nb, hnb⟩ := hc'.netbuf hxr
    rw [ha.moved x hxr nb hnb] at hnb'
    cases hnb'
    rfl
  · have hxl := (List.mem_append.mp hx).resolve_right hxr
    obtain ⟨nb, hnb⟩ := hc.netbuf hxl
    have hkept := map_of_unlinked (ha.linked x hxr) (·.pxFirst)
    rw [hnb', hnb, Option.map_some, Option.map_some, Option.some.injEq] at hkept
    exact hkept.trans (hc.first x hxl nb hnb)

/-- With buffers of their own the two chains are one whole chain. -/
theorem wholeChain (hdisj : ∀ x ∈ l', x ∉ l)
    (hapart : ∀ b m b' m', h.Holds l b m → h.Holds l' b' m' → b.block ≠ b'.block) :
    WholeChain pf h' c (l ++ l') := by
  have hsame := ha.same hc'
  refine ⟨ha.fresh hc hc', ha.links,
    List.nodup_append.mpr ⟨hc.nodup, hc'.nodup, fun x hx y hy heq => hdisj y hy (heq ▸ hx)⟩,
    fun x hx nb' hnb' => ha.first hc hc' hx hnb', ?_, fun b m b' m' hb hb' hblock => ?_,
    fun b m hb => ?_⟩
  · refine hc.sound.union hc'.sound (fun x => ?_) (fun x b => ?_) fun x y b hx hy => ?_
    · rw [inUse_of_content hsame, List.mem_append, or_and_right]
    · rw [Heap.heldIn_eq_some, Heap.heldIn_eq_some, Heap.heldIn_eq_some, ← Heap.held_eq_some,
        ← Heap.held_eq_some, held_of_content hsame, List.mem_append, or_and_right]
    · obtain ⟨hxl, nb, hnb, hb⟩ := Heap.heldIn_eq_some.mp hx
      obtain ⟨hyl, nb', hnb', hb'⟩ := Heap.heldIn_eq_some.mp hy
      exact hapart b _ b _ ⟨x, hxl, nb, hnb, hb, rfl⟩ ⟨y, hyl, nb', hnb', hb', rfl⟩ rfl
  · rcases (ha.holds hc' b m).mp hb with hb | hb
    · rcases (ha.holds hc' b' m').mp hb' with hb' | hb'
      · exact hc.blocks b m b' m' hb hb' hblock
      · exact absurd hblock (hapart b m b' m' hb hb')
    · rcases (ha.holds hc' b' m').mp hb' with hb' | hb'
      · exact absurd hblock.symm (hapart b' m' b m hb' hb)
      · exact hc'.blocks b m b' m' hb hb' hblock
  · have hblock : SameBlock h h' b.block := by
      rw [ha.rest]
      exact ⟨rfl, rfl, fun _ hp => hp⟩
    rcases (ha.holds hc' b m).mp hb with hb | hb
    · exact (hc.usable b m hb).congr hblock
    · exact (hc'.usable b m hb).congr hblock

end Attached

/-! ### Whole chains -/

/-- A chain whose netbufs are all in use, with buffers of its own, is joined to another one. -/
theorem WholeChain.join {r : NbPtr} (hc : WholeChain pf h c l) (hc' : WholeChain pf h r l')
    (hql : q ∈ l) (hin : h.InUse q) (hr : r ∈ l') (hlive : ∀ x ∈ l', h.InUse x)
    (hdisj : ∀ x ∈ l', x ∉ l)
    (hapart : ∀ b m b' m', h.Holds l b m → h.Holds l' b' m' → b.block ≠ b'.block) :
    ∃ h', vNetBufAppend pf h q r = .ok h' ∧ Joined pf h h' c l l' := by
  obtain ⟨h', hcode, ha⟩ := hc.attach hc' hql hin hr hlive hdisj
  exact ⟨h', hcode, ha.wholeChain hc hc' hdisj hapart, ha.same hc', ha.other, ha.rest⟩

/-- The heap behind the call, in which the netbuf `r` is the last one of the chain. -/
structure Hung (pf : Platform) (h h' : Heap) (c r : NbPtr) (l : List NbPtr) (ptr : Ptr)
    (right : Netbuf) : Prop where
  chain : WholeChain pf h' c (l ++ [r])
  new : h'.netbufs r = some { right with pxFirst := c }
  same : ∀ x, x ≠ r → (h'.netbufs x).map Netbuf.unlinked = (h.netbufs x).map Netbuf.unlinked
  holds : ∀ b m, h'.Holds (l ++ [r]) b m ↔ h.Holds l b m ∨ b = ptr ∧ m = right.freemethod
  other : ∀ x, x ∉ l ++ [r] → h'.netbufs x = h.netbufs x
  rest : h' = { h with netbufs := h'.netbufs }

/-- A chain of one netbuf is hung behind another chain, with a buffer of its own. -/
theorem WholeChain.append {r : NbPtr} {right : Netbuf} (hc : WholeChain pf h c l)
    (hql : q ∈ l) (hin : h.InUse q) (hr : h.netbufs r = some right) (hlive : right.xFreed = false)
    (hfirst : right.pxFirst = r) (hnext : right.pxNext = none)
    (hstart : right.pxBufStart = some ptr) (hu : Usable pf h right.freemethod ptr) (hrl : r ∉ l)
    (hapart : ∀ b m, h.Holds l b m → b.block ≠ ptr.block) :
    ∃ h', vNetBufAppend pf h q r = .ok h' ∧ Hung pf h h' c r l ptr right := by
  have hsingle : WholeChain pf h r [r] := .single hc.fresh hr hnext hfirst hstart hu
  have hholds : ∀ b m, h.Holds [r] b m ↔ b = ptr ∧ m = right.freemethod := fun b m => by
    rw [Heap.holds_singleton hr, hstart, Option.some.injEq]
    exact and_congr eq_comm eq_comm
  have hdisj : ∀ x ∈ [r], x ∉ l := fun x hx => List.mem_singleton.mp hx ▸ hrl
  obtain ⟨h', hcode, ha⟩ := hc.attach hsingle hql hin List.mem_cons_self
    (fun x hx => List.mem_singleton.mp hx ▸ ⟨right, hr, hlive⟩) hdisj
  refine ⟨h', hcode, ha.wholeChain hc hsingle hdisj fun b m b' m' hb hb' => ?_,
    ha.moved r List.mem_cons_self right hr, fun x hx => ha.linked x (mt List.mem_singleton.mp hx),
    fun b m => ?_, ha.other, ha.rest⟩
  · exact ((hholds b' m').mp hb').1 ▸ hapart b m hb
  · rw [ha.holds hsingle, hholds]

end RinaSense.Common
