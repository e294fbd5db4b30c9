import Mathlib.Data.List.Perm.Subperm
import RinaSense.Common.Chain
import RinaSense.Library.Handover

/-!
# Chains as lists

A chain as the list of its netbufs in the order of their `pxNext` pointers, and what
splitting, appending and freeing do to the list and to the buffers.
-/

namespace RinaSense.Common

open Library.Memory Library.Handover

variable {pf : Platform} {h h' : Heap} {p q : NbPtr} {nb : Netbuf} {ptr : Ptr}
  {start stop : Option NbPtr} {l l' : List NbPtr}

/-- From `start` the `pxNext` pointers lead over the netbufs of the list to `stop`. -/
def NbLinks (h : Heap) : Option NbPtr → List NbPtr → Option NbPtr → Prop
  | start, [], stop => start = stop
  | start, p :: ps, stop =>
    start = some p ∧ ∃ nb, h.netbufs p = some nb ∧ NbLinks h nb.pxNext ps stop

theorem links_append :
    NbLinks h start (l ++ l') stop ↔ ∃ mid, NbLinks h start l mid ∧ NbLinks h mid l' stop := by
  induction l generalizing start with
  | nil => exact ⟨fun hl => ⟨start, rfl, hl⟩, fun ⟨mid, hmid, hl⟩ => hmid ▸ hl⟩
  | cons p ps ih =>
    constructor
    · rintro ⟨hstart, nb, hp, hrest⟩
      obtain ⟨mid, hps, hl'⟩ := ih.mp hrest
      exact ⟨mid, ⟨hstart, nb, hp, hps⟩, hl'⟩
    · rintro ⟨mid, ⟨hstart, nb, hp, hps⟩, hl'⟩
      exact ⟨hstart, nb, hp, ih.mpr ⟨mid, hps, hl'⟩⟩

theorem NbLinks.netbuf (hl : NbLinks h start l stop) : ∀ q ∈ l, ∃ nb, h.netbufs q = some nb := by
  induction l generalizing start with
  | nil => simp
  | cons p ps ih =>
    obtain ⟨-, nb, hp, hrest⟩ := hl
    exact List.forall_mem_cons.mpr ⟨⟨nb, hp⟩, ih hrest⟩

/-- The list depends on the `pxNext` pointers only. -/
theorem NbLinks.congr (hl : NbLinks h start l stop)
    (hsame : ∀ q ∈ l, (h'.netbufs q).map (·.pxNext) = (h.netbufs q).map (·.pxNext)) :
    NbLinks h' start l stop := by
  induction l generalizing start with
  | nil => exact hl
  | cons p ps ih =>
    obtain ⟨hstart, nb, hp, hrest⟩ := hl
    have hnext := hsame p List.mem_cons_self
    rw [hp, Option.map_some, Option.map_eq_some_iff] at hnext
    obtain ⟨nb', hp', hsame'⟩ := hnext
    refine ⟨hstart, nb', hp', ?_⟩
    rw [hsame']
    exact ih hrest fun q hq => hsame q (List.mem_cons_of_mem p hq)

theorem NbLinks.chainFrom (hl : NbLinks h start l none) {fuel : ℕ} (hfuel : l.length ≤ fuel) :
    chainFrom h fuel start = .ok l := by
  induction l generalizing start fuel with
  | nil =>
    cases hl
    cases fuel <;> rfl
  | cons p ps ih =>
    obtain ⟨rfl, nb, hp, hrest⟩ := hl
    obtain ⟨fuel, rfl⟩ := Nat.exists_eq_succ_of_ne_zero (Nat.ne_of_gt (Nat.lt_of_lt_of_le
      (Nat.succ_pos ps.length) hfuel))
    have htail := ih hrest (Nat.le_of_succ_le_succ hfuel)
    simp [Common.chainFrom, hp, htail, pure, Except.pure]

theorem NbLinks.of_chainFrom {fuel : ℕ} (hchain : Common.chainFrom h fuel start = .ok l) :
    NbLinks h start l none := by
  induction fuel generalizing start l with
  | zero =>
    cases start with
    | none =>
      cases hchain
      rfl
    | some p => cases hchain
  | succ fuel ih =>
    cases start with
    | none =>
      cases hchain
      rfl
    | some p =>
      obtain ⟨nb, hp, hchain⟩ := Exec.bind_eq_ok.mp hchain
      obtain ⟨rest, hrest, hchain⟩ := Exec.bind_eq_ok.mp hchain
      cases hchain
      exact ⟨rfl, nb, inBounds_eq_ok.mp hp, ih hrest⟩

theorem NbLinks.unique (hl : NbLinks h start l none) (hl' : NbLinks h start l' none) : l = l' := by
  induction l generalizing start l' with
  | nil =>
    cases hl
    cases l' with
    | nil => rfl
    | cons p ps => cases hl'.1
  | cons p ps ih =>
    obtain ⟨rfl, nb, hp, hrest⟩ := hl
    cases l' with
    | nil => cases hl'
    | cons p' ps' =>
      obtain ⟨hstart, nb', hp', hrest'⟩ := hl'
      cases hstart
      rw [hp, Option.some.injEq] at hp'
      rw [ih hrest (hp' ▸ hrest')]

/-- A chain which ends passes each of its netbufs once. -/
theorem NbLinks.nodup (hl : NbLinks h start l none) : l.Nodup := by
  induction l generalizing start with
  | nil => exact List.nodup_nil
  | cons p ps ih =>
    have hself := hl
    obtain ⟨rfl, nb, hp, hrest⟩ := hl
    refine List.nodup_cons.mpr ⟨fun hmem => ?_, ih hrest⟩
    -- From `p` on the chain would be as long as the rest of it.
    obtain ⟨own, rest, rfl⟩ := List.append_of_mem hmem
    obtain ⟨mid, -, hback⟩ := links_append.mp hrest
    have hmid : mid = some p := hback.1
    have hlen := congrArg List.length (hself.unique (hmid ▸ hback))
    simp at hlen
    omega

/-- The addresses of netbufs are below `brk`, so that a chain is never longer. -/
theorem Heap.Fresh.length_le (hf : h.Fresh) (hl : NbLinks h start l stop) (hnodup : l.Nodup) :
    l.length ≤ h.brk := by
  have hsub : l ⊆ List.range h.brk := fun q hq => by
    obtain ⟨nb, hq'⟩ := hl.netbuf q hq
    exact List.mem_range.mpr (hf.lt_of_netbuf hq')
  simpa using (hnodup.subperm hsub).length_le

/-- If there is a netbuf in use, the search for one finds it. -/
theorem NbLinks.firstLive (hl : NbLinks h start l none) {fuel : ℕ} (hfuel : l.length ≤ fuel)
    (hq : q ∈ l) (hqnb : h.netbufs q = some nb) (hlive : nb.xFreed = false) :
    ∃ du, firstLive h fuel start = .ok (some du) := by
  induction l generalizing start fuel with
  | nil => cases hq
  | cons p ps ih =>
    obtain ⟨rfl, nb', hp, hrest⟩ := hl
    obtain ⟨fuel, rfl⟩ := Nat.exists_eq_succ_of_ne_zero (Nat.ne_of_gt (Nat.lt_of_lt_of_le
      (Nat.succ_pos ps.length) hfuel))
    by_cases hfreed : nb'.xFreed = true
    · have hqps : q ∈ ps := by
        rcases List.mem_cons.mp hq with rfl | hqps
        · rw [hqnb] at hp
          cases hp
          rw [hlive] at hfreed
          cases hfreed
        · exact hqps
      obtain ⟨du, hdu⟩ := ih hrest (Nat.le_of_succ_le_succ hfuel) hqps
      exact ⟨du, by simp [Common.firstLive, hp, hfreed, hdu]⟩
    · exact ⟨p, by simp [Common.firstLive, hp, hfreed, pure, Except.pure]⟩

/-! ### Splitting -/

/-- The netbuf for what is behind a cut. -/
def Netbuf.behind (nb : Netbuf) (eType : NetBufType) (unSz : ℕ) : Netbuf :=
  { nb with
    eType := eType
    pxBuf := nb.pxBuf.map fun b : Ptr => b.add unSz
    unSz := nb.unSz - unSz
    xFreed := false }

/-- The heap with a new netbuf. -/
def Heap.withNetbuf (h : Heap) (nb : Netbuf) : Heap :=
  { h.called.setNetbuf h.brk (some nb) with brk := h.brk + 1 }

@[simp] theorem Heap.withNetbuf_self (h : Heap) (nb : Netbuf) :
    (h.withNetbuf nb).netbufs h.brk = some nb := Heap.setNetbuf_self h.called h.brk (some nb)

theorem Heap.withNetbuf_of_ne (h : Heap) (nb : Netbuf) (hq : q ≠ h.brk) :
    (h.withNetbuf nb).netbufs q = h.netbufs q := Heap.setNetbuf_of_ne h.called (some nb) hq

/-- The heap in which the netbuf `p` is cut after `unSz` bytes. -/
def splitHeap (h : Heap) (p : NbPtr) (nb : Netbuf) (eType : NetBufType) (unSz : ℕ) : Heap :=
  (h.withNetbuf (nb.behind eType unSz)).setNetbuf p
    (some { nb with unSz := unSz, pxNext := some h.brk })

theorem splitHeap_of_ne {eType : NetBufType} {k : ℕ} (hq : q ≠ h.brk) (hqp : q ≠ p) :
    (splitHeap h p nb eType k).netbufs q = h.netbufs q :=
  (Heap.setNetbuf_of_ne _ _ hqp).trans (Heap.withNetbuf_of_ne h _ hq)

theorem splitHeap_new {eType : NetBufType} {k : ℕ} (hp : p ≠ h.brk) :
    (splitHeap h p nb eType k).netbufs h.brk = some (nb.behind eType k) :=
  (Heap.setNetbuf_of_ne _ _ hp.symm).trans (Heap.withNetbuf_self h _)

theorem Heap.Fresh.withNetbuf (hf : h.Fresh) (nb : Netbuf) :
    (h.withNetbuf nb).Fresh := fun a ha => by
  have hlt : h.brk < a := ha
  have hold := hf a (Nat.le_of_lt hlt)
  exact ⟨(Heap.withNetbuf_of_ne h nb (Nat.ne_of_gt hlt)).trans hold.1, hold.2⟩

theorem Heap.Fresh.setNetbuf (hf : h.Fresh) (hp : p < h.brk) (nb : Option Netbuf) :
    (h.setNetbuf p nb).Fresh := fun a ha => by
  have hne : a ≠ p := Nat.ne_of_gt (Nat.lt_of_lt_of_le hp ha)
  rw [Heap.setNetbuf_of_ne h nb hne]
  exact hf a ha

/-- A chain with a new netbuf in it, as one in front of it. -/
theorem perm_cut (l₁ l₂ : List NbPtr) (p n : NbPtr) :
    List.Perm (l₁ ++ p :: n :: l₂) (n :: (l₁ ++ p :: l₂)) := by
  rw [List.append_cons, List.append_cons l₁ p l₂]
  exact List.perm_middle

/-- A split changes nothing or cuts one live netbuf of the chain. -/
theorem splitLoop_cases (eType : NetBufType) (hl : NbLinks h start l none) {fuel : ℕ}
    (hfuel : l.length ≤ fuel) (n : ℕ) :
    ∃ ok h', splitLoop eType h fuel start n = .ok (ok, h') ∧
      (h' = h ∨ h' = h.called ∨ ∃ p ∈ l, ∃ nb k, h.netbufs p = some nb ∧ nb.xFreed = false ∧
        h' = splitHeap h p nb eType k) := by
  induction l generalizing start fuel n with
  | nil =>
    cases hl
    refine ⟨false, h, ?_, Or.inl rfl⟩
    cases fuel <;> rfl
  | cons p ps ih =>
    obtain ⟨rfl, nb, hp, hrest⟩ := hl
    obtain ⟨fuel, rfl⟩ := Nat.exists_eq_succ_of_ne_zero (Nat.ne_of_gt (Nat.lt_of_lt_of_le
      (Nat.succ_pos ps.length) hfuel))
    have hlater : ∀ n', ∃ ok h', splitLoop eType h fuel nb.pxNext n' = .ok (ok, h') ∧
        (h' = h ∨ h' = h.called ∨ ∃ p' ∈ p :: ps, ∃ nb k, h.netbufs p' = some nb ∧
          nb.xFreed = false ∧ h' = splitHeap h p' nb eType k) := by
      intro n'
      obtain ⟨ok, h', hcode, hcases⟩ := ih hrest (Nat.le_of_succ_le_succ hfuel) n'
      refine ⟨ok, h', hcode, hcases.imp_right (Or.imp_right ?_)⟩
      rintro ⟨p', hp', hcut⟩
      exact ⟨p', List.mem_cons_of_mem p hp', hcut⟩
    simp only [splitLoop, Heap.netbuf_of_some hp, Exec.ok_bind]
    by_cases hfreed : nb.xFreed = true
    · rw [if_pos hfreed]
      exact hlater n
    · rw [if_neg hfreed]
      by_cases hshort : nb.unSz < n
      · rw [if_pos hshort]
        exact hlater (n - nb.unSz)
      · rw [if_neg hshort]
        by_cases hcut : nb.unSz = n
        · rw [if_pos hcut]
          exact ⟨true, h, rfl, Or.inl rfl⟩
        · rw [if_neg hcut, pvRsMemAllocNetbuf]
          by_cases hmem : h.mallocOk h.calls = true
          · rw [if_pos hmem]
            exact ⟨true, splitHeap h p nb eType n, rfl, Or.inr (Or.inr ⟨p, List.mem_cons_self, nb,
              n, hp, eq_false_of_ne_true hfreed, rfl⟩)⟩
          · rw [if_neg hmem]
            exact ⟨false, h.called, rfl, Or.inr (Or.inl rfl)⟩

/-- A split which comes back has left the heap, asked for memory in vain, or cut a netbuf which
is not freed. -/
theorem splitLoop_ends {eType : NetBufType} {h h' : Heap} {fuel n : ℕ} {start : Option NbPtr}
    {ok : Bool} (hrun : splitLoop eType h fuel start n = .ok (ok, h')) :
    h' = h ∨ h' = h.called ∨ ∃ p nb k, h.netbufs p = some nb ∧ nb.xFreed = false ∧
      h' = splitHeap h p nb eType k := by
  induction fuel generalizing start n with
  | zero =>
    cases start with
    | none =>
      cases hrun
      exact .inl rfl
    | some p => cases hrun
  | succ fuel ih =>
    cases start with
    | none =>
      cases hrun
      exact .inl rfl
    | some p =>
      obtain ⟨nb, hp, hrun⟩ := Exec.bind_eq_ok.mp hrun
      by_cases hfreed : nb.xFreed = true
      · rw [if_pos hfreed] at hrun
        exact ih hrun
      · rw [if_neg hfreed] at hrun
        split at hrun
        · exact ih hrun
        · split at hrun
          · cases hrun
            exact .inl rfl
          · rw [pvRsMemAllocNetbuf] at hrun
            by_cases hmem : h.mallocOk h.calls = true
            · rw [if_pos hmem] at hrun
              cases hrun
              exact .inr (.inr ⟨p, nb, n, inBounds_eq_ok.mp hp, eq_false_of_ne_true hfreed, rfl⟩)
            · rw [if_neg hmem] at hrun
              cases hrun
              exact .inr (.inl rfl)

/-- The new netbuf stands behind the one which was cut. -/
theorem links_split {l₁ l₂ : List NbPtr} {eType : NetBufType} {k : ℕ} (hf : h.Fresh)
    (hl : NbLinks h start (l₁ ++ p :: l₂) none) (hnodup : (l₁ ++ p :: l₂).Nodup)
    (hp : h.netbufs p = some nb) :
    NbLinks (splitHeap h p nb eType k) start (l₁ ++ p :: h.brk :: l₂) none := by
  have hold : ∀ q ∈ l₁ ++ p :: l₂, q ≠ h.brk := fun q hq => by
    obtain ⟨nb', hq'⟩ := hl.netbuf q hq
    exact Nat.ne_of_lt (hf.lt_of_netbuf hq')
  have hpne := hold p (by simp)
  obtain ⟨mid, hl₁, rfl, nb', hp', hl₂⟩ := links_append.mp hl
  obtain rfl : nb' = nb := Option.some.inj (hp'.symm.trans hp)
  have hdisj := List.nodup_append.mp hnodup
  have hp₁ : ∀ q ∈ l₁, q ≠ p := fun q hq => hdisj.2.2 q hq p List.mem_cons_self
  have hp₂ : ∀ q ∈ l₂, q ≠ p := fun q hq => by
    rintro rfl
    exact (List.nodup_cons.mp hdisj.2.1).1 hq
  have hl₁' : NbLinks (splitHeap h p nb' eType k) start l₁ (some p) := hl₁.congr fun q hq => by
    rw [splitHeap_of_ne (hold q (by simp [hq])) (hp₁ q hq)]
  have hl₂' : NbLinks (splitHeap h p nb' eType k) nb'.pxNext l₂ none := hl₂.congr fun q hq => by
    rw [splitHeap_of_ne (hold q (by simp [hq])) (hp₂ q hq)]
  exact links_append.mpr
    ⟨some p, hl₁', rfl, _, Heap.setNetbuf_self _ _ _, rfl, _, splitHeap_new hpne, hl₂'⟩

/-! ### Appending -/

/-- The chain `l'` from `r` on is hung behind `last`, and its live netbufs get a new first
netbuf. -/
structure Appended (h h' : Heap) (first last r : NbPtr) (l' : List NbPtr) : Prop where
  right : ∀ q ∈ l', h'.netbufs q = (h.netbufs q).map (Netbuf.relink first)
  hung : h'.netbufs last = (h.netbufs last).map (fun nb => { nb with pxNext := some r })
  other : ∀ q ∉ l', q ≠ last → h'.netbufs q = h.netbufs q
  rest : h' = { h with netbufs := h'.netbufs }

variable (pf) in
/-- The list `l'` begins at the right netbuf, wherever in its chain that one stands. -/
theorem vNetBufAppend_from {last r : NbPtr} {left right : Netbuf} (hf : h.Fresh)
    (hp : h.netbufs p = some left) (hassert : rsAssert pf (!left.xFreed) = .ok ())
    (hl : NbLinks h (some left.pxFirst) (l ++ [last]) none) (hr : h.netbufs r = some right)
    (hl' : NbLinks h (some r) l' none) (hdisj : ∀ q ∈ l', q ∉ l ++ [last]) :
    ∃ h', vNetBufAppend pf h p r = .ok h' ∧
      Appended h h' left.pxFirst last right.pxFirst l' := by
  obtain ⟨lastNb, hlast⟩ := hl.netbuf last (by simp)
  have hchain := hl.chainFrom (hf.length_le hl hl.nodup)
  let h₁ := h.setNetbuf last (some { lastNb with pxNext := some right.pxFirst })
  have hsame : ∀ q ∈ l', h₁.netbufs q = h.netbufs q := fun q hq =>
    Heap.setNetbuf_of_ne h _ (fun heq => hdisj q hq (by simp [heq]))
  have hl₁ : NbLinks h₁ (some r) l' none := hl'.congr fun q hq => by rw [hsame q hq]
  have hchain' : chainFrom h₁ h₁.brk (some r) = .ok l' :=
    hl₁.chainFrom (hf.length_le hl' hl'.nodup)
  -- The left netbuf may be the last of its chain, but its first netbuf is the same.
  have hleft : ∃ left', h₁.netbufs p = some left' ∧ left'.pxFirst = left.pxFirst := by
    by_cases hplast : p = last
    · subst hplast
      rw [hp] at hlast
      cases hlast
      exact ⟨_, Heap.setNetbuf_self _ _ _, rfl⟩
    · exact ⟨left, (Heap.setNetbuf_of_ne h _ hplast).trans hp, rfl⟩
  obtain ⟨left', hp', hfirst'⟩ := hleft
  obtain ⟨nbs, hset, hnbs⟩ := setFirst_spec left.pxFirst hl₁.netbuf
  have hout : last ∉ l' := fun hmem => hdisj last hmem (by simp)
  refine ⟨{ h with netbufs := nbs }, ?_, fun q hq => ?_, ?_, fun q hq hqlast => ?_, rfl⟩
  · simp only [vNetBufAppend, Heap.netbuf_of_some hp, Exec.ok_bind, hassert, hchain,
      List.getLast?_append, List.getLast?_singleton, Option.some_or, deref_some,
      Heap.netbuf_of_some hlast, Heap.netbuf_of_some hr]
    change (do
      let rightChain ← chainFrom h₁ h₁.brk (some r)
      let left ← h₁.netbuf p
      setFirst left.pxFirst h₁ rightChain) = _
    rw [hchain', Exec.ok_bind, Heap.netbuf_of_some hp', Exec.ok_bind, hfirst', hset]
    rfl
  · exact (hnbs q).trans (by rw [if_pos hq, hsame q hq])
  · rw [hlast]
    exact (hnbs last).trans (by rw [if_neg hout]; exact Heap.setNetbuf_self _ _ _)
  · refine (hnbs q).trans ?_
    rw [if_neg hq]
    exact Heap.setNetbuf_of_ne h _ hqlast

variable (pf) in
theorem vNetBufAppend_spec {last r : NbPtr} {left right : Netbuf} (hf : h.Fresh)
    (hp : h.netbufs p = some left) (hlive : left.xFreed = false)
    (hl : NbLinks h (some left.pxFirst) (l ++ [last]) none)
    (hr : h.netbufs r = some right) (hfirst : right.pxFirst = r)
    (hl' : NbLinks h (some r) l' none) (hdisj : ∀ q ∈ l', q ∉ l ++ [last]) :
    ∃ h', vNetBufAppend pf h p r = .ok h' ∧ Appended h h' left.pxFirst last r l' := by
  have happend :=
    vNetBufAppend_from pf hf hp (by rw [hlive]; exact rsAssert_true pf) hl hr hl' hdisj
  rwa [hfirst] at happend

theorem Netbuf.relink_pxNext (first : NbPtr) (nb : Netbuf) :
    (nb.relink first).pxNext = nb.pxNext := by
  unfold Netbuf.relink
  split <;> rfl

/-- The lists of both chains one behind the other. -/
theorem Appended.links {first last r : NbPtr} (ha : Appended h h' first last r l')
    (hl : NbLinks h start (l ++ [last]) none) (hnodup : (l ++ [last]).Nodup)
    (hl' : NbLinks h (some r) l' none) (hdisj : ∀ q ∈ l', q ∉ l ++ [last]) :
    NbLinks h' start (l ++ [last] ++ l') none := by
  obtain ⟨mid, hl₁, rfl, nb, hnb, hnext⟩ := links_append.mp hl
  have hl₁' : NbLinks h' start l (some last) := hl₁.congr fun q hq => by
    have hq' : q ∉ l' := fun hmem => hdisj q hmem (by simp [hq])
    have hne : q ≠ last := (List.nodup_append.mp hnodup).2.2 q hq last List.mem_cons_self
    rw [ha.other q hq' hne]
  have hl₂ : NbLinks h' (some r) l' none := hl'.congr fun q hq => by
    rw [ha.right q hq, Option.map_map]
    exact congrFun (congrArg Option.map (funext fun nb => Netbuf.relink_pxNext first nb)) _
  have hlast := ha.hung
  rw [hnb] at hlast
  exact links_append.mpr ⟨some r, links_append.mpr ⟨some last, hl₁', rfl, _, hlast, rfl⟩, hl₂⟩

/-! ### Buffers -/

/-- A buffer can be used, and the release function which goes with it could release it. -/
structure Usable (pf : Platform) (h : Heap) (pfnFree : Option FreeMethod) (ptr : Ptr) : Prop where
  allocated : (h.mem ptr.block).isSome
  normal : pfnFree = some .vNetBufFreeNormal → ptr.off = 0
  pool : pfnFree = some .vNetBufFreePool → ptr.off = 0 ∧
    (pf.valgrind = false → ∃ rsrc, h.rsrcs ptr.block = some rsrc ∧ rsrc.xOnFreelist = false ∧
      (h.pools rsrc.pxPool).isSome)

/-- What a buffer is after its release. One which is not to be released is still there. -/
def Released (pf : Platform) (h : Heap) (pfnFree : Option FreeMethod) (ptr : Ptr) : Prop :=
  match pfnFree with
  | none => (h.mem ptr.block).isSome
  | some .vNetBufFreeButDont => (h.mem ptr.block).isSome
  | some .vNetBufFreeNormal => h.mem ptr.block = none
  | some .vNetBufFreePool =>
    if pf.valgrind then h.mem ptr.block = none
    else ∀ rsrc, h.rsrcs ptr.block = some rsrc → rsrc.xOnFreelist = true

/-- The block is as it was, up to its contents. -/
structure SameBlock (h h' : Heap) (b : ℕ) : Prop where
  mem : (h'.mem b).isSome = (h.mem b).isSome
  rsrcs : h'.rsrcs b = h.rsrcs b
  pools : ∀ pp, (h.pools pp).isSome → (h'.pools pp).isSome

theorem SameBlock.refl (h : Heap) (b : ℕ) : SameBlock h h b := ⟨rfl, rfl, fun _ hp => hp⟩

theorem SameBlock.trans {h'' : Heap} {b : ℕ} (h₁ : SameBlock h h' b) (h₂ : SameBlock h' h'' b) :
    SameBlock h h'' b :=
  ⟨h₂.mem.trans h₁.mem, h₂.rsrcs.trans h₁.rsrcs, fun pp hp => h₂.pools pp (h₁.pools pp hp)⟩

theorem SameBlock.setNetbuf {b : ℕ} (hs : SameBlock h h' b) (p : NbPtr) (nb : Option Netbuf) :
    SameBlock h (h'.setNetbuf p nb) b := ⟨hs.mem, hs.rsrcs, hs.pools⟩

theorem Usable.congr {m : Option FreeMethod} (hu : Usable pf h m ptr)
    (hb : SameBlock h h' ptr.block) : Usable pf h' m ptr where
  allocated := hb.mem.trans hu.allocated
  normal := hu.normal
  pool hm := by
    refine ⟨(hu.pool hm).1, fun hv => ?_⟩
    obtain ⟨rsrc, hr, hfree, hpool⟩ := (hu.pool hm).2 hv
    exact ⟨rsrc, hb.rsrcs.trans hr, hfree, hb.pools _ hpool⟩

theorem Released.congr {m : Option FreeMethod} (hr : Released pf h m ptr)
    (hb : SameBlock h h' ptr.block) : Released pf h' m ptr := by
  have hnone : h.mem ptr.block = none → h'.mem ptr.block = none := fun hn => by
    have hmem := hb.mem
    rwa [hn, Option.isSome_none, Option.isSome_eq_false_iff, Option.isNone_iff_eq_none] at hmem
  match m, hr with
  | none, hr => exact hb.mem.trans hr
  | some .vNetBufFreeButDont, hr => exact hb.mem.trans hr
  | some .vNetBufFreeNormal, hr => exact hnone hr
  | some .vNetBufFreePool, hr =>
    unfold Released at hr ⊢
    simp only at hr ⊢
    split at hr
    · rename_i hv
      rw [if_pos hv]
      exact hnone hr
    · rename_i hv
      rw [if_neg hv]
      intro rsrc hrsrc
      exact hr rsrc (hb.rsrcs ▸ hrsrc)

theorem vRsMemFree_spec (hoff : ptr.off = 0) (hmem : (h.mem ptr.block).isSome) :
    ∃ h', vRsMemFree h (some ptr) = .ok h' ∧ h'.netbufs = h.netbufs ∧ h'.brk = h.brk ∧
      h'.mem ptr.block = none ∧ ∀ b, b ≠ ptr.block → SameBlock h h' b := by
  refine ⟨h.setBlock ptr.block none, if_pos ⟨hoff, hmem⟩, rfl, rfl, Heap.setBlock_self _ _ _,
    fun b hb => ⟨?_, rfl, fun _ hp => hp⟩⟩
  simp [Heap.setBlock, hb]

theorem isSome_setPool {h : Heap} {pp pp' : PoolPtr} {pool : RsrcPool}
    (hp : (h.pools pp').isSome) : ((h.setPool pp pool).pools pp').isSome := by
  by_cases heq : pp' = pp
  · simp [Heap.setPool, heq]
  · simpa [Heap.setPool, heq] using hp

/-- The resource is on its freelist, and nothing else has changed. -/
theorem prvvFreeResTail_spec (h : Heap) (pp : PoolPtr) (pool : RsrcPool) (a : ℕ) :
    let h' := (prvvFreeResTail h pp pool a).1
    h'.netbufs = h.netbufs ∧ h'.brk = h.brk ∧
      (∀ rsrc, h'.rsrcs a = some rsrc → rsrc.xOnFreelist = true) ∧
      ∀ b, b ≠ a → SameBlock h h' b := by
  by_cases hz : pool.uxSizeEach = 0
  · simp only [prvvFreeResTail, hz, if_true]
    refine ⟨rfl, rfl, ?_, fun b hb => ⟨rfl, ?_, fun _ hp => hp⟩⟩
    · simp [Heap.setRsrc]
    · simp [Heap.setRsrc, hb]
  · simp only [prvvFreeResTail, hz, if_false]
    refine ⟨rfl, rfl, ?_, fun b hb => ⟨?_, ?_, fun _ hp => hp⟩⟩
    · simp [Heap.setRsrc, Heap.setBlock]
    · simp [Heap.setRsrc, Heap.setBlock, hb]
    · simp [Heap.setRsrc, Heap.setBlock, hb]

theorem vRsrcFree_spec {rsrc : Rsrc} (hv : pf.valgrind = false) (hoff : ptr.off = 0)
    (hr : h.rsrcs ptr.block = some rsrc) (hfree : rsrc.xOnFreelist = false)
    (hpool : (h.pools rsrc.pxPool).isSome) :
    ∃ h', vRsrcFree pf h (some ptr) = .ok h' ∧ h'.netbufs = h.netbufs ∧ h'.brk = h.brk ∧
      (∀ rsrc', h'.rsrcs ptr.block = some rsrc' → rsrc'.xOnFreelist = true) ∧
      ∀ b, b ≠ ptr.block → SameBlock h h' b := by
  obtain ⟨pool, hpool⟩ := Option.isSome_iff_exists.mp hpool
  let pool' : RsrcPool := { pool with
    xActive := pool.xActive.erase ptr.block
    uiNumInUse := pool.uiNumInUse - 1 }
  by_cases hf : pool.uiFreeOnFree = true
  · refine ⟨((h.setPool rsrc.pxPool pool').setRsrc ptr.block none).setBlock ptr.block none,
      by simp [vRsrcFree, hv, hoff, hr, hpool, hfree, hf, pool', pure, Except.pure], rfl, rfl,
      ?_, fun b hb => ⟨?_, ?_, fun pp hp => isSome_setPool hp⟩⟩
    · simp [Heap.setRsrc, Heap.setBlock]
    · simp [Heap.setRsrc, Heap.setBlock, Heap.setPool, hb]
    · simp [Heap.setRsrc, Heap.setBlock, Heap.setPool, hb]
  · obtain ⟨hnb, hbrk, hlist, hsame⟩ := prvvFreeResTail_spec h rsrc.pxPool pool' ptr.block
    let out := prvvFreeResTail h rsrc.pxPool pool' ptr.block
    refine ⟨out.1.setPool rsrc.pxPool out.2,
      by simp [vRsrcFree, hv, hoff, hr, hpool, hfree, hf, pool', out, pure, Except.pure], hnb,
      hbrk, hlist, fun b hb => ?_⟩
    have hb := hsame b hb
    exact ⟨hb.mem, hb.rsrcs, fun pp hp => isSome_setPool (hb.pools pp hp)⟩

/-- A buffer of a pool is released once. -/
theorem Usable.release (hu : Usable pf h (some .vNetBufFreePool) ptr) :
    ∃ h', vRsrcFree pf h (some ptr) = .ok h' ∧ h'.netbufs = h.netbufs ∧
      h'.brk = h.brk ∧ Released pf h' (some .vNetBufFreePool) ptr ∧
        ∀ b, b ≠ ptr.block → SameBlock h h' b := by
  obtain ⟨hoff, hpool⟩ := hu.pool rfl
  by_cases hv : pf.valgrind = true
  · obtain ⟨h', hcode, hnb, hbrk, hmem, hsame⟩ := vRsMemFree_spec hoff hu.allocated
    exact ⟨h', by simp [vRsrcFree, hv, hcode], hnb, hbrk, by simpa [Released, hv] using hmem,
      hsame⟩
  · have hv := eq_false_of_ne_true hv
    obtain ⟨rsrc, hr, hfreelist, hpp⟩ := hpool hv
    obtain ⟨h', hcode, hnb, hbrk, hlist, hsame⟩ := vRsrcFree_spec hv hoff hr hfreelist hpp
    exact ⟨h', hcode, hnb, hbrk, by simpa [Released, hv] using hlist, hsame⟩

/-- And not twice. -/
theorem Released.not_again (hr : Released pf h (some .vNetBufFreePool) ptr) :
    ∀ h', vRsrcFree pf h (some ptr) ≠ .ok h' := by
  intro h' hf
  by_cases hv : pf.valgrind = true
  · simp only [Released, hv, if_true] at hr
    simp [vRsrcFree, hv, vRsMemFree, hr] at hf
  · simp only [Released, hv, Bool.false_eq_true, if_false] at hr
    simp only [vRsrcFree, hv, Bool.false_eq_true, if_false] at hf
    obtain ⟨rsrc, hrsrc, hf⟩ := Exec.bind_eq_ok.mp hf
    obtain ⟨pool, -, hf⟩ := Exec.bind_eq_ok.mp hf
    rw [inBounds_eq_ok] at hrsrc
    split_ifs at hrsrc
    simp [hr rsrc hrsrc] at hf

/-- What a pool hands out can be used, and has the size of its resources. -/
theorem pxRsrcAlloc_usable {a : ℕ} {pp : PoolPtr} {pool : RsrcPool} {name : Option String}
    (hpool : h.pools pp = some pool)
    (halloc : pxRsrcAlloc pf h (some pp) name = .ok (some a, h')) :
    Usable pf h' (some .vNetBufFreePool) ⟨a, 0⟩ ∧
      ∃ bs, h'.mem a = some bs ∧ bs.length = pool.uxSizeEach := by
  rw [pxRsrcAlloc, hpool, inBounds_some, Exec.ok_bind] at halloc
  cases hv : pf.valgrind with
  | true =>
    cases hcall : h.mallocOk h.calls with
    | false => simp [pxRsrcVarAlloc, hv, pvRsMemAlloc, hcall] at halloc
    | true =>
      simp only [pxRsrcVarAlloc, hv, if_true, pvRsMemAlloc, hcall, Except.ok.injEq,
        Prod.mk.injEq, Option.some.injEq] at halloc
      obtain ⟨rfl, rfl⟩ := halloc
      have hblock : (h.called.setBlock h.brk (some (h.stale h.brk pool.uxSizeEach))).mem h.brk =
          some (h.stale h.brk pool.uxSizeEach) := Heap.setBlock_self _ _ _
      refine ⟨⟨?_, fun hm => ?_, fun _ => ⟨rfl, fun hf => ?_⟩⟩, _, hblock, h.stale_length _ _⟩
      · simp
      · cases hm
      · rw [hv] at hf
        cases hf
  | false =>
    obtain ⟨pool₁, h₁, htake⟩ : ∃ pool₁ h₁,
        takeResource h₁ pp pool₁ name pool.uxSizeEach = .ok (some a, h') := by
      simp only [pxRsrcVarAlloc, hv, Bool.false_eq_true, if_false, hpool, inBounds_some,
        Exec.ok_bind] at halloc
      split_ifs at halloc with hrefused hempty
      · cases halloc
      · obtain ⟨⟨added, h₁, pool₁⟩, -, halloc⟩ := Exec.bind_eq_ok.mp halloc
        simp only at halloc
        split_ifs at halloc
        · cases halloc
        · exact ⟨pool₁, h₁, halloc⟩
      · exact ⟨pool, h, halloc⟩
    cases hfl : pool₁.pxFreelist with
    | nil => simp [takeResource, hfl] at htake
    | cons b rest =>
      simp only [takeResource, hfl, Except.ok.injEq, Prod.mk.injEq, Option.some.injEq] at htake
      obtain ⟨rfl, rfl⟩ := htake
      refine ⟨⟨?_, fun hm => ?_, fun _ => ⟨rfl, fun _ => ?_⟩⟩, _,
        Heap.setBlock_self _ _ _, List.length_replicate⟩
      · simp [Heap.setBlock]
      · cases hm
      · simp [Heap.setBlock, Heap.setRsrc, Heap.setPool]

/-- The release function of a netbuf releases its buffer, if it is to be released. -/
theorem callFreeMethod_spec (hp : h.netbufs p = some nb) (hbuf : nb.pxBufStart = some ptr)
    (hu : Usable pf h nb.freemethod ptr) :
    ∃ h', callFreeMethod pf h p nb = .ok h' ∧ (h'.netbufs p).isSome ∧
      (∀ q, q ≠ p → h'.netbufs q = h.netbufs q) ∧ h'.brk = h.brk ∧
      Released pf h' nb.freemethod ptr ∧ ∀ b, b ≠ ptr.block → SameBlock h h' b := by
  have hsome : (h.netbufs p).isSome := Option.isSome_iff_exists.mpr ⟨nb, hp⟩
  rcases hm : nb.freemethod with _ | m
  · exact ⟨h, by rw [callFreeMethod, hm], hsome, fun _ _ => rfl, rfl, hu.allocated,
      fun b _ => .refl h b⟩
  · cases m with
    | vNetBufFreeButDont =>
      exact ⟨h, by rw [callFreeMethod, hm], hsome, fun _ _ => rfl, rfl, hu.allocated,
        fun b _ => .refl h b⟩
    | vNetBufFreeNormal =>
      obtain ⟨h', hcode, hnb, hbrk, hmem, hsame⟩ := vRsMemFree_spec (hu.normal hm) hu.allocated
      refine ⟨h'.setNetbuf p (some { nb with pxBufStart := none }), ?_, by simp, fun q hq => ?_,
        hbrk, hmem, fun b hb => (hsame b hb).setNetbuf p _⟩
      · simp [callFreeMethod, hm, hbuf, hcode, pure, Except.pure]
      · rw [Heap.setNetbuf_of_ne _ _ hq, hnb]
    | vNetBufFreePool =>
      rw [hm] at hu
      obtain ⟨h', hcode, hnb, hbrk, hrel, hsame⟩ := hu.release
      refine ⟨h'.setNetbuf p (some { nb with pxBufStart := none }), ?_, by simp, fun q hq => ?_,
        hbrk, hrel, fun b hb => (hsame b hb).setNetbuf p _⟩
      · simp [callFreeMethod, hm, hbuf, hcode, pure, Except.pure]
      · rw [Heap.setNetbuf_of_ne _ _ hq, hnb]

/-! ### Freeing -/

/-- The start of the buffer which a netbuf holds. -/
def Heap.held (h : Heap) (q : NbPtr) : Option Ptr := (h.netbufs q).bind (·.pxBufStart)

theorem Heap.held_of_some (hp : h.netbufs p = some nb) : h.held p = nb.pxBufStart := by
  rw [Heap.held, hp, Option.bind_some]

theorem Heap.held_eq_some : h.held p = some ptr ↔
    ∃ nb, h.netbufs p = some nb ∧ nb.pxBufStart = some ptr := Option.bind_eq_some_iff

/-- A round of the last loop releases a netbuf with the buffer it holds. -/
theorem freeChain_cons (hp : h.netbufs p = some nb)
    (hu : ∀ b, nb.pxBufStart = some b → Usable pf h nb.freemethod b) :
    ∃ h', (∀ ps, freeChain pf h (p :: ps) = freeChain pf h' ps) ∧ h'.netbufs p = none ∧
      (∀ q, q ≠ p → h'.netbufs q = h.netbufs q) ∧ h'.brk = h.brk ∧
      (∀ b, nb.pxBufStart = some b → Released pf h' nb.freemethod b) ∧
      ∀ b, (∀ b', nb.pxBufStart = some b' → b'.block ≠ b) → SameBlock h h' b := by
  cases hb : nb.pxBufStart with
  | none =>
    refine ⟨h.setNetbuf p none, fun ps => ?_, by simp, fun q hq => Heap.setNetbuf_of_ne h none hq,
      rfl, by simp, fun b _ => (SameBlock.refl h b).setNetbuf p none⟩
    simp [freeChain, hp, hb, vRsMemFreeNetbuf]
  | some ptr =>
    obtain ⟨h₁, hcode, hsome, hother, hbrk, hrel, hsame⟩ :=
      callFreeMethod_spec hp hb (hu ptr hb)
    refine ⟨h₁.setNetbuf p none, fun ps => ?_, by simp, fun q hq => ?_, hbrk, fun b hb' => ?_,
      fun b hne => (hsame b (hne ptr rfl).symm).setNetbuf p none⟩
    · simp [freeChain, hp, hb, hcode, vRsMemFreeNetbuf, hsome]
    · rw [Heap.setNetbuf_of_ne _ _ hq, hother q hq]
    · cases hb'
      exact hrel.congr ((SameBlock.refl h₁ ptr.block).setNetbuf p none)

variable (pf) in
/-- The last loop releases every netbuf of the list and every buffer they hold, once. -/
theorem freeChain_spec (hnodup : l.Nodup) (hall : ∀ q ∈ l, ∃ nb, h.netbufs q = some nb)
    (hblocks : ∀ q ∈ l, ∀ q' ∈ l, ∀ b b', h.held q = some b → h.held q' = some b' →
      b.block = b'.block → q = q')
    (husable : ∀ q ∈ l, ∀ nb b, h.netbufs q = some nb → nb.pxBufStart = some b →
      Usable pf h nb.freemethod b) :
    ∃ h', freeChain pf h l = .ok h' ∧ (∀ q ∈ l, h'.netbufs q = none) ∧
      (∀ q, q ∉ l → h'.netbufs q = h.netbufs q) ∧ h'.brk = h.brk ∧
      (∀ q ∈ l, ∀ nb b, h.netbufs q = some nb → nb.pxBufStart = some b →
        Released pf h' nb.freemethod b) ∧
      ∀ b, (∀ q ∈ l, ∀ b', h.held q = some b' → b'.block ≠ b) → SameBlock h h' b := by
  induction l generalizing h with
  | nil => exact ⟨h, rfl, by simp, fun _ _ => rfl, rfl, by simp, fun b _ => .refl h b⟩
  | cons p ps ih =>
    obtain ⟨nb, hp⟩ := hall p List.mem_cons_self
    obtain ⟨hpout, hps⟩ := List.nodup_cons.mp hnodup
    obtain ⟨h₂, hround, hgone, hother, hbrk, hrel, hsame⟩ :=
      freeChain_cons hp fun b hb => husable p List.mem_cons_self nb b hp hb
    have hkept : ∀ q ∈ ps, h₂.netbufs q = h.netbufs q := fun q hq =>
      hother q fun heq => hpout (heq ▸ hq)
    have hheld : ∀ q ∈ ps, h₂.held q = h.held q := fun q hq => by
      rw [Heap.held, hkept q hq, Heap.held]
    -- Nobody behind it holds the same block.
    have halone : ∀ q ∈ ps, ∀ b, h.held q = some b → ∀ b', nb.pxBufStart = some b' →
        b'.block ≠ b.block := by
      intro q hq b hb b' hb' heq
      have hsame' := hblocks p List.mem_cons_self q (List.mem_cons_of_mem p hq) b' b
        ((Heap.held_of_some hp).trans hb') hb heq
      exact hpout (hsame' ▸ hq)
    obtain ⟨h', hrest, hnone, hout, hbrk', hrel', hsame'⟩ := ih (h := h₂) hps
      (fun q hq => by
        rw [hkept q hq]
        exact hall q (List.mem_cons_of_mem p hq))
      (fun q hq q' hq' b b' hb hb' => by
        rw [hheld q hq] at hb
        rw [hheld q' hq'] at hb'
        exact hblocks q (List.mem_cons_of_mem p hq) q' (List.mem_cons_of_mem p hq') b b' hb hb')
      (fun q hq nb' b hq' hb => by
        rw [hkept q hq] at hq'
        have hqb : h.held q = some b := (Heap.held_of_some hq').trans hb
        exact (husable q (List.mem_cons_of_mem p hq) nb' b hq' hb).congr
          (hsame b.block (halone q hq b hqb)))
    refine ⟨h', (hround ps).trans hrest, ?_, fun q hq => ?_, hbrk'.trans hbrk, ?_, fun b hb => ?_⟩
    · intro q hq
      rcases List.mem_cons.mp hq with rfl | hq
      · exact (hout q hpout).trans hgone
      · exact hnone q hq
    · obtain ⟨hqp, hqps⟩ := not_or.mp (mt List.mem_cons.mpr hq)
      rw [hout q hqps, hother q hqp]
    · intro q hq nb' b hq' hb
      rcases List.mem_cons.mp hq with rfl | hq
      · rw [hp] at hq'
        cases hq'
        refine (hrel b hb).congr (hsame' b.block fun r hr b' hb' => ?_)
        rw [hheld r hr] at hb'
        exact (halone r hr b' hb' b hb).symm
      · exact hrel' q hq nb' b ((hkept q hq).trans hq') hb
    · refine SameBlock.trans (hsame b fun b' hb' => ?_) (hsame' b fun q hq b' hb' => ?_)
      · exact hb p List.mem_cons_self b' ((Heap.held_of_some hp).trans hb')
      · rw [hheld q hq] at hb'
        exact hb q (List.mem_cons_of_mem p hq) b' hb'

/-- A netbuf which was freed, with what it keeps of its buffer. -/
def Netbuf.left (nb : Netbuf) (kept : Option Ptr) : Netbuf :=
  { nb with xFreed := true, unSz := 0, pxBuf := none, pxBufStart := kept }

theorem two_le_countP {P : NbPtr → Bool} (hnodup : l.Nodup) (hpl : p ∈ l) (hp : P p = true) :
    2 ≤ l.countP P ↔ ∃ q ∈ l, q ≠ p ∧ P q = true := by
  have hpos : 2 ≤ (l.erase p).countP P + 1 ↔ 0 < (l.erase p).countP P := by omega
  rw [(List.perm_cons_erase hpl).countP_eq, List.countP_cons_of_pos hp, hpos, List.countP_pos_iff]
  simp only [hnodup.mem_erase_iff, and_assoc, and_left_comm]

variable (pf) in
/-- Freeing a netbuf of a chain. It hands its buffer over to another one which shares it, or
keeps it, and the last one to be freed takes the chain with it. -/
theorem vNetBufFree_spec (hf : h.Fresh) (hp : h.netbufs p = some nb)
    (hstart : nb.pxBufStart = some ptr) (hl : NbLinks h (some nb.pxFirst) l none)
    (hnodup : l.Nodup) (hpl : p ∈ l) :
    ∃ kept fully, Kept (fun q => if q ∈ l then h.held q else none) p ptr kept ∧
      (fully = true ↔ ∀ q ∈ l, q ≠ p → ∀ nb', h.netbufs q = some nb' → nb'.xFreed = true) ∧
      vNetBufFree pf h p = if fully then freeChain pf (h.setNetbuf p (some (nb.left kept))) l
        else .ok (h.setNetbuf p (some (nb.left kept))) := by
  obtain ⟨h₁, hh₁⟩ : ∃ h₁, h₁ = h.setNetbuf p (some (nb.left (some ptr))) := ⟨_, rfl⟩
  have hsame : ∀ q, q ≠ p → h₁.netbufs q = h.netbufs q := fun q hq => by
    rw [hh₁, Heap.setNetbuf_of_ne h _ hq]
  have hself : h₁.netbufs p = some (nb.left (some ptr)) := by rw [hh₁, Heap.setNetbuf_self]
  have hl₁ : NbLinks h₁ (some nb.pxFirst) l none := hl.congr fun q _ => by
    by_cases hqp : q = p
    · subst hqp
      rw [hself, hp]
      rfl
    · rw [hsame q hqp]
  have hchain : chainFrom h₁ h₁.brk (some nb.pxFirst) = .ok l := by
    rw [hh₁] at hl₁ ⊢
    exact hl₁.chainFrom (hf.length_le hl hnodup)
  let holds : NbPtr → Bool := fun q => (h₁.netbufs q).map (·.pxBufStart) = some (some ptr)
  let fully : Bool := l.all fun q => (h₁.netbufs q).any (·.xFreed)
  have hcount : countBuffer h₁ nb.pxBufStart l = .ok (l.countP holds) := by
    rw [hstart]
    exact countBuffer_eq hl₁.netbuf
  have hfreed : allFreed h₁ l = .ok fully := allFreed_eq hl₁.netbuf
  have hpholds : holds p = true := by simp [holds, hself, Netbuf.left]
  have hshared : 2 ≤ l.countP holds ↔ ∃ q ∈ l, q ≠ p ∧ h.held q = some ptr := by
    rw [two_le_countP hnodup hpl hpholds]
    refine exists_congr fun q => and_congr_right fun _ => and_congr_right fun hqp => ?_
    simp [holds, hsame q hqp, Heap.held_eq_some]
  have hone : l.countP holds ≠ 0 := fun h0 => List.countP_eq_zero.mp h0 p hpl hpholds
  have hfully : fully = true ↔
      ∀ q ∈ l, q ≠ p → ∀ nb', h.netbufs q = some nb' → nb'.xFreed = true := by
    simp only [fully, List.all_eq_true]
    refine forall₂_congr fun q hq => ?_
    by_cases hqp : q = p
    · subst hqp
      simp [hself, Netbuf.left]
    · obtain ⟨nb', hq'⟩ := hl.netbuf q hq
      simp [hsame q hqp, hqp, hq']
  have hmark : ({ nb with xFreed := true, unSz := 0, pxBuf := none } : Netbuf) =
      nb.left (some ptr) := by rw [Netbuf.left, ← hstart]
  have hcode := vNetBufFree.eq_1 pf h p
  simp only [Heap.netbuf_of_some hp, Exec.ok_bind, hmark, ← hh₁, hchain, hcount, hfreed] at hcode
  by_cases h2 : 2 ≤ l.countP holds
  · obtain ⟨q, hq, hqp, hheld⟩ := hshared.mp h2
    have htwice : h₁.setNetbuf p (some (nb.left none)) = h.setNetbuf p (some (nb.left none)) := by
      simp [hh₁, Heap.setNetbuf]
    refine ⟨none, fully, ⟨q, hqp, (if_pos hq).trans hheld⟩, hfully, ?_⟩
    rw [hcode, if_pos h2, ← htwice]
    rfl
  · refine ⟨some ptr, fully, ⟨rfl, fun q hqp hheld => ?_⟩, hfully, ?_⟩
    · by_cases hq : q ∈ l
      · exact h2 (hshared.mpr ⟨q, hq, hqp, (if_pos hq).symm.trans hheld⟩)
      · cases (if_neg hq).symm.trans hheld
    · rw [hcode, if_neg h2, if_neg hone, hh₁]
      rfl

end RinaSense.Common
