import Mathlib.Data.Option.NAry
import RinaSense.Common.Reading
import RinaSense.Common.Release

/-!
# Cutting a chain

`xNetBufSplit` on any chain. A cut puts one netbuf behind the one which holds the offset, and the
two of them show the bytes which the old one showed.
-/

namespace RinaSense.Common

open Library.Memory

variable {h h' : Heap} {p q : NbPtr} {nb : Netbuf} {start : Option NbPtr} {l l' l₁ l₂ : List NbPtr}
  {eType : NetBufType} {n : ℕ}

/-- Between two netbufs of the list, or at an end of it, `n` bytes have passed. -/
def CutAt (h : Heap) (l : List NbPtr) (n : ℕ) : Prop :=
  ∃ l₁ l₂, l = l₁ ++ l₂ ∧ sizeSum h l₁ = .ok n

/-! ### Sizes and contents of lists -/

theorem sizeSum_cons (hp : h.netbufs p = some nb) (hl : sizeSum h l = .ok n) :
    sizeSum h (p :: l) = .ok ((if nb.xFreed then 0 else nb.unSz) + n) := by
  rw [sizeSum, Heap.netbuf_of_some hp, Exec.ok_bind, hl]
  rfl

theorem sizeSum_append {m : ℕ} (hl₁ : sizeSum h l₁ = .ok m) (hl₂ : sizeSum h l₂ = .ok n) :
    sizeSum h (l₁ ++ l₂) = .ok (m + n) := by
  induction l₁ generalizing m with
  | nil =>
    cases hl₁
    rw [List.nil_append, hl₂, Nat.zero_add]
  | cons p ps ih =>
    obtain ⟨nb, hp, hl₁⟩ := Exec.bind_eq_ok.mp hl₁
    obtain ⟨rest, hrest, hm⟩ := Exec.bind_eq_ok.mp hl₁
    cases hm
    rw [List.cons_append, sizeSum_cons (inBounds_eq_ok.mp hp) (ih hrest), Nat.add_assoc]

/-- The front of a list is not larger than the list. -/
theorem sizeSum_front {m total : ℕ} (hl₁ : sizeSum h l₁ = .ok m)
    (htotal : sizeSum h (l₁ ++ l₂) = .ok total) :
    ∃ rest, sizeSum h l₂ = .ok rest ∧ total = m + rest := by
  induction l₁ generalizing m total with
  | nil =>
    cases hl₁
    exact ⟨total, htotal, (Nat.zero_add total).symm⟩
  | cons p ps ih =>
    obtain ⟨nb, hp, hl₁⟩ := Exec.bind_eq_ok.mp hl₁
    obtain ⟨front, hfront, hm⟩ := Exec.bind_eq_ok.mp hl₁
    cases hm
    obtain ⟨nb', hp', htotal⟩ := Exec.bind_eq_ok.mp htotal
    obtain ⟨whole, hwhole, hm⟩ := Exec.bind_eq_ok.mp htotal
    cases hm
    obtain ⟨rest, hrest, rfl⟩ := ih hfront hwhole
    rw [hp, Except.ok.injEq] at hp'
    exact ⟨rest, hrest, by rw [← hp', Nat.add_assoc]⟩

/-- A list of netbufs which were freed has no bytes. -/
theorem sizeSum_dead (hdead : ∀ q ∈ l, ¬ h.InUse q) (hl : sizeSum h l = .ok n) : n = 0 := by
  induction l generalizing n with
  | nil =>
    cases hl
    rfl
  | cons p ps ih =>
    obtain ⟨nb, hp, hl⟩ := Exec.bind_eq_ok.mp hl
    obtain ⟨rest, hrest, hn⟩ := Exec.bind_eq_ok.mp hl
    have hfreed : nb.xFreed = true := by
      by_contra hlive
      exact hdead p List.mem_cons_self ⟨nb, inBounds_eq_ok.mp hp, eq_false_of_ne_true hlive⟩
    rw [hfreed, ih (fun q hq => hdead q (List.mem_cons_of_mem p hq)) hrest] at hn
    exact (Except.ok.inj hn).symm

theorem chainContent_eq_map₂ (h : Heap) (p : NbPtr) (ps : List NbPtr) :
    chainContent h (p :: ps) = Option.map₂ (· ++ ·) (h.content p) (chainContent h ps) := by
  rw [chainContent]
  cases h.content p with
  | none => rfl
  | some xs => cases chainContent h ps <;> rfl

theorem chainContent_append (h : Heap) (l l' : List NbPtr) :
    chainContent h (l ++ l') = Option.map₂ (· ++ ·) (chainContent h l) (chainContent h l') := by
  induction l with
  | nil =>
    rw [List.nil_append, chainContent]
    cases chainContent h l' <;> rfl
  | cons p ps ih =>
    rw [List.cons_append, chainContent_eq_map₂, ih, chainContent_eq_map₂]
    exact (Option.map₂_assoc fun xs ys zs => List.append_assoc xs ys zs).symm

/-- The content of a netbuf which has neither moved nor changed its size. -/
theorem Heap.content_congr (hmem : h'.mem = h.mem)
    (hsame : (h'.netbufs p).map (fun nb => (nb.xFreed, nb.unSz, nb.pxBuf)) =
      (h.netbufs p).map fun nb => (nb.xFreed, nb.unSz, nb.pxBuf)) :
    h'.content p = h.content p := by
  cases hp : h.netbufs p with
  | none =>
    rw [hp, Option.map_none, Option.map_eq_none_iff] at hsame
    rw [Heap.content, Heap.content, hp, hsame]
    rfl
  | some nb =>
    rw [hp, Option.map_some, Option.map_eq_some_iff] at hsame
    obtain ⟨nb', hp', heq⟩ := hsame
    simp only [Prod.mk.injEq] at heq
    simp only [Heap.content, hp, hp', hmem, Option.bind_eq_bind, Option.bind_some, heq.1, heq.2.1,
      heq.2.2]

theorem chainContent_congr (hsame : ∀ q ∈ l, h'.content q = h.content q) :
    chainContent h' l = chainContent h l := by
  induction l with
  | nil => rfl
  | cons p ps ih =>
    rw [chainContent_eq_map₂, chainContent_eq_map₂, hsame p List.mem_cons_self,
      ih fun q hq => hsame q (List.mem_cons_of_mem p hq)]

/-! ### How the loop ends -/

/-- How the loop ends on the netbufs of a list. -/
inductive SplitEnds (eType : NetBufType) (h : Heap) (l : List NbPtr) (n : ℕ) : Bool → Heap → Prop
  /-- A netbuf ends at the offset. -/
  | already {l₁ l₂ : List NbPtr} (hl : l = l₁ ++ l₂) (hsum : sizeSum h l₁ = .ok n) :
    SplitEnds eType h l n true h
  | cut {l₁ l₂ : List NbPtr} {p : NbPtr} {nb : Netbuf} {m k : ℕ} (hl : l = l₁ ++ p :: l₂)
    (hp : h.netbufs p = some nb) (hlive : nb.xFreed = false) (hsum : sizeSum h l₁ = .ok m)
    (hn : m + k = n) (hk : k < nb.unSz) (hmem : h.mallocOk h.calls = true) :
    SplitEnds eType h l n true (splitHeap h p nb eType k)
  | refused (hmem : h.mallocOk h.calls = false) : SplitEnds eType h l n false h.called
  /-- The chain is too short, or all of it was freed. -/
  | short {m : ℕ} (hsum : sizeSum h l = .ok m) (hm : m < n ∨ ∀ q ∈ l, ¬ h.InUse q) :
    SplitEnds eType h l n false h

theorem SplitEnds.cons {ok : Bool} (hp : h.netbufs p = some nb)
    (hskip : nb.xFreed = true ∨ n ≠ 0) (hs : SplitEnds eType h l n ok h') :
    SplitEnds eType h (p :: l) ((if nb.xFreed then 0 else nb.unSz) + n) ok h' := by
  cases hs with
  | already hl hsum => exact .already (congrArg (p :: ·) hl) (sizeSum_cons hp hsum)
  | cut hl hq hlive hsum hn hk hmem =>
    refine .cut (congrArg (p :: ·) hl) hq hlive (sizeSum_cons hp hsum) ?_ hk hmem
    rw [Nat.add_assoc, hn]
  | refused hmem => exact .refused hmem
  | short hsum hm =>
    refine .short (sizeSum_cons hp hsum) ?_
    rcases hskip with hfreed | hn
    · refine hm.imp (Nat.add_lt_add_left · _) fun hdead q hq => ?_
      rcases List.mem_cons.mp hq with rfl | hq
      · rintro ⟨nb', hq', hlive⟩
        rw [hp, Option.some.injEq] at hq'
        rw [← hq', hfreed] at hlive
        cases hlive
      · exact hdead q hq
    · refine .inl (Nat.add_lt_add_left ?_ _)
      rcases hm with hm | hdead
      · exact hm
      · rw [sizeSum_dead hdead hsum]
        exact Nat.pos_of_ne_zero hn

theorem splitLoop_splitEnds (eType : NetBufType) (hl : NbLinks h start l none) {fuel : ℕ}
    (hfuel : l.length ≤ fuel) (n : ℕ) :
    ∃ ok h', splitLoop eType h fuel start n = .ok (ok, h') ∧ SplitEnds eType h l n ok h' := by
  induction l generalizing start fuel n with
  | nil =>
    cases hl
    refine ⟨false, h, ?_, .short rfl (.inr (by simp))⟩
    cases fuel <;> rfl
  | cons p ps ih =>
    obtain ⟨rfl, nb, hp, hrest⟩ := hl
    obtain ⟨fuel, rfl⟩ := Nat.exists_eq_succ_of_ne_zero (Nat.ne_of_gt (Nat.lt_of_lt_of_le
      (Nat.succ_pos ps.length) hfuel))
    have hlater := fun n' => ih hrest (Nat.le_of_succ_le_succ hfuel) n'
    simp only [splitLoop, Heap.netbuf_of_some hp, Exec.ok_bind]
    by_cases hfreed : nb.xFreed = true
    · obtain ⟨ok, h', hrun, hends⟩ := hlater n
      have hcons := hends.cons hp (.inl hfreed)
      rw [if_pos hfreed, Nat.zero_add] at hcons
      rw [if_pos hfreed]
      exact ⟨ok, h', hrun, hcons⟩
    · have hlive := eq_false_of_ne_true hfreed
      rw [if_neg hfreed]
      rcases Nat.lt_trichotomy nb.unSz n with hshort | hcut | hlong
      · obtain ⟨ok, h', hrun, hends⟩ := hlater (n - nb.unSz)
        have hcons := hends.cons hp (.inr (Nat.sub_ne_zero_of_lt hshort))
        rw [if_neg hfreed, Nat.add_sub_cancel' (Nat.le_of_lt hshort)] at hcons
        rw [if_pos hshort]
        exact ⟨ok, h', hrun, hcons⟩
      · rw [if_neg (Nat.not_lt.mpr (Nat.le_of_eq hcut.symm)), if_pos hcut]
        have hsum := sizeSum_cons hp (l := []) rfl
        rw [if_neg hfreed, Nat.add_zero, hcut] at hsum
        exact ⟨true, h, rfl, .already (show p :: ps = [p] ++ ps from rfl) hsum⟩
      · rw [if_neg (Nat.not_lt.mpr (Nat.le_of_lt hlong)), if_neg (Nat.ne_of_gt hlong),
          pvRsMemAllocNetbuf]
        cases hmem : h.mallocOk h.calls with
        | true =>
          exact ⟨true, splitHeap h p nb eType n, rfl,
            .cut (show p :: ps = [] ++ p :: ps from rfl) hp hlive rfl (Nat.zero_add n) hlong hmem⟩
        | false => exact ⟨false, h.called, rfl, .refused hmem⟩

/-! ### The bytes on both sides of a cut -/

section Cut

variable (eType) {k : ℕ} (hold : p ≠ h.brk) (hp : h.netbufs p = some nb) (hlive : nb.xFreed = false)
  (hk : k < nb.unSz)

include hold hp hlive hk

/-- The two netbufs at a cut show what the old one showed. -/
theorem content_splitHeap : Option.map₂ (· ++ ·) ((splitHeap h p nb eType k).content p)
    ((splitHeap h p nb eType k).content h.brk) = h.content p := by
  have hself : (splitHeap h p nb eType k).netbufs p =
      some { nb with unSz := k, pxNext := some h.brk } := Heap.setNetbuf_self _ _ _
  have hnew : (splitHeap h p nb eType k).netbufs h.brk = some (nb.behind eType k) :=
    splitHeap_new hold
  have hmem : (splitHeap h p nb eType k).mem = h.mem := rfl
  have hsize : nb.unSz = k + (nb.unSz - k) := by omega
  have hrest : nb.unSz - k ≠ 0 := by omega
  have hz : nb.unSz ≠ 0 := by omega
  cases hbuf : nb.pxBuf with
  | none =>
    simp [Heap.content, hself, hnew, hp, hlive, hbuf, hz, hrest, Netbuf.behind]
  | some ptr =>
    have hadd := load_add h.mem ptr k (nb.unSz - k)
    rw [← hsize] at hadd
    by_cases hk0 : k = 0
    · subst hk0
      simp [Heap.content, hself, hnew, hmem, hp, hlive, hbuf, hz, Netbuf.behind, Ptr.add]
    · simp [Heap.content, hself, hnew, hmem, hp, hlive, hbuf, hz, hrest, hk0, Netbuf.behind, hadd,
        Option.map₂]

/-- The cut leaves the content of the chain and stands at the offset. -/
theorem splitHeap_keeps {m : ℕ} (hne₁ : ∀ q ∈ l₁, q ≠ h.brk ∧ q ≠ p)
    (hne₂ : ∀ q ∈ l₂, q ≠ h.brk ∧ q ≠ p) (hsum : sizeSum h l₁ = .ok m) :
    chainContent (splitHeap h p nb eType k) (l₁ ++ p :: h.brk :: l₂) =
        chainContent h (l₁ ++ p :: l₂) ∧
      CutAt (splitHeap h p nb eType k) (l₁ ++ p :: h.brk :: l₂) (m + k) := by
  have hself : (splitHeap h p nb eType k).netbufs p =
      some { nb with unSz := k, pxNext := some h.brk } := Heap.setNetbuf_self _ _ _
  have hsame : ∀ q, q ≠ h.brk ∧ q ≠ p →
      (splitHeap h p nb eType k).netbufs q = h.netbufs q := fun q hq => splitHeap_of_ne hq.1 hq.2
  have hcontent : ∀ l, (∀ q ∈ l, q ≠ h.brk ∧ q ≠ p) →
      chainContent (splitHeap h p nb eType k) l = chainContent h l := fun l hne =>
    chainContent_congr fun q hq => Heap.content_congr rfl (by rw [hsame q (hne q hq)])
  constructor
  · rw [chainContent_append, chainContent_append, chainContent_eq_map₂, chainContent_eq_map₂,
      chainContent_eq_map₂, hcontent l₁ hne₁, hcontent l₂ hne₂,
      ← content_splitHeap eType hold hp hlive hk]
    exact congrArg _ (Option.map₂_assoc fun xs ys zs => List.append_assoc xs ys zs).symm
  · refine ⟨l₁ ++ [p], h.brk :: l₂, by simp, sizeSum_append ?_ ?_⟩
    · rw [sizeSum_congr fun q hq => hsame q (hne₁ q hq), hsum]
    · have hone := sizeSum_cons hself (l := []) rfl
      simpa [hlive] using hone

end Cut

/-! ### The call -/

/-- What a call for a cut after `n` bytes does to the chain `l`. -/
structure SplitKeeps (h h' : Heap) (start : Option NbPtr) (l : List NbPtr) (n : ℕ) (ok : Bool) :
    Prop where
  /-- The chain has at most one netbuf more, the same content, and a cut at the offset. -/
  success : ok = true → ∃ l', NbLinks h' start l' none ∧
    (l' = l ∨ ∃ l₁ q l₂, l = l₁ ++ q :: l₂ ∧ l' = l₁ ++ q :: h.brk :: l₂) ∧
    (∀ q ∉ l', h'.netbufs q = h.netbufs q) ∧
    chainContent h' l' = chainContent h l ∧ CutAt h' l' n
  failure : ok = false → h' = h ∨ h' = h.called
  short : ∀ total, sizeSum h l = .ok total → total < n → ok = false
  refused : h.mallocOk h.calls = false → ok = false ∨ CutAt h l n
  granted : h.mallocOk h.calls = true → (∃ q ∈ l, h.InUse q) →
    ∀ total, sizeSum h l = .ok total → n ≤ total → ok = true

theorem SplitEnds.keeps {ok : Bool} (hs : SplitEnds eType h l n ok h') (hf : h.Fresh)
    (hl : NbLinks h start l none) : SplitKeeps h h' start l n ok := by
  cases hs with
  | already hsplit hsum =>
    have hcut : CutAt h l n := ⟨_, _, hsplit, hsum⟩
    refine ⟨fun _ => ⟨l, hl, .inl rfl, fun _ _ => rfl, rfl, hcut⟩, fun hno => (by cases hno),
      fun total htotal hshort => ?_, fun _ => .inr hcut, fun _ _ _ _ _ => rfl⟩
    obtain ⟨rest, -, rfl⟩ := sizeSum_front hsum (hsplit ▸ htotal)
    omega
  | @cut l₁ l₂ p nb m k hsplit hp hlive hsum hn hk hmem =>
    subst hsplit hn
    have hold : ∀ q ∈ l₁ ++ p :: l₂, q ≠ h.brk := fun q hq => by
      obtain ⟨nb', hq'⟩ := hl.netbuf q hq
      exact Nat.ne_of_lt (hf.lt_of_netbuf hq')
    have hnodup := List.nodup_append.mp hl.nodup
    have hne₁ : ∀ q ∈ l₁, q ≠ h.brk ∧ q ≠ p := fun q hq =>
      ⟨hold q (List.mem_append_left _ hq), hnodup.2.2 q hq p List.mem_cons_self⟩
    have hne₂ : ∀ q ∈ l₂, q ≠ h.brk ∧ q ≠ p := fun q hq =>
      ⟨hold q (List.mem_append_right _ (List.mem_cons_of_mem p hq)),
        fun heq => (List.nodup_cons.mp hnodup.2.1).1 (heq ▸ hq)⟩
    have hpold := hold p (List.mem_append_right _ List.mem_cons_self)
    obtain ⟨hcontent, hcut⟩ := splitHeap_keeps eType hpold hp hlive hk hne₁ hne₂ hsum
    refine ⟨fun _ => ⟨l₁ ++ p :: h.brk :: l₂, links_split hf hl hl.nodup hp,
      .inr ⟨l₁, p, l₂, rfl, rfl⟩, fun q hq => splitHeap_of_ne ?_ ?_, hcontent, hcut⟩,
      fun hno => (by cases hno), fun total htotal hshort => ?_, fun hno => ?_,
      fun _ _ _ _ _ => rfl⟩
    · rintro rfl
      simp at hq
    · rintro rfl
      simp at hq
    · obtain ⟨rest, hrest, rfl⟩ := sizeSum_front hsum htotal
      have hone := sizeSum_cons hp (l := []) rfl
      rw [hlive, if_neg Bool.false_ne_true] at hone
      obtain ⟨behind, -, rfl⟩ := sizeSum_front hone hrest
      omega
    · rw [hmem] at hno
      cases hno
  | refused hmem =>
    refine ⟨fun hok => (by cases hok), fun _ => .inr rfl, fun _ _ _ => rfl, fun _ => .inl rfl,
      fun hgranted => ?_⟩
    rw [hmem] at hgranted
    cases hgranted
  | short hsum hm =>
    refine ⟨fun hok => (by cases hok), fun _ => .inl rfl, fun _ _ _ => rfl, fun _ => .inl rfl,
      fun _ hlive total htotal hle => ?_⟩
    rcases hm with hm | hdead
    · rw [hsum] at htotal
      cases htotal
      omega
    · obtain ⟨q, hq, hin⟩ := hlive
      exact absurd hin (hdead q hq)

/-- For every chain and offset a call returns, and keeps the content or leaves the chain. -/
theorem xNetBufSplit_keeps (eType : NetBufType) (n : ℕ) (hf : h.Fresh)
    (hp : h.netbufs p = some nb) (hl : NbLinks h (some nb.pxFirst) l none) :
    ∃ ok h', xNetBufSplit h p eType n = .ok (ok, h') ∧
      SplitKeeps h h' (some nb.pxFirst) l n ok := by
  obtain ⟨ok, h', hrun, hends⟩ := splitLoop_splitEnds eType hl (hf.length_le hl hl.nodup) n
  refine ⟨ok, h', ?_, hends.keeps hf hl⟩
  rw [xNetBufSplit, Heap.netbuf_of_some hp, Exec.ok_bind, hrun]

theorem gapped_split : ∃ ok h', xNetBufSplit gappedHeap 3 .NB_RINA_PCI 3 = .ok (ok, h') ∧
    SplitKeeps gappedHeap h' (some 1) [1, 2, 3, 4] 3 ok := by
  have hp : gappedHeap.netbufs 3 = some ⟨some 4, 1, .NB_RINA_DATA, 0, some ⟨0, 2⟩, some ⟨0, 0⟩,
    false, none, none⟩ := rfl
  exact xNetBufSplit_keeps .NB_RINA_PCI 3 gappedHeap_fresh hp gappedHeap_links

end RinaSense.Common
