import RinaSense.Common.Cutting

/-!
# Appending chains

`vNetBufAppend` on two chains, each given by any of its netbufs. The new first netbuf is written
from the right netbuf on, so that a netbuf in use in front of that one keeps the old one.
-/

namespace RinaSense.Common

open Library.Memory

variable {pf : Platform} {h h' : Heap} {c c' p q r last : NbPtr} {left right : Netbuf}
  {l l' l₁ l₂ : List NbPtr}

/-- The netbufs from `c` on, which those in use have as their first netbuf. A freed one may have
kept another one when its chain was appended. -/
structure NbChain (h : Heap) (c : NbPtr) (l : List NbPtr) : Prop where
  fresh : h.Fresh
  links : NbLinks h (some c) l none
  first : ∀ q ∈ l, ∀ nb, h.netbufs q = some nb → nb.xFreed = false → nb.pxFirst = c

/-- One chain of the netbufs of two, with the content of one behind that of the other. -/
structure Merged (h h' : Heap) (c : NbPtr) (l l' : List NbPtr) : Prop where
  chain : NbChain h' c (l ++ l')
  content : chainContent h' (l ++ l') =
    Option.map₂ (· ++ ·) (chainContent h l) (chainContent h l')

theorem NbChain.head_mem (hc : NbChain h c l) (hl : l ≠ []) : c ∈ l := by
  cases l with
  | nil => exact absurd rfl hl
  | cons p ps =>
    obtain ⟨hstart, -⟩ := hc.links
    cases hstart
    exact List.mem_cons_self

theorem Netbuf.relink_of_freed {nb : Netbuf} (hfreed : nb.xFreed = true) : nb.relink c = nb :=
  if_pos hfreed

namespace Appended

variable (ha : Appended h h' c last c' l₂)

include ha

/-- Freed netbufs in front of those which were written count as written. -/
theorem front (hdead : ∀ q ∈ l₁, ¬ h.InUse q) (hne : ∀ q ∈ l₁, q ∉ l₂ ∧ q ≠ last) :
    Appended h h' c last c' (l₁ ++ l₂) where
  right q hq := by
    by_cases hq₂ : q ∈ l₂
    · exact ha.right q hq₂
    · have hq₁ := (List.mem_append.mp hq).resolve_right hq₂
      rw [ha.other q hq₂ (hne q hq₁).2]
      cases hnb : h.netbufs q with
      | none => rfl
      | some nb =>
        have hfreed : nb.xFreed = true := by
          by_contra hlive
          exact hdead q hq₁ ⟨nb, hnb, eq_false_of_ne_true hlive⟩
        rw [Option.map_some, Netbuf.relink_of_freed hfreed]
  hung := ha.hung
  other q hq hqlast := ha.other q (fun hmem => hq (List.mem_append_right l₁ hmem)) hqlast
  rest := ha.rest

/-- What the call writes is no part of the content. -/
theorem content (q : NbPtr) : h'.content q = h.content q := by
  refine Heap.content_congr (by rw [ha.rest]) ?_
  by_cases hq : q ∈ l₂
  · rw [ha.right q hq, Option.map_map]
    cases h.netbufs q with
    | none => rfl
    | some nb =>
      simp only [Option.map_some, Function.comp_apply, Netbuf.relink]
      split <;> rfl
  · by_cases hqlast : q = last
    · rw [hqlast, ha.hung, Option.map_map]
      rfl
    · rw [ha.other q hq hqlast]

end Appended

/-- When every netbuf in use of the second chain is written, the chains become one. -/
theorem NbChain.merged (hc : NbChain h c (l ++ [last])) (hc' : NbChain h c' l')
    (hdisj : ∀ q ∈ l', q ∉ l ++ [last]) (ha : Appended h h' c last c' l') :
    Merged h h' c (l ++ [last]) l' where
  chain := {
    fresh := ha.fresh hc.fresh
    links := ha.links hc.links hc.links.nodup hc'.links hdisj
    first := fun q hq nb' hnb' hlive => by
      by_cases hq' : q ∈ l'
      · obtain ⟨nb, hnb⟩ := hc'.links.netbuf q hq'
        rw [ha.right q hq', hnb, Option.map_some, Option.some.injEq] at hnb'
        subst hnb'
        unfold Netbuf.relink at hlive ⊢
        split at hlive
        · rename_i hfreed
          rw [hfreed] at hlive
          cases hlive
        · rename_i hfreed
          rw [if_neg hfreed]
      · have hql := (List.mem_append.mp hq).resolve_right hq'
        by_cases hqlast : q = last
        · subst hqlast
          obtain ⟨nb, hnb⟩ := hc.links.netbuf q hql
          rw [ha.hung, hnb, Option.map_some, Option.some.injEq] at hnb'
          subst hnb'
          exact hc.first q hql nb hnb hlive
        · rw [ha.other q hq' hqlast] at hnb'
          exact hc.first q hql nb' hnb' hlive }
  content := by
    rw [chainContent_append, chainContent_congr fun q _ => ha.content q,
      chainContent_congr fun q _ => ha.content q]

/-- Whichever netbufs stand for the two chains, they become one chain if and only if no netbuf in
use stands in front of the right one. -/
theorem append_merged_iff (hc : NbChain h c l) (hc' : NbChain h c' l')
    (hdisj : ∀ q ∈ l', q ∉ l) (hpl : p ∈ l) (hp : h.netbufs p = some left)
    (hleft : left.pxFirst = c) (hassert : rsAssert pf (!left.xFreed) = .ok ()) (hrl : r ∈ l')
    (hr : h.netbufs r = some right) (hright : right.pxFirst = c') :
    (∃ h', vNetBufAppend pf h p r = .ok h' ∧ Merged h h' c l l') ↔
      ∀ l₁ l₂, l' = l₁ ++ r :: l₂ → ∀ q ∈ l₁, ¬ h.InUse q := by
  obtain ⟨l, last, rfl⟩ : ∃ pre last, l = pre ++ [last] := by
    rcases List.eq_nil_or_concat l with rfl | ⟨pre, last, rfl⟩
    · cases hpl
    · exact ⟨pre, last, List.concat_eq_append⟩
  have hrun : ∀ l₁ l₂, l' = l₁ ++ r :: l₂ →
      ∃ h', vNetBufAppend pf h p r = .ok h' ∧ Appended h h' c last c' (r :: l₂) := by
    rintro l₁ l₂ rfl
    obtain ⟨mid, -, hback⟩ := links_append.mp hc'.links
    obtain ⟨rfl, -⟩ := id hback
    rw [← hright, ← hleft]
    exact vNetBufAppend_from pf hc.fresh hp hassert (hleft.symm ▸ hc.links) hr hback
      fun q hq => hdisj q (List.mem_append_right l₁ hq)
  constructor
  · rintro ⟨h', hcode, hm⟩ l₁ l₂ hsplit q hq ⟨nb, hnb, hlive⟩
    obtain ⟨h'', hcode', ha⟩ := hrun l₁ l₂ hsplit
    rw [hcode, Except.ok.injEq] at hcode'
    subst hcode' hsplit
    have hql : q ∈ l₁ ++ r :: l₂ := List.mem_append_left _ hq
    have hout : q ∉ r :: l₂ := fun hmem =>
      (List.nodup_append.mp hc'.links.nodup).2.2 q hq q hmem rfl
    have hqlast : q ≠ last := by
      rintro rfl
      exact hdisj q hql (by simp)
    -- The netbuf was not written, so that the first netbufs of both chains would be the same.
    have hnew := hm.chain.first q (List.mem_append_right _ hql) nb
      ((ha.other q hout hqlast).trans hnb) hlive
    have hold := hc'.first q hql nb hnb hlive
    rw [hold] at hnew
    exact hdisj c' (hc'.head_mem (List.ne_nil_of_mem hrl)) (hnew ▸ hc.head_mem (by simp))
  · intro hdead
    obtain ⟨l₁, l₂, rfl⟩ := List.append_of_mem hrl
    obtain ⟨h', hcode, ha⟩ := hrun l₁ l₂ rfl
    have hne : ∀ q ∈ l₁, q ∉ r :: l₂ ∧ q ≠ last := fun q hq =>
      ⟨fun hmem => (List.nodup_append.mp hc'.links.nodup).2.2 q hq q hmem rfl, by
        rintro rfl
        exact hdisj q (List.mem_append_left _ hq) (by simp)⟩
    exact ⟨h', hcode, hc.merged hc' hdisj (ha.front (hdead l₁ l₂ rfl) hne)⟩

/-- One netbuf by itself and a chain of two others. -/
def twoChains : Heap where
  mem := fun a => if a < 2 then some [1, 2, 3, 4] else none
  netbufs := fun p => match p with
    | 2 => some ⟨none, 2, .NB_RINA_PCI, 4, some ⟨0, 0⟩, some ⟨0, 0⟩, false, none, none⟩
    | 3 => some ⟨some 4, 3, .NB_RINA_DATA, 1, some ⟨1, 0⟩, some ⟨1, 0⟩, false, none, none⟩
    | 4 => some ⟨none, 3, .NB_RINA_DATA, 3, some ⟨1, 1⟩, some ⟨1, 0⟩, false, none, none⟩
    | _ => none
  rsrcs := fun _ => none
  pools := fun _ => none
  brk := 5
  calls := 0
  mallocOk := fun _ => true
  junk := fun _ _ => 0

theorem twoChains_fresh : twoChains.Fresh := fun a ha => by
  obtain ⟨k, rfl⟩ := Nat.exists_eq_add_of_le ha
  refine ⟨?_, if_neg (Nat.not_lt.mpr (Nat.le_trans (by decide) ha))⟩
  rw [Nat.add_comm]
  rfl

theorem twoChains_left : NbChain twoChains 2 [2] where
  fresh := twoChains_fresh
  links := ⟨rfl, _, rfl, rfl⟩
  first q hq nb hnb _ := by
    obtain rfl := List.mem_singleton.mp hq
    cases hnb
    rfl

theorem twoChains_right : NbChain twoChains 3 [3, 4] where
  fresh := twoChains_fresh
  links := ⟨rfl, _, rfl, rfl, _, rfl, rfl⟩
  first q hq nb hnb _ := by
    have hcases : q = 3 ∨ q = 4 := by simpa using hq
    rcases hcases with rfl | rfl
    all_goals
      cases hnb
      rfl

/-- With the last netbuf of the right chain given, the one in front of it keeps its first
netbuf. -/
theorem append_stale : ¬ ∃ h', vNetBufAppend ⟨false, false⟩ twoChains 2 4 = .ok h' ∧
    Merged twoChains h' 2 [2] [3, 4] := by
  rintro ⟨h', hcode, hm⟩
  have hthere : h'.netbufs 3 = twoChains.netbufs 3 := by
    cases hcode
    rfl
  have hfirst := hm.chain.first 3 (by decide) _ hthere rfl
  exact absurd hfirst (by decide)

theorem append_head : ∃ h', vNetBufAppend ⟨false, false⟩ twoChains 2 3 = .ok h' ∧
    Merged twoChains h' 2 [2] [3, 4] := by
  refine (append_merged_iff twoChains_left twoChains_right (by decide) (by decide) rfl rfl rfl
    (by decide) rfl rfl).mpr fun l₁ l₂ hsplit => ?_
  cases l₁ with
  | nil => simp
  | cons q l₁ =>
    obtain ⟨rfl, hrest⟩ := List.cons.inj hsplit
    exact absurd (hrest ▸ List.mem_append_right l₁ List.mem_cons_self : 3 ∈ [4]) (by decide)

end RinaSense.Common
