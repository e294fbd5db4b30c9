import RinaSense.Common.Content

/-!
# Reading a chain

What `unNetBufRead` copies out of a chain, which can have empty netbufs and freed ones between
the others. The buffer may lie in the same block as bytes of the chain, but not over them.
-/

namespace RinaSense.Common

open Library.Memory

variable {h : Heap} {p : NbPtr} {nb : Netbuf} {l : List NbPtr} {bs b : Bytes} {dst : Ptr}

/-- A read through any netbuf which knows the first one copies what the offset and the size
select of the content of the chain, counts it and changes nothing else. -/
theorem unNetBufRead_selects {unRdOff unSzBuf : ℕ} (hf : h.Fresh) (hp : h.netbufs p = some nb)
    (hl : NbLinks h (some nb.pxFirst) l none) (hc : chainContent h l = some bs)
    (hb : h.mem dst.block = some b)
    (hroom : dst.off + ((bs.drop unRdOff).take unSzBuf).length ≤ b.length)
    (hcl : Clear h dst ((bs.drop unRdOff).take unSzBuf).length l) :
    unNetBufRead h p (some dst) unRdOff unSzBuf =
      .ok (((bs.drop unRdOff).take unSzBuf).length,
        h.putBlock dst.block (splice b dst.off ((bs.drop unRdOff).take unSzBuf))) := by
  have hchain := hl.chainFrom (hf.length_le hl hl.nodup)
  have hloop := readLoop_clear hc hb (show Clear h (dst.add 0) _ l from hcl) hroom
  rw [Nat.zero_add, Nat.add_zero] at hloop
  rw [unNetBufRead, Heap.netbuf_of_some hp, Exec.ok_bind, hchain, Exec.ok_bind, hloop]

/-- Four bytes in two netbufs with a freed and an empty one between them. The first block has
room for a copy behind the bytes. -/
def gappedHeap : Heap where
  mem := fun a => if a = 0 then some [1, 2, 3, 4, 0, 0, 0, 0] else none
  netbufs := fun p => match p with
    | 1 => some ⟨some 2, 1, .NB_RINA_DATA, 2, some ⟨0, 0⟩, some ⟨0, 0⟩, false, none, none⟩
    | 2 => some ⟨some 3, 1, .NB_RINA_DATA, 0, none, none, true, none, none⟩
    | 3 => some ⟨some 4, 1, .NB_RINA_DATA, 0, some ⟨0, 2⟩, some ⟨0, 0⟩, false, none, none⟩
    | 4 => some ⟨none, 1, .NB_RINA_DATA, 2, some ⟨0, 2⟩, some ⟨0, 0⟩, false, none, none⟩
    | _ => none
  rsrcs := fun _ => none
  pools := fun _ => none
  brk := 5
  calls := 0
  mallocOk := fun _ => true
  junk := fun _ _ => 0

theorem gappedHeap_fresh : gappedHeap.Fresh := fun a ha => by
  obtain ⟨k, rfl⟩ := Nat.exists_eq_add_of_le ha
  refine ⟨?_, if_neg (Nat.ne_of_gt (Nat.lt_of_lt_of_le (by decide) ha))⟩
  rw [Nat.add_comm]
  rfl

theorem gappedHeap_links : NbLinks gappedHeap (some 1) [1, 2, 3, 4] none :=
  ⟨rfl, _, rfl, rfl, _, rfl, rfl, _, rfl, rfl, _, rfl, rfl⟩

theorem gappedHeap_clear : Clear gappedHeap ⟨0, 4⟩ 2 [1, 2, 3, 4] := by
  intro p hp nb ptr hnb hlive hbuf hblock i hi j hj
  have hcases : p = 1 ∨ p = 2 ∨ p = 3 ∨ p = 4 := by simpa using hp
  rcases hcases with rfl | rfl | rfl | rfl
  · cases hnb
    cases hbuf
    change i < 2 at hi
    change 0 + i ≠ 4 + j
    omega
  · cases hnb
    cases hlive
  · cases hnb
    exact absurd hi (Nat.not_lt_zero i)
  · cases hnb
    cases hbuf
    change i < 2 at hi
    change 2 + i ≠ 4 + j
    omega

theorem gapped_read : unNetBufRead gappedHeap 3 (some ⟨0, 4⟩) 1 2 =
    .ok (2, gappedHeap.putBlock 0 [1, 2, 3, 4, 2, 3, 0, 0]) := by
  have hread : unNetBufRead gappedHeap 3 (some ⟨0, 4⟩) 1 2 =
      .ok (((([1, 2, 3, 4] : Bytes).drop 1).take 2).length, gappedHeap.putBlock 0
        (splice [1, 2, 3, 4, 0, 0, 0, 0] 4 ((([1, 2, 3, 4] : Bytes).drop 1).take 2))) :=
    unNetBufRead_selects gappedHeap_fresh rfl gappedHeap_links rfl rfl (by decide)
      gappedHeap_clear
  exact hread

end RinaSense.Common
