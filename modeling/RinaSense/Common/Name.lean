import Mathlib.Data.List.Forall2
import RinaSense.Common.Heap
import RinaSense.Library.Buffer
import RinaSense.Library.CString

/-!
# Names

The names of `common/rina_name.c`, which consist of four strings in memory, and how they
are printed. The printers put delimiters between the strings.
-/

namespace RinaSense.Common

open Library.Memory

def CFG_DELIMITER : UInt8 := 47

structure Name where
  /-- The bytes behind the structure, when it was allocated together with its strings. -/
  unPostLn : ℕ
  pcProcessName : Option Ptr
  pcProcessInstance : Option Ptr
  pcEntityName : Option Ptr
  pcEntityInstance : Option Ptr
deriving DecidableEq, Repr

def Name.strings (nm : Name) : List (Option Ptr) :=
  [nm.pcProcessName, nm.pcProcessInstance, nm.pcEntityName, nm.pcEntityInstance]

/-- The zero-terminated string at an address. -/
def Heap.string (h : Heap) (p : Option Ptr) : Exec CString := do
  let p ← deref p
  let b ← inBounds (h.mem p.block)
  inBounds (cstring (b.drop p.off))

/-- The loop of `vNameToStringBuf`, with the position `px` in the buffer. Delimiters do not
count against `unSzMax`. -/
def printStrings (h : Heap) (unSzBuf : ℕ) : List (Option Ptr) → Bytes → ℕ → ℕ → Exec Bytes
  | [], pcBuf, _, _ => .ok pcBuf
  | p :: strings, pcBuf, px, unSzMax => do
    let s ← h.string p
    let unSzCopy := if s.length < unSzMax then s.length else unSzMax
    let pcBuf ← inBounds (patch pcBuf px ((s.take unSzCopy).bytes ++ [0]))
    let px := px + unSzCopy + 1
    let pcBuf ← if strings.isEmpty then .ok pcBuf
      else inBounds (patch pcBuf (px - 1) [CFG_DELIMITER])
    let unSzMax := unSzMax - unSzCopy
    if unSzMax = 0 then inBounds (patch pcBuf (unSzBuf - 1) [0])
    else printStrings h unSzBuf strings pcBuf px unSzMax

/-- The buffer `pcBuf` with the name printed into it. -/
def vNameToStringBuf (h : Heap) (pxDst : Name) (pcBuf : Bytes) (unSzBuf : ℕ) : Exec Bytes :=
  printStrings h unSzBuf pxDst.strings pcBuf 0 (unSzBuf - 1)

/-- The lengths of strings, added up. -/
def sumLengths (h : Heap) : List (Option Ptr) → Exec ℕ
  | [] => .ok 0
  | p :: strings => do
    let s ← h.string p
    let rest ← sumLengths h strings
    return s.length + rest

/-- The block with the name as one string. Strings which were allocated behind the
structure are copied with one read, and their terminators become delimiters. -/
def pcNameToString (h : Heap) (pxDst : Name) : Exec (Option ℕ × Heap) :=
  if pxDst.unPostLn = 0 then do
    let unDestLn := (← sumLengths h pxDst.strings) + 4
    match pvRsMemAlloc h unDestLn with
    | (none, h) => return (none, h)
    | (some pcDest, h) => do
      let b ← inBounds (h.mem pcDest)
      let b ← vNameToStringBuf h pxDst b unDestLn
      return (some pcDest, h.setBlock pcDest (some b))
  else
    let unDestLn := pxDst.unPostLn + 1
    match pvRsMemAlloc h unDestLn with
    | (none, h) => .ok (none, h)
    | (some pcDest, h) => do
      let b ← h.read pxDst.pcProcessName 0 unDestLn
      let delimited := (b.take pxDst.unPostLn).map fun c => if c = 0 then CFG_DELIMITER else c
      return (some pcDest, h.setBlock pcDest (some (delimited ++ b.drop pxDst.unPostLn)))

/-! ### Printing into a large buffer -/

/-- Strings with delimiters between them and a terminator behind. -/
def joined : List CString → Bytes
  | [] => []
  | [s] => s.bytes ++ [0]
  | s :: strings => s.bytes ++ CFG_DELIMITER :: joined strings

/-- A joined string is terminated once. -/
theorem joined_terminated (s : CString) (strings : List CString) :
    ∃ t : CString, joined (s :: strings) = t.terminated := by
  induction strings generalizing s with
  | nil => exact ⟨s, rfl⟩
  | cons u strings ih =>
    rcases ih u with ⟨t, ht⟩
    refine ⟨s.append (CString.append ⟨[CFG_DELIMITER], by decide⟩ t), ?_⟩
    rw [joined, ht]
    · simp [CString.terminated, CString.append]
    · simp

/-- The number of characters without delimiters and terminator. -/
def characters : List CString → ℕ
  | [] => 0
  | s :: strings => s.length + characters strings

variable {h : Heap}

/-- The strings can be read at the addresses. -/
def Reads (h : Heap) (ps : List (Option Ptr)) (strings : List CString) : Prop :=
  List.Forall₂ (fun p s => h.string p = .ok s) ps strings

theorem sumLengths_reads {ps : List (Option Ptr)} {strings : List CString}
    (hr : Reads h ps strings) : sumLengths h ps = .ok (characters strings) := by
  induction hr with
  | nil => rfl
  | cons hs _ ih =>
    rw [sumLengths, hs, Exec.ok_bind, ih]
    rfl

theorem joined_length (s : CString) (strings : List CString) :
    (joined (s :: strings)).length = characters (s :: strings) + strings.length + 1 := by
  induction strings generalizing s with
  | nil => simp [joined, characters, CString.length]
  | cons t strings ih =>
    have ht := ih t
    rw [joined, List.length_append, List.length_cons, ht]
    · simp only [characters, List.length_cons, CString.length]
      omega
    · simp

/-- A byte which is written behind `xs` and then written over. -/
theorem splice_overwrite {b xs : Bytes} {o : ℕ} (x y : UInt8)
    (hlen : o + xs.length + 1 ≤ b.length) :
    splice (splice b o (xs ++ [x])) (o + xs.length) [y] = splice b o (xs ++ [y]) := by
  have hsplit : splice b o (xs ++ [x]) = b.take o ++ xs ++ (x :: b.drop (o + xs.length + 1)) := by
    rw [splice, List.length_append, ← Nat.add_assoc]
    simp
  have hpre : (b.take o ++ xs).length = o + xs.length := by
    rw [List.length_append, List.length_take]
    omega
  have hover : splice (b.take o ++ xs ++ ([x] ++ b.drop (o + xs.length + 1)))
      (b.take o ++ xs).length [y] = b.take o ++ xs ++ ([y] ++ b.drop (o + xs.length + 1)) :=
    splice_middle rfl
  rw [hpre] at hover
  rw [hsplit, ← List.singleton_append, hover, splice, List.length_append, ← Nat.add_assoc]
  simp

/-- One round of the loop, for a string which fits. -/
theorem printStrings_round {n : ℕ} {p : Option Ptr} {ps : List (Option Ptr)} {s : CString}
    (hs : h.string p = .ok s) {b : Bytes} {px m : ℕ} (hb : px + s.length + 1 ≤ b.length)
    (hm : s.length < m) :
    printStrings h n (p :: ps) b px m =
      printStrings h n ps
        (splice b px (s.bytes ++ [if ps.isEmpty then 0 else CFG_DELIMITER]))
        (px + s.length + 1) (m - s.length) := by
  have hwhole : (s.take s.length).bytes = s.bytes := List.take_length
  have hlen : (s.bytes ++ [(0 : UInt8)]).length = s.length + 1 := by simp [CString.length]
  have hfirst : patch b px (s.bytes ++ [0]) = some (splice b px (s.bytes ++ [0])) :=
    patch_eq_some (by omega)
  have hmax : m - s.length ≠ 0 := by omega
  simp only [printStrings, hs, Exec.ok_bind, if_pos hm, hwhole, hfirst, inBounds_some,
    Nat.add_sub_cancel]
  cases ps with
  | nil => simp [hmax]
  | cons q ps =>
    have hover : patch (splice b px (s.bytes ++ [0])) (px + s.length) [CFG_DELIMITER] =
        some (splice b px (s.bytes ++ [CFG_DELIMITER])) := by
      rw [patch_eq_some, CString.length, splice_overwrite]
      · rw [CString.length] at hb
        exact hb
      · rw [splice_length (by omega)]
        exact hb
    simp [hmax, hover]

/-- The strings stand one behind the other, and the rest of the buffer is kept. -/
theorem printStrings_joined {n : ℕ} {p : Option Ptr} {ps : List (Option Ptr)} {s : CString}
    {strings : List CString} (hr : Reads h (p :: ps) (s :: strings)) {b : Bytes} {px m : ℕ}
    (hb : px + (joined (s :: strings)).length ≤ b.length) (hm : characters (s :: strings) < m) :
    printStrings h n (p :: ps) b px m = .ok (splice b px (joined (s :: strings))) := by
  have hsplit : characters (s :: strings) = s.length + characters strings := rfl
  induction ps generalizing p s strings b px m with
  | nil =>
    cases hr with
    | cons hs hrest =>
      cases hrest
      rw [joined_length] at hb
      rw [printStrings_round hs (by omega) (by omega)]
      rfl
  | cons q ps ih =>
    cases hr with
    | @cons _ _ _ strings' hs hrest =>
      cases hrest with
      | @cons _ t _ strings ht htail =>
        have hlen := joined_length s (t :: strings)
        have hlen' := joined_length t strings
        rw [List.length_cons] at hlen
        have hfit : px + (s.bytes ++ [CFG_DELIMITER]).length ≤ b.length := by
          rw [List.length_append, List.length_singleton]
          rw [CString.length] at hsplit
          omega
        have hround : printStrings h n (p :: q :: ps) b px m = printStrings h n (q :: ps)
            (splice b px (s.bytes ++ [CFG_DELIMITER])) (px + s.length + 1) (m - s.length) :=
          printStrings_round hs (by omega) (by omega)
        have hnext : printStrings h n (q :: ps) (splice b px (s.bytes ++ [CFG_DELIMITER]))
            (px + s.length + 1) (m - s.length) =
            .ok (splice (splice b px (s.bytes ++ [CFG_DELIMITER])) (px + s.length + 1)
              (joined (t :: strings))) :=
          ih (.cons ht htail) (by rw [splice_length hfit]; omega) (by omega) rfl
        have hjoin := splice_splice (joined (t :: strings)) hfit
        rw [List.length_append, List.length_singleton, ← Nat.add_assoc] at hjoin
        rw [hround, hnext, CString.length, hjoin, List.append_assoc]
        rfl

/-- A block which was not allocated holds no string. -/
theorem Reads.update {h' : Heap} {a : ℕ} {bs : Option Bytes} (ha : h.mem a = none)
    (hmem : h'.mem = Function.update h.mem a bs) {ps : List (Option Ptr)}
    {strings : List CString} (hr : Reads h ps strings) : Reads h' ps strings := by
  induction hr with
  | nil => exact .nil
  | @cons p s ps strings hs _ ih =>
    refine .cons ?_ ih
    cases p with
    | none => cases hs
    | some p =>
      have hne : p.block ≠ a := by
        rintro rfl
        simp [Heap.string, ha] at hs
      rw [← hs]
      simp [Heap.string, hmem, hne]

/-- A request which is granted gets a new block. -/
theorem pvRsMemAlloc_granted (hm : h.mallocOk h.calls = true) (n : ℕ) :
    ∃ h', pvRsMemAlloc h n = (some h.brk, h') ∧ h'.mallocOk = h.mallocOk ∧
      h'.mem = Function.update h.mem h.brk (some (h.stale h.brk n)) :=
  ⟨{ h.called.setBlock h.brk (some (h.stale h.brk n)) with brk := h.brk + 1 },
    by rw [pvRsMemAlloc, if_pos hm], rfl, rfl⟩

/-- A name whose strings were not allocated with it is printed in full. -/
theorem pcNameToString_parts {nm : Name} {strings : List CString} (hn : nm.unPostLn = 0)
    (hr : Reads h nm.strings strings) (hm : h.mallocOk h.calls = true)
    (hbrk : h.mem h.brk = none) :
    ∃ h', pcNameToString h nm = .ok (some h.brk, h') ∧ h'.mallocOk = h.mallocOk ∧
      h'.mem h.brk = some (joined strings) := by
  have hcount : strings.length = 4 := hr.length_eq.symm
  cases strings with
  | nil => cases hcount
  | cons s strings =>
    have hlen := joined_length s strings
    rw [List.length_cons] at hcount
    rcases pvRsMemAlloc_granted hm (characters (s :: strings) + 4) with
      ⟨h', halloc, hsame, hmem⟩
    have hblock : h'.mem h.brk = some (h.stale h.brk (characters (s :: strings) + 4)) := by
      rw [hmem, Function.update_self]
    have hsize : (joined (s :: strings)).length =
        (h.stale h.brk (characters (s :: strings) + 4)).length := by
      rw [Heap.stale_length]
      omega
    have hwhole : splice (h.stale h.brk (characters (s :: strings) + 4)) 0
        (joined (s :: strings)) = joined (s :: strings) := by
      have hfront : splice (h.stale h.brk (characters (s :: strings) + 4) ++ []) 0
          (joined (s :: strings)) = joined (s :: strings) ++ [] := splice_front hsize
      rwa [List.append_nil, List.append_nil] at hfront
    have hprint : printStrings h' (characters (s :: strings) + 4) nm.strings
        (h.stale h.brk (characters (s :: strings) + 4)) 0 (characters (s :: strings) + 3) =
        .ok (joined (s :: strings)) := by
      rw [Name.strings, printStrings_joined (hr.update hbrk hmem) (by omega) (by omega), hwhole]
    refine ⟨h'.setBlock h.brk (some (joined (s :: strings))), ?_, hsame,
      Heap.setBlock_self _ _ _⟩
    rw [pcNameToString, if_pos hn, sumLengths_reads hr, Exec.ok_bind]
    simp only [halloc, hblock, inBounds_some, Exec.ok_bind, vNameToStringBuf,
      Nat.add_succ_sub_one, hprint]
    rfl

end RinaSense.Common
