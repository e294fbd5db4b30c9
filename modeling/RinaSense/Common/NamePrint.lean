import RinaSense.Common.NameBuild

/-!
# Printing a name into a small buffer

`vNameToStringBuf` counts the characters of the strings against the size of its buffer, and not
the delimiters between them. Behind a delimiter the count allows more than what is left, so that
a name is cut off inside its first string only.
-/

namespace RinaSense.Common

open Library.Memory

/-- The buffer is kept to, and it holds the first characters of the strings with delimiters
between them, as many as go in front of a terminator. -/
def PrintsWithin (h : Heap) (nm : Name) (strings : List CString) (pcBuf : Bytes) : Prop :=
  ∃ (pcBuf' : Bytes) (t : CString), vNameToStringBuf h nm pcBuf pcBuf.length = .ok pcBuf' ∧
    pcBuf'.length = pcBuf.length ∧ joined strings = t.terminated ∧
    cstring pcBuf' = some (t.take (pcBuf.length - 1))

variable {h : Heap} {n px m : ℕ} {p : Option Ptr} {ps : List (Option Ptr)} {s : CString}
  {strings : List CString} {b : Bytes}

/-! ### Rounds of the loop -/

/-- A round which fails if its string or its terminator lies behind the end of the buffer. -/
theorem printStrings_outside (hs : h.string p = .ok s)
    (hlong : b.length < px + min s.length m + 1) :
    printStrings h n (p :: ps) b px m = .error .outOfBounds := by
  have hcopy : (if s.length < m then s.length else m) = min s.length m := by
    split_ifs with hlt
    · exact (Nat.min_eq_left (Nat.le_of_lt hlt)).symm
    · exact (Nat.min_eq_right (Nat.le_of_not_lt hlt)).symm
  have hlen : ((s.take (min s.length m)).bytes ++ [(0 : UInt8)]).length =
      min s.length m + 1 := by
    rw [List.length_append, CString.take, List.length_take, List.length_singleton, CString.length]
    omega
  have hwrite : patch b px ((s.take (min s.length m)).bytes ++ [0]) = none :=
    patch_eq_none (by omega)
  simp only [printStrings, hs, Exec.ok_bind, hcopy, hwrite, inBounds_none, Exec.error_bind]

/-- A part which is written with the byte behind it leaves the size of the buffer. -/
theorem splice_part_length (x : UInt8) (hb : px + s.length + 1 ≤ b.length) :
    (splice b px (s.bytes ++ [x])).length = b.length := by
  refine splice_length ?_
  rw [List.length_append, List.length_singleton, ← Nat.add_assoc]
  exact hb

theorem joined_length_cons (s t : CString) (strings : List CString) :
    (joined (s :: t :: strings)).length = s.length + 1 + (joined (t :: strings)).length := by
  rw [joined_length, joined_length, characters, List.length_cons]
  omega

/-- Once the count allows more than what is left, all strings have to fit. -/
theorem printStrings_overruns (hr : Reads h (p :: ps) (s :: strings))
    (hcount : b.length < px + m + 1) (hlong : b.length < px + (joined (s :: strings)).length) :
    printStrings h n (p :: ps) b px m = .error .outOfBounds := by
  induction ps generalizing p s strings b px m with
  | nil =>
    cases hr with
    | cons hs hrest =>
      cases hrest
      rw [joined_length, characters, characters, List.length_nil] at hlong
      exact printStrings_outside hs (by omega)
  | cons q ps ih =>
    cases hr with
    | @cons _ _ _ strings' hs hrest =>
      cases hrest with
      | @cons _ t _ strings ht htail =>
        by_cases hfit : s.length < m ∧ px + s.length + 1 ≤ b.length
        · rcases hfit with ⟨hm, hb⟩
          have hjoin := joined_length_cons s t strings
          rw [printStrings_round hs hb hm]
          exact ih (.cons ht htail) (by rw [splice_part_length _ hb]; omega)
            (by rw [splice_part_length _ hb]; omega)
        · exact printStrings_outside hs (by omega)

/-- The first string is cut off where the buffer ends. -/
theorem printStrings_first (hs : h.string p = .ok s) (hb : b.length = m + 1)
    (hm : m ≤ s.length) :
    printStrings h b.length (p :: ps) b 0 m = .ok (s.take m).terminated := by
  have hlen : (s.take m).bytes.length = m := by
    rw [CString.take, List.length_take]
    exact Nat.min_eq_left hm
  have hsize : ((s.take m).bytes ++ [(0 : UInt8)]).length = b.length := by
    rw [List.length_append, hlen, hb, List.length_singleton]
  have hpatch : patch b 0 ((s.take m).bytes ++ [0]) = some ((s.take m).bytes ++ [0]) := by
    have hfront := patch_middle [] [] _ rfl hsize
    rwa [List.append_nil, List.append_nil, List.nil_append, List.nil_append] at hfront
  have hlast : ∀ x y : UInt8, patch ((s.take m).bytes ++ [x]) m [y] =
      some ((s.take m).bytes ++ [y]) := by
    intro x y
    have hend : patch ((s.take m).bytes ++ ([x] ++ [])) m [y] =
        some ((s.take m).bytes ++ ([y] ++ [])) := patch_middle _ _ _ hlen.symm rfl
    rwa [List.append_nil, List.append_nil] at hend
  simp only [printStrings, hs, Exec.ok_bind, if_neg (Nat.not_lt.mpr hm), hpatch, inBounds_some,
    Nat.zero_add, Nat.add_sub_cancel, Nat.sub_self, if_true, hb]
  cases ps with
  | nil => simp [hlast, CString.terminated]
  | cons q ps => simp [hlast, CString.terminated]

/-! ### The whole name -/

/-- A joined string begins with the first of its strings. -/
theorem joined_take {t : CString} (ht : joined (s :: strings) = t.terminated)
    (hn : n ≤ s.length) : t.take n = s.take n := by
  have hfirst : (joined (s :: strings)).take n = s.bytes.take n := by
    cases strings with
    | nil => exact List.take_append_of_le_length hn
    | cons u strings => exact List.take_append_of_le_length hn
  have hlen := congrArg List.length ht
  rw [joined_length, characters, CString.terminated_length] at hlen
  have hwhole : t.terminated.take n = t.bytes.take n :=
    List.take_append_of_le_length (by rw [← CString.length]; omega)
  rw [ht, hwhole] at hfirst
  exact CString.ext hfirst

variable {nm : Name} {s₁ s₂ s₃ s₄ : CString} {pcBuf : Bytes}

theorem printsWithin_first (hr : Reads h nm.strings [s₁, s₂, s₃, s₄]) (hpos : 0 < pcBuf.length)
    (hlong : pcBuf.length ≤ s₁.length + 1) : PrintsWithin h nm [s₁, s₂, s₃, s₄] pcBuf := by
  rcases joined_terminated s₁ [s₂, s₃, s₄] with ⟨t, ht⟩
  have hsize : pcBuf.length = pcBuf.length - 1 + 1 := by omega
  have hcut : pcBuf.length - 1 ≤ s₁.length := by omega
  cases hr with
  | cons hs _ =>
    refine ⟨_, t, printStrings_first hs hsize hcut, ?_, ht, ?_⟩
    · rw [CString.terminated_length, CString.length, CString.take, List.length_take,
        ← CString.length]
      omega
    · rw [cstring_terminated, joined_take ht hcut]

theorem printsWithin_whole (hr : Reads h nm.strings [s₁, s₂, s₃, s₄])
    (hfit : characters [s₁, s₂, s₃, s₄] + 4 ≤ pcBuf.length) :
    PrintsWithin h nm [s₁, s₂, s₃, s₄] pcBuf := by
  rcases joined_terminated s₁ [s₂, s₃, s₄] with ⟨t, ht⟩
  have hlen := joined_length s₁ [s₂, s₃, s₄]
  rw [List.length_cons, List.length_cons, List.length_singleton] at hlen
  have hsize := hlen
  rw [ht, CString.terminated_length] at hsize
  refine ⟨_, t, vNameToStringBuf_reads hr hfit, splice_length (by omega), ht, ?_⟩
  rw [cstring_splice_joined, ht, cstring_terminated, CString.take_of_length_le (by omega)]

/-- The first string fits, and the rest of the name does not. -/
theorem vNameToStringBuf_overruns (hr : Reads h nm.strings [s₁, s₂, s₃, s₄])
    (hfirst : s₁.length + 1 < pcBuf.length)
    (hlong : pcBuf.length < characters [s₁, s₂, s₃, s₄] + 4) :
    vNameToStringBuf h nm pcBuf pcBuf.length = .error .outOfBounds := by
  have hwhole := joined_length s₁ [s₂, s₃, s₄]
  have hjoin := joined_length_cons s₁ s₂ [s₃, s₄]
  rw [List.length_cons, List.length_cons, List.length_singleton] at hwhole
  cases hr with
  | cons hs hrest =>
    have hroom : 0 + s₁.length + 1 ≤ pcBuf.length := by omega
    have hcount : s₁.length < pcBuf.length - 1 := by omega
    rw [vNameToStringBuf, Name.strings, printStrings_round hs hroom hcount]
    exact printStrings_overruns hrest (by rw [splice_part_length _ hroom]; omega)
      (by rw [splice_part_length _ hroom]; omega)

/-- A buffer is kept to exactly when it ends within the first string, or when it has room for
the whole name. -/
theorem printsWithin_iff (hr : Reads h nm.strings [s₁, s₂, s₃, s₄]) (hpos : 0 < pcBuf.length) :
    PrintsWithin h nm [s₁, s₂, s₃, s₄] pcBuf ↔
      pcBuf.length ≤ s₁.length + 1 ∨ characters [s₁, s₂, s₃, s₄] + 4 ≤ pcBuf.length := by
  constructor
  · rintro ⟨pcBuf', t, hrun, -⟩
    by_contra hneither
    rw [not_or, Nat.not_le, Nat.not_le] at hneither
    rw [vNameToStringBuf_overruns hr hneither.1 hneither.2] at hrun
    cases hrun
  · rintro (hlong | hfit)
    · exact printsWithin_first hr hpos hlong
    · exact printsWithin_whole hr hfit

/-- The name of the example's strings. -/
def partsName : Name := ⟨0, some ⟨0, 0⟩, some ⟨0, 3⟩, some ⟨0, 6⟩, some ⟨0, 9⟩⟩

theorem partsName_reads : Reads partsHeap partsName.strings exampleParts := partsHeap_reads

/-- Four characters of `e1/e2/e3/e4` go into five bytes. -/
theorem small_buffer_overrun :
    ¬ PrintsWithin partsHeap partsName exampleParts (List.replicate 5 0) := by
  rintro ⟨pcBuf', t, hrun, -⟩
  have hover : vNameToStringBuf partsHeap partsName (List.replicate 5 0)
      (List.replicate 5 (0 : UInt8)).length = .error .outOfBounds :=
    vNameToStringBuf_overruns partsName_reads (by decide) (by decide)
  cases hover.symm.trans hrun

theorem first_string_cut :
    PrintsWithin partsHeap partsName exampleParts (List.replicate 3 0) :=
  Iff.mpr (printsWithin_iff partsName_reads (by decide)) (.inl (by decide))

end RinaSense.Common
