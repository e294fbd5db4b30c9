import RinaSense.Common.NameBuild

/-!
# Parsing names

`pxNameNewFromString` and `xNameAssignFromString` break a string down at its delimiters, and
`vNameToStringBuf` puts the delimiters back. A string with fewer than two delimiters is refused
by both, but the second one wipes the name before it releases the block which the name holds.
-/

namespace RinaSense.Common

open Library.Memory

/-- The functions which make a name from a string. -/
inductive NameParser
  | pxNameNewFromString
  | xNameAssignFromString (pxDst : OwnedName)

/-- Whether there is a name, and the name which is left. -/
def NameParser.run (h : Heap) (pcNmStr : Option Ptr) :
    NameParser → Exec (Bool × Option OwnedName × Heap)
  | .pxNameNewFromString =>
    (fun r => (r.1.isSome, r.1, r.2)) <$> Common.pxNameNewFromString h pcNmStr
  | .xNameAssignFromString pxDst =>
    (fun r => (r.1, some r.2.1, r.2.2)) <$> Common.xNameAssignFromString h pxDst pcNmStr

/-- The string broken at its first three delimiters, where the third one may be missing. The
fourth part keeps further delimiters. -/
structure BrokenAt (s : CString) (parts : List CString) : Prop where
  count : parts.length = 4 ∨ parts.length = 3
  free : ∀ u ∈ parts.take 3, CFG_DELIMITER ∉ u.bytes
  text : s.terminated = joined parts

/-- However a name is built from the strings, it prints as `t` into a buffer which is large
enough. -/
def PrintsTo (strings : List CString) (t : CString) : Prop :=
  ∀ (build : NameBuild) (h : Heap), h.MemoryAvailable → build.Given h strings →
    ∃ (nm : OwnedName) (h' : Heap), build.run h = .ok (some nm, h') ∧
      ∀ pcBuf : Bytes, characters strings + 4 ≤ pcBuf.length →
        ∃ pcBuf', vNameToStringBuf h' nm.toName pcBuf pcBuf.length = .ok pcBuf' ∧
          cstring pcBuf' = some t

/-- What a parser owes to its caller: a string with two delimiters is broken down, of another
one neither memory nor a name is left, and what was printed is read back. -/
structure Parsed (h : Heap) (s : CString) (good : Bool) (left : Option OwnedName)
    (h' : Heap) : Prop where
  succeeds : good = true ↔ 2 ≤ s.bytes.count CFG_DELIMITER
  broken : good = true → ∃ nm parts, left = some nm ∧ BrokenAt s parts ∧
    Reads h' nm.strings (filled parts)
  released : good = false → h'.mem = h.mem
  unusable : good = false → ∀ nm strings, left = some nm → ¬ Reads h' nm.strings strings
  readBack : ∀ strings : List CString, strings.length = 4 →
    (∀ u ∈ strings, CFG_DELIMITER ∉ u.bytes) → ∃ t, PrintsTo strings t ∧
      (t = s → good = true ∧ ∃ nm, left = some nm ∧ Reads h' nm.strings strings)

/-- The parser runs through and meets what it owes. -/
def NameParser.Parses (h : Heap) (parser : NameParser) (p : Option Ptr) (s : CString) : Prop :=
  ∃ good left h', parser.run h p = .ok (good, left, h') ∧ Parsed h s good left h'

/-- There is memory for a name. An assignment needs a name, or no memory and nothing that was
assigned before. -/
def NameParser.Suits (h : Heap) (s : CString) : NameParser → Prop
  | .pxNameNewFromString => 2 ≤ s.bytes.count CFG_DELIMITER → h.mallocOk h.calls = true
  | .xNameAssignFromString pxDst =>
    if 2 ≤ s.bytes.count CFG_DELIMITER then h.mallocOk h.calls = true
    else h.mallocOk h.calls = false ∧ ∀ strings, ¬ Reads h pxDst.strings strings

variable {h h' : Heap} {p : Option Ptr} {s t : CString} {strings parts : List CString}

/-! ### Delimiters -/

theorem BrokenAt.delimiters (hb : BrokenAt s parts) : 2 ≤ s.bytes.count CFG_DELIMITER := by
  have hcount : s.bytes.count CFG_DELIMITER = (joined parts).count CFG_DELIMITER := by
    rw [← hb.text, CString.terminated, List.count_append]
    rfl
  rw [hcount]
  rcases hb.count with hn | hn
  · rcases List.length_eq_four.mp hn with ⟨s₁, s₂, s₃, s₄, rfl⟩
    simp only [joined, List.count_append, List.count_cons_self]
    omega
  · rcases List.length_eq_three.mp hn with ⟨s₁, s₂, s₃, rfl⟩
    simp only [joined, List.count_append, List.count_cons_self]
    omega

/-- There is a break exactly when there are two delimiters. -/
theorem exists_brokenAt_iff :
    (∃ parts, BrokenAt s parts) ↔ 2 ≤ s.bytes.count CFG_DELIMITER := by
  constructor
  · rintro ⟨parts, hb⟩
    exact hb.delimiters
  intro htwo
  rcases delimiter_cases s with hnone | ⟨s₁, t, h₁, hs⟩
  · rw [List.count_eq_zero.mpr hnone] at htwo
    omega
  rw [count_delimiter_split h₁ hs] at htwo
  rcases delimiter_cases t with hone | ⟨s₂, u, h₂, ht⟩
  · rw [List.count_eq_zero.mpr hone] at htwo
    omega
  rcases delimiter_cases u with h₃ | ⟨s₃, s₄, h₃, hu⟩
  · refine ⟨[s₁, s₂, u], .inr rfl, by simp [h₁, h₂, h₃], ?_⟩
    simp [CString.terminated, joined, hs, ht]
  · refine ⟨[s₁, s₂, s₃, s₄], .inl rfl, by simp [h₁, h₂, h₃], ?_⟩
    simp [CString.terminated, joined, hs, ht, hu]

/-- Strings without delimiters are the break of what they are joined to. -/
theorem brokenAt_joined (hfour : strings.length = 4)
    (hd : ∀ u ∈ strings, CFG_DELIMITER ∉ u.bytes) (ht : t.terminated = joined strings) :
    BrokenAt t strings :=
  ⟨.inl hfour, fun u hu => hd u (List.mem_of_mem_take hu), ht⟩

theorem exists_joined (hfour : strings.length = 4) :
    ∃ t : CString, t.terminated = joined strings := by
  rcases List.length_eq_four.mp hfour with ⟨s₁, s₂, s₃, s₄, rfl⟩
  rcases joined_terminated s₁ [s₂, s₃, s₄] with ⟨t, ht⟩
  exact ⟨t, ht.symm⟩

/-! ### Printing -/

/-- Each constructor builds a name with the four strings. -/
theorem build_reads {build : NameBuild} (hm : h.MemoryAvailable) (hg : build.Given h strings)
    (hfour : strings.length = 4) (hd : ∀ u ∈ strings, CFG_DELIMITER ∉ u.bytes) :
    ∃ (nm : OwnedName) (h' : Heap), build.run h = .ok (some nm, h') ∧
      Reads h' nm.strings strings := by
  have hfree : ∀ u ∈ strings.take 3, CFG_DELIMITER ∉ u.bytes :=
    fun u hu => hd u (List.mem_of_mem_take hu)
  cases build with
  | pxNameNewFromParts p₁ p₂ p₃ p₄ =>
    rcases List.length_eq_four.mp hfour with ⟨s₁, s₂, s₃, s₄, rfl⟩
    rcases pxNameNewFromParts_eq hm hg with ⟨nm, h', hrun, hl, -⟩
    exact ⟨nm, h', hrun, hl.reads⟩
  | xNameAssignFromPartsDup nm p₁ p₂ p₃ p₄ =>
    rcases List.length_eq_four.mp hfour with ⟨s₁, s₂, s₃, s₄, rfl⟩
    simp only [NameBuild.Given, List.forall₂_cons, List.forall₂_nil_left_iff, and_true] at hg
    rcases hg with ⟨hs₁, hs₂, hs₃, hs₄⟩
    rcases xNameAssignFromPartsDup_eq nm (hm _) hs₁ hs₂ hs₃ hs₄ with ⟨nm', h', hrun, hl, -⟩
    refine ⟨nm', h', ?_, hl.reads⟩
    rw [NameBuild.run, hrun]
    rfl
  | vNameAssignFromPartsStatic p₁ p₂ p₃ p₄ => exact ⟨_, h, rfl, hg⟩
  | pxNameNewFromString p =>
    rcases hg with ⟨t, hp, ht, hn⟩
    rcases pxNameNewFromString_eq (hm _) hp ht hn hfree with ⟨nm, h', pre, hrun, hdown, -⟩
    have hreads := hdown.2.1
    rw [filled_four hfour] at hreads
    exact ⟨nm, h', hrun, hreads⟩
  | xNameAssignFromString nm p =>
    rcases hg with ⟨t, hp, ht, hn⟩
    rcases xNameAssignFromString_eq nm (hm _) hp ht hn hfree with ⟨nm', h', hrun, hdown, -⟩
    have hreads := hdown.2.1
    rw [filled_four hfour] at hreads
    refine ⟨nm', h', ?_, hreads⟩
    rw [NameBuild.run, hrun]
    rfl

theorem printsTo_joined (hfour : strings.length = 4)
    (hd : ∀ u ∈ strings, CFG_DELIMITER ∉ u.bytes) (ht : t.terminated = joined strings) :
    PrintsTo strings t := by
  intro build h hm hg
  rcases build_reads hm hg hfour hd with ⟨nm, h', hrun, hreads⟩
  refine ⟨nm, h', hrun, fun pcBuf hb => ?_⟩
  rw [← filled_four hfour] at hreads
  have hprint := cstring_vNameToStringBuf hreads pcBuf hb
  rwa [filled_four hfour, ← ht, cstring_terminated] at hprint

/-! ### A parser which succeeds -/

/-- A name which reads as each break of the string is what the caller wants. -/
theorem parsed_good {nm : OwnedName} (hs : 2 ≤ s.bytes.count CFG_DELIMITER)
    (hreads : ∀ parts, BrokenAt s parts → Reads h' nm.strings (filled parts)) :
    Parsed h s true (some nm) h' where
  succeeds := iff_of_true rfl hs
  broken _ := by
    rcases exists_brokenAt_iff.mpr hs with ⟨parts, hbroken⟩
    exact ⟨nm, parts, rfl, hbroken, hreads parts hbroken⟩
  released hgood := by cases hgood
  unusable hgood := by cases hgood
  readBack strings hfour hd := by
    rcases exists_joined hfour with ⟨t, ht⟩
    refine ⟨t, printsTo_joined hfour hd ht, ?_⟩
    rintro rfl
    have hback := hreads strings (brokenAt_joined hfour hd ht)
    rw [filled_four hfour] at hback
    exact ⟨rfl, nm, rfl, hback⟩

theorem pxNameNewFromString_good (hm : h.mallocOk h.calls = true) (hp : h.string p = .ok s)
    (hs : 2 ≤ s.bytes.count CFG_DELIMITER) :
    ∃ (nm : OwnedName) (h' : Heap), pxNameNewFromString h p = .ok (some nm, h') ∧
      ∀ parts, BrokenAt s parts → Reads h' nm.strings (filled parts) := by
  rcases exists_brokenAt_iff.mpr hs with ⟨parts, hbroken⟩
  rcases pxNameNewFromString_eq hm hp hbroken.text hbroken.count hbroken.free with
    ⟨nm, h', -, hrun, -⟩
  refine ⟨nm, h', hrun, fun parts' hbroken' => ?_⟩
  rcases pxNameNewFromString_eq hm hp hbroken'.text hbroken'.count hbroken'.free with
    ⟨nm', h'', pre, hrun', hdown, -⟩
  cases hrun.symm.trans hrun'
  exact hdown.2.1

theorem xNameAssignFromString_good (pxDst : OwnedName) (hm : h.mallocOk h.calls = true)
    (hp : h.string p = .ok s) (hs : 2 ≤ s.bytes.count CFG_DELIMITER) :
    ∃ (nm : OwnedName) (h' : Heap), xNameAssignFromString h pxDst p = .ok (true, nm, h') ∧
      ∀ parts, BrokenAt s parts → Reads h' nm.strings (filled parts) := by
  rcases exists_brokenAt_iff.mpr hs with ⟨parts, hbroken⟩
  rcases xNameAssignFromString_eq pxDst hm hp hbroken.text hbroken.count hbroken.free with
    ⟨nm, h', hrun, -⟩
  refine ⟨nm, h', hrun, fun parts' hbroken' => ?_⟩
  rcases xNameAssignFromString_eq pxDst hm hp hbroken'.text hbroken'.count hbroken'.free with
    ⟨nm', h'', hrun', hdown, -⟩
  cases hrun.symm.trans hrun'
  exact hdown.2.1

/-! ### A parser which fails -/

/-- A string which is refused was never printed. -/
theorem parsed_bad {left : Option OwnedName} (hs : ¬ 2 ≤ s.bytes.count CFG_DELIMITER)
    (hmem : h'.mem = h.mem) (hleft : ∀ nm strings, left = some nm → ¬ Reads h' nm.strings strings) :
    Parsed h s false left h' where
  succeeds := iff_of_false (by simp) hs
  broken hgood := by cases hgood
  released _ := hmem
  unusable _ := hleft
  readBack strings hfour hd := by
    rcases exists_joined hfour with ⟨t, ht⟩
    refine ⟨t, printsTo_joined hfour hd ht, ?_⟩
    rintro rfl
    exact absurd (exists_brokenAt_iff.mp ⟨strings, brokenAt_joined hfour hd ht⟩) hs

theorem pxNameNewFromString_bad (hf : h.Fresh) (hm : h.mallocOk h.calls = true)
    (hp : h.string p = .ok s) (hs : ¬ 2 ≤ s.bytes.count CFG_DELIMITER) :
    ∃ h', pxNameNewFromString h p = .ok (none, h') ∧ h'.mem = h.mem := by
  rcases stale_split h h.brk sizeofName (s.length + 1) with ⟨pre, room, hsplit, hpre, hroom⟩
  rcases pvRsMemAlloc_built hm (sizeofName + (s.length + 1)) with ⟨h₁, halloc, hb⟩
  rw [← hpre] at hb hsplit
  rcases hb.breakdown (.at s.length none none none none (some ⟨h.brk, 0⟩)) hsplit hroom with
    ⟨h₂, good, nm', h₃, b, hwrite, hbreak, hb₃, hgood⟩
  rw [hpre] at hwrite hbreak
  rw [Bool.eq_false_iff.mpr (mt hgood.mp hs)] at hbreak
  rw [← Nat.add_assoc] at halloc
  have hfree : vRsMemFree h₃ (some ⟨h.brk, 0⟩) = .ok (h₃.setBlock h.brk none) :=
    if_pos ⟨rfl, by rw [hb₃.self]; rfl⟩
  refine ⟨h₃.setBlock h.brk none, ?_, ?_⟩
  · simp only [pxNameNewFromString, hp, Exec.ok_bind, halloc, hwrite, hbreak, hfree]
    rfl
  · rw [Heap.setBlock, hb₃.mem, Function.update_idem]
    exact Function.update_eq_self_iff.mpr (hf h.brk (Nat.le_refl _)).2.symm

/-- The new block is still there. -/
theorem xNameAssignFromString_bad (pxDst : OwnedName) (hm : h.mallocOk h.calls = true)
    (hp : h.string p = .ok s) (hs : ¬ 2 ≤ s.bytes.count CFG_DELIMITER) :
    ∃ h' b, xNameAssignFromString h pxDst p = .ok (false, .zero, h') ∧ Built h h' b := by
  rcases pvRsMemAlloc_built hm (s.length + 1) with ⟨h₁, halloc, hb⟩
  have hzero : ([] : Bytes).length + (s.length + 1) = s.length + 1 := Nat.zero_add _
  rw [← hzero] at hb
  rcases hb.breakdown { pxDst with unPostLn := 0, pxFree := some ⟨h.brk, 0⟩ }
    (List.nil_append _).symm (by simp) with ⟨h₂, good, nm', h₃, b, hwrite, hbreak, hb₃, hgood⟩
  refine ⟨h₃, b, ?_, hb₃⟩
  rw [List.length_nil] at hwrite hbreak
  rw [Bool.eq_false_iff.mpr (mt hgood.mp hs)] at hbreak
  simp only [xNameAssignFromString, hp, Exec.ok_bind, halloc, hwrite, hbreak]
  rfl

/-! ### Both parsers -/

theorem pxNameNewFromString_refused (hm : h.mallocOk h.calls = false) (hp : h.string p = .ok s) :
    pxNameNewFromString h p = .ok (none, h.called) := by
  simp only [pxNameNewFromString, hp, Exec.ok_bind, pvRsMemAlloc, hm]
  rfl

theorem xNameAssignFromString_refused (pxDst : OwnedName) (hm : h.mallocOk h.calls = false)
    (hp : h.string p = .ok s) :
    xNameAssignFromString h pxDst p = .ok (false, { pxDst with pxFree := none }, h.called) := by
  simp only [xNameAssignFromString, hp, Exec.ok_bind, pvRsMemAlloc, hm]
  rfl

theorem newFromString_parses_iff (hf : h.Fresh) (hp : h.string p = .ok s) :
    NameParser.pxNameNewFromString.Parses h p s ↔
      (2 ≤ s.bytes.count CFG_DELIMITER → h.mallocOk h.calls = true) := by
  constructor
  · rintro ⟨good, left, h', hrun, hparsed⟩ hs
    by_contra hm
    rw [Bool.not_eq_true] at hm
    rw [NameParser.run, pxNameNewFromString_refused hm hp] at hrun
    cases hrun
    exact Bool.false_ne_true (hparsed.succeeds.mpr hs)
  · intro hgrant
    have hnone : ∀ (h' : Heap) (nm : OwnedName) (strings : List CString), none = some nm →
        ¬ Reads h' nm.strings strings := by
      rintro h' nm strings hleft
      cases hleft
    by_cases hs : 2 ≤ s.bytes.count CFG_DELIMITER
    · rcases pxNameNewFromString_good (hgrant hs) hp hs with ⟨nm, h', hrun, hreads⟩
      refine ⟨true, some nm, h', ?_, parsed_good hs hreads⟩
      rw [NameParser.run, hrun]
      rfl
    · cases hm : h.mallocOk h.calls with
      | true =>
        rcases pxNameNewFromString_bad hf hm hp hs with ⟨h', hrun, hmem⟩
        refine ⟨false, none, h', ?_, parsed_bad hs hmem (hnone h')⟩
        rw [NameParser.run, hrun]
        rfl
      | false =>
        refine ⟨false, none, h.called, ?_, parsed_bad hs rfl (hnone _)⟩
        rw [NameParser.run, pxNameNewFromString_refused hm hp]
        rfl

/-- A bad string costs the block which was made for it. -/
theorem assignFromString_leaks (pxDst : OwnedName) (hf : h.Fresh)
    (hm : h.mallocOk h.calls = true) (hp : h.string p = .ok s)
    (hs : ¬ 2 ≤ s.bytes.count CFG_DELIMITER) :
    ¬ (NameParser.xNameAssignFromString pxDst).Parses h p s := by
  rintro ⟨good, left, h', hrun, hparsed⟩
  rcases xNameAssignFromString_bad pxDst hm hp hs with ⟨h₁, b, hassign, hb⟩
  rw [NameParser.run, hassign] at hrun
  cases hrun
  have hblk := hb.self
  rw [hparsed.released rfl, (hf h.brk (Nat.le_refl _)).2] at hblk
  cases hblk

/-- A name to which nothing could be assigned keeps its strings. -/
theorem assignFromString_refused_iff (pxDst : OwnedName) (hm : h.mallocOk h.calls = false)
    (hp : h.string p = .ok s) (hs : ¬ 2 ≤ s.bytes.count CFG_DELIMITER) :
    (NameParser.xNameAssignFromString pxDst).Parses h p s ↔
      ∀ strings, ¬ Reads h pxDst.strings strings := by
  have hrefused := xNameAssignFromString_refused pxDst hm hp
  have hkept : ∀ strings, Reads h.called pxDst.strings strings ↔ Reads h pxDst.strings strings :=
    fun strings => Iff.rfl
  constructor
  · rintro ⟨good, left, h', hrun, hparsed⟩ strings hreads
    rw [NameParser.run, hrefused] at hrun
    cases hrun
    exact hparsed.unusable rfl _ strings rfl ((hkept strings).mpr hreads)
  · intro hnone
    refine ⟨false, some { pxDst with pxFree := none }, h.called, ?_, parsed_bad hs rfl ?_⟩
    · rw [NameParser.run, hrefused]
      rfl
    · rintro nm strings hleft hreads
      cases hleft
      exact hnone strings ((hkept strings).mp hreads)

theorem assignFromString_parses_iff (pxDst : OwnedName) (hf : h.Fresh)
    (hp : h.string p = .ok s) : (NameParser.xNameAssignFromString pxDst).Parses h p s ↔
      (NameParser.xNameAssignFromString pxDst).Suits h s := by
  unfold NameParser.Suits
  split_ifs with hs
  · constructor
    · rintro ⟨good, left, h', hrun, hparsed⟩
      by_contra hm
      rw [Bool.not_eq_true] at hm
      rw [NameParser.run, xNameAssignFromString_refused pxDst hm hp] at hrun
      cases hrun
      exact Bool.false_ne_true (hparsed.succeeds.mpr hs)
    · intro hm
      rcases xNameAssignFromString_good pxDst hm hp hs with ⟨nm, h', hrun, hreads⟩
      refine ⟨true, some nm, h', ?_, parsed_good hs hreads⟩
      rw [NameParser.run, hrun]
      rfl
  · cases hm : h.mallocOk h.calls with
    | true => exact iff_of_false (assignFromString_leaks pxDst hf hm hp hs) (by simp)
    | false =>
      rw [assignFromString_refused_iff pxDst hm hp hs]
      exact (and_iff_right rfl).symm

/-- A parser meets what it owes exactly when it suits the string and the memory. -/
theorem parses_iff (hf : h.Fresh) (hp : h.string p = .ok s) (parser : NameParser) :
    parser.Parses h p s ↔ parser.Suits h s := by
  cases parser with
  | pxNameNewFromString => exact newFromString_parses_iff hf hp
  | xNameAssignFromString pxDst => exact assignFromString_parses_iff pxDst hf hp

/-- The string `e1/e2/e3/e4`. -/
def exampleText : CString := ⟨[101, 49, 47, 101, 50, 47, 101, 51, 47, 101, 52], by decide⟩

def textHeap : Heap := { partsHeap with
  mem := Function.update (fun _ => none) 0 (some exampleText.terminated) }

theorem textHeap_fresh : textHeap.Fresh := by
  intro a ha
  have hne : a ≠ 0 := Nat.ne_of_gt ha
  simp [textHeap, partsHeap, hne]

theorem text_parsed : NameParser.pxNameNewFromString.Parses textHeap (some ⟨0, 0⟩) exampleText :=
  Iff.mpr (parses_iff textHeap_fresh (by rfl) .pxNameNewFromString) fun _ => rfl

/-- The string `e1` is no name. -/
theorem part_leaked : ¬ (NameParser.xNameAssignFromString .zero).Parses partsHeap (some ⟨0, 0⟩)
    ⟨[101, 49], by decide⟩ :=
  assignFromString_leaks .zero partsHeap_fresh rfl (by rfl) (by decide)

end RinaSense.Common
