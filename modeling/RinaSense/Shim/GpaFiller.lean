import RinaSense.Shim.ArpLatest
import RinaSense.Shim.ArpBounds

/-!
# The two ways to remove filler

A copy of a protocol address loses its filler while it is made, by a scan from its end, or
afterwards, by a search from its start. The scan stops at the last byte which is not filler
and looks for it in front of the address when there is none.
-/

namespace RinaSense.Shim

open Common Library.Memory Library.Filler

/-- The loop `for (c = end; *(--c) == ucFiller;) uxLength--` with `uxLength` bytes left. -/
def scanBack (pucAddress : Bytes) (ucFiller : UInt8) : ℕ → Exec ℕ
  | 0 => .error .outOfBounds
  | n + 1 => do
    let c ← inBounds pucAddress[n]?
    if c = ucFiller then scanBack pucAddress ucFiller n else return n + 1

/-- A copy which shrinks, with its loop and its copy of bytes. The new block has the length of the
address with its filler. -/
def pxDupGPAShrinking (h : Heap) (pxSourcePa : GPA) (ucFiller : UInt8) : Exec (Option GPA × Heap) :=
  if !xIsGPAOK pxSourcePa then .ok (none, h)
  else
    match requestMemory h with
    | (false, h) => .ok (none, h)
    | (true, h) => do
      let uxLength ← scanBack pxSourcePa.pucAddress ucFiller pxSourcePa.uxLength
      match requestMemory h with
      | (false, h) => return (none, h)
      | (true, h) => do
        let bs ← readBuf pxSourcePa.pucAddress 0 uxLength
        let pucAddress ← writeBuf (h.stale h.brk pxSourcePa.uxLength) 0 bs
        return (some ⟨← readBuf pucAddress 0 uxLength⟩, h)

/-- A copy which is shrunk afterwards. A shrinking which fails gives no address. -/
def dupThenShrink (h : Heap) (pxSourcePa : GPA) (ucFiller : UInt8) : Exec (Option GPA × Heap) := do
  match ← pxDupGPA h pxSourcePa false ucFiller with
  | (none, h) => return (none, h)
  | (some pxGpa, h) =>
    match xGPAShrink h pxGpa ucFiller with
    | (true, pxGpa, h) => return (some pxGpa, h)
    | (false, _, h) => return (none, h)

/-- A copy which shrinks comes back, and its result is an address or none. -/
def ShrinksSafely (h : Heap) (g : GPA) (f : UInt8) : Prop :=
  ∃ g' h', pxDupGPAShrinking h g f = .ok (g', h') ∧ ∀ d ∈ g', xIsGPAOK d = true

/-- With memory both ways come back with one address, and in no case with two different ones. -/
structure WaysAgree (g : GPA) (f : UInt8) : Prop where
  available : ∀ h, h.MemoryAvailable → ∃ d h₁ h₂,
    pxDupGPA h g true f = .ok (some d, h₁) ∧ dupThenShrink h g f = .ok (some d, h₂)
  unique : ∀ h₁ h₂ d₁ d₂ h₁' h₂', pxDupGPA h₁ g true f = .ok (some d₁, h₁') →
    dupThenShrink h₂ g f = .ok (some d₂, h₂') → d₁.uxLength = d₂.uxLength ∧
      d₁.pucAddress = d₂.pucAddress

variable {h : Heap} {g : GPA} {f : UInt8}

/-! ### The scan -/

theorem scanBack_append (bs rest : Bytes) (f : UInt8) :
    scanBack (bs ++ rest) f bs.length =
      inBounds (if strip f bs = [] then none else some (strip f bs).length) := by
  induction bs using List.reverseRecOn generalizing rest with
  | nil => rfl
  | append_singleton bs x ih =>
    have hread : (bs ++ [x] ++ rest)[bs.length]? = some x := by simp
    rw [List.length_append, List.length_singleton, scanBack, hread]
    by_cases hx : x = f
    · have hstrip : strip f (bs ++ [x]) = strip f bs :=
        List.rdropWhile_concat_pos _ _ _ (by simpa using hx)
      rw [hstrip, ← ih ([x] ++ rest), ← List.append_assoc]
      simp [inBounds, hx]
    · have hstrip : strip f (bs ++ [x]) = bs ++ [x] :=
        List.rdropWhile_concat_neg _ _ _ (by simpa using hx)
      rw [hstrip]
      simp [inBounds, hx, pure, Except.pure]

/-- The scan ends behind the last byte which is not filler. -/
theorem scanBack_eq (bs : Bytes) (f : UInt8) :
    scanBack bs f bs.length =
      inBounds (if strip f bs = [] then none else some (strip f bs).length) := by
  have hscan := scanBack_append bs [] f
  rwa [List.append_nil] at hscan

/-- A copy to the start of a block which is long enough reads back. -/
theorem copy_to_block (block : Bytes) {bs : Bytes} (hlen : bs.length ≤ block.length) :
    writeBuf block 0 bs = .ok (splice block 0 bs) ∧
      readBuf (splice block 0 bs) 0 bs.length = .ok bs := by
  have hin : 0 + bs.length ≤ block.length := by omega
  have hslice : slice (splice block 0 bs) 0 bs.length = some bs := by
    rw [slice_eq_some, splice_length hin]
    exact ⟨hin, by simp [splice]⟩
  constructor
  · rw [writeBuf, patch_eq_some hin]
    rfl
  · rw [readBuf, hslice]
    rfl

theorem readBuf_strip (bs : Bytes) (f : UInt8) :
    readBuf bs 0 (strip f bs).length = .ok (strip f bs) := by
  have hpre : strip f bs <+: bs := List.rdropWhile_prefix _ _
  have hslice : slice bs 0 (strip f bs).length = some (strip f bs) := by
    rw [slice_eq_some, List.drop_zero, Nat.zero_add]
    exact ⟨hpre.length_le, (List.prefix_iff_eq_take.mp hpre).symm⟩
  rw [readBuf, hslice]
  rfl

/-- The loop computes what the shrinking copy is described by. -/
theorem pxDupGPAShrinking_eq (h : Heap) (g : GPA) (f : UInt8) :
    pxDupGPAShrinking h g f = pxDupGPA h g true f := by
  unfold pxDupGPAShrinking pxDupGPA
  split
  · rfl
  · rcases requestMemory h with ⟨_ | _, h₁⟩
    · rfl
    · rw [GPA.uxLength, scanBack_eq]
      by_cases hnil : strip f g.pucAddress = []
      · simp [hnil, inBounds]
      · rcases hreq : requestMemory h₁ with ⟨_ | _, h₂⟩
        · simp [hnil, inBounds, hreq]
        · have hlen : (strip f g.pucAddress).length ≤
              (h₂.stale h₂.brk g.pucAddress.length).length := by
            rw [Heap.stale_length]
            exact (List.rdropWhile_prefix _ _).length_le
          simp [hnil, inBounds, hreq, readBuf_strip, copy_to_block _ hlen]

/-! ### The copies -/

theorem pxDupGPA_shrink_cases (h : Heap) (g : GPA) (f : UInt8) :
    (xIsGPAOK g = false ∧ pxDupGPA h g true f = .ok (none, h)) ∨
    (xIsGPAOK g = true ∧ ¬ Granted h 0 ∧ pxDupGPA h g true f = .ok (none, h.afterCalls 1)) ∨
    (xIsGPAOK g = true ∧ Granted h 0 ∧ strip f g.pucAddress = [] ∧
      pxDupGPA h g true f = .error .outOfBounds) ∨
    (Granted h 0 ∧ strip f g.pucAddress ≠ [] ∧ ¬ Granted h 1 ∧
      pxDupGPA h g true f = .ok (none, h.afterCalls 2)) ∨
    (Granted h 0 ∧ strip f g.pucAddress ≠ [] ∧ Granted h 1 ∧
      pxDupGPA h g true f = .ok (some ⟨strip f g.pucAddress⟩, h.afterCalls 2)) := by
  unfold pxDupGPA
  by_cases hok : xIsGPAOK g = true
  · by_cases h0 : Granted h 0
    · by_cases hnil : strip f g.pucAddress = []
      · simp [hok, h0, h0.firstRequest, hnil, inBounds]
      · by_cases h1 : Granted h 1
        · simp [hok, h0, h0.firstRequest, hnil, h1, h1.request, inBounds, pure, Except.pure]
        · simp [hok, h0, h0.firstRequest, hnil, h1, request_refused h1, inBounds, pure,
            Except.pure]
    · simp [hok, h0, firstRequest_refused h0]
  · simp [hok]

theorem xIsGPAOK_strip (hs : strip f g.pucAddress ≠ []) :
    xIsGPAOK ⟨strip f g.pucAddress⟩ = true := (xIsGPAOK_iff _).mpr hs

/-- A plain copy is the address. -/
theorem pxDupGPA_plain {d : GPA} {h' : Heap} (hdup : pxDupGPA h g false f = .ok (some d, h')) :
    d = g := by
  unfold pxDupGPA at hdup
  by_cases hok : xIsGPAOK g = true
  · rcases hreq : requestMemory h with ⟨_ | _, h₁⟩
    · simp [hok, hreq] at hdup
    · rcases hreq₁ : requestMemory h₁ with ⟨_ | _, h₂⟩
      · simp [hok, hreq, hreq₁, pure, Except.pure] at hdup
      · simp only [hok, hreq, hreq₁, pure, Except.pure] at hdup
        cases hdup
        rfl
  · simp [hok] at hdup

/-- An address which was shrunk with success ends in front of its first filler. -/
theorem xGPAShrink_true {d : GPA} {h' : Heap} (hs : xGPAShrink h g f = (true, d, h')) :
    d = ⟨cut f g.pucAddress⟩ := by
  unfold xGPAShrink at hs
  split at hs
  · cases hs
  · split at hs
    · rcases hreq : requestMemory h with ⟨_ | _, h₁⟩
      · simp [hreq] at hs
      · simp only [hreq] at hs
        cases hs
        rfl
    · rename_i hf
      cases hs
      rw [cut_of_not_mem hf]

theorem dupThenShrink_some {d : GPA} {h' : Heap}
    (hdup : dupThenShrink h g f = .ok (some d, h')) : d = ⟨cut f g.pucAddress⟩ := by
  obtain ⟨⟨copy, h₁⟩, hcopy, hdup⟩ := Exec.bind_eq_ok.mp hdup
  cases copy with
  | none => cases hdup
  | some copy =>
    cases pxDupGPA_plain hcopy
    rcases hs : xGPAShrink h₁ g f with ⟨_ | _, shrunk, h₂⟩
    · simp only [hs] at hdup
      cases hdup
    · simp only [hs] at hdup
      cases hdup
      exact xGPAShrink_true hs

theorem dupThenShrink_available (hm : h.MemoryAvailable) (hg : g.pucAddress ≠ []) (f : UInt8) :
    ∃ k, dupThenShrink h g f = .ok (some ⟨cut f g.pucAddress⟩, h.afterCalls k) := by
  obtain ⟨k, hk⟩ := xGPAShrink_available (hm.afterCalls 2) hg f
  refine ⟨2 + k, ?_⟩
  rw [Heap.afterCalls_afterCalls] at hk
  simp [dupThenShrink, pxDupGPA_available hm hg, hk, pure, Except.pure]

theorem pxDupGPA_shrink_some {d : GPA} {h' : Heap}
    (hdup : pxDupGPA h g true f = .ok (some d, h')) :
    strip f g.pucAddress ≠ [] ∧ d = ⟨strip f g.pucAddress⟩ := by
  rcases pxDupGPA_cases hdup with hnone | ⟨hne, hsome⟩
  · cases hnone
  · cases hsome
    exact ⟨hne, rfl⟩

/-- The two ways agree exactly on an address which is bytes other than the filler with filler
behind them. -/
theorem filler_removals_agree_iff (g : GPA) (f : UInt8) (hg : xIsGPAOK g = true) :
    WaysAgree g f ↔
      ∃ bs n, bs ≠ [] ∧ f ∉ bs ∧ g.pucAddress = bs ++ List.replicate n f := by
  have hne := (xIsGPAOK_iff g).mp hg
  constructor
  · intro hagree
    obtain ⟨d, h₁, h₂, hscan, hsearch⟩ := hagree.available exampleArpHeap fun _ => rfl
    obtain ⟨hstrip, hd⟩ := pxDupGPA_shrink_some hscan
    have hsame : strip f g.pucAddress = cut f g.pucAddress :=
      congrArg GPA.pucAddress (hd.symm.trans (dupThenShrink_some hsearch))
    obtain ⟨bs, n, hbs, hpad⟩ := strip_eq_cut_iff.mp hsame
    refine ⟨bs, n, ?_, hbs, hpad⟩
    rintro rfl
    rw [hsame, hpad, cut_append_replicate] at hstrip
    exact hstrip rfl
  · rintro ⟨bs, n, hbs, hf, hpad⟩
    have hcut : cut f g.pucAddress = bs := by
      rw [hpad, cut_append_replicate, cut_of_not_mem hf]
    have hstrip : strip f g.pucAddress = bs := by
      rw [strip_eq_cut_iff.mpr ⟨bs, n, hf, hpad⟩, hcut]
    constructor
    · intro h hm
      have hscan := pxDupGPA_shrink_available hm (f := f) (hstrip ▸ hbs)
      obtain ⟨k, hsearch⟩ := dupThenShrink_available hm hne f
      rw [hcut] at hsearch
      rw [hstrip] at hscan
      exact ⟨_, _, _, hscan, hsearch⟩
    · intro h₁ h₂ d₁ d₂ h₁' h₂' hscan hsearch
      obtain ⟨-, rfl⟩ := pxDupGPA_shrink_some hscan
      obtain rfl := dupThenShrink_some hsearch
      simp [GPA.uxLength, hcut, hstrip]

/-- An address of two bytes and two filler bytes. -/
theorem filler_removals_agree_padded : WaysAgree ⟨[65, 66, 0, 0]⟩ 0 :=
  (filler_removals_agree_iff ⟨[65, 66, 0, 0]⟩ 0 rfl).mpr ⟨[65, 66], 2, by decide, by decide, rfl⟩

/-- A filler byte in the middle ends the address for the search, and the scan passes over it. -/
theorem filler_in_middle_differs :
    ∃ h₁ h₂, xIsGPAOK ⟨[1, 0, 2]⟩ = true ∧ exampleArpHeap.MemoryAvailable ∧
      pxDupGPA exampleArpHeap ⟨[1, 0, 2]⟩ true 0 = .ok (some ⟨[1, 0, 2]⟩, h₁) ∧
      dupThenShrink exampleArpHeap ⟨[1, 0, 2]⟩ 0 = .ok (some ⟨[1]⟩, h₂) ∧
      ¬ WaysAgree ⟨[1, 0, 2]⟩ 0 := by
  refine ⟨_, _, rfl, fun _ => rfl, rfl, rfl, fun hagree => ?_⟩
  have hlen := (hagree.unique _ _ _ _ _ _
    (show pxDupGPA exampleArpHeap ⟨[1, 0, 2]⟩ true 0 = .ok (some ⟨[1, 0, 2]⟩, _) from rfl)
    (show dupThenShrink exampleArpHeap ⟨[1, 0, 2]⟩ 0 = .ok (some ⟨[1]⟩, _) from rfl)).1
  exact absurd hlen (by decide)

/-- The scan stays in the address exactly when there is a byte to find. -/
theorem scan_safe_iff (h : Heap) (g : GPA) (f : UInt8) (hg : xIsGPAOK g = true) :
    ShrinksSafely h g f ↔ (Granted h 0 → ∃ x ∈ g.pucAddress, x ≠ f) := by
  have hfiller : strip f g.pucAddress = [] ↔ ¬ ∃ x ∈ g.pucAddress, x ≠ f := by
    rw [strip_eq_nil_iff]
    push Not
    rfl
  rw [ShrinksSafely, pxDupGPAShrinking_eq]
  rcases pxDupGPA_shrink_cases h g f with ⟨hbad, -⟩ | ⟨-, h0, hdup⟩ | ⟨-, h0, hnil, hdup⟩ |
    ⟨-, hne, -, hdup⟩ | ⟨-, hne, -, hdup⟩
  · rw [hg] at hbad
    cases hbad
  · rw [hdup]
    exact iff_of_true ⟨none, _, rfl, fun _ hd => absurd hd (Option.not_mem_none _)⟩
      fun h0' => absurd h0' h0
  · rw [hdup]
    refine iff_of_false ?_ fun hbyte => hfiller.mp hnil (hbyte h0)
    rintro ⟨g', h', hout, -⟩
    cases hout
  · rw [hdup]
    have hbyte := not_not.mp (mt hfiller.mpr hne)
    exact iff_of_true ⟨none, _, rfl, fun _ hd => absurd hd (Option.not_mem_none _)⟩ fun _ => hbyte
  · rw [hdup]
    have hbyte := not_not.mp (mt hfiller.mpr hne)
    refine iff_of_true ⟨_, _, rfl, fun d hd => ?_⟩ fun _ => hbyte
    cases hd
    exact xIsGPAOK_strip hne

/-- An address with one byte in front of its filler. -/
theorem scan_safe_padded : ShrinksSafely exampleArpHeap ⟨[65, 0, 0]⟩ 0 :=
  (scan_safe_iff exampleArpHeap ⟨[65, 0, 0]⟩ 0 rfl).mpr fun _ => ⟨65, by decide, by decide⟩

/-- An address of filler bytes only is valid, and the scan leaves it at its start. -/
theorem scan_leaves_filler :
    xIsGPAOK ⟨[0, 0, 0]⟩ = true ∧
      pxDupGPAShrinking exampleArpHeap ⟨[0, 0, 0]⟩ 0 = .error .outOfBounds ∧
      ¬ ShrinksSafely exampleArpHeap ⟨[0, 0, 0]⟩ 0 := by
  refine ⟨rfl, rfl, ?_⟩
  rintro ⟨g', h', hout, -⟩
  cases hout

end RinaSense.Shim
