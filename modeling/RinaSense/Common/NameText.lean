import RinaSense.Common.NameBuild

/-!
# The text of a name

The block which `pcNameToString` makes of a name, whether the strings were allocated with the
name or not, and what of it depends on the memory in which the name was made.
-/

namespace RinaSense.Common

open Library.Memory

/-- The first `n` bytes with delimiters for terminators, and the rest as it is. -/
def delimited (n : ℕ) (b : Bytes) : Bytes :=
  (b.take n).map (fun c => if c = 0 then CFG_DELIMITER else c) ++ b.drop n

/-- The bytes which `pcNameToString` puts into a new block. -/
def NameBlock (h : Heap) (nm : Name) (b : Bytes) : Prop :=
  if nm.unPostLn = 0 then ∃ strings, Reads h nm.strings strings ∧ b = joined strings
  else ∃ bs, h.read nm.pcProcessName 0 (nm.unPostLn + 1) = .ok bs ∧ b = delimited nm.unPostLn bs

/-- The name prints as the string. -/
def NameText (h : Heap) (nm : Name) (t : CString) : Prop :=
  ∃ b, NameBlock h nm b ∧ cstring b = some t

/-- The parts which `xNameAssignDup` copies can be read, where they are not missing. -/
def PartsRead (h : Heap) (nm : Name) : Prop :=
  ∃ s₁ s₂ s₃, h.stringOr nm.pcProcessName = .ok s₁ ∧ h.stringOr nm.pcProcessInstance = .ok s₂ ∧
    h.stringOr nm.pcEntityName = .ok s₃

/-- The strings of the name were made below the address `n`. -/
def Name.Below (nm : Name) (n : ℕ) : Prop := ∀ p, some p ∈ nm.strings → p.block < n

variable {h h' : Heap} {nm : Name} {b b' : Bytes} {t u : CString} {n : ℕ}

theorem Name.Below.mono {k : ℕ} (hn : nm.Below n) (hk : n ≤ k) : nm.Below k :=
  fun p hp => Nat.lt_of_lt_of_le (hn p hp) hk

theorem NameBlock.unique (hb : NameBlock h nm b) (hb' : NameBlock h nm b') : b = b' := by
  unfold NameBlock at hb hb'
  split_ifs at hb hb' with hn
  · obtain ⟨strings, hr, rfl⟩ := hb
    obtain ⟨strings', hr', rfl⟩ := hb'
    have hone : Relator.RightUnique fun p s => h.string p = .ok s := fun p s s' hs hs' =>
      Except.ok.inj (hs.symm.trans hs')
    rw [List.right_unique_forall₂' hone hr hr']
  · obtain ⟨bs, hread, rfl⟩ := hb
    obtain ⟨bs', hread', rfl⟩ := hb'
    rw [Except.ok.inj (hread.symm.trans hread')]

theorem NameText.unique (ht : NameText h nm t) (hu : NameText h nm u) : t = u := by
  obtain ⟨b, hb, htext⟩ := ht
  obtain ⟨b', hb', htext'⟩ := hu
  rw [hb.unique hb', htext'] at htext
  exact (Option.some.inj htext).symm

theorem Heap.length_of_read {p : Option Ptr} {off k : ℕ} (hread : h.read p off k = .ok b) :
    b.length = k := by
  obtain ⟨q, -, hread⟩ := Exec.bind_eq_ok.mp hread
  unfold load at hread
  cases hblock : h.mem (q.add off).block with
  | none =>
    rw [hblock] at hread
    cases hread
  | some bs =>
    simp only [hblock] at hread
    split_ifs at hread with hfit
    · cases hread
      rw [List.length_take, List.length_drop]
      omega
    · cases hread

theorem cstring_cons_ne_nil {x : UInt8} (hx : x ≠ 0) (ht : cstring (x :: b) = some t) :
    t.bytes ≠ [] := by
  unfold cstring at ht
  split_ifs at ht
  cases ht
  have hcons : (x :: b).takeWhile (fun x => x ≠ 0) = x :: b.takeWhile (fun x => x ≠ 0) :=
    List.takeWhile_cons_of_pos (decide_eq_true hx)
  intro hnil
  exact List.cons_ne_nil _ _ (hcons.symm.trans hnil)

/-- A name prints with a delimiter at least. -/
theorem NameText.ne_nil (ht : NameText h nm t) : t.bytes ≠ [] := by
  obtain ⟨b, hb, htext⟩ := ht
  unfold NameBlock at hb
  split_ifs at hb with hn
  · obtain ⟨strings, hr, rfl⟩ := hb
    have hfour : strings.length = 4 := hr.length_eq.symm
    cases strings with
    | nil => cases hfour
    | cons s strings =>
      obtain ⟨u, hu⟩ := joined_terminated s strings
      have hlen := joined_length s strings
      rw [hu, cstring_terminated] at htext
      cases htext
      rw [hu, CString.terminated_length, CString.length] at hlen
      rw [List.length_cons] at hfour
      intro hnil
      rw [hnil, List.length_nil] at hlen
      omega
  · obtain ⟨bs, hread, rfl⟩ := hb
    have hlen := Heap.length_of_read hread
    obtain ⟨n, hpost⟩ := Nat.exists_eq_succ_of_ne_zero hn
    cases bs with
    | nil => cases hlen
    | cons c bs =>
      have hfirst : (if c = 0 then CFG_DELIMITER else c) ≠ 0 := by
        split_ifs with hc
        · decide
        · exact hc
      rw [delimited, hpost, List.take_succ_cons, List.map_cons, List.cons_append] at htext
      exact cstring_cons_ne_nil hfirst htext

/-! ### Later memory -/

section Later

variable {p : Option Ptr}

theorem string_below (hmem : ∀ a < n, h'.mem a = h.mem a) (hp : ∀ q, p = some q → q.block < n) :
    h'.string p = h.string p := by
  cases p with
  | none => rfl
  | some q => simp only [Heap.string, deref_some, Exec.ok_bind, hmem q.block (hp q rfl)]

theorem stringOr_below (hmem : ∀ a < n, h'.mem a = h.mem a)
    (hp : ∀ q, p = some q → q.block < n) : h'.stringOr p = h.stringOr p := by
  cases p with
  | none => rfl
  | some q => exact string_below hmem hp

theorem read_below (hmem : ∀ a < n, h'.mem a = h.mem a) (hp : ∀ q, p = some q → q.block < n)
    (off k : ℕ) : h'.read p off k = h.read p off k := by
  cases p with
  | none => rfl
  | some q => simp only [Heap.read, deref_some, Exec.ok_bind, load, Ptr.add,
      hmem q.block (hp q rfl)]

theorem reads_below (hmem : ∀ a < n, h'.mem a = h.mem a) {ps : List (Option Ptr)}
    (hps : ∀ q, some q ∈ ps → q.block < n) {strings : List CString} (hr : Reads h ps strings) :
    Reads h' ps strings := by
  induction hr with
  | nil => exact .nil
  | @cons p s ps strings hs _ ih =>
    refine .cons ?_ (ih fun q hq => hps q (List.mem_cons_of_mem p hq))
    rw [string_below hmem fun q hq => hps q (hq ▸ List.mem_cons_self)]
    exact hs

theorem NameBlock.later (hmem : ∀ a < n, h'.mem a = h.mem a) (hn : nm.Below n)
    (hb : NameBlock h nm b) : NameBlock h' nm b := by
  unfold NameBlock at hb ⊢
  split_ifs at hb ⊢
  · obtain ⟨strings, hr, rfl⟩ := hb
    exact ⟨strings, reads_below hmem hn hr, rfl⟩
  · obtain ⟨bs, hread, rfl⟩ := hb
    refine ⟨bs, ?_, rfl⟩
    rw [read_below hmem fun q hq => hn q (hq ▸ List.mem_cons_self)]
    exact hread

theorem nameText_later (hmem : ∀ a < n, h'.mem a = h.mem a) (hn : nm.Below n) :
    NameText h' nm t ↔ NameText h nm t := by
  constructor
  · rintro ⟨b, hb, ht⟩
    exact ⟨b, hb.later (fun a ha => (hmem a ha).symm) hn, ht⟩
  · rintro ⟨b, hb, ht⟩
    exact ⟨b, hb.later hmem hn, ht⟩

theorem partsRead_later (hmem : ∀ a < n, h'.mem a = h.mem a) (hn : nm.Below n) :
    PartsRead h' nm ↔ PartsRead h nm := by
  have hone : ∀ p ∈ nm.strings, h'.stringOr p = h.stringOr p := fun p hp =>
    stringOr_below hmem fun q hq => hn q (hq ▸ hp)
  unfold PartsRead
  rw [hone nm.pcProcessName (by simp [Name.strings]),
    hone nm.pcProcessInstance (by simp [Name.strings]),
    hone nm.pcEntityName (by simp [Name.strings])]

end Later

/-! ### Printing -/

theorem Built.below (hb : Built h h' b) : ∀ a < h.brk, h'.mem a = h.mem a := fun a ha => by
  rw [hb.mem, Function.update_of_ne (Nat.ne_of_lt ha)]

theorem reads_of_sumLengths {ps : List (Option Ptr)} (hsum : sumLengths h ps = .ok n) :
    ∃ strings, Reads h ps strings := by
  induction ps generalizing n with
  | nil => exact ⟨[], .nil⟩
  | cons p ps ih =>
    obtain ⟨s, hs, hsum⟩ := Exec.bind_eq_ok.mp hsum
    obtain ⟨m, hm, -⟩ := Exec.bind_eq_ok.mp hsum
    obtain ⟨strings, hr⟩ := ih hm
    exact ⟨s :: strings, .cons hs hr⟩

theorem pcNameToString_built (hn : nm.Below h.brk) (hg : h.mallocOk h.calls = true)
    (hb : NameBlock h nm b) : ∃ h', pcNameToString h nm = .ok (some h.brk, h') ∧ Built h h' b := by
  unfold NameBlock at hb
  split_ifs at hb with hpost
  · obtain ⟨strings, hr, rfl⟩ := hb
    obtain ⟨h₁, halloc, hbuilt⟩ := pvRsMemAlloc_built hg (characters strings + 4)
    have hr₁ : Reads h₁ nm.strings strings := reads_below hbuilt.below hn hr
    have hsize : (h.stale h.brk (characters strings + 4)).length = characters strings + 4 :=
      Heap.stale_length _ _ _
    have hprint := vNameToStringBuf_reads hr₁ (Nat.le_of_eq hsize.symm)
    have hjoined : (joined strings).length = characters strings + 4 := by
      have hfour : strings.length = 4 := hr.length_eq.symm
      cases strings with
      | nil => cases hfour
      | cons s strings =>
        rw [joined_length, Nat.add_assoc, ← List.length_cons (a := s), hfour]
    have hwhole : splice (h.stale h.brk (characters strings + 4)) 0 (joined strings) =
        joined strings := by
      have hfront : splice (h.stale h.brk (characters strings + 4) ++ []) 0 (joined strings) =
          joined strings ++ [] := splice_front (hjoined.trans hsize.symm)
      rwa [List.append_nil, List.append_nil] at hfront
    rw [hsize, hwhole] at hprint
    refine ⟨_, ?_, hbuilt.setBlock (joined strings)⟩
    rw [pcNameToString, if_pos hpost, sumLengths_reads hr, Exec.ok_bind]
    simp only [halloc, hbuilt.self, inBounds_some, Exec.ok_bind, hprint]
    rfl
  · obtain ⟨bs, hread, rfl⟩ := hb
    obtain ⟨h₁, halloc, hbuilt⟩ := pvRsMemAlloc_built hg (nm.unPostLn + 1)
    have hread₁ : h₁.read nm.pcProcessName 0 (nm.unPostLn + 1) = .ok bs := by
      rw [read_below hbuilt.below fun q hq => hn q (hq ▸ List.mem_cons_self)]
      exact hread
    refine ⟨_, ?_, hbuilt.setBlock (delimited nm.unPostLn bs)⟩
    rw [pcNameToString, if_neg hpost]
    simp only [halloc, hread₁, Exec.ok_bind]
    rfl

/-- What is printed shows that the memory was granted. -/
theorem pcNameToString_granted {a : ℕ} (hrun : pcNameToString h nm = .ok (some a, h')) :
    h.mallocOk h.calls = true := by
  by_contra hg
  have hrefused : ∀ n, pvRsMemAlloc h n = (none, h.called) := fun n => if_neg hg
  unfold pcNameToString at hrun
  split_ifs at hrun with hpost
  · obtain ⟨n, -, hrun⟩ := Exec.bind_eq_ok.mp hrun
    simp only [hrefused] at hrun
    cases hrun
  · simp only [hrefused] at hrun
    cases hrun

theorem nameBlock_of_printed (hn : nm.Below h.brk) {a : ℕ}
    (hrun : pcNameToString h nm = .ok (some a, h')) : ∃ b, NameBlock h nm b := by
  have hg := pcNameToString_granted hrun
  unfold NameBlock
  unfold pcNameToString at hrun
  split_ifs at hrun ⊢ with hpost
  · obtain ⟨n, hsum, -⟩ := Exec.bind_eq_ok.mp hrun
    obtain ⟨strings, hr⟩ := reads_of_sumLengths hsum
    exact ⟨_, strings, hr, rfl⟩
  · obtain ⟨h₁, halloc, hbuilt⟩ := pvRsMemAlloc_built hg (nm.unPostLn + 1)
    simp only [halloc] at hrun
    obtain ⟨bs, hread, -⟩ := Exec.bind_eq_ok.mp hrun
    rw [read_below hbuilt.below fun q hq => hn q (hq ▸ List.mem_cons_self)] at hread
    exact ⟨_, bs, hread, rfl⟩

/-! ### Copies of names -/

/-- The copy of the parts leaves the block which is released with the name. -/
theorem prvNameCopyAssignParts_pxFree {nm nm' : OwnedName} {p : Ptr} {s₁ s₂ s₃ s₄ : CString}
    (hrun : prvNameCopyAssignParts h nm p s₁ s₂ s₃ s₄ = .ok (nm', h')) :
    nm'.pxFree = nm.pxFree := by
  obtain ⟨⟨_, h₁⟩, -, hrun⟩ := Exec.bind_eq_ok.mp hrun
  obtain ⟨⟨_, h₂⟩, -, hrun⟩ := Exec.bind_eq_ok.mp hrun
  obtain ⟨⟨_, h₃⟩, -, hrun⟩ := Exec.bind_eq_ok.mp hrun
  obtain ⟨⟨_, h₄⟩, -, hrun⟩ := Exec.bind_eq_ok.mp hrun
  cases hrun
  rfl

theorem xNameAssignDup_granted (pxDst : OwnedName) (hg : h.mallocOk h.calls = true)
    (hp : PartsRead h nm) :
    ∃ nm' h' b, xNameAssignDup h pxDst nm = .ok (true, nm', h') ∧ Built h h' b := by
  obtain ⟨s₁, s₂, s₃, hs₁, hs₂, hs₃⟩ := hp
  obtain ⟨nm', h', hrun, ⟨pre, post, hb, -⟩, -⟩ :=
    xNameAssignFromPartsDup_eq pxDst hg hs₁ hs₂ hs₃ hs₂
  exact ⟨nm', h', _, hrun, hb⟩

theorem xNameAssignDup_refused (pxDst : OwnedName) (hg : h.mallocOk h.calls ≠ true)
    (hp : PartsRead h nm) :
    xNameAssignDup h pxDst nm = .ok (false, { pxDst with pxFree := none }, h.called) := by
  obtain ⟨s₁, s₂, s₃, hs₁, hs₂, hs₃⟩ := hp
  simp only [xNameAssignDup, xNameAssignFromPartsDup, hs₁, hs₂, hs₃, Exec.ok_bind, pvRsMemAlloc,
    if_neg hg]
  rfl

/-- What a copy which comes back shows of the name and of the memory. -/
theorem xNameAssignDup_cases {pxDst nm' : OwnedName} {good : Bool}
    (hrun : xNameAssignDup h pxDst nm = .ok (good, nm', h')) : PartsRead h nm ∧
      ((good = false ∧ h.mallocOk h.calls ≠ true ∧ nm' = { pxDst with pxFree := none } ∧
        h' = h.called) ∨
      (good = true ∧ h.mallocOk h.calls = true ∧ nm'.pxFree = some ⟨h.brk, 0⟩)) := by
  have hparts : PartsRead h nm := by
    obtain ⟨s₁, hs₁, hrun⟩ := Exec.bind_eq_ok.mp hrun
    obtain ⟨s₂, hs₂, hrun⟩ := Exec.bind_eq_ok.mp hrun
    obtain ⟨s₃, hs₃, -⟩ := Exec.bind_eq_ok.mp hrun
    exact ⟨s₁, s₂, s₃, hs₁, hs₂, hs₃⟩
  refine ⟨hparts, ?_⟩
  by_cases hg : h.mallocOk h.calls = true
  · obtain ⟨s₁, s₂, s₃, hs₁, hs₂, hs₃⟩ := hparts
    simp only [xNameAssignDup, xNameAssignFromPartsDup, hs₁, hs₂, hs₃, Exec.ok_bind, pvRsMemAlloc,
      if_pos hg] at hrun
    obtain ⟨⟨copied, h₁⟩, hcopy, hrun⟩ := Exec.bind_eq_ok.mp hrun
    cases hrun
    exact .inr ⟨rfl, hg, prvNameCopyAssignParts_pxFree hcopy⟩
  · rw [xNameAssignDup_refused pxDst hg hparts] at hrun
    cases hrun
    exact .inl ⟨rfl, hg, rfl, rfl⟩

end RinaSense.Common
