import RinaSense.Shim.ArpHandles
import RinaSense.Shim.Flows

/-!
# The copies of the ARP cache

Every buffer which an address is copied to on its way into the cache, into the log and through a
lookup. The buffers of the copies are as long as the address, and the one of the row printer has
a fixed length. The addresses are those of registered names, of any length, and those which a
reply brings.
-/

namespace RinaSense.Shim

open Common Library.Memory Library.Filler Library.Runs

variable (pf : Platform)

/-- The copy of an address with a terminator, which the caller releases. -/
def xGPAAddressToStringCopying (h : Heap) (pxGpa : GPA) : Exec (Option Bytes × Heap) :=
  if !xIsGPAOK pxGpa then .ok (none, h)
  else
    match requestMemory h with
    | (false, h) => .ok (none, h)
    | (true, h) => do
      let tmp ← writeBuf (h.stale h.brk (pxGpa.uxLength + 1)) 0 pxGpa.pucAddress
      let tmp ← writeBuf tmp pxGpa.uxLength [0]
      return (some tmp, h)

/-- The comparison with its reads of the two addresses. -/
def xGPACmpReading (gpa1 gpa2 : GPA) : Exec Bool :=
  if !(xIsGPAOK gpa1 && xIsGPAOK gpa2) then .ok false
  else
    let n1 := prvGetActualAddressLength gpa1
    let n2 := prvGetActualAddressLength gpa2
    if n1 ≠ n2 then .ok false
    else do
      let bs1 ← readBuf gpa1.pucAddress 0 n1
      let bs2 ← readBuf gpa2.pucAddress 0 n1
      return bs1 == bs2

/-- An addition with the block its copy lies in. -/
def xARPCacheAddCopying (h : Heap) (pxCache : ARPCache) (pxPa : GPA) (pxHa : GHA) :
    Exec (Int × ARPCache × Heap) := do
  match ← pxDupGPAShrinking h pxPa 0 with
  | (none, h) => return (ARP_CACHE_INVALID_HANDLE, pxCache, h)
  | (some pxDupPa, h) =>
    match pxDupGHA h pxHa with
    | (none, h) => return (ARP_CACHE_INVALID_HANDLE, pxCache, h)
    | (some pxDupHa, h) =>
      let row := ARPCacheRow.live pxDupPa pxDupHa
      match fillRow row pxCache.pxRows with
      | none => return (0, pxCache, h)
      | some pxRows =>
        if !pf.ndebug then prvARPCachePrintRow row
        return (1, { pxCache with pxRows := pxRows }, h)

/-- The debug check of a lookup, which prints the address as a string. -/
def lookupCheckCopying (h : Heap) (pxRow : ARPCacheRow) : Exec Heap :=
  if pf.ndebug then .ok h
  else
    match pxRow.pxPa with
    | none => .error .assertion
    | some pxPa => do
      match ← xGPAAddressToStringCopying h pxPa with
      | (none, _) => .error .assertion
      | (some pcLoopAddr, h) =>
        let _ ← inBounds (cstring pcLoopAddr)
        return h

/-- The loop of `eARPCacheLookupGPA`. -/
def lookupRowsCopying (pxGpaToLookup : GPA) :
    Heap → List ARPCacheRow → Exec (ARPLookupResult × Option GHA × Heap)
  | h, [] => .ok (.eARPCacheMiss, none, h)
  | h, r :: rows =>
    if r.ucAge = 0 then lookupRowsCopying pxGpaToLookup h rows
    else do
      let h ← lookupCheckCopying pf h r
      let same ← match r.pxPa with
        | none => .ok false
        | some pxPa => xGPACmpReading pxPa pxGpaToLookup
      if same then
        if r.ucValid = 0 then return (.eCantSendPacket, none, h)
        else return (.eARPCacheHit, r.pxHa, h)
      else lookupRowsCopying pxGpaToLookup h rows

/-- The number of rows printed. -/
def vARPPrintCache : List ARPCacheRow → Exec ℕ
  | [] => .ok 0
  | r :: rows =>
    if r.pxPa.isSome ∧ r.ucValid ≠ 0 then do
      prvARPCachePrintRow r
      return (← vARPPrintCache rows) + 1
    else vARPPrintCache rows

/-- The four strings of a name. -/
structure NameStrings where
  pcProcessName : CString
  pcProcessInstance : CString
  pcEntityName : CString
  pcEntityInstance : CString

/-- The address which `pxNameToGPA` makes of a name. -/
def NameStrings.toGPA (nm : NameStrings) : GPA :=
  ⟨joined [nm.pcProcessName, nm.pcProcessInstance, nm.pcEntityName, nm.pcEntityInstance]⟩

/-- What is done with a cache. The target address of a reply has at most 255 bytes. -/
inductive DumpOp
  | register (h : Heap) (pxName : NameStrings) (pxHa : GHA)
  | reply (h : Heap) (ucTpa : Bytes) (hlen : ucTpa.length ≤ 255) (ucTha : GHA)
  | lookup (h : Heap) (pxGpaToLookup : GPA)
  | print
  | remove (pxPa : GPA)
  | removeHandle (nCacheHndl : ℕ)
  | removeAll

/-- The addition which is made, if any. -/
def DumpOp.added : DumpOp → Option (Heap × GPA × GHA)
  | .register h pxName pxHa => some (h, pxName.toGPA, pxHa)
  | .reply h ucTpa _ ucTha => some (h, ⟨cut 0 ucTpa⟩, ucTha)
  | .lookup _ _ => none
  | .print => none
  | .remove _ => none
  | .removeHandle _ => none
  | .removeAll => none

def ARPCache.exec (c : ARPCache) : DumpOp → Exec ARPCache
  | .register h pxName pxHa => do
    let (_, c, _) ← xARPCacheAddCopying pf h c pxName.toGPA pxHa
    return c
  | .reply h ucTpa _ ucTha => do
    let (_, c, _) ← xARPCacheAddCopying pf h c ⟨cut 0 ucTpa⟩ ucTha
    return c
  | .lookup h pxGpaToLookup => do
    let _ ← lookupRowsCopying pf pxGpaToLookup h c.pxRows
    return c
  | .print => do
    let _ ← vARPPrintCache c.pxRows
    return c
  | .remove pxPa => .ok (xARPCacheRemove c pxPa).2
  | .removeHandle nCacheHndl => .ok (xARPCacheRemoveHandle c nCacheHndl).2
  | .removeAll => .ok (vARPRemoveAll c)

/-- No copy of the call leaves its buffer, and no string without a terminator is printed. -/
def CopiesFit (c : ARPCache) (op : DumpOp) : Prop := c.exec pf op ≠ .error .outOfBounds

/-- A row which a debug build fills has an address of at most 24 bytes, and so has every row in use
when the cache is printed. -/
def RowsShort (c : ARPCache) (op : DumpOp) : Prop :=
  (pf.ndebug = false → ∀ h pa ha, op.added = some (h, pa, ha) → CopiesMade h pa →
    (∃ r ∈ c.pxRows, r.ucValid = 0) → (strip 0 pa.pucAddress).length ≤ 24) ∧
  (op = .print → ∀ r ∈ c.pxRows, r.ucValid ≠ 0 → ∀ pa ∈ r.pxPa, pa.uxLength ≤ 24)

/-- The rows in use have addresses without a zero byte. -/
def ARPCacheRow.NoZero (r : ARPCacheRow) : Prop := r.Clean ∧ ∀ pa ∈ r.pxPa, 0 ∉ pa.pucAddress

variable {pf} {c c' : ARPCache} {pa : GPA} {ha : GHA} {h : Heap}

/-! ### The copies with buffers as long as the address -/

theorem xGPAAddressToStringCopying_eq (h : Heap) (g : GPA) :
    xGPAAddressToStringCopying h g =
      .ok (if (xGPAAddressToString h g).1 then some (g.pucAddress ++ [0]) else none,
        (xGPAAddressToString h g).2) := by
  unfold xGPAAddressToStringCopying xGPAAddressToString
  split
  · rfl
  · rcases requestMemory h with ⟨_ | _, h₁⟩
    · rfl
    · have hlen : g.uxLength + 1 ≤ (h₁.stale h₁.brk (g.uxLength + 1)).length := by simp
      have hroom : g.pucAddress.length ≤ (h₁.stale h₁.brk (g.uxLength + 1)).length := by
        simp [GPA.uxLength]
      have hfirst := (copy_to_block (h₁.stale h₁.brk (g.uxLength + 1)) hroom).1
      have hsecond := writeBuf_next (h₁.stale h₁.brk (g.uxLength + 1)) g.pucAddress [0]
        (o := g.uxLength) rfl hlen
      have hall : splice (h₁.stale h₁.brk (g.uxLength + 1)) 0 (g.pucAddress ++ [0]) =
          g.pucAddress ++ [0] := by
        simp [splice, GPA.uxLength]
      simp [hfirst, hsecond, hall, pure, Except.pure]

theorem readBuf_key (g : GPA) : readBuf g.pucAddress 0 g.key.length = .ok g.key := by
  have hpre : g.key <+: g.pucAddress := List.takeWhile_prefix _
  have hslice : slice g.pucAddress 0 g.key.length = some g.key := by
    rw [slice_eq_some, List.drop_zero, Nat.zero_add]
    exact ⟨hpre.length_le, (List.prefix_iff_eq_take.mp hpre).symm⟩
  rw [readBuf, hslice]
  rfl

theorem take_key (g : GPA) : g.pucAddress.take g.key.length = g.key :=
  (List.prefix_iff_eq_take.mp (List.takeWhile_prefix _)).symm

theorem xGPACmpReading_eq (g1 g2 : GPA) : xGPACmpReading g1 g2 = .ok (xGPACmp g1 g2) := by
  unfold xGPACmpReading xGPACmp prvGetActualAddressLength
  by_cases hok : (xIsGPAOK g1 && xIsGPAOK g2) = true
  · by_cases hn : g1.key.length = g2.key.length
    · have htake : g2.pucAddress.take g1.key.length = g2.key := by rw [hn, take_key]
      have hread : readBuf g2.pucAddress 0 g1.key.length = .ok g2.key := by rw [hn, readBuf_key]
      simp only [hok, readBuf_key, hread, take_key, htake]
      simp [hn, pure, Except.pure]
    · simp [hok, hn]
  · simp [hok]

theorem xARPCacheAddCopying_eq (h : Heap) (c : ARPCache) (pa : GPA) (ha : GHA) :
    xARPCacheAddCopying pf h c pa ha = xARPCacheAdd pf h c pa ha := by
  rw [xARPCacheAddCopying, pxDupGPAShrinking_eq]
  rfl

theorem lookupCheckCopying_eq (h : Heap) (r : ARPCacheRow) :
    lookupCheckCopying pf h r = lookupCheck pf h r := by
  unfold lookupCheckCopying lookupCheck
  by_cases hd : pf.ndebug = true
  · simp [hd]
  · cases hpa : r.pxPa with
    | none => simp [hd]
    | some pa =>
      rcases hs : xGPAAddressToString h pa with ⟨_ | _, h₁⟩
      · simp [hd, xGPAAddressToStringCopying_eq, hs, rsAssert]
      · have hterm : (0 : UInt8) ∈ pa.pucAddress ++ [0] := by simp
        simp [hd, xGPAAddressToStringCopying_eq, hs, rsAssert, cstring, inBounds]

theorem lookupRowsCopying_eq (q : GPA) (h : Heap) (rows : List ARPCacheRow) :
    lookupRowsCopying pf q h rows = lookupRows pf q h rows := by
  induction rows generalizing h with
  | nil => rfl
  | cons r rows ih =>
    rw [lookupRowsCopying, lookupRows, lookupCheckCopying_eq]
    split
    · exact ih h
    · refine bind_congr fun h₁ => ?_
      cases r.pxPa with
      | none => simp [ih]
      | some pa => simp [xGPACmpReading_eq, ih]

/-- The debug check of a lookup either goes through or is an assertion which fails. -/
theorem lookupCheck_cases (pf : Platform) (h : Heap) (r : ARPCacheRow) :
    (∃ h', lookupCheck pf h r = .ok h') ∨ lookupCheck pf h r = .error .assertion := by
  unfold lookupCheck
  by_cases hd : pf.ndebug = true
  · exact Or.inl ⟨h, by simp [hd]⟩
  · cases hpa : r.pxPa with
    | none => exact Or.inr (by simp [hd])
    | some pa =>
      rcases hs : xGPAAddressToString h pa with ⟨_ | _, h₁⟩
      · exact Or.inr (by simp [hd, hs, rsAssert])
      · exact Or.inl ⟨h₁, by simp [hd, hs, pure, Except.pure]⟩

/-- A lookup never leaves a buffer. -/
theorem lookupRows_ne_outOfBounds (pf : Platform) (q : GPA) (h : Heap)
    (rows : List ARPCacheRow) :
    lookupRows pf q h rows ≠ .error .outOfBounds := by
  induction rows generalizing h with
  | nil => simp [lookupRows]
  | cons r rows ih =>
    rw [lookupRows]
    split
    · exact ih h
    · rcases lookupCheck_cases pf h r with ⟨h₁, hcheck⟩ | hcheck
      · rw [hcheck, Exec.ok_bind]
        split
        · split <;> simp [pure, Except.pure]
        · exact ih h₁
      · simp [hcheck]

/-! ### The row printer -/

theorem vARPPrintCache_ne_outOfBounds_iff {rows : List ARPCacheRow}
    (hrows : ∀ r ∈ rows, r.NoZero) :
    vARPPrintCache rows ≠ .error .outOfBounds ↔
      ∀ r ∈ rows, r.ucValid ≠ 0 → ∀ pa ∈ r.pxPa, pa.uxLength ≤ 24 := by
  induction rows with
  | nil => simp [vARPPrintCache]
  | cons r rows ih =>
    have hrest := ih fun r' hr' => hrows r' (List.mem_cons_of_mem r hr')
    obtain ⟨hclean, hzero⟩ := hrows r List.mem_cons_self
    rw [List.forall_mem_cons, ← hrest, vARPPrintCache]
    rcases hclean with rfl | ⟨pa, ha, rfl, -⟩
    · simp [ARPCacheRow.empty]
    · have huse : (ARPCacheRow.live pa ha).pxPa.isSome ∧ (ARPCacheRow.live pa ha).ucValid ≠ 0 :=
        ⟨rfl, (by decide : (1 : UInt8) ≠ 0)⟩
      have hprint := prvARPCachePrintRow_live (hzero pa rfl) ha
      rw [if_pos huse, hprint]
      by_cases hshort : pa.uxLength ≤ 24
      · have hone : (ARPCacheRow.live pa ha).ucValid ≠ 0 →
            ∀ pa' ∈ (ARPCacheRow.live pa ha).pxPa, pa'.uxLength ≤ 24 := by
          rintro - pa' hpa'
          cases hpa'
          exact hshort
        rw [if_pos hshort, Exec.ok_bind, and_iff_right hone]
        cases vARPPrintCache rows with
        | error t => simp
        | ok n => simp [pure, Except.pure]
      · rw [if_neg hshort]
        refine iff_of_false (not_not_intro rfl) fun hall => hshort (hall.1 huse.2 pa rfl)

/-! ### Calls -/

theorem strip_terminated (t : CString) : strip 0 t.terminated = t.bytes :=
  (List.rdropWhile_concat_pos _ _ _ (by simp)).trans (strip_of_not_mem t.noZero)

/-- A name has delimiters, so that its address is never empty. -/
theorem NameStrings.strip_toGPA (nm : NameStrings) :
    strip 0 nm.toGPA.pucAddress ≠ [] ∧ (0 : UInt8) ∉ strip 0 nm.toGPA.pucAddress := by
  obtain ⟨t, ht⟩ := joined_terminated nm.pcProcessName
    [nm.pcProcessInstance, nm.pcEntityName, nm.pcEntityInstance]
  have hlen := joined_length nm.pcProcessName
    [nm.pcProcessInstance, nm.pcEntityName, nm.pcEntityInstance]
  rw [ht, CString.terminated_length, CString.length] at hlen
  rw [NameStrings.toGPA, ht, strip_terminated]
  refine ⟨fun hnil => ?_, t.noZero⟩
  rw [hnil] at hlen
  simp at hlen

/-- The addresses which get into the cache are not made of filler. -/
theorem DumpOp.added_strip {op : DumpOp} (hop : op.added = some (h, pa, ha)) :
    (0 : UInt8) ∉ strip 0 pa.pucAddress ∧ (xIsGPAOK pa = true → strip 0 pa.pucAddress ≠ []) := by
  cases op with
  | register h nm ha =>
    cases hop
    exact ⟨nm.strip_toGPA.2, fun _ => nm.strip_toGPA.1⟩
  | reply h tpa hlen tha =>
    cases hop
    have hstrip := strip_of_not_mem (not_mem_cut 0 tpa)
    rw [hstrip]
    exact ⟨not_mem_cut 0 tpa, (xIsGPAOK_iff _).mp⟩
  | lookup h q => cases hop
  | print => cases hop
  | remove pa => cases hop
  | removeHandle n => cases hop
  | removeAll => cases hop

/-- The address of a registered name whose strings were not allocated with it. -/
theorem pxNameToGPA_toGPA (hm : h.MemoryAvailable) (hbrk : h.mem h.brk = none) {nm : Name}
    (hn : nm.unPostLn = 0) {s : NameStrings}
    (hr : Reads h nm.strings
      [s.pcProcessName, s.pcProcessInstance, s.pcEntityName, s.pcEntityInstance]) :
    ∃ h', pxNameToGPA h nm = .ok (some s.toGPA, h') := pxNameToGPA_parts hm hbrk hn hr

theorem exec_of_added {op : DumpOp} (hop : op.added = some (h, pa, ha)) (c : ARPCache) :
    c.exec pf op = xARPCacheAdd pf h c pa ha >>= fun out => .ok out.2.1 := by
  cases op with
  | register h nm ha =>
    cases hop
    rw [ARPCache.exec, xARPCacheAddCopying_eq]
    rfl
  | reply h tpa hlen tha =>
    cases hop
    rw [ARPCache.exec, xARPCacheAddCopying_eq]
    rfl
  | lookup h q => cases hop
  | print => cases hop
  | remove pa => cases hop
  | removeHandle n => cases hop
  | removeAll => cases hop

/-- An addition leaves a buffer when a debug build prints a long address. -/
theorem add_fits_iff (pf : Platform) (h : Heap) (h0 : (0 : UInt8) ∉ strip 0 pa.pucAddress)
    (hne : xIsGPAOK pa = true → strip 0 pa.pucAddress ≠ []) (c : ARPCache) (ha : GHA) :
    xARPCacheAdd pf h c pa ha ≠ .error .outOfBounds ↔
      (pf.ndebug = false → CopiesMade h pa → (∃ r ∈ c.pxRows, r.ucValid = 0) →
        (strip 0 pa.pucAddress).length ≤ 24) := by
  by_cases hcopies : CopiesMade h pa
  · rw [hcopies.add_eq, ← exists_fillRow_iff (.live ⟨strip 0 pa.pucAddress⟩ ha)]
    cases hfill : fillRow (.live ⟨strip 0 pa.pucAddress⟩ ha) c.pxRows with
    | none => exact iff_of_true (by simp) (by rintro - - ⟨rows, hrows⟩; cases hrows)
    | some rows =>
      by_cases hd : pf.ndebug = true
      · exact iff_of_true (by simp [hd, pure, Except.pure]) (by simp [hd])
      · have hprint := prvARPCachePrintRow_live (show (0 : UInt8) ∉
          (GPA.mk (strip 0 pa.pucAddress)).pucAddress from h0) ha
        have hd' : pf.ndebug = false := by simpa using hd
        simp only [hd', Bool.not_false, if_true, hprint]
        by_cases hshort : (strip 0 pa.pucAddress).length ≤ 24
        · have hlen : (GPA.mk (strip 0 pa.pucAddress)).uxLength ≤ 24 := hshort
          exact iff_of_true (by simp [hlen, pure, Except.pure]) fun _ _ _ => hshort
        · have hlen : ¬ (GPA.mk (strip 0 pa.pucAddress)).uxLength ≤ 24 := hshort
          exact iff_of_false (by simp [hlen]) fun hall => hshort (hall trivial hcopies ⟨rows, rfl⟩)
  · refine iff_of_true ?_ fun _ hmade => absurd hmade hcopies
    rcases add_of_not_copiesMade pf hcopies c ha with ⟨hok, hnil, -, -⟩ | ⟨k, hk⟩
    · exact absurd hnil (hne hok)
    · rw [hk]
      simp

/-- The copies of a call stay in their buffers exactly when the rows it prints are short. -/
theorem copiesFit_iff (hc : ∀ r ∈ c.pxRows, r.NoZero) (op : DumpOp) :
    CopiesFit pf c op ↔ RowsShort pf c op := by
  unfold CopiesFit RowsShort
  rcases hadded : op.added with _ | ⟨h, pa, ha⟩
  · rw [and_iff_right (by simp)]
    cases op with
    | register h nm ha => cases hadded
    | reply h tpa hlen tha => cases hadded
    | lookup h q =>
      refine iff_of_true ?_ (by simp)
      have hrows := lookupRows_ne_outOfBounds pf q h c.pxRows
      rw [ARPCache.exec, lookupRowsCopying_eq]
      cases hlookup : lookupRows pf q h c.pxRows with
      | error t =>
        rw [hlookup] at hrows
        simpa using hrows
      | ok out => simp [pure, Except.pure]
    | print =>
      have hprint := vARPPrintCache_ne_outOfBounds_iff hc
      rw [ARPCache.exec, forall_prop_of_true rfl, ← hprint]
      cases vARPPrintCache c.pxRows with
      | error t => simp
      | ok n => simp [pure, Except.pure]
    | remove pa => exact iff_of_true (by simp [ARPCache.exec]) (by simp)
    | removeHandle n => exact iff_of_true (by simp [ARPCache.exec]) (by simp)
    | removeAll => exact iff_of_true (by simp [ARPCache.exec]) (by simp)
  · obtain ⟨h0, hne⟩ := DumpOp.added_strip hadded
    have hprint : op ≠ .print := by
      rintro rfl
      cases hadded
    have hfits := add_fits_iff pf h h0 hne c ha
    have hexec : c.exec pf op ≠ .error .outOfBounds ↔
        xARPCacheAdd pf h c pa ha ≠ .error .outOfBounds := by
      rw [exec_of_added hadded]
      cases xARPCacheAdd pf h c pa ha <;> simp
    rw [hexec, hfits, and_iff_left fun hop => absurd hop hprint]
    constructor
    · intro hshort hd h' pa' ha' hsame
      cases hsame
      exact hshort hd
    · intro hshort hd
      exact hshort hd h pa ha rfl

theorem ARPCacheRow.noZero_empty : ARPCacheRow.empty.NoZero :=
  ⟨Or.inl rfl, fun _ hpa => nomatch hpa⟩

/-- A row which stays is as it was, and a new one has an address without its filler. -/
theorem noZero_step (hc : ∀ r ∈ c.pxRows, r.NoZero) {op : DumpOp}
    (hstep : c.exec pf op = .ok c') : ∀ r ∈ c'.pxRows, r.NoZero := by
  have hremoved : ∀ cop : CacheOp, (∀ h pa ha, cop ≠ .add h pa ha) →
      c.step pf cop = some c' → ∀ r ∈ c'.pxRows, r.NoZero := by
    intro cop hcop hcache r hr
    rcases mem_step_removal hcop hcache r hr with hmem | rfl
    · exact hc r hmem
    · exact ARPCacheRow.noZero_empty
  rcases hadded : op.added with _ | ⟨h, pa, ha⟩
  · cases op with
    | register h nm ha => cases hadded
    | reply h tpa hlen tha => cases hadded
    | lookup h q =>
      obtain ⟨_, -, hret⟩ := Exec.bind_eq_ok.mp hstep
      cases hret
      exact hc
    | print =>
      obtain ⟨_, -, hret⟩ := Exec.bind_eq_ok.mp hstep
      cases hret
      exact hc
    | remove pa =>
      cases hstep
      exact hremoved (.remove pa) (fun _ _ _ => CacheOp.noConfusion) rfl
    | removeHandle n =>
      cases hstep
      exact hremoved (.removeHandle n) (fun _ _ _ => CacheOp.noConfusion) rfl
    | removeAll =>
      cases hstep
      exact hremoved .removeAll (fun _ _ _ => CacheOp.noConfusion) rfl
  · obtain ⟨h0, -⟩ := DumpOp.added_strip hadded
    rw [exec_of_added hadded] at hstep
    obtain ⟨⟨r, c₁, h₁⟩, hadd, hret⟩ := Exec.bind_eq_ok.mp hstep
    cases hret
    rcases xARPCacheAdd_cases hadd with ⟨-, rfl⟩ | ⟨-, hne, rows, hfill, rfl⟩
    · exact hc
    · intro row hrow
      rcases mem_fillRow hfill hrow with rfl | hmem
      · refine ⟨Or.inr ⟨_, _, rfl, hne⟩, fun pa' hpa' => ?_⟩
        cases hpa'
        exact h0
      · exact hc row hmem

/-- In every run, all copies stay in their buffers and every string which is printed ends exactly
when the rows which are printed have short addresses. -/
theorem copies_fit_iff {h₀ h₁ : Heap} {eType : GHAType} {nEntries : ℕ} {c₀ : ARPCache}
    (hnew : pxARPCacheCreate h₀ eType nEntries = (some c₀, h₁)) (ops : List DumpOp) :
    GuardedSteps (fun c op => (ARPCache.exec pf c op).toOption) (CopiesFit pf) c₀ ops ↔
      GuardedSteps (fun c op => (ARPCache.exec pf c op).toOption) (RowsShort pf) c₀ ops := by
  have hempty : ∀ r ∈ c₀.pxRows, r.NoZero := by
    unfold pxARPCacheCreate at hnew
    split at hnew
    · cases hnew
    · cases hnew
      intro r hr
      rw [List.eq_of_mem_replicate hr]
      exact ARPCacheRow.noZero_empty
  refine guardedSteps_congr (fun c => ∀ r ∈ c.pxRows, r.NoZero)
    (fun c op hc => copiesFit_iff hc op) (fun c op c' hc _ hstep => ?_) hempty
  cases hexec : c.exec pf op with
  | error t =>
    rw [hexec] at hstep
    cases hstep
  | ok c₁ =>
    rw [hexec] at hstep
    cases hstep
    exact noZero_step hc hexec

/-- A reply about an address of two bytes. -/
def shortReply : DumpOp := .reply exampleArpHeap [65, 66, 0] (by decide) (exampleGha 1)

theorem copies_fit_short :
    ∃ c₀ h₁, pxARPCacheCreate exampleArpHeap .MAC_ADDR_802_3 2 = (some c₀, h₁) ∧
      GuardedSteps (fun c op => (ARPCache.exec ⟨false, false⟩ c op).toOption)
        (CopiesFit ⟨false, false⟩) c₀ [shortReply] := by
  have hnew : pxARPCacheCreate exampleArpHeap .MAC_ADDR_802_3 2 = (some _, _) := rfl
  have hshort : RowsShort ⟨false, false⟩ ⟨.MAC_ADDR_802_3, List.replicate 2 .empty⟩ shortReply := by
    refine ⟨fun _ h pa ha hop _ _ => ?_, fun hop => nomatch hop⟩
    cases hop
    decide
  exact ⟨_, _, hnew, (copies_fit_iff hnew [shortReply]).mpr ⟨hshort, trivial⟩⟩

/-- A reply about an address of 26 bytes. -/
def longReply : DumpOp :=
  .reply exampleArpHeap (List.replicate 26 65) (by decide) (exampleGha 1)

/-- The row printer writes the 26 bytes to an array of 25. -/
theorem long_address_overruns :
    ∃ c₀ h₁, pxARPCacheCreate exampleArpHeap .MAC_ADDR_802_3 2 = (some c₀, h₁) ∧
      c₀.exec ⟨false, false⟩ longReply = .error .outOfBounds ∧
      ¬ GuardedSteps (fun c op => (ARPCache.exec ⟨false, false⟩ c op).toOption)
        (CopiesFit ⟨false, false⟩) c₀ [longReply] := by
  have hover : (⟨.MAC_ADDR_802_3, List.replicate 2 .empty⟩ : ARPCache).exec ⟨false, false⟩
    longReply = .error .outOfBounds := rfl
  exact ⟨_, _, rfl, hover, fun hfit => hfit.1 hover⟩

end RinaSense.Shim
