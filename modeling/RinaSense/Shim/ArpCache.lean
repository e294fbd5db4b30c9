import RinaSense.Library.CString
import RinaSense.Shim.Gpha

/-!
# The ARP cache

The table of `cache.c`. An addition takes the first row which is not valid, and a lookup
returns the first row with an age whose address compares equal. Debug builds print the
rows on the way.
-/

namespace RinaSense.Shim

open Common Library.Memory Library.Filler

structure ARPCacheRow where
  pxPa : Option GPA
  pxHa : Option GHA
  ucAge : UInt8
  ucValid : UInt8
deriving DecidableEq

/-- The rows are `nEntries` many. -/
structure ARPCache where
  eType : GHAType
  pxRows : List ARPCacheRow
deriving DecidableEq

inductive ARPLookupResult
  | eARPCacheMiss
  | eARPCacheHit
  | eCantSendPacket
deriving DecidableEq, Repr

/-- A row of zero bytes. -/
def ARPCacheRow.empty : ARPCacheRow := ⟨none, none, 0, 0⟩

/-- A row as an addition leaves it. -/
def ARPCacheRow.live (pxPa : GPA) (pxHa : GHA) : ARPCacheRow := ⟨some pxPa, some pxHa, 1, 1⟩

def ARP_CACHE_INVALID_HANDLE : Int := -1

variable (pf : Platform)

/-- The cache with its memory, unless that is refused. -/
def pxARPCacheCreate (h : Heap) (eType : GHAType) (nEntries : ℕ) : Option ARPCache × Heap :=
  match requestMemory h with
  | (false, h) => (none, h)
  | (true, h) => (some ⟨eType, List.replicate nEntries .empty⟩, h)

/-- The address is copied to an array of 25 zero bytes and printed as a string. -/
def prvARPCachePrintRow (pxRow : ARPCacheRow) : Exec Unit := do
  let pxPa ← deref pxRow.pxPa
  let sAddr ← writeBuf (List.replicate 25 0) 0 pxPa.pucAddress
  let _ ← inBounds (cstring sAddr)
  let _ ← deref pxRow.pxHa
  return ()

/-- The loop over the rows, which fills the first one that is not valid. -/
def fillRow (row : ARPCacheRow) : List ARPCacheRow → Option (List ARPCacheRow)
  | [] => none
  | r :: rows =>
    if r.ucValid = 0 then some (row :: rows)
    else (fillRow row rows).map (r :: ·)

/-- The handle which is returned for a new row is the truth value of success. -/
def xARPCacheAdd (h : Heap) (pxCache : ARPCache) (pxPa : GPA) (pxHa : GHA) :
    Exec (Int × ARPCache × Heap) := do
  match ← pxDupGPA h pxPa true 0 with
  | (none, h) => return (ARP_CACHE_INVALID_HANDLE, pxCache, h)
  | (some pxDupPa, h) =>
    match pxDupGHA h pxHa with
    | (none, h) => return (ARP_CACHE_INVALID_HANDLE, pxCache, h)
    | (some pxDupHa, h) =>
      let row := ARPCacheRow.live pxDupPa pxDupHa
      match fillRow row pxCache.pxRows with
      | none => return (0, pxCache, h)
      | some pxRows =>
        if !pf.ndebug then prvARPCachePrintRow row
        return (1, { pxCache with pxRows := pxRows }, h)

/-- The debug check which the lookup makes of every row with an age. -/
def lookupCheck (h : Heap) (pxRow : ARPCacheRow) : Exec Heap :=
  if pf.ndebug then .ok h
  else
    match pxRow.pxPa with
    | none => .error .assertion
    | some pxPa => do
      let (copied, h) := xGPAAddressToString h pxPa
      rsAssert pf copied
      return h

/-- The loop of `eARPCacheLookupGPA`. -/
def lookupRows (pxGpaToLookup : GPA) :
    Heap → List ARPCacheRow → Exec (ARPLookupResult × Option GHA × Heap)
  | h, [] => .ok (.eARPCacheMiss, none, h)
  | h, r :: rows =>
    if r.ucAge = 0 then lookupRows pxGpaToLookup h rows
    else do
      let h ← lookupCheck pf h r
      if r.pxPa.any (xGPACmp · pxGpaToLookup) then
        if r.ucValid = 0 then return (.eCantSendPacket, none, h)
        else return (.eARPCacheHit, r.pxHa, h)
      else lookupRows pxGpaToLookup h rows

def eARPCacheLookupGPA (h : Heap) (pxCache : ARPCache) (pxGpaToLookup : GPA) :
    Exec (ARPLookupResult × Option GHA × Heap) :=
  lookupRows pf pxGpaToLookup h pxCache.pxRows

/-- Two addresses are equal for the cache when both are there and agree up to their
filler. -/
theorem xGPACmp_iff (g1 g2 : GPA) :
    xGPACmp g1 g2 = true ↔ g1.pucAddress ≠ [] ∧ g2.pucAddress ≠ [] ∧ g1.key = g2.key := by
  have htake : ∀ g : GPA, g.pucAddress.take g.key.length = g.key := fun g =>
    (List.prefix_iff_eq_take.mp (List.takeWhile_prefix _)).symm
  simp only [xGPACmp, xIsGPAOK, GPA.uxLength, prvGetActualAddressLength, Bool.and_eq_true,
    bne_iff_ne, ne_eq, List.length_eq_zero_iff, beq_iff_eq, and_assoc, and_congr_right_iff]
  intro _ _
  constructor
  · rintro ⟨hn, htk⟩
    rw [htake, hn, htake] at htk
    exact htk
  · intro hk
    refine ⟨congrArg List.length hk, ?_⟩
    rw [htake, hk, htake]

/-- The row is printed if its address leaves one of the 25 bytes to a terminator. -/
theorem prvARPCachePrintRow_live {pa : GPA} (h0 : (0 : UInt8) ∉ pa.pucAddress) (ha : GHA) :
    prvARPCachePrintRow (.live pa ha) =
      if pa.uxLength ≤ 24 then .ok () else .error .outOfBounds := by
  have hdef : prvARPCachePrintRow (.live pa ha) =
      (writeBuf (List.replicate 25 0) 0 pa.pucAddress >>= fun sAddr =>
        inBounds (cstring sAddr) >>= fun _ => .ok ()) := rfl
  rw [hdef]
  by_cases hfit : 0 + pa.pucAddress.length ≤ (List.replicate 25 (0 : UInt8)).length
  · have hbuf : splice (List.replicate 25 (0 : UInt8)) 0 pa.pucAddress =
        pad 0 25 pa.pucAddress := by
      rw [splice, List.take_zero, List.nil_append, Nat.zero_add, List.drop_replicate, pad]
    rw [writeBuf, patch_eq_some hfit, inBounds_some, Exec.ok_bind, hbuf, cstring]
    rw [List.length_replicate] at hfit
    have hmem : (0 : UInt8) ∈ pad 0 25 pa.pucAddress ↔ pa.uxLength ≤ 24 := by
      rw [pad, List.mem_append, or_iff_right h0, List.mem_replicate, and_iff_left rfl, GPA.uxLength]
      omega
    by_cases hshort : pa.uxLength ≤ 24
    · rw [if_pos (hmem.mpr hshort), if_pos hshort]
      rfl
    · rw [if_neg (mt hmem.mp hshort), if_neg hshort]
      rfl
  · have hlong : ¬ pa.uxLength ≤ 24 := by
      rw [List.length_replicate] at hfit
      rw [GPA.uxLength]
      omega
    rw [writeBuf_outOfBounds hfit, if_neg hlong]
    rfl

theorem fillRow_append_valid {row : ARPCacheRow} {own rest : List ARPCacheRow}
    (hown : ∀ r ∈ own, r.ucValid ≠ 0) :
    fillRow row (own ++ rest) = (fillRow row rest).map (own ++ ·) := by
  induction own with
  | nil => simp
  | cons r own ih =>
    have hr : r.ucValid ≠ 0 := hown r (by simp)
    have hrest := ih fun r' hr' => hown r' (by simp [hr'])
    rw [List.cons_append, fillRow, if_neg hr, hrest, Option.map_map]
    rfl

/-- The row which is filled is the first one that is not valid. -/
theorem fillRow_eq_some {row : ARPCacheRow} {rows rows' : List ARPCacheRow}
    (h : fillRow row rows = some rows') :
    ∃ own r rest, rows = own ++ r :: rest ∧ rows' = own ++ row :: rest ∧ r.ucValid = 0 ∧
      own = rows.takeWhile (fun r => r.ucValid ≠ 0) := by
  induction rows generalizing rows' with
  | nil => cases h
  | cons r rows ih =>
    by_cases hv : r.ucValid = 0
    · rw [fillRow, if_pos hv] at h
      cases h
      exact ⟨[], r, rows, rfl, rfl, hv, by simp [hv]⟩
    · rw [fillRow, if_neg hv, Option.map_eq_some_iff] at h
      obtain ⟨filled, hfill, rfl⟩ := h
      obtain ⟨own, r', rest, rfl, rfl, hv', hown⟩ := ih hfill
      refine ⟨r :: own, r', rest, rfl, rfl, hv', ?_⟩
      rw [List.takeWhile_cons_of_pos (by simpa using hv), ← hown]

/-- No row is filled when all of them are valid. -/
theorem fillRow_eq_none {row : ARPCacheRow} {rows : List ARPCacheRow}
    (hfill : fillRow row rows = none) :
    ∀ r ∈ rows, r.ucValid ≠ 0 := by
  induction rows with
  | nil => exact fun r hr => absurd hr List.not_mem_nil
  | cons r rows ih =>
    by_cases hv : r.ucValid = 0
    · rw [fillRow, if_pos hv] at hfill
      cases hfill
    · rw [fillRow, if_neg hv, Option.map_eq_none_iff] at hfill
      exact List.forall_mem_cons.mpr ⟨hv, ih hfill⟩

theorem exists_fillRow_iff (row : ARPCacheRow) {rows : List ARPCacheRow} :
    (∃ rows', fillRow row rows = some rows') ↔ ∃ r ∈ rows, r.ucValid = 0 := by
  constructor
  · rintro ⟨rows', hfill⟩
    obtain ⟨own, r, rest, rfl, -, hv, -⟩ := fillRow_eq_some hfill
    exact ⟨r, by simp, hv⟩
  · rintro ⟨r, hr, hv⟩
    cases hfill : fillRow row rows with
    | none => exact absurd hv (fillRow_eq_none hfill r hr)
    | some rows' => exact ⟨rows', rfl⟩

/-- A filled row is the only one which is new. -/
theorem mem_fillRow {row r : ARPCacheRow} {rows rows' : List ARPCacheRow}
    (h : fillRow row rows = some rows') (hr : r ∈ rows') : r = row ∨ r ∈ rows := by
  obtain ⟨own, old, rest, rfl, rfl, -, -⟩ := fillRow_eq_some h
  simp only [List.mem_append, List.mem_cons] at hr ⊢
  tauto

/-! ### Lookups without their debug checks -/

/-- A row with an age has both its addresses and is valid. -/
def ARPCacheRow.Complete (r : ARPCacheRow) : Prop :=
  r.ucAge ≠ 0 → ∃ pa ha, r.pxPa = some pa ∧ pa.pucAddress ≠ [] ∧ r.pxHa = some ha ∧
    r.ucValid ≠ 0

theorem ARPCacheRow.complete_empty : ARPCacheRow.empty.Complete := fun h => absurd rfl h

theorem ARPCacheRow.complete_live {pa : GPA} (hpa : pa.pucAddress ≠ []) (ha : GHA) :
    (ARPCacheRow.live pa ha).Complete :=
  fun _ => ⟨pa, ha, rfl, hpa, rfl, (by decide : (1 : UInt8) ≠ 0)⟩

/-- The hardware address of the first row for an address. -/
def lookupResult (q : GPA) : List ARPCacheRow → Option GHA
  | [] => none
  | r :: rows =>
    if r.ucAge ≠ 0 ∧ r.pxPa.any (xGPACmp · q) then r.pxHa else lookupResult q rows

def pxARPCacheLookupGHA (pxCache : ARPCache) (pxPa : GPA) : Option GHA :=
  if !xIsGPAOK pxPa then none else lookupResult pxPa pxCache.pxRows

/-- The result which goes with a hardware address. -/
def lookupOutcome : Option GHA → ARPLookupResult
  | none => .eARPCacheMiss
  | some _ => .eARPCacheHit

theorem lookupRows_available {rows : List ARPCacheRow} (hrows : ∀ r ∈ rows, r.Complete)
    (q : GPA) {h : Heap} (hm : h.MemoryAvailable) :
    ∃ k, lookupRows pf q h rows =
      .ok (lookupOutcome (lookupResult q rows), lookupResult q rows, h.afterCalls k) := by
  induction rows generalizing h with
  | nil => exact ⟨0, rfl⟩
  | cons r rows ih =>
    have hrest : ∀ r' ∈ rows, r'.Complete := fun r' hr' => hrows r' (by simp [hr'])
    by_cases hage : r.ucAge = 0
    · rcases ih hrest hm with ⟨k, hk⟩
      refine ⟨k, ?_⟩
      simp only [lookupRows, lookupResult, hage, if_true, ne_eq, not_true_eq_false, false_and,
        if_false, hk]
    · rcases hrows r (by simp) hage with ⟨pa, ha, hpa, hne, hha, hvalid⟩
      have hcheck : ∃ k, lookupCheck pf h r = .ok (h.afterCalls k) := by
        by_cases hd : pf.ndebug = true
        · exact ⟨0, by simp [lookupCheck, hd]⟩
        · exact ⟨1, by simp [lookupCheck, hd, hpa, xGPAAddressToString_available hm hne, pure,
            Except.pure]⟩
      rcases hcheck with ⟨k, hk⟩
      by_cases hcmp : xGPACmp pa q = true
      · refine ⟨k, ?_⟩
        simp [lookupRows, lookupResult, hage, hk, hpa, hcmp, hvalid, hha, lookupOutcome, pure,
          Except.pure]
      · rcases ih hrest (hm.afterCalls k) with ⟨k', hk'⟩
        refine ⟨k + k', ?_⟩
        rw [Heap.afterCalls_afterCalls] at hk'
        simp [lookupRows, lookupResult, hage, hk, hpa, hcmp, hk']

theorem eARPCacheLookupGPA_available {cache : ARPCache} (hrows : ∀ r ∈ cache.pxRows, r.Complete)
    (q : GPA) {h : Heap} (hm : h.MemoryAvailable) :
    ∃ k, eARPCacheLookupGPA pf h cache q = .ok (lookupOutcome (lookupResult q cache.pxRows),
      lookupResult q cache.pxRows, h.afterCalls k) :=
  lookupRows_available pf hrows q hm

/-- There is a row for an address with that key. -/
def HasKey (rows : List ARPCacheRow) (key : Bytes) : Prop :=
  ∃ pa ha, ARPCacheRow.live pa ha ∈ rows ∧ pa.key = key ∧ pa.pucAddress ≠ []

/-- Rows whose addresses are those of rows in front of them are never found. -/
theorem lookupResult_append {own rest : List ARPCacheRow} (q : GPA)
    (hrest : ∀ r ∈ rest, r.ucAge ≠ 0 → ∀ pa ∈ r.pxPa, HasKey own pa.key) :
    lookupResult q (own ++ rest) = lookupResult q own := by
  have hmiss : (∀ r ∈ own, ¬ (r.ucAge ≠ 0 ∧ r.pxPa.any (xGPACmp · q))) →
      lookupResult q rest = none := by
    intro hown
    induction rest with
    | nil => rfl
    | cons r rest ih =>
      have htail := ih fun r' hr' => hrest r' (by simp [hr'])
      rw [lookupResult, if_neg, htail]
      rintro ⟨hage, hany⟩
      rcases (Option.any_eq_true _ _).mp hany with ⟨pa, hpa, hcmp⟩
      rcases hrest r (by simp) hage pa hpa with ⟨pa', ha', hmem, hkey, hne⟩
      have heq := (xGPACmp_iff pa q).mp hcmp
      have hcmp' : xGPACmp pa' q = true :=
        (xGPACmp_iff pa' q).mpr ⟨hne, heq.2.1, hkey.trans heq.2.2⟩
      apply hown _ hmem
      simp [ARPCacheRow.live, hcmp']
  clear hrest
  induction own with
  | nil => simpa [lookupResult] using hmiss
  | cons r own ih =>
    by_cases hr : r.ucAge ≠ 0 ∧ r.pxPa.any (xGPACmp · q)
    · rw [List.cons_append, lookupResult, if_pos hr, lookupResult, if_pos hr]
    · rw [List.cons_append, lookupResult, if_neg hr, lookupResult, if_neg hr]
      apply ih
      intro hown
      apply hmiss
      intro r' hr'
      rcases List.mem_cons.mp hr' with rfl | hr'
      · exact hr
      · exact hown r' hr'

/-- An addition fills a row, if there is one for it. -/
theorem xARPCacheAdd_rows {h h' : Heap} (hm : h.MemoryAvailable) {cache cache' : ARPCache}
    {pa : GPA} {ha : GHA} {r : Int} (hpa : strip 0 pa.pucAddress ≠ [])
    (hadd : xARPCacheAdd pf h cache pa ha = .ok (r, cache', h')) :
    (∃ k, h' = h.afterCalls k) ∧ cache'.pxRows =
      (fillRow (.live ⟨strip 0 pa.pucAddress⟩ ha) cache.pxRows).getD cache.pxRows := by
  have hdup := pxDupGPA_shrink_available hm hpa
  have hha := pxDupGHA_available (hm.afterCalls 2) ha
  rw [Heap.afterCalls_afterCalls] at hha
  simp only [xARPCacheAdd, hdup, Exec.ok_bind, hha] at hadd
  cases hfill : fillRow (.live ⟨strip 0 pa.pucAddress⟩ ha) cache.pxRows with
  | none =>
    rw [hfill] at hadd
    cases hadd
    exact ⟨⟨_, rfl⟩, rfl⟩
  | some rows =>
    rw [hfill] at hadd
    by_cases hd : pf.ndebug = true
    · simp only [hd, Bool.not_true, Bool.false_eq_true, if_false] at hadd
      cases hadd
      exact ⟨⟨_, rfl⟩, rfl⟩
    · simp only [hd, Bool.not_false, if_true] at hadd
      rcases Exec.bind_eq_ok.mp hadd with ⟨_, -, hret⟩
      cases hret
      exact ⟨⟨_, rfl⟩, rfl⟩

end RinaSense.Shim
