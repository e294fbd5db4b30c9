import RinaSense.Common.NameText
import RinaSense.Shim.ArpDump
import RinaSense.Shim.ArpObjects

/-!
# Registering an application with a shim

`xShimApplicationRegister` with the names and address objects which it makes, and with the cache
which maps both addresses to the hardware address of the shim. Where it fails, a common part at
its end undoes what was done. That part releases the name of the application twice, so that it
comes back only where there is no such name.
-/

namespace RinaSense.Shim

open Common Library.Memory Library.Filler

/-- The address which is made of a text, with its terminator. -/
def textGPA (t : CString) : GPA := ⟨t.terminated⟩

namespace AddrHeap

def pxNameToGPA (s : AddrHeap) (pxName : Name) : Exec (Option ℕ × AddrHeap) := do
  match ← pcNameToString s.heap pxName with
  | (none, h) => return (none, { s with heap := h })
  | (some pcTmp, h) => do
    let b ← inBounds (h.mem pcTmp)
    let t ← inBounds (cstring b)
    let (pxGpa, s) ← pxCreateGPA { s with heap := h } b 0 (t.length + 1)
    let h ← Common.vRsMemFree s.heap (some ⟨pcTmp, 0⟩)
    return (pxGpa, { s with heap := h })

/-- The address which an object holds. -/
def readGPA (s : AddrHeap) (pxGpa : ℕ) : Exec GPA := do
  let (uxLength, pucAddress) ← s.gpa pxGpa
  match pucAddress with
  | none => return ⟨[]⟩
  | some a => do
    let bs ← s.bytes a uxLength
    return ⟨bs⟩

def readGHA (s : AddrHeap) (pxGha : ℕ) : Exec GHA :=
  match s.objs pxGha with
  | some (.gha g) => .ok g
  | some (.gpa _ _) => .error .outOfBounds
  | some (.bytes _) => .error .outOfBounds
  | none => .error .outOfBounds

end AddrHeap

/-- The block stays in the name. -/
def vNameFree (h : Heap) (pxNm : OwnedName) : Exec Heap := Common.vRsMemFree h pxNm.pxFree

/-- The members of `ipcpInstanceData_t` which a registration uses, with the objects in memory. -/
structure NamedShim where
  xAppName : OwnedName
  xDafName : OwnedName
  pxAppPa : Option ℕ
  pxDafPa : Option ℕ
  pxHa : Option ℕ
  /-- Missing until the shim is started. -/
  xARP : Option ARP
  xPhyDev : MACAddress
  addrs : AddrHeap

variable (pf : Platform)

namespace NamedShim

def xARPAddApplication (m : NamedShim) (pxPa pxHa : Option ℕ) : Exec (Int × NamedShim) := do
  let pxARP ← deref m.xARP
  let pa ← m.addrs.readGPA (← deref pxPa)
  let ha ← m.addrs.readGHA (← deref pxHa)
  let (nHndl, pxARP, h) ← Shim.xARPAddApplication pf m.addrs.heap pxARP pa ha
  return (nHndl, { m with xARP := some pxARP, addrs := { m.addrs with heap := h } })

def xARPRemoveApplication (m : NamedShim) (pxPa : Option ℕ) : Exec (Bool × NamedShim) := do
  let pxARP ← deref m.xARP
  let pa ← m.addrs.readGPA (← deref pxPa)
  let (removed, pxCache) := xARPCacheRemove pxARP.pxCache pa
  return (removed, { m with xARP := some { pxARP with pxCache := pxCache } })

/-- The end of a registration which fails in front of the cache. -/
def err (m : NamedShim) : Exec (Bool × NamedShim) := do
  let h ← vNameFree m.addrs.heap m.xAppName
  let h ← vNameFree h m.xAppName
  let s ← AddrHeap.destroyMember { m.addrs with heap := h } AddrHeap.vGPADestroy (some m.pxAppPa)
  let s ← s.destroyMember AddrHeap.vGPADestroy (some m.pxDafPa)
  let s ← s.destroyMember AddrHeap.vGHADestroy (some m.pxHa)
  return (false, { m with addrs := s })

/-- The end of a registration which fails at the cache. -/
def unregisterErr (m : NamedShim) : Exec (Bool × NamedShim) := do
  let (_, m) ← m.xARPRemoveApplication m.pxAppPa
  let (_, m) ← m.xARPRemoveApplication m.pxAppPa
  m.err

/-- The steps of `xShimApplicationRegister` in front of the cache, and whether all of them could be
done. -/
def makeAddresses (m : NamedShim) (pxAppName pxDafName : Name) : Exec (Bool × NamedShim) := do
  let (named, xAppName, h) ← xNameAssignDup m.addrs.heap m.xAppName pxAppName
  let m := { m with xAppName := xAppName, addrs := { m.addrs with heap := h } }
  if !named then return (false, m)
  let (pxAppPa, s) ← m.addrs.pxNameToGPA pxAppName
  let m := { m with pxAppPa := pxAppPa, addrs := s }
  if pxAppPa.isNone then return (false, m)
  let (pxDafPa, s) ← m.addrs.pxNameToGPA pxDafName
  let m := { m with pxDafPa := pxDafPa, addrs := s }
  if pxDafPa.isNone then return (false, m)
  let (named, xDafName, h) ← xNameAssignDup m.addrs.heap m.xDafName pxDafName
  let m := { m with xDafName := xDafName, addrs := { m.addrs with heap := h } }
  if !named then return (false, m)
  let (pxHa, s) ← m.addrs.pxCreateGHA .MAC_ADDR_802_3 m.xPhyDev.ucBytes 0
  let m := { m with pxHa := pxHa, addrs := s }
  match pxHa with
  | none => return (false, m)
  | some p => do
    let ha ← m.addrs.readGHA p
    return (xIsGHAOK ha, m)

/-- Both addresses are added to the cache. A handle which is not zero counts as success. -/
def enterAddresses (m : NamedShim) : Exec (Bool × NamedShim) := do
  let (nHndl, m) ← m.xARPAddApplication pf m.pxAppPa m.pxHa
  if nHndl = 0 then return (false, m)
  let (nHndl, m) ← m.xARPAddApplication pf m.pxDafPa m.pxHa
  return (decide (nHndl ≠ 0), m)

def xShimApplicationRegister (m : NamedShim) (pxAppName pxDafName : Name) :
    Exec (Bool × NamedShim) := do
  let (made, m) ← m.makeAddresses pxAppName pxDafName
  if !made then m.err
  else do
    let (entered, m) ← m.enterAddresses pf
    if !entered then m.unregisterErr
    else return (true, m)

/-- Nothing of the registration is left. -/
structure Undone (m m' : NamedShim) : Prop where
  xARP : m'.xARP = m.xARP
  names : m'.xAppName.pxFree = none ∧ m'.xDafName.pxFree = none
  addresses : m'.pxAppPa = none ∧ m'.pxDafPa = none ∧ m'.pxHa = none
  released : ∀ a, m.addrs.heap.brk ≤ a → m'.addrs.heap.mem a = none ∧ m'.addrs.objs a = none

/-- The hardware address of the shim. -/
def gha (m : NamedShim) : GHA := ⟨.MAC_ADDR_802_3, m.xPhyDev⟩

/-- The name has a text, under which the cache has the hardware address of the shim. -/
def Resolves (m m' : NamedShim) (nm : Name) : Prop :=
  ∃ t pxARP, NameText m.addrs.heap nm t ∧ m'.xARP = some pxARP ∧
    pxARP.pxCache.Maps pf (textGPA t) m.gha

/-- A registration which succeeds enters both names, and one which fails leaves nothing behind. -/
def AllOrNothing (m : NamedShim) (pxAppName pxDafName : Name) : Prop :=
  ∃ good m', m.xShimApplicationRegister pf pxAppName pxDafName = .ok (good, m') ∧
    if good then m.Resolves pf m' pxAppName ∧ m.Resolves pf m' pxDafName else m.Undone m'

end NamedShim

/-! ### What a registration needs -/

/-- An addition gets the memory for its copies. -/
def CopyGranted (h : Heap) : Prop := Granted h 0 ∧ Granted h 1 ∧ Granted h 2

instance (h : Heap) : Decidable (CopyGranted h) := inferInstanceAs (Decidable (_ ∧ _))

/-- The requests to `malloc` of an addition. -/
def copyRequests (h : Heap) : ℕ := if ¬ Granted h 0 then 1 else if ¬ Granted h 1 then 2 else 3

/-- The addresses of which an addition gets copies, when they are added one after the other. -/
def copied (h : Heap) : List CString → List CString
  | [] => []
  | t :: ts =>
    (if CopyGranted h then [t] else []) ++ copied (h.afterCalls (copyRequests h)) ts

def freeRows (rows : List ARPCacheRow) : ℕ := rows.countP fun r => r.ucValid = 0

/-- The rows in front of the one which an addition after `j` others fills. -/
def rowsAhead : ℕ → List ARPCacheRow → List ARPCacheRow
  | _, [] => []
  | 0, r :: rows => if r.ucValid = 0 then [] else r :: rowsAhead 0 rows
  | j + 1, r :: rows => r :: if r.ucValid = 0 then rowsAhead j rows else rowsAhead (j + 1) rows

/-- With the texts in free rows an address is found, in a row where it already was or in one of
theirs with no row in front of it which has the address. -/
def Finds (ha : GHA) (rows : List ARPCacheRow) (ts : List CString) (t : CString) : Prop :=
  lookupResult (textGPA t) rows = some ha ∨
    ∃ j, ts[j]? = some t ∧ lookupResult (textGPA t) (rowsAhead j rows) = none

/-- The rows have room for the texts, and each of `us` is found then. A debug build prints what it
adds. -/
structure Enterable (ha : GHA) (rows : List ARPCacheRow) (ts us : List CString) : Prop where
  room : ts.length ≤ freeRows rows
  printed : pf.ndebug = false → ∀ t ∈ ts, t.length ≤ 24
  found : ∀ t ∈ us, Finds ha rows ts t

/-- The memory, the names and the cache which a registration needs to succeed. -/
structure Registrable (m : NamedShim) (pxAppName pxDafName : Name) (pxARP : ARP)
    (app daf : CString) : Prop where
  xARP : m.xARP = some pxARP
  appText : NameText m.addrs.heap pxAppName app
  dafText : NameText m.addrs.heap pxDafName daf
  parts : PartsRead m.addrs.heap pxAppName ∧ PartsRead m.addrs.heap pxDafName
  granted : ∀ i < 9, Granted m.addrs.heap i
  entered : Enterable pf m.gha pxARP.pxCache.pxRows
    (copied (m.addrs.heap.afterCalls 9) [app, daf]) [app, daf]

/-- A new shim to which the very first request to `malloc` is refused. -/
structure RefusedAtOnce (m : NamedShim) (pxAppName : Name) : Prop where
  refused : ¬ Granted m.addrs.heap 0
  parts : PartsRead m.addrs.heap pxAppName
  xDafName : m.xDafName.pxFree = none
  addresses : m.pxAppPa = none ∧ m.pxDafPa = none ∧ m.pxHa = none

variable {pf} {h h' : Heap} {c c' : ARPCache} {rows rows' : List ARPCacheRow} {ha : GHA}
  {t u : CString} {ts us : List CString}

/-! ### Rows -/

theorem key_textGPA (t : CString) : (textGPA t).key = t.bytes := by
  rw [GPA.key, textGPA, CString.terminated, cut_append_of_not_mem t.noZero]
  exact List.append_nil _

theorem strip_textGPA (t : CString) : strip 0 (textGPA t).pucAddress = t.bytes := by
  have hcut : strip 0 (textGPA t).pucAddress = cut 0 (textGPA t).pucAddress :=
    strip_eq_cut_iff.mpr ⟨t.bytes, 1, t.noZero, rfl⟩
  exact hcut.trans (key_textGPA t)

theorem textGPA_ok (t : CString) : xIsGPAOK (textGPA t) = true := by
  rw [xIsGPAOK_iff]
  exact List.append_ne_nil_of_right_ne_nil _ (List.cons_ne_nil _ _)

/-- A row has an address exactly when it has the text. -/
theorem live_matches_iff (ht : t.bytes ≠ []) :
    (ARPCacheRow.live ⟨t.bytes⟩ ha).Matches (textGPA u) ↔ t = u := by
  have hkey : (GPA.mk t.bytes).key = t.bytes := cut_of_not_mem t.noZero
  have hcmp : xGPACmp ⟨t.bytes⟩ (textGPA u) = true ↔ t.bytes = u.bytes := by
    rw [xGPACmp_iff, hkey, key_textGPA, and_iff_right ht,
      and_iff_right ((xIsGPAOK_iff _).mp (textGPA_ok u))]
  constructor
  · rintro ⟨-, hany⟩
    exact CString.ext (hcmp.mp hany)
  · rintro rfl
    exact ⟨(by decide : (1 : UInt8) ≠ 0), hcmp.mpr rfl⟩

theorem freeRows_append : freeRows (rows ++ rows') = freeRows rows + freeRows rows' :=
  List.countP_append

theorem freeRows_cons_free {r : ARPCacheRow} (hr : r.ucValid = 0) :
    freeRows (r :: rows) = freeRows rows + 1 := List.countP_cons_of_pos (decide_eq_true hr)

theorem freeRows_cons_valid {r : ARPCacheRow} (hr : r.ucValid ≠ 0) :
    freeRows (r :: rows) = freeRows rows := List.countP_cons_of_neg (by simpa using hr)

theorem fillRow_freeRows {row : ARPCacheRow} (hrow : row.ucValid ≠ 0)
    (hfill : fillRow row rows = some rows') : freeRows rows = freeRows rows' + 1 := by
  obtain ⟨own, r, rest, rfl, rfl, hfree, -⟩ := fillRow_eq_some hfill
  rw [freeRows_append, freeRows_append, freeRows_cons_free hfree, freeRows_cons_valid hrow,
    Nat.add_assoc]

theorem freeRows_of_full {row : ARPCacheRow} (hfill : fillRow row rows = none) :
    freeRows rows = 0 :=
  List.countP_eq_zero.mpr fun r hr => by simpa using fillRow_eq_none hfill r hr

theorem rowsAhead_cons_valid {r : ARPCacheRow} (hr : r.ucValid ≠ 0) (j : ℕ) :
    rowsAhead j (r :: rows) = r :: rowsAhead j rows := by
  cases j with
  | zero => rw [rowsAhead, if_neg hr]
  | succ j => rw [rowsAhead, if_neg hr]

theorem rowsAhead_cons_free {r : ARPCacheRow} (hr : r.ucValid = 0) (j : ℕ) :
    rowsAhead (j + 1) (r :: rows) = r :: rowsAhead j rows := by
  rw [rowsAhead, if_pos hr]

theorem rowsAhead_append {own : List ARPCacheRow} (hown : ∀ r ∈ own, r.ucValid ≠ 0) (j : ℕ) :
    rowsAhead j (own ++ rows) = own ++ rowsAhead j rows := by
  induction own with
  | nil => rfl
  | cons r own ih =>
    rw [List.cons_append, rowsAhead_cons_valid (hown r List.mem_cons_self),
      ih fun r' hr' => hown r' (List.mem_cons_of_mem r hr'), List.cons_append]

/-- A row for one text is ahead of those for the others. -/
theorem finds_cons (hrows : ∀ r ∈ rows, r.Clean) (ht : t.bytes ≠ [])
    (hfill : fillRow (.live ⟨t.bytes⟩ ha) rows = some rows') :
    Finds ha rows' ts u ↔ Finds ha rows (t :: ts) u := by
  obtain ⟨own, r, rest, rfl, rfl, hfree, hown⟩ := fillRow_eq_some hfill
  have hvalid : ∀ r ∈ own, r.ucValid ≠ 0 := fun x hx => by
    rw [hown] at hx
    simpa using List.mem_takeWhile_imp hx
  have hclean : ∀ r ∈ own, r.Clean := fun x hx => hrows x (List.mem_append_left _ hx)
  have hlive : (ARPCacheRow.live ⟨t.bytes⟩ ha).ucValid ≠ 0 := (by decide : (1 : UInt8) ≠ 0)
  have hmiss : ¬ r.Matches (textGPA u) := fun hm =>
    hm.1 ((hrows r (by simp)).valid.mp hfree)
  have hfirst : rowsAhead 0 (own ++ r :: rest) = own := by
    rw [rowsAhead_append hvalid, rowsAhead, if_pos hfree, List.append_nil]
  have hnext : ∀ j, rowsAhead (j + 1) (own ++ r :: rest) = own ++ r :: rowsAhead j rest :=
    fun j => by rw [rowsAhead_append hvalid, rowsAhead_cons_free hfree]
  have hfilled : ∀ j, rowsAhead j (own ++ .live ⟨t.bytes⟩ ha :: rest) =
      own ++ .live ⟨t.bytes⟩ ha :: rowsAhead j rest :=
    fun j => by rw [rowsAhead_append hvalid, rowsAhead_cons_valid hlive]
  have hold : ∀ rows, lookupResult (textGPA u) (own ++ r :: rows) =
      (lookupResult (textGPA u) own).or (lookupResult (textGPA u) rows) := fun rows => by
    rw [lookupResult_or hclean, lookupResult_of_not_matches hmiss]
  -- the first of the texts is the one in the new row, the others come behind it
  have hsplit : Finds ha (own ++ r :: rest) (t :: ts) u ↔
      lookupResult (textGPA u) (own ++ r :: rest) = some ha ∨
        t = u ∧ lookupResult (textGPA u) own = none ∨
        ∃ j, ts[j]? = some u ∧ lookupResult (textGPA u) (own ++ r :: rowsAhead j rest) = none := by
    refine or_congr_right ⟨?_, ?_⟩
    · rintro ⟨_ | j, htext, hnone⟩
      · exact .inl ⟨Option.some.inj htext, hfirst ▸ hnone⟩
      · exact .inr ⟨j, htext, hnext j ▸ hnone⟩
    · rintro (⟨rfl, hnone⟩ | ⟨j, htext, hnone⟩)
      · exact ⟨0, rfl, hfirst.symm ▸ hnone⟩
      · exact ⟨j + 1, htext, (hnext j).symm ▸ hnone⟩
  rw [hsplit, Finds]
  simp only [hfilled, hold, lookupResult_or hclean]
  by_cases hu : t = u
  · subst hu
    have hm : (ARPCacheRow.live ⟨t.bytes⟩ ha).Matches (textGPA t) := (live_matches_iff ht).mpr rfl
    simp only [lookupResult_of_matches hm, true_and]
    cases lookupResult (textGPA t) own with
    | none => exact iff_of_true (.inl rfl) (.inr (.inl rfl))
    | some x => simp
  · have hm : ¬ (ARPCacheRow.live ⟨t.bytes⟩ ha).Matches (textGPA u) :=
      mt (live_matches_iff ht).mp hu
    simp only [lookupResult_of_not_matches hm, hu, false_and, false_or]

theorem clean_fillRow (hrows : ∀ r ∈ rows, r.Clean) (ht : t.bytes ≠ [])
    (hfill : fillRow (.live ⟨t.bytes⟩ ha) rows = some rows') : ∀ r ∈ rows', r.Clean := fun r hr =>
  (mem_fillRow hfill hr).elim (fun hnew => .inr ⟨_, _, hnew, ht⟩) (hrows r)

theorem enterable_cons_iff (hrows : ∀ r ∈ rows, r.Clean) (ht : t.bytes ≠ []) :
    Enterable pf ha rows (t :: ts) us ↔
      ∃ rows', fillRow (.live ⟨t.bytes⟩ ha) rows = some rows' ∧
        (pf.ndebug = false → t.length ≤ 24) ∧ Enterable pf ha rows' ts us := by
  have hlive : (ARPCacheRow.live ⟨t.bytes⟩ ha).ucValid ≠ 0 := (by decide : (1 : UInt8) ≠ 0)
  constructor
  · intro hent
    cases hfill : fillRow (.live ⟨t.bytes⟩ ha) rows with
    | none =>
      have hroom := hent.room
      rw [freeRows_of_full hfill] at hroom
      cases hroom
    | some rows' =>
      refine ⟨rows', rfl, fun hd => hent.printed hd t List.mem_cons_self, ?_, fun hd u hu =>
        hent.printed hd u (List.mem_cons_of_mem t hu), fun u hu =>
        (finds_cons hrows ht hfill).mpr (hent.found u hu)⟩
      have hroom := hent.room
      rw [fillRow_freeRows hlive hfill] at hroom
      exact Nat.le_of_succ_le_succ hroom
  · rintro ⟨rows', hfill, hlen, hent⟩
    refine ⟨?_, fun hd => List.forall_mem_cons.mpr ⟨hlen hd, hent.printed hd⟩, fun u hu =>
      (finds_cons hrows ht hfill).mp (hent.found u hu)⟩
    rw [fillRow_freeRows hlive hfill]
    exact Nat.succ_le_succ hent.room

/-! ### Additions -/

theorem copiesMade_textGPA (ht : t.bytes ≠ []) (hg : CopyGranted h) : CopiesMade h (textGPA t) :=
  ⟨(strip_textGPA t).symm ▸ ht, hg.1, hg.2.1, hg.2.2⟩

/-- Without its copies an addition fails with a handle that counts as success. -/
theorem add_refused (ht : t.bytes ≠ []) (hg : ¬ CopyGranted h) :
    xARPCacheAdd pf h c (textGPA t) ha =
      .ok (ARP_CACHE_INVALID_HANDLE, c, h.afterCalls (copyRequests h)) := by
  have hstrip : strip 0 (textGPA t).pucAddress ≠ [] := (strip_textGPA t).symm ▸ ht
  rcases pxDupGPA_shrink_cases h (textGPA t) 0 with ⟨hbad, -⟩ | ⟨-, h0, hdup⟩ | ⟨-, -, hnil, -⟩ |
    ⟨h0, -, h1, hdup⟩ | ⟨h0, -, h1, hdup⟩
  · rw [textGPA_ok] at hbad
    cases hbad
  · rw [xARPCacheAdd, hdup, copyRequests, if_pos h0]
    rfl
  · exact absurd hnil hstrip
  · rw [xARPCacheAdd, hdup, copyRequests, if_neg (not_not_intro h0), if_pos h1]
    rfl
  · have h2 : ¬ Granted h 2 := fun h2 => hg ⟨h0, h1, h2⟩
    have hha : pxDupGHA (h.afterCalls 2) ha = (none, h.afterCalls 3) := by
      simp [pxDupGHA, xIsGHAOK_all, request_refused h2]
    rw [copyRequests, if_neg (not_not_intro h0), if_neg (not_not_intro h1)]
    simp only [xARPCacheAdd, hdup, Exec.ok_bind, hha]
    rfl

/-- An addition which returns a handle that counts as success. -/
theorem add_success_iff (ht : t.bytes ≠ []) (P : ARPCache → Heap → Prop) :
    (∃ r c' h', xARPCacheAdd pf h c (textGPA t) ha = .ok (r, c', h') ∧ r ≠ 0 ∧ P c' h') ↔
      if CopyGranted h then
        ∃ rows, fillRow (.live ⟨t.bytes⟩ ha) c.pxRows = some rows ∧
          (pf.ndebug = false → t.length ≤ 24) ∧ P { c with pxRows := rows } (h.afterCalls 3)
      else P c (h.afterCalls (copyRequests h)) := by
  split_ifs with hg
  · rw [(copiesMade_textGPA ht hg).add_eq, strip_textGPA]
    cases hfill : fillRow (.live ⟨t.bytes⟩ ha) c.pxRows with
    | none =>
      refine iff_of_false ?_ (by rintro ⟨rows, hrows, -⟩; cases hrows)
      rintro ⟨r, c', h', hadd, hr, -⟩
      cases hadd
      exact hr rfl
    | some rows =>
      have hprint : prvARPCachePrintRow (.live ⟨t.bytes⟩ ha) = _ :=
        prvARPCachePrintRow_live t.noZero ha
      simp only [hprint]
      constructor
      · rintro ⟨r, c', h', hadd, -, hP⟩
        by_cases hd : pf.ndebug = true
        · simp only [hd, Bool.not_true, Bool.false_eq_true, if_false] at hadd
          cases hadd
          exact ⟨rows, rfl, fun hdebug => by simp [hd] at hdebug, hP⟩
        · simp only [hd, Bool.not_false, if_true] at hadd
          obtain ⟨_, hshort, hret⟩ := Exec.bind_eq_ok.mp hadd
          split_ifs at hshort with hlen
          cases hret
          exact ⟨rows, rfl, fun _ => hlen, hP⟩
      · rintro ⟨rows', hrows, hlen, hP⟩
        cases hrows
        refine ⟨1, _, _, ?_, by decide, hP⟩
        by_cases hd : pf.ndebug = true
        · simp [hd]
          rfl
        · have hd := eq_false_of_ne_true hd
          have hshort : (GPA.mk t.bytes).uxLength ≤ 24 := hlen hd
          simp [hd, hshort, pure, Except.pure]
  · rw [add_refused ht hg]
    constructor
    · rintro ⟨r, c', h', hadd, -, hP⟩
      cases hadd
      exact hP
    · exact fun hP => ⟨_, _, _, rfl, by decide, hP⟩

/-- The texts are added one after the other with success, and then each of `us` is found. -/
def Enters (pf : Platform) (ha : GHA) (us : List CString) : List CString → Heap → ARPCache → Prop
  | [], _, c => ∀ t ∈ us, lookupResult (textGPA t) c.pxRows = some ha
  | t :: ts, h, c =>
    ∃ r c' h', xARPCacheAdd pf h c (textGPA t) ha = .ok (r, c', h') ∧ r ≠ 0 ∧
      Enters pf ha us ts h' c'

theorem enters_iff (hts : ∀ t ∈ ts, t.bytes ≠ []) (hc : c.Inv) :
    Enters pf ha us ts h c ↔ Enterable pf ha c.pxRows (copied h ts) us := by
  induction ts generalizing h c with
  | nil =>
    constructor
    · intro hall
      exact ⟨Nat.zero_le _, fun _ t ht => absurd ht List.not_mem_nil, fun t ht => .inl (hall t ht)⟩
    · intro hent t ht
      rcases hent.found t ht with hfound | ⟨j, htext, -⟩
      · exact hfound
      · cases htext
  | cons t ts ih =>
    have hne := hts t List.mem_cons_self
    have hrest := fun u hu => hts u (List.mem_cons_of_mem t hu)
    rw [Enters, add_success_iff hne, copied]
    split_ifs with hg
    · have hrequests : copyRequests h = 3 := by
        rw [copyRequests, if_neg (not_not_intro hg.1), if_neg (not_not_intro hg.2.1)]
      rw [List.singleton_append, enterable_cons_iff hc hne, hrequests]
      refine exists_congr fun rows => and_congr_right fun hfill => and_congr_right fun _ => ?_
      exact ih hrest (clean_fillRow hc hne hfill)
    · rw [ih hrest hc]
      rfl

/-! ### Memory -/

/-- The objects after `n` requests which left what was there before. -/
structure AddrHeap.Since (s s' : AddrHeap) (n : ℕ) : Prop where
  calls : s'.heap.calls = s.heap.calls + n
  mallocOk : s'.heap.mallocOk = s.heap.mallocOk
  brk : s.heap.brk ≤ s'.heap.brk
  heapFresh : s'.heap.Fresh
  fresh : s'.Fresh
  mem : ∀ a < s.heap.brk, s'.heap.mem a = s.heap.mem a
  objs : ∀ a < s.heap.brk, s'.objs a = s.objs a

/-- The address object with its bytes, behind which their block may go on. -/
def AddrHeap.HoldsGPA (s : AddrHeap) (p : ℕ) (g : GPA) : Prop :=
  ∃ a rest, p < s.heap.brk ∧ a < s.heap.brk ∧ s.objs p = some (.gpa g.uxLength (some a)) ∧
    s.objs a = some (.bytes (g.pucAddress ++ rest))

def AddrHeap.HoldsGHA (s : AddrHeap) (p : ℕ) (g : GHA) : Prop :=
  p < s.heap.brk ∧ s.objs p = some (.gha g)

section Objects

variable {s s' s'' : AddrHeap} {nm : Name} {g : GPA} {n k i p : ℕ} {b bs : Bytes} {o : Option ℕ}

theorem AddrHeap.Since.trans (h : s.Since s' n) (h' : s'.Since s'' k) : s.Since s'' (n + k) where
  calls := by rw [h'.calls, h.calls, Nat.add_assoc]
  mallocOk := h'.mallocOk.trans h.mallocOk
  brk := h.brk.trans h'.brk
  heapFresh := h'.heapFresh
  fresh := h'.fresh
  mem a ha := (h'.mem a (Nat.lt_of_lt_of_le ha h.brk)).trans (h.mem a ha)
  objs a ha := (h'.objs a (Nat.lt_of_lt_of_le ha h.brk)).trans (h.objs a ha)

theorem AddrHeap.Since.granted_iff (h : s.Since s' n) :
    Granted s'.heap i ↔ Granted s.heap (n + i) := by
  rw [Granted, Granted, h.mallocOk, h.calls, Nat.add_assoc]

theorem AddrHeap.HoldsGPA.since (hg : s.HoldsGPA p g) (h : s.Since s' n) : s'.HoldsGPA p g := by
  obtain ⟨a, rest, hp, ha, hobj, hbytes⟩ := hg
  exact ⟨a, rest, Nat.lt_of_lt_of_le hp h.brk, Nat.lt_of_lt_of_le ha h.brk,
    (h.objs p hp).trans hobj, (h.objs a ha).trans hbytes⟩

theorem AddrHeap.HoldsGPA.read (hg : s.HoldsGPA p g) : s.readGPA p = .ok g := by
  obtain ⟨a, rest, -, -, hobj, hbytes⟩ := hg
  have hslice : slice (g.pucAddress ++ rest) 0 g.uxLength = some g.pucAddress :=
    slice_middle [] g.pucAddress rest rfl rfl
  rw [AddrHeap.readGPA, AddrHeap.gpa, hobj, Exec.ok_bind]
  show (s.bytes a g.uxLength >>= _) = _
  simp only [AddrHeap.bytes, hbytes, readBuf, hslice]
  rfl

theorem AddrHeap.HoldsGHA.read {g : GHA} (hg : s.HoldsGHA p g) : s.readGHA p = .ok g := by
  rw [AddrHeap.readGHA, hg.2]

/-- A new block in the heap of the objects. -/
theorem AddrHeap.since_built (hf : s.heap.Fresh) (hs : s.Fresh) (hb : Built s.heap h b) :
    s.Since { s with heap := h } 1 where
  calls := hb.calls
  mallocOk := hb.mallocOk
  brk := hb.brk.symm ▸ Nat.le_succ _
  heapFresh := (hb.later hf).fresh
  fresh a ha := by
    rw [hb.brk] at ha
    exact hs a (Nat.le_of_succ_le ha)
  mem := hb.below
  objs _ _ := rfl

/-- A copy of a name is a new block. -/
theorem AddrHeap.since_named (hf : s.heap.Fresh) (hs : s.Fresh) {pxDst nm' : OwnedName}
    (hrun : xNameAssignDup s.heap pxDst nm = .ok (true, nm', h)) :
    s.Since { s with heap := h } 1 := by
  rcases xNameAssignDup_cases hrun with ⟨hparts, ⟨hfalse, -⟩ | ⟨-, hg, -⟩⟩
  · cases hfalse
  · obtain ⟨nm'', h'', b, hrun', hbuilt⟩ := xNameAssignDup_granted pxDst hg hparts
    rw [hrun] at hrun'
    cases hrun'
    exact AddrHeap.since_built hf hs hbuilt

/-- A new object. -/
theorem AddrHeap.pvRsMemAlloc_granted (hf : s.heap.Fresh) (hs : s.Fresh) (h0 : Granted s.heap 0)
    (x : AddrObject) :
    ∃ s', s.pvRsMemAlloc x = (some s.heap.brk, s') ∧ s.Since s' 1 ∧
      s'.heap.brk = s.heap.brk + 1 ∧ s'.heap.mem = s.heap.mem ∧
      s'.objs s.heap.brk = some x := by
  have hobjs : ∀ a, a ≠ s.heap.brk →
      Function.update s.objs s.heap.brk (some x) a = s.objs a :=
    fun a ha => Function.update_of_ne ha _ _
  refine ⟨_, if_pos h0, ⟨rfl, rfl, Nat.le_succ _, fun a ha => hf a (Nat.le_of_succ_le ha),
    fun a ha => ?_, fun _ _ => rfl, fun a ha => hobjs a (Nat.ne_of_lt ha)⟩, rfl, rfl,
    Function.update_self _ _ _⟩
  have ha : s.heap.brk + 1 ≤ a := ha
  show Function.update s.objs s.heap.brk (some x) a = none
  rw [hobjs a (by omega)]
  exact hs a (Nat.le_of_succ_le ha)

/-- An object which was made meanwhile is filled in. -/
theorem AddrHeap.Since.set (h : s.Since s' n) (hp : s.heap.brk ≤ p) (hlt : p < s'.heap.brk)
    (x : AddrObject) : s.Since (s'.set p x) n where
  calls := h.calls
  mallocOk := h.mallocOk
  brk := h.brk
  heapFresh := h.heapFresh
  fresh a ha := (Function.update_of_ne (Nat.ne_of_gt (Nat.lt_of_lt_of_le hlt ha)) _ _).trans
    (h.fresh a ha)
  mem := h.mem
  objs a ha := (Function.update_of_ne (Nat.ne_of_lt (Nat.lt_of_lt_of_le ha hp)) _ _).trans
    (h.objs a ha)

/-- A block which was made meanwhile is released. -/
theorem AddrHeap.Since.freeBlock (h : s.Since s' n) (hp : s.heap.brk ≤ p) (hlt : p < s'.heap.brk) :
    s.Since { s' with heap := s'.heap.setBlock p none } n where
  calls := h.calls
  mallocOk := h.mallocOk
  brk := h.brk
  heapFresh a ha := ⟨(h.heapFresh a ha).1,
    (Function.update_of_ne (Nat.ne_of_gt (Nat.lt_of_lt_of_le hlt ha)) _ _).trans
      (h.heapFresh a ha).2⟩
  fresh := h.fresh
  mem a ha := (Function.update_of_ne (Nat.ne_of_lt (Nat.lt_of_lt_of_le ha hp)) _ _).trans
    (h.mem a ha)
  objs := h.objs

theorem AddrHeap.pxCreateGPA_granted (hf : s.heap.Fresh) (hs : s.Fresh) {m : ℕ} (hm : m ≠ 0)
    (h0 : Granted s.heap 0) (h1 : Granted s.heap 1) (hread : readBuf b 0 m = .ok bs)
    (hlen : bs.length = m) :
    ∃ s', s.pxCreateGPA b 0 m = .ok (some s.heap.brk, s') ∧ s.Since s' 2 ∧
      s'.heap.mem = s.heap.mem ∧ s'.HoldsGPA s.heap.brk ⟨bs⟩ := by
  obtain ⟨s₁, halloc₁, hs₁, hbrk₁, hmem₁, -⟩ :=
    AddrHeap.pvRsMemAlloc_granted hf hs h0 (.gpa m none)
  obtain ⟨s₂, halloc₂, hs₂, hbrk₂, hmem₂, -⟩ :=
    AddrHeap.pvRsMemAlloc_granted hs₁.heapFresh hs₁.fresh (hs₁.granted_iff.mpr h1)
      (.bytes (List.replicate (m + 1) 0))
  have hlt₁ : s.heap.brk < s₂.heap.brk := by omega
  have hlt₂ : s₁.heap.brk < s₂.heap.brk := by omega
  have hne : s.heap.brk ≠ s₁.heap.brk := by omega
  refine ⟨(s₂.set s.heap.brk (.gpa m (some s₁.heap.brk))).set s₁.heap.brk (.bytes (bs ++ [0])),
    ?_, ((hs₁.trans hs₂).set (Nat.le_refl _) hlt₁ _).set hs₁.brk hlt₂ _, hmem₂.trans hmem₁,
    s₁.heap.brk, [0], hlt₁, hlt₂, ?_, Function.update_self _ _ _⟩
  · rw [AddrHeap.pxCreateGPA, if_neg hm, halloc₁]
    show (s₁.pucCreateAddress (m + 1) >>= _) = _
    rw [AddrHeap.pucCreateAddress, halloc₂, Exec.ok_bind]
    show (readBuf b 0 m >>= _) = _
    rw [hread]
    rfl
  · refine (Function.update_of_ne hne _ _).trans ((Function.update_self _ _ _).trans ?_)
    rw [GPA.uxLength, hlen]

theorem AddrHeap.pxCreateGPA_some {m : ℕ} (hrun : s.pxCreateGPA b 0 m = .ok (some p, s')) :
    Granted s.heap 0 ∧ Granted s.heap 1 := by
  unfold AddrHeap.pxCreateGPA at hrun
  split_ifs at hrun with hm
  · cases hrun
  by_cases h0 : s.heap.mallocOk s.heap.calls = true
  · refine ⟨h0, ?_⟩
    simp only [AddrHeap.pvRsMemAlloc, if_pos h0] at hrun
    by_contra h1
    have hrefused : ¬ s.heap.mallocOk (s.heap.calls + 1) = true := h1
    simp [AddrHeap.pucCreateAddress, AddrHeap.pvRsMemAlloc, Heap.called, hrefused] at hrun
  · simp only [AddrHeap.pvRsMemAlloc, if_neg h0] at hrun
    cases hrun

theorem AddrHeap.pxNameToGPA_granted (hf : s.heap.Fresh) (hs : s.Fresh)
    (hn : nm.Below s.heap.brk) (ht : NameText s.heap nm t)
    (hg : ∀ i < 3, Granted s.heap i) :
    ∃ p s', s.pxNameToGPA nm = .ok (some p, s') ∧ s.Since s' 3 ∧ s'.HoldsGPA p (textGPA t) := by
  obtain ⟨b, hb, htext⟩ := ht
  obtain ⟨h₁, hprint, hbuilt⟩ := pcNameToString_built hn (hg 0 (by decide)) hb
  have hsince := AddrHeap.since_built hf hs hbuilt
  have hread : readBuf b 0 (t.length + 1) = .ok t.terminated := by
    obtain ⟨rest, rfl⟩ := eq_of_cstring htext
    have hslice : slice (t.terminated ++ rest) 0 (t.length + 1) = some t.terminated :=
      slice_middle [] t.terminated rest rfl t.terminated_length.symm
    rw [readBuf, hslice]
    rfl
  obtain ⟨s₂, hgpa, hsince₂, hmem, hholds⟩ := AddrHeap.pxCreateGPA_granted hsince.heapFresh
    hsince.fresh (Nat.succ_ne_zero t.length) (hsince.granted_iff.mpr (hg 1 (by decide)))
    (hsince.granted_iff.mpr (hg 2 (by decide))) hread t.terminated_length
  have hblock : s₂.heap.mem s.heap.brk = some b := by
    rw [hmem]
    exact hbuilt.self
  have hlt : s.heap.brk < s₂.heap.brk := by
    have hbrk := hsince₂.brk
    rw [hbuilt.brk] at hbrk
    exact hbrk
  have hfree : Common.vRsMemFree s₂.heap (some ⟨s.heap.brk, 0⟩) =
      .ok (s₂.heap.setBlock s.heap.brk none) := if_pos ⟨rfl, by rw [hblock]; rfl⟩
  refine ⟨h₁.brk, _, ?_, (hsince.trans hsince₂).freeBlock (Nat.le_refl _) hlt, hholds⟩
  rw [AddrHeap.pxNameToGPA, hprint, Exec.ok_bind]
  show (inBounds (h₁.mem s.heap.brk) >>= _) = _
  rw [hbuilt.self, inBounds_some, Exec.ok_bind, htext, inBounds_some, Exec.ok_bind, hgpa,
    Exec.ok_bind]
  show (Common.vRsMemFree s₂.heap (some ⟨s.heap.brk, 0⟩) >>= _) = _
  rw [hfree]
  rfl

theorem AddrHeap.pxNameToGPA_needs (hn : nm.Below s.heap.brk)
    (hrun : s.pxNameToGPA nm = .ok (some p, s')) :
    (∀ i < 3, Granted s.heap i) ∧ ∃ t, NameText s.heap nm t := by
  obtain ⟨⟨o, h₁⟩, hprint, hrun⟩ := Exec.bind_eq_ok.mp hrun
  cases o with
  | none => cases hrun
  | some pcTmp =>
    have h0 := pcNameToString_granted hprint
    obtain ⟨b, hb⟩ := nameBlock_of_printed hn hprint
    obtain ⟨h₂, hprint₂, hbuilt⟩ := pcNameToString_built hn h0 hb
    rw [hprint] at hprint₂
    cases hprint₂
    obtain ⟨b', hblock, hrun⟩ := Exec.bind_eq_ok.mp hrun
    rw [hbuilt.self] at hblock
    cases hblock
    obtain ⟨t, htext, hrun⟩ := Exec.bind_eq_ok.mp hrun
    obtain ⟨⟨q, s₂⟩, hgpa, hrun⟩ := Exec.bind_eq_ok.mp hrun
    obtain ⟨h₃, -, hrun⟩ := Exec.bind_eq_ok.mp hrun
    cases hrun
    obtain ⟨h1, h2⟩ := AddrHeap.pxCreateGPA_some hgpa
    refine ⟨fun i hi => ?_, t, b, hb, inBounds_eq_ok.mp htext⟩
    have hlater : ∀ i, Granted h₁ i → Granted s.heap (1 + i) := fun i hi => by
      rw [Granted, hbuilt.mallocOk, hbuilt.calls, Nat.add_assoc] at hi
      exact hi
    match i, hi with
    | 0, _ => exact h0
    | 1, _ => exact hlater 0 h1
    | 2, _ => exact hlater 1 h2

/-- What an address which was made shows of the name and of the memory. -/
theorem AddrHeap.pxNameToGPA_some (hf : s.heap.Fresh) (hs : s.Fresh) (hn : nm.Below s.heap.brk)
    (hrun : s.pxNameToGPA nm = .ok (some p, s')) :
    (∀ i < 3, Granted s.heap i) ∧ (∃ t, NameText s.heap nm t) ∧ s.Since s' 3 := by
  obtain ⟨hg, t, ht⟩ := AddrHeap.pxNameToGPA_needs hn hrun
  obtain ⟨p', s'', hrun', hsince, -⟩ := AddrHeap.pxNameToGPA_granted hf hs hn ht hg
  rw [hrun] at hrun'
  cases hrun'
  exact ⟨hg, ⟨t, ht⟩, hsince⟩

theorem AddrHeap.pxCreateGHA_granted (hf : s.heap.Fresh) (hs : s.Fresh) (h0 : Granted s.heap 0)
    (mac : MACAddress) :
    ∃ s', s.pxCreateGHA .MAC_ADDR_802_3 mac.ucBytes 0 = .ok (some s.heap.brk, s') ∧
      s.Since s' 1 ∧ s'.HoldsGHA s.heap.brk ⟨.MAC_ADDR_802_3, mac⟩ := by
  have hslice : slice mac.ucBytes 0 6 = some mac.ucBytes := by
    have hwhole := slice_middle [] mac.ucBytes [] rfl mac.length_eq.symm
    rwa [List.append_nil] at hwhole
  obtain ⟨s₁, halloc, hs₁, hbrk, -⟩ := AddrHeap.pvRsMemAlloc_granted hf hs h0 (.bytes [])
  have hlt : s.heap.brk < s₁.heap.brk := by omega
  refine ⟨s₁.set s.heap.brk (.gha ⟨.MAC_ADDR_802_3, mac⟩), ?_, hs₁.set (Nat.le_refl _) hlt _,
    hlt, Function.update_self _ _ _⟩
  rw [AddrHeap.pxCreateGHA, if_neg (not_not_intro rfl), halloc]
  show (readMAC mac.ucBytes 0 >>= _) = _
  rw [readMAC_eq hslice]
  rfl

theorem AddrHeap.pxCreateGHA_some
    (hrun : s.pxCreateGHA .MAC_ADDR_802_3 b 0 = .ok (some p, s')) : Granted s.heap 0 := by
  rw [AddrHeap.pxCreateGHA, if_neg (not_not_intro rfl)] at hrun
  by_contra h0
  have h0 : ¬ s.heap.mallocOk s.heap.calls = true := h0
  simp only [AddrHeap.pvRsMemAlloc, if_neg h0] at hrun
  cases hrun

end Objects

theorem inv_add {r : Int} (hc : c.Inv)
    (hadd : xARPCacheAdd pf h c (textGPA t) ha = .ok (r, c', h')) : c'.Inv := by
  have hstep : c.step pf (.add h (textGPA t) ha) = some c' := by rw [ARPCache.step, hadd]; rfl
  exact hc.step hstep

/-! ### The steps in front of the cache -/

namespace NamedShim

variable {m m' : NamedShim} {pxAppName pxDafName : Name} {app daf : CString} {p : Ptr}
  {made good : Bool}

/-- The names were made before the call. -/
structure Before (m : NamedShim) (pxAppName pxDafName : Name) : Prop where
  heapFresh : m.addrs.heap.Fresh
  fresh : m.addrs.Fresh
  app : pxAppName.Below m.addrs.heap.brk
  daf : pxDafName.Below m.addrs.heap.brk

/-- Both names and the three address objects are made. -/
structure Made (m m' : NamedShim) (app daf : CString) : Prop where
  name : ∃ p, m'.xAppName.pxFree = some p
  app : ∃ p, m'.pxAppPa = some p ∧ m'.addrs.readGPA p = .ok (textGPA app)
  daf : ∃ p, m'.pxDafPa = some p ∧ m'.addrs.readGPA p = .ok (textGPA daf)
  ha : ∃ p, m'.pxHa = some p ∧ m'.addrs.readGHA p = .ok m.gha
  xARP : m'.xARP = m.xARP
  calls : m'.addrs.heap.calls = m.addrs.heap.calls + 9
  mallocOk : m'.addrs.heap.mallocOk = m.addrs.heap.mallocOk

theorem makeAddresses_granted (hb : m.Before pxAppName pxDafName)
    (happ : NameText m.addrs.heap pxAppName app) (hdaf : NameText m.addrs.heap pxDafName daf)
    (hparts : PartsRead m.addrs.heap pxAppName ∧ PartsRead m.addrs.heap pxDafName)
    (hg : ∀ i < 9, Granted m.addrs.heap i) :
    ∃ m', m.makeAddresses pxAppName pxDafName = .ok (true, m') ∧ m.Made m' app daf := by
  obtain ⟨xAppName, h₁, b₁, hname₁, hbuilt₁⟩ :=
    xNameAssignDup_granted m.xAppName (hg 0 (by decide)) hparts.1
  have hs₁ := AddrHeap.since_built hb.heapFresh hb.fresh hbuilt₁
  obtain ⟨pxAppPa, s₂, happPa, hs₂, hheld₂⟩ := AddrHeap.pxNameToGPA_granted hs₁.heapFresh hs₁.fresh
    (hb.app.mono hs₁.brk) ((nameText_later hs₁.mem hb.app).mpr happ)
    fun i hi => hs₁.granted_iff.mpr (hg (1 + i) (by omega))
  have hall₂ := hs₁.trans hs₂
  obtain ⟨pxDafPa, s₃, hdafPa, hs₃, hheld₃⟩ := AddrHeap.pxNameToGPA_granted hall₂.heapFresh
    hall₂.fresh (hb.daf.mono hall₂.brk) ((nameText_later hall₂.mem hb.daf).mpr hdaf)
    fun i hi => hall₂.granted_iff.mpr (hg (1 + 3 + i) (by omega))
  have hall₃ := hall₂.trans hs₃
  have h7 : Granted s₃.heap 0 := hall₃.granted_iff.mpr (hg (1 + 3 + 3 + 0) (by decide))
  obtain ⟨xDafName, h₄, b₄, hname₄, hbuilt₄⟩ := xNameAssignDup_granted m.xDafName h7
    ((partsRead_later hall₃.mem hb.daf).mpr hparts.2)
  have hs₄ := AddrHeap.since_built hall₃.heapFresh hall₃.fresh hbuilt₄
  have hall₄ := hall₃.trans hs₄
  obtain ⟨s₅, hha, hs₅, hheld₅⟩ := AddrHeap.pxCreateGHA_granted hall₄.heapFresh hall₄.fresh
    (hall₄.granted_iff.mpr (hg (1 + 3 + 3 + 1 + 0) (by decide))) m.xPhyDev
  have hall₅ := hall₄.trans hs₅
  obtain ⟨-, -, hfree⟩ := (xNameAssignDup_cases hname₁).2.resolve_left fun hno => by cases hno.1
  refine ⟨{ m with
      xAppName := xAppName, xDafName := xDafName, pxAppPa := some pxAppPa, pxDafPa := some pxDafPa
      pxHa := some h₄.brk, addrs := s₅ }, ?_, ⟨_, hfree⟩, ⟨_, rfl, ?_⟩, ⟨_, rfl, ?_⟩,
    ⟨_, rfl, hheld₅.read⟩, rfl, hall₅.calls, hall₅.mallocOk⟩
  · rw [makeAddresses, hname₁, Exec.ok_bind]
    show (AddrHeap.pxNameToGPA _ pxAppName >>= _) = _
    rw [happPa, Exec.ok_bind]
    show (AddrHeap.pxNameToGPA s₂ pxDafName >>= _) = _
    rw [hdafPa, Exec.ok_bind]
    show (xNameAssignDup s₃.heap m.xDafName pxDafName >>= _) = _
    rw [hname₄, Exec.ok_bind]
    show (AddrHeap.pxCreateGHA _ .MAC_ADDR_802_3 m.xPhyDev.ucBytes 0 >>= _) = _
    rw [hha, Exec.ok_bind]
    show (s₅.readGHA h₄.brk >>= _) = _
    rw [hheld₅.read, Exec.ok_bind, xIsGHAOK_all]
    rfl
  · exact (((hheld₂.since hs₃).since hs₄).since hs₅).read
  · exact ((hheld₃.since hs₄).since hs₅).read

/-- Steps which come back without all the addresses leave a name which is released twice, or have
done nothing. -/
theorem makeAddresses_cases (hb : m.Before pxAppName pxDafName)
    (hrun : m.makeAddresses pxAppName pxDafName = .ok (made, m')) :
    (made = true ∧ (∀ i < 9, Granted m.addrs.heap i) ∧
      (PartsRead m.addrs.heap pxAppName ∧ PartsRead m.addrs.heap pxDafName) ∧
      (∃ app, NameText m.addrs.heap pxAppName app) ∧ ∃ daf, NameText m.addrs.heap pxDafName daf) ∨
    (made = false ∧ ∃ p, m'.xAppName.pxFree = some p) ∨
    (made = false ∧ ¬ Granted m.addrs.heap 0 ∧ PartsRead m.addrs.heap pxAppName ∧
      m' = { m with
        xAppName := { m.xAppName with pxFree := none }
        addrs := { m.addrs with heap := m.addrs.heap.called } }) := by
  obtain ⟨⟨named, xAppName, h₁⟩, hname₁, hrun⟩ := Exec.bind_eq_ok.mp hrun
  rcases xNameAssignDup_cases hname₁ with ⟨hparts, ⟨rfl, h0, rfl, rfl⟩ | ⟨rfl, h0, hfree⟩⟩
  · cases hrun
    exact .inr (.inr ⟨rfl, h0, hparts, rfl⟩)
  have hs₁ := AddrHeap.since_named hb.heapFresh hb.fresh hname₁
  obtain ⟨⟨pxAppPa, s₂⟩, happPa, hrun⟩ := Exec.bind_eq_ok.mp hrun
  cases pxAppPa with
  | none =>
    cases hrun
    exact .inr (.inl ⟨rfl, _, hfree⟩)
  | some pxAppPa =>
    obtain ⟨hg₂, ⟨app, happ⟩, hs₂⟩ := AddrHeap.pxNameToGPA_some hs₁.heapFresh hs₁.fresh
      (hb.app.mono hs₁.brk) happPa
    have hall₂ := hs₁.trans hs₂
    obtain ⟨⟨pxDafPa, s₃⟩, hdafPa, hrun⟩ := Exec.bind_eq_ok.mp hrun
    cases pxDafPa with
    | none =>
      cases hrun
      exact .inr (.inl ⟨rfl, _, hfree⟩)
    | some pxDafPa =>
      obtain ⟨hg₃, ⟨daf, hdaf⟩, hs₃⟩ := AddrHeap.pxNameToGPA_some hall₂.heapFresh hall₂.fresh
        (hb.daf.mono hall₂.brk) hdafPa
      have hall₃ := hall₂.trans hs₃
      obtain ⟨⟨named, xDafName, h₄⟩, hname₄, hrun⟩ := Exec.bind_eq_ok.mp hrun
      rcases xNameAssignDup_cases hname₄ with ⟨hparts', ⟨rfl, -⟩ | ⟨rfl, h7, -⟩⟩
      · cases hrun
        exact .inr (.inl ⟨rfl, _, hfree⟩)
      have hs₄ := AddrHeap.since_named hall₃.heapFresh hall₃.fresh hname₄
      have hall₄ := hall₃.trans hs₄
      obtain ⟨⟨pxHa, s₅⟩, hha, hrun⟩ := Exec.bind_eq_ok.mp hrun
      cases pxHa with
      | none =>
        cases hrun
        exact .inr (.inl ⟨rfl, _, hfree⟩)
      | some pxHa =>
        have h8 := hall₄.granted_iff.mp (AddrHeap.pxCreateGHA_some hha)
        obtain ⟨ha, -, hrun⟩ := Exec.bind_eq_ok.mp hrun
        rw [xIsGHAOK_all] at hrun
        cases hrun
        refine .inl ⟨rfl, fun i hi => ?_, ⟨hparts, (partsRead_later hall₃.mem hb.daf).mp hparts'⟩,
          ⟨app, (nameText_later hs₁.mem hb.app).mp happ⟩,
          daf, (nameText_later hall₂.mem hb.daf).mp hdaf⟩
        match i, hi with
        | 0, _ => exact h0
        | 1, _ => exact hs₁.granted_iff.mp (hg₂ 0 (by decide))
        | 2, _ => exact hs₁.granted_iff.mp (hg₂ 1 (by decide))
        | 3, _ => exact hs₁.granted_iff.mp (hg₂ 2 (by decide))
        | 4, _ => exact hall₂.granted_iff.mp (hg₃ 0 (by decide))
        | 5, _ => exact hall₂.granted_iff.mp (hg₃ 1 (by decide))
        | 6, _ => exact hall₂.granted_iff.mp (hg₃ 2 (by decide))
        | 7, _ => exact hall₃.granted_iff.mp (show Granted s₃.heap 0 from h7)
        | 8, _ => exact h8

/-! ### The end of a registration which fails -/

theorem not_freed_twice {h h' h'' : Heap} (hfirst : Common.vRsMemFree h (some p) = .ok h')
    (hsecond : Common.vRsMemFree h' (some p) = .ok h'') : False := by
  simp only [Common.vRsMemFree] at hfirst hsecond
  split_ifs at hfirst
  cases hfirst
  rw [Heap.setBlock_self] at hsecond
  simp at hsecond

theorem removeApplication_name {o : Option ℕ}
    (hrun : m.xARPRemoveApplication o = .ok (good, m')) : m'.xAppName = m.xAppName := by
  obtain ⟨pxARP, -, hrun⟩ := Exec.bind_eq_ok.mp hrun
  obtain ⟨q, -, hrun⟩ := Exec.bind_eq_ok.mp hrun
  obtain ⟨pa, -, hrun⟩ := Exec.bind_eq_ok.mp hrun
  cases hrun
  rfl

/-- The name is released a second time. -/
theorem err_ne_ok (hp : m.xAppName.pxFree = some p) (good : Bool) (m' : NamedShim) :
    m.err ≠ .ok (good, m') := by
  intro hrun
  obtain ⟨h₁, hfirst, hrun⟩ := Exec.bind_eq_ok.mp hrun
  obtain ⟨h₂, hsecond, -⟩ := Exec.bind_eq_ok.mp hrun
  rw [vNameFree, hp] at hfirst hsecond
  exact not_freed_twice hfirst hsecond

theorem unregisterErr_ne_ok (hp : m.xAppName.pxFree = some p) (good : Bool) (m' : NamedShim) :
    m.unregisterErr ≠ .ok (good, m') := by
  intro hrun
  obtain ⟨⟨_, m₁⟩, hfirst, hrun⟩ := Exec.bind_eq_ok.mp hrun
  obtain ⟨⟨_, m₂⟩, hsecond, hrun⟩ := Exec.bind_eq_ok.mp hrun
  refine err_ne_ok (p := p) ?_ good m' hrun
  rw [removeApplication_name hsecond, removeApplication_name hfirst, hp]

/-! ### The whole registration -/

/-- The shim after an addition. -/
def withCache (m : NamedShim) (pxARP : ARP) (pxCache : ARPCache) (h : Heap) : NamedShim :=
  { m with xARP := some { pxARP with pxCache := pxCache }, addrs := { m.addrs with heap := h } }

theorem addApplication_eq (m' : NamedShim) {pxARP : ARP} {t : CString} {pxPa pxHa : ℕ} {ha : GHA}
    (hARP : m'.xARP = some pxARP) (hpa : m'.addrs.readGPA pxPa = .ok (textGPA t))
    (hha : m'.addrs.readGHA pxHa = .ok ha) :
    m'.xARPAddApplication pf (some pxPa) (some pxHa) =
      xARPCacheAdd pf m'.addrs.heap pxARP.pxCache (textGPA t) ha >>= fun out =>
        .ok (out.1, m'.withCache pxARP out.2.1 out.2.2) := by
  rw [xARPAddApplication, hARP]
  simp only [deref_some, Exec.ok_bind, hpa, hha, Shim.xARPAddApplication, bind_assoc]
  rfl

/-- Both additions are those of the texts to the cache. -/
theorem enterAddresses_eq {pxARP : ARP} (hm : m.Made m' app daf) (hARP : m.xARP = some pxARP) :
    m'.enterAddresses pf =
      xARPCacheAdd pf m'.addrs.heap pxARP.pxCache (textGPA app) m.gha >>= fun out₁ =>
        if out₁.1 = 0 then .ok (false, m'.withCache pxARP out₁.2.1 out₁.2.2)
        else xARPCacheAdd pf out₁.2.2 out₁.2.1 (textGPA daf) m.gha >>= fun out₂ =>
          .ok (decide (out₂.1 ≠ 0), m'.withCache pxARP out₂.2.1 out₂.2.2) := by
  obtain ⟨pxAppPa, hpApp, happ⟩ := hm.app
  obtain ⟨pxDafPa, hpDaf, hdaf⟩ := hm.daf
  obtain ⟨pxHa, hpHa, hha⟩ := hm.ha
  rw [enterAddresses, hpApp, hpHa, addApplication_eq m' (hm.xARP.trans hARP) happ hha, bind_assoc]
  refine bind_congr fun out₁ => ?_
  rw [Exec.ok_bind]
  show (if out₁.1 = 0 then _ else _) = _
  refine if_congr Iff.rfl rfl ?_
  show ((m'.withCache pxARP out₁.2.1 out₁.2.2).xARPAddApplication pf m'.pxDafPa m'.pxHa >>= _) = _
  rw [hpDaf, hpHa, addApplication_eq (m'.withCache pxARP out₁.2.1 out₁.2.2) rfl hdaf hha,
    bind_assoc]
  rfl

/-- The additions succeed and both addresses are found. -/
theorem enterAddresses_iff {pxARP : ARP} (hm : m.Made m' app daf) (hARP : m.xARP = some pxARP)
    (hc : pxARP.pxCache.Inv) :
    (∃ m'', m'.enterAddresses pf = .ok (true, m'') ∧
      ∃ pxARP', m''.xARP = some pxARP' ∧
        ∀ t ∈ [app, daf], pxARP'.pxCache.Maps pf (textGPA t) m.gha) ↔
      Enters pf m.gha [app, daf] [app, daf] m'.addrs.heap pxARP.pxCache := by
  rw [enterAddresses_eq hm hARP]
  constructor
  · rintro ⟨m'', hrun, pxARP', hARP', hmaps⟩
    obtain ⟨⟨n₁, c₁, h₁⟩, hadd₁, hrun⟩ := Exec.bind_eq_ok.mp hrun
    split_ifs at hrun with hn₁
    · cases hrun
    obtain ⟨⟨n₂, c₂, h₂⟩, hadd₂, hrun⟩ := Exec.bind_eq_ok.mp hrun
    simp only [Except.ok.injEq, Prod.mk.injEq, decide_eq_true_eq] at hrun
    obtain ⟨hn₂, rfl⟩ := hrun
    cases hARP'
    refine ⟨n₁, c₁, h₁, hadd₁, hn₁, n₂, c₂, h₂, hadd₂, hn₂, fun t ht => ?_⟩
    exact ((inv_add (inv_add hc hadd₁) hadd₂).maps_iff.mp (hmaps t ht)).2
  · rintro ⟨n₁, c₁, h₁, hadd₁, hn₁, n₂, c₂, h₂, hadd₂, hn₂, hfound⟩
    have hc₂ := inv_add (inv_add hc hadd₁) hadd₂
    refine ⟨m'.withCache pxARP c₂ h₂, ?_, _, rfl, fun t ht =>
      hc₂.maps_iff.mpr ⟨textGPA_ok t, hfound t ht⟩⟩
    rw [hadd₁, Exec.ok_bind, if_neg hn₁, hadd₂, Exec.ok_bind, decide_eq_true hn₂]

theorem addApplication_name {o₁ o₂ : Option ℕ} {r : Int}
    (hrun : m.xARPAddApplication pf o₁ o₂ = .ok (r, m')) : m'.xAppName = m.xAppName := by
  obtain ⟨pxARP, -, hrun⟩ := Exec.bind_eq_ok.mp hrun
  obtain ⟨p₁, -, hrun⟩ := Exec.bind_eq_ok.mp hrun
  obtain ⟨pa, -, hrun⟩ := Exec.bind_eq_ok.mp hrun
  obtain ⟨p₂, -, hrun⟩ := Exec.bind_eq_ok.mp hrun
  obtain ⟨ha, -, hrun⟩ := Exec.bind_eq_ok.mp hrun
  obtain ⟨out, -, hrun⟩ := Exec.bind_eq_ok.mp hrun
  cases hrun
  rfl

theorem enterAddresses_name (hrun : m.enterAddresses pf = .ok (good, m')) :
    m'.xAppName = m.xAppName := by
  obtain ⟨⟨r₁, m₁⟩, hfirst, hrun⟩ := Exec.bind_eq_ok.mp hrun
  simp only at hrun
  split_ifs at hrun
  · cases hrun
    exact addApplication_name hfirst
  · obtain ⟨⟨r₂, m₂⟩, hsecond, hrun⟩ := Exec.bind_eq_ok.mp hrun
    cases hrun
    exact (addApplication_name hsecond).trans (addApplication_name hfirst)

/-- The end of a registration changes the objects only. -/
theorem err_keeps (hrun : m.err = .ok (good, m')) :
    good = false ∧ ∃ s, m' = { m with addrs := s } := by
  obtain ⟨h₁, -, hrun⟩ := Exec.bind_eq_ok.mp hrun
  obtain ⟨h₂, -, hrun⟩ := Exec.bind_eq_ok.mp hrun
  obtain ⟨s₁, -, hrun⟩ := Exec.bind_eq_ok.mp hrun
  obtain ⟨s₂, -, hrun⟩ := Exec.bind_eq_ok.mp hrun
  obtain ⟨s₃, -, hrun⟩ := Exec.bind_eq_ok.mp hrun
  cases hrun
  exact ⟨rfl, s₃, rfl⟩

/-- The end of a registration of a new shim does nothing. -/
theorem err_unnamed (hname : m.xAppName.pxFree = none)
    (haddrs : m.pxAppPa = none ∧ m.pxDafPa = none ∧ m.pxHa = none) : m.err = .ok (false, m) := by
  have hfree : ∀ h, vNameFree h m.xAppName = .ok h := fun h => by
    rw [vNameFree, hname]
    rfl
  obtain ⟨xAppName, xDafName, pxAppPa, pxDafPa, pxHa, xARP, xPhyDev, addrs⟩ := m
  obtain ⟨rfl, rfl, rfl⟩ := haddrs
  simp only [err, hfree, Exec.ok_bind]
  rfl

/-- A registration which comes back has entered its addresses, or has been refused its first
request. -/
theorem register_cases (hb : m.Before pxAppName pxDafName)
    (hrun : m.xShimApplicationRegister pf pxAppName pxDafName = .ok (good, m')) :
    (good = true ∧ (∀ i < 9, Granted m.addrs.heap i) ∧
      (PartsRead m.addrs.heap pxAppName ∧ PartsRead m.addrs.heap pxDafName) ∧
      ∃ app daf m₁, NameText m.addrs.heap pxAppName app ∧ NameText m.addrs.heap pxDafName daf ∧
        m.Made m₁ app daf ∧ m₁.enterAddresses pf = .ok (true, m')) ∨
    (good = false ∧ ¬ Granted m.addrs.heap 0 ∧ PartsRead m.addrs.heap pxAppName ∧ ∃ s, m' = { m with
      xAppName := { m.xAppName with pxFree := none }
      addrs := s }) := by
  obtain ⟨⟨made, m₁⟩, hmake, hrun⟩ := Exec.bind_eq_ok.mp hrun
  rcases makeAddresses_cases hb hmake with
    ⟨rfl, hg, hparts, ⟨app, happ⟩, daf, hdaf⟩ | ⟨rfl, p, hfree⟩ | ⟨rfl, h0, hparts, rfl⟩
  · obtain ⟨m₁', hmake', hm⟩ := makeAddresses_granted hb happ hdaf hparts hg
    rw [hmake] at hmake'
    cases hmake'
    obtain ⟨p, hfree⟩ := hm.name
    obtain ⟨⟨entered, m₂⟩, henter, hrun⟩ := Exec.bind_eq_ok.mp hrun
    cases entered with
    | false =>
      exact absurd hrun (unregisterErr_ne_ok ((enterAddresses_name henter).symm ▸ hfree) good m')
    | true =>
      cases hrun
      exact .inl ⟨rfl, hg, hparts, app, daf, m₁, happ, hdaf, hm, henter⟩
  · exact absurd hrun (err_ne_ok hfree good m')
  · obtain ⟨rfl, s, rfl⟩ := err_keeps hrun
    exact .inr ⟨rfl, h0, hparts, s, rfl⟩

theorem copied_congr {h h' : Heap} (hcalls : h'.calls = h.calls) (hok : h'.mallocOk = h.mallocOk)
    (ts : List CString) : copied h' ts = copied h ts := by
  induction ts generalizing h h' with
  | nil => rfl
  | cons t ts ih =>
    have hgranted : ∀ i, Granted h' i ↔ Granted h i := fun i => by
      rw [Granted, Granted, hcalls, hok]
    have hrequests : copyRequests h' = copyRequests h := by simp only [copyRequests, hgranted]
    have hcopies : CopyGranted h' ↔ CopyGranted h := by simp only [CopyGranted, hgranted]
    have hrest : copied (h'.afterCalls (copyRequests h)) ts =
        copied (h.afterCalls (copyRequests h)) ts := ih (congrArg (· + _) hcalls) hok
    rw [copied, copied, hrequests, hrest, if_congr hcopies rfl rfl]

/-- Without a cache nothing is entered. -/
theorem enterAddresses_unstarted (hARP : m.xARP = none) : m.enterAddresses pf ≠ .ok (good, m') := by
  intro hrun
  obtain ⟨_, hadd, -⟩ := Exec.bind_eq_ok.mp hrun
  rw [xARPAddApplication, hARP] at hadd
  cases hadd

/-- A registration is all or nothing exactly when it has all that it needs, or when the very first
request of a new shim is refused. -/
theorem register_all_or_nothing_iff (hb : m.Before pxAppName pxDafName)
    (hc : ∀ pxARP, m.xARP = some pxARP → pxARP.pxCache.Inv) :
    m.AllOrNothing pf pxAppName pxDafName ↔
      RefusedAtOnce m pxAppName ∨
        ∃ pxARP app daf, Registrable pf m pxAppName pxDafName pxARP app daf := by
  have hne : ∀ {app daf : CString}, NameText m.addrs.heap pxAppName app →
      NameText m.addrs.heap pxDafName daf → ∀ t ∈ [app, daf], t.bytes ≠ [] := fun happ hdaf =>
    List.forall_mem_cons.mpr ⟨happ.ne_nil, List.forall_mem_singleton.mpr hdaf.ne_nil⟩
  constructor
  · rintro ⟨good, m', hrun, hres⟩
    rcases register_cases hb hrun with
      ⟨rfl, hg, hparts, app, daf, m₁, happ, hdaf, hm, henter⟩ | ⟨rfl, h0, hparts, s, rfl⟩
    · obtain ⟨⟨t₁, arp₁, ht₁, hARP₁, hmaps₁⟩, t₂, arp₂, ht₂, hARP₂, hmaps₂⟩ := hres
      rw [hARP₁] at hARP₂
      cases hARP₂
      rw [ht₁.unique happ] at hmaps₁
      rw [ht₂.unique hdaf] at hmaps₂
      cases hARP : m.xARP with
      | none => exact absurd henter (enterAddresses_unstarted (hm.xARP.trans hARP))
      | some pxARP =>
        have henters := (enterAddresses_iff hm hARP (hc pxARP hARP)).mp ⟨m', henter, arp₁, hARP₁,
          List.forall_mem_cons.mpr ⟨hmaps₁, List.forall_mem_singleton.mpr hmaps₂⟩⟩
        rw [enters_iff (hne happ hdaf) (hc pxARP hARP)] at henters
        refine .inr ⟨pxARP, app, daf, hARP, happ, hdaf, hparts, hg, ?_⟩
        rw [← copied_congr (h := m.addrs.heap.afterCalls 9) hm.calls hm.mallocOk]
        exact henters
    · exact .inl ⟨h0, hparts, hres.names.2, hres.addresses⟩
  · rintro (hr | ⟨pxARP, app, daf, hr⟩)
    · have hname := xNameAssignDup_refused m.xAppName hr.refused hr.parts
      obtain ⟨m₁, hm₁⟩ : ∃ m₁ : NamedShim, m₁ = { m with
        xAppName := { m.xAppName with pxFree := none }
        addrs := { m.addrs with heap := m.addrs.heap.called } } := ⟨_, rfl⟩
      have hfree : m₁.xAppName.pxFree = none := by rw [hm₁]
      have haddrs : m₁.pxAppPa = none ∧ m₁.pxDafPa = none ∧ m₁.pxHa = none := hm₁ ▸ hr.addresses
      refine ⟨false, m₁, ?_, ?_, ⟨hfree, hm₁ ▸ hr.xDafName⟩, haddrs, fun a ha => ?_⟩
      · rw [xShimApplicationRegister, makeAddresses, hname, Exec.ok_bind,
          ← err_unnamed hfree haddrs, hm₁]
        rfl
      · rw [hm₁]
      · rw [hm₁]
        exact ⟨(hb.heapFresh a ha).2, hb.fresh a ha⟩
    · obtain ⟨m₁, hmake, hm⟩ :=
        makeAddresses_granted hb hr.appText hr.dafText hr.parts hr.granted
      have hent := hr.entered
      rw [← copied_congr (h := m.addrs.heap.afterCalls 9) hm.calls hm.mallocOk] at hent
      have henters := (enters_iff (hne hr.appText hr.dafText) (hc pxARP hr.xARP)).mpr hent
      obtain ⟨m', henter, pxARP', hARP', hmaps⟩ :=
        (enterAddresses_iff hm hr.xARP (hc pxARP hr.xARP)).mpr henters
      refine ⟨true, m', ?_, ⟨app, pxARP', hr.appText, hARP', hmaps app (by simp)⟩,
        daf, pxARP', hr.dafText, hARP', hmaps daf (by simp)⟩
      rw [xShimApplicationRegister, hmake, Exec.ok_bind]
      show (m₁.enterAddresses pf >>= _) = _
      rw [henter]
      rfl

/-- A shim whose requests to `malloc` are granted as `ok` has it. -/
def exampleNamed (ok : ℕ → Bool) : NamedShim where
  xAppName := .zero
  xDafName := .zero
  pxAppPa := none
  pxDafPa := none
  pxHa := none
  xARP := some (exampleArp [.empty, .empty])
  xPhyDev := exampleMac 1
  addrs := ⟨{ partsHeap with mallocOk := ok }, fun _ => none⟩

/-- The name `e1/e2/e3/e4`. -/
def exampleAppName : Name := ⟨0, some ⟨0, 0⟩, some ⟨0, 3⟩, some ⟨0, 6⟩, some ⟨0, 9⟩⟩

/-- The name `e4/e3/e2/e1`. -/
def exampleDafName : Name := ⟨0, some ⟨0, 9⟩, some ⟨0, 6⟩, some ⟨0, 3⟩, some ⟨0, 0⟩⟩

theorem exampleNames_below : ∀ nm ∈ [exampleAppName, exampleDafName], nm.Below 1 := by
  intro nm hnm p hp
  simp only [List.mem_cons, List.not_mem_nil, or_false] at hnm
  rcases hnm with rfl | rfl <;>
    simp only [Name.strings, exampleAppName, exampleDafName, List.mem_cons, Option.some.injEq,
      List.not_mem_nil, or_false] at hp <;>
    rcases hp with rfl | rfl | rfl | rfl <;> exact Nat.one_pos

theorem exampleNamed_before (ok : ℕ → Bool) :
    (exampleNamed ok).Before exampleAppName exampleDafName where
  heapFresh := partsHeap_fresh
  fresh _ _ := rfl
  app := exampleNames_below _ (by simp)
  daf := exampleNames_below _ (by simp)

theorem exampleNamed_inv (ok : ℕ → Bool) (pxARP : ARP)
    (hARP : (exampleNamed ok).xARP = some pxARP) : pxARP.pxCache.Inv := by
  cases hARP
  intro r hr
  exact .inl (by simpa [exampleArp] using hr)

theorem exampleNamed_reads (ok : ℕ → Bool) :
    Reads (exampleNamed ok).addrs.heap exampleDafName.strings exampleParts.reverse :=
  .cons rfl (.cons rfl (.cons rfl (.cons rfl .nil)))

/-- With memory for everything both names are registered. -/
theorem registered_both : (exampleNamed fun _ => true).AllOrNothing ⟨false, false⟩ exampleAppName
    exampleDafName :=
  (register_all_or_nothing_iff (exampleNamed_before _) (exampleNamed_inv _)).mpr
    (.inr ⟨_, ⟨[101, 49, 47, 101, 50, 47, 101, 51, 47, 101, 52], by decide⟩,
      ⟨[101, 52, 47, 101, 51, 47, 101, 50, 47, 101, 49], by decide⟩, rfl,
      ⟨_, ⟨exampleParts, partsHeap_reads, rfl⟩, rfl⟩,
      ⟨_, ⟨exampleParts.reverse, exampleNamed_reads _, rfl⟩, rfl⟩,
      ⟨⟨_, _, _, rfl, rfl, rfl⟩, ⟨_, _, _, rfl, rfl, rfl⟩⟩, fun _ _ => rfl,
      ⟨by decide, fun _ => by decide, List.forall_mem_cons.mpr ⟨.inr ⟨0, rfl, rfl⟩,
        List.forall_mem_singleton.mpr (.inr ⟨1, rfl, rfl⟩)⟩⟩⟩)

/-- Without memory for the first address the name of the application is released twice. -/
theorem register_frees_twice :
    ¬ (exampleNamed fun n => n = 0).AllOrNothing ⟨false, false⟩ exampleAppName exampleDafName := by
  rintro ⟨good, m', hrun, -⟩
  have hfailed : (exampleNamed fun n => n = 0).xShimApplicationRegister ⟨false, false⟩
      exampleAppName exampleDafName = .error .outOfBounds := by rfl
  rw [hfailed] at hrun
  cases hrun

end NamedShim

end RinaSense.Shim
