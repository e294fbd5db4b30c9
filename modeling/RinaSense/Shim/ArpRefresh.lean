import RinaSense.Shim.ArpHandles
import RinaSense.Shim.Flows

/-!
# Refreshing the ARP cache

The search of `vARPCacheRefresh` for a row to use, and what it does with that row. A row which was
not found has the index -1 in the search and another one in the tests behind it. The age of a row
is never below the smallest one which was found, so that a row is not chosen for its age.
-/

namespace RinaSense.Shim

open Common Library.Memory Library.Filler

def CFG_MAX_ARP_AGE : UInt8 := 5

def CFG_MAX_ARP_RETRANSMISSIONS : UInt8 := 5

/-- The largest `char` where that type is signed. -/
def CHAR_MAX : Int := 127

/-- The variables of the search. -/
structure RefreshScan where
  xIpcpEntry : Int
  xMacEntry : Int
  xUseEntry : Int
  ucMinAgeFound : Int8

/-- The values before the search. -/
def RefreshScan.start : RefreshScan := ⟨-1, -1, 0, -1⟩

/-- The loop over the rows from the one with the index `x` on. It ends early at a row with both
addresses, whose index is returned. -/
def refreshScan (pxPa : Option GPA) (pxHa : Option GHA) :
    ℕ → List ARPCacheRow → RefreshScan → ℕ ⊕ RefreshScan
  | _, [], s => .inr s
  | x, r :: rows, s =>
    let xMatchingMAC := pxHa.isSome && xGHACmp r.pxHa pxHa
    if pxPa.any fun pa => r.pxPa.any (xGPACmp · pa) then
      if pxHa.isNone then .inr { s with xIpcpEntry := x }
      else if xMatchingMAC then .inl x
      else refreshScan pxPa pxHa (x + 1) rows { s with xIpcpEntry := x }
    else if xMatchingMAC then refreshScan pxPa pxHa (x + 1) rows { s with xMacEntry := x }
    else if (r.ucAge.toNat : Int) < s.ucMinAgeFound.toInt then
      refreshScan pxPa pxHa (x + 1) rows
        { s with ucMinAgeFound := r.ucAge.toInt8, xUseEntry := x }
    else refreshScan pxPa pxHa (x + 1) rows s

/-- A write to the row with an index, which is not checked. -/
def ARPCache.modifyRow (c : ARPCache) (i : Int) (f : ARPCacheRow → ARPCacheRow) : Exec ARPCache :=
  if 0 ≤ i ∧ i < c.pxRows.length then .ok { c with pxRows := c.pxRows.modify i.toNat f }
  else .error .outOfBounds

/-- The row which is used after the search. With both addresses in different rows the one of the
protocol address is cleared. -/
def selectRow (c : ARPCache) (s : RefreshScan) : Exec (Int × ARPCache) :=
  if 0 ≤ s.xMacEntry then
    if s.xIpcpEntry ≠ CHAR_MAX then do
      let c ← c.modifyRow s.xIpcpEntry prvARPCacheFreeRow
      return (s.xMacEntry, c)
    else .ok (s.xMacEntry, c)
  else if s.xIpcpEntry ≠ CHAR_MAX then .ok (s.xIpcpEntry, c)
  else .ok (s.xUseEntry, c)

/-- The hardware address of the row, or its marks when there is none. -/
def refreshHa (h : Heap) (c : ARPCache) (pxHa : Option GHA) (xIpcpEntry xUseEntry : Int) :
    Exec (ARPCache × Heap) :=
  match pxHa with
  | some ha =>
    match pxDupGHA h ha with
    | (none, h) => .ok (c, h)
    | (some pxNewHa, h) => do
      let c ← c.modifyRow xUseEntry fun r =>
        { r with pxHa := some pxNewHa, ucAge := CFG_MAX_ARP_AGE, ucValid := 1 }
      return (c, h)
  | none =>
    if xIpcpEntry < 0 then do
      let c ← c.modifyRow xUseEntry fun r =>
        { r with ucAge := CFG_MAX_ARP_RETRANSMISSIONS, ucValid := 0 }
      return (c, h)
    else .ok (c, h)

/-- The protocol address of the row, and then the rest of it. -/
def refreshPa (h : Heap) (c : ARPCache) (pxPa : Option GPA) (pxHa : Option GHA)
    (xIpcpEntry xUseEntry : Int) : Exec (ARPCache × Heap) :=
  match pxPa with
  | none => refreshHa h c pxHa xIpcpEntry xUseEntry
  | some pa => do
    match ← pxDupGPA h pa true 0 with
    | (none, h) => return (c, h)
    | (some pxNewPa, h) => do
      let c ← c.modifyRow xUseEntry fun r => { r with pxPa := some pxNewPa }
      refreshHa h c pxHa xIpcpEntry xUseEntry

def vARPCacheRefresh (h : Heap) (c : ARPCache) (pxPa : Option GPA) (pxHa : Option GHA) :
    Exec (ARPCache × Heap) :=
  match refreshScan pxPa pxHa 0 c.pxRows .start with
  | .inl x => do
    let c ← c.modifyRow x fun r => { r with ucAge := CFG_MAX_ARP_AGE, ucValid := 1 }
    return (c, h)
  | .inr s => do
    let (xUseEntry, c) ← selectRow c s
    refreshPa h c pxPa pxHa s.xIpcpEntry xUseEntry

/-- The row has the protocol address. -/
def ARPCacheRow.holds (pa : GPA) (r : ARPCacheRow) : Bool := r.pxPa.any (xGPACmp · pa)

/-- The row has the hardware address. -/
def ARPCacheRow.hasHa (ha : GHA) (r : ARPCacheRow) : Bool := xGHACmp r.pxHa (some ha)

/-- The index of the last element with the property. -/
def lastIdx? {α : Type} (p : α → Bool) : List α → Option ℕ
  | [] => none
  | x :: xs =>
    match lastIdx? p xs with
    | some k => some (k + 1)
    | none => if p x then some 0 else none

/-- Both lookups of the protocol address find the hardware address. -/
structure ARPCache.Yields (c : ARPCache) (pa : GPA) (ha : GHA) : Prop where
  lookupGHA : pxARPCacheLookupGHA c pa = some ha
  lookupGPA : ∀ pf h out, eARPCacheLookupGPA pf h c pa = .ok out →
    out.1 = .eARPCacheHit ∧ out.2.1 = some ha

/-- The row is the only one with the protocol address. -/
def SoleRow (pa : GPA) (rows : List ARPCacheRow) (i : ℕ) (r : ARPCacheRow) : Prop :=
  rows[i]? = some r ∧ r.holds pa = true ∧
    ∀ (j : ℕ) (r' : ARPCacheRow), rows[j]? = some r' → r'.holds pa = true → j = i

/-- The refresh stays in the rows, after it the lookups yield the new address, and no two rows have
the protocol address. -/
def RefreshWorks (h : Heap) (c : ARPCache) (pa : GPA) (ha : GHA) : Prop :=
  ∃ c' h', vARPCacheRefresh h c (some pa) (some ha) = .ok (c', h') ∧ c'.Yields pa ha ∧
    ∀ (i j : ℕ) (r r' : ARPCacheRow), c'.pxRows[i]? = some r → c'.pxRows[j]? = some r' →
      r.holds pa = true → r'.holds pa = true → i = j

section LastIndex

variable {α : Type} {p : α → Bool} {xs : List α} {k : ℕ}

theorem lastIdx?_eq_none : lastIdx? p xs = none ↔ ∀ x ∈ xs, p x = false := by
  induction xs with
  | nil => simp [lastIdx?]
  | cons x xs ih =>
    rw [List.forall_mem_cons, ← ih, lastIdx?]
    cases lastIdx? p xs with
    | some k => simp
    | none => cases p x <;> simp

theorem lastIdx?_eq_some (h : lastIdx? p xs = some k) : ∃ x, xs[k]? = some x ∧ p x = true := by
  induction xs generalizing k with
  | nil => cases h
  | cons x xs ih =>
    rw [lastIdx?] at h
    cases hrest : lastIdx? p xs with
    | some n =>
      rw [hrest] at h
      cases h
      obtain ⟨y, hy, hp⟩ := ih hrest
      exact ⟨y, by simpa using hy, hp⟩
    | none =>
      rw [hrest] at h
      by_cases hx : p x = true
      · simp only [hx, if_true, Option.some.injEq] at h
        subst h
        exact ⟨x, rfl, hx⟩
      · simp [hx] at h

end LastIndex

variable {h : Heap} {c c' : ARPCache} {pa : GPA} {ha : GHA} {rows : List ARPCacheRow}

/-! ### The search -/

theorem hasHa_iff {r : ARPCacheRow} : r.hasHa ha = true ↔ r.pxHa = some ha := by
  unfold ARPCacheRow.hasHa xGHACmp
  cases r.pxHa with
  | none => simp
  | some ha' =>
    obtain ⟨⟨⟩, ⟨bs, hbs⟩⟩ := ha
    obtain ⟨⟨⟩, ⟨bs', hbs'⟩⟩ := ha'
    simp

/-- The index of a row which was found behind `x`, or the one which there was before. -/
def foundEntry (x : ℕ) (xEntry : Int) : Option ℕ → Int
  | none => xEntry
  | some k => (x + k : ℕ)

theorem foundEntry_cons (p : ARPCacheRow → Bool) (r : ARPCacheRow) (x : ℕ) (xEntry : Int) :
    foundEntry x xEntry (lastIdx? p (r :: rows)) =
      foundEntry (x + 1) (if p r then (x : Int) else xEntry) (lastIdx? p rows) := by
  rw [lastIdx?]
  cases lastIdx? p rows with
  | some k =>
    show ((x + (k + 1) : ℕ) : Int) = ((x + 1 + k : ℕ) : Int)
    rw [Nat.add_assoc, Nat.add_comm 1 k]
  | none => cases p r <;> rfl

/-- The search ends at a row with both addresses, or it finds the last rows with each of them. -/
theorem refreshScan_cases (pa : GPA) (ha : GHA) (x : ℕ) (rows : List ARPCacheRow)
    {s : RefreshScan} (hmin : s.ucMinAgeFound = -1) :
    (∃ k r, rows[k]? = some r ∧ r.holds pa = true ∧ r.hasHa ha = true ∧
      refreshScan (some pa) (some ha) x rows s = .inl (x + k)) ∨
    ((∀ r ∈ rows, r.holds pa = true → r.hasHa ha = false) ∧
      refreshScan (some pa) (some ha) x rows s = .inr { s with
        xIpcpEntry := foundEntry x s.xIpcpEntry (lastIdx? (·.holds pa) rows)
        xMacEntry := foundEntry x s.xMacEntry (lastIdx? (·.hasHa ha) rows) }) := by
  induction rows generalizing x s with
  | nil => exact Or.inr ⟨fun r hr => absurd hr List.not_mem_nil, rfl⟩
  | cons r rows ih =>
    have hstep : refreshScan (some pa) (some ha) x (r :: rows) s =
        if r.holds pa then
          if r.hasHa ha then .inl x
          else refreshScan (some pa) (some ha) (x + 1) rows { s with xIpcpEntry := x }
        else if r.hasHa ha then
          refreshScan (some pa) (some ha) (x + 1) rows { s with xMacEntry := x }
        else if (r.ucAge.toNat : Int) < s.ucMinAgeFound.toInt then
          refreshScan (some pa) (some ha) (x + 1) rows
            { s with ucMinAgeFound := r.ucAge.toInt8, xUseEntry := x }
        else refreshScan (some pa) (some ha) (x + 1) rows s := rfl
    have hage : ¬ (r.ucAge.toNat : Int) < s.ucMinAgeFound.toInt := by
      rw [hmin]
      have hneg : (-1 : Int8).toInt = -1 := rfl
      omega
    by_cases hboth : r.holds pa = true ∧ r.hasHa ha = true
    · exact Or.inl ⟨0, r, rfl, hboth.1, hboth.2, by simp [hstep, hboth]⟩
    · have hnext : refreshScan (some pa) (some ha) x (r :: rows) s =
          refreshScan (some pa) (some ha) (x + 1) rows { s with
            xIpcpEntry := if r.holds pa then (x : Int) else s.xIpcpEntry
            xMacEntry := if r.hasHa ha then (x : Int) else s.xMacEntry } := by
        rw [hstep, if_neg hage]
        by_cases hpa : r.holds pa = true
        · have hha : r.hasHa ha = false := by simpa [hpa] using hboth
          simp [hpa, hha]
        · by_cases hha : r.hasHa ha = true <;> simp [hpa, hha]
      rw [hnext, foundEntry_cons, foundEntry_cons]
      rcases ih (x + 1) (s := { s with
          xIpcpEntry := if r.holds pa then (x : Int) else s.xIpcpEntry
          xMacEntry := if r.hasHa ha then (x : Int) else s.xMacEntry }) hmin with
        ⟨k, r', hrow, hpa, hha, hscan⟩ | ⟨hno, hscan⟩
      · refine Or.inl ⟨k + 1, r', by simpa using hrow, hpa, hha, ?_⟩
        rw [hscan, Nat.add_assoc, Nat.add_comm 1 k]
      · refine Or.inr ⟨List.forall_mem_cons.mpr ⟨fun hpa => ?_, hno⟩, hscan⟩
        simpa [hpa] using hboth

/-! ### Lookups -/

/-- What a lookup returns for the first row which it finds. -/
def foundOutcome : Option ARPCacheRow → ARPLookupResult × Option GHA
  | none => (.eARPCacheMiss, none)
  | some r => if r.ucValid = 0 then (.eCantSendPacket, none) else (.eARPCacheHit, r.pxHa)

theorem lookupResult_eq_find (pa : GPA) (rows : List ARPCacheRow) :
    lookupResult pa rows = (rows.find? fun r => r.Matches pa).bind ARPCacheRow.pxHa := by
  induction rows with
  | nil => rfl
  | cons r rows ih =>
    by_cases hm : r.Matches pa
    · rw [lookupResult_of_matches hm, List.find?_cons_of_pos (by simpa using hm)]
      rfl
    · rw [lookupResult_of_not_matches hm, List.find?_cons_of_neg (by simpa using hm), ih]

theorem lookupRows_found {pf : Platform} {out : ARPLookupResult × Option GHA × Heap}
    (hout : lookupRows pf pa h rows = .ok out) :
    (out.1, out.2.1) = foundOutcome (rows.find? fun r => r.Matches pa) := by
  induction rows generalizing h with
  | nil =>
    cases hout
    rfl
  | cons r rows ih =>
    rw [lookupRows] at hout
    by_cases hage : r.ucAge = 0
    · have hno : ¬ r.Matches pa := fun hm => hm.1 hage
      rw [if_pos hage] at hout
      rw [List.find?_cons_of_neg (by simpa using hno)]
      exact ih hout
    · rw [if_neg hage] at hout
      obtain ⟨h', -, hout⟩ := Exec.bind_eq_ok.mp hout
      by_cases hany : r.pxPa.any (xGPACmp · pa) = true
      · have hm : r.Matches pa := ⟨hage, hany⟩
        rw [if_pos hany] at hout
        rw [List.find?_cons_of_pos (by simpa using hm), foundOutcome]
        by_cases hvalid : r.ucValid = 0
        · rw [if_pos hvalid] at hout ⊢
          cases hout
          rfl
        · rw [if_neg hvalid] at hout ⊢
          cases hout
          rfl
      · have hno : ¬ r.Matches pa := fun hm => hany hm.2
        rw [if_neg hany] at hout
        rw [List.find?_cons_of_neg (by simpa using hno)]
        exact ih hout

/-- Without its debug checks a lookup always comes back. -/
theorem lookupRows_returns (pa : GPA) (h : Heap) (rows : List ARPCacheRow) :
    ∃ out, lookupRows ⟨true, false⟩ pa h rows = .ok out := by
  induction rows with
  | nil => exact ⟨_, rfl⟩
  | cons r rows ih =>
    rw [lookupRows]
    by_cases hage : r.ucAge = 0
    · rw [if_pos hage]
      exact ih
    · rw [if_neg hage]
      have hcheck : lookupCheck ⟨true, false⟩ h r = .ok h := rfl
      rw [hcheck, Exec.ok_bind]
      split
      · split <;> exact ⟨_, rfl⟩
      · exact ih

/-- The only row with the protocol address is in use and has the hardware address. -/
def Settled (pa : GPA) (ha : GHA) (rows : List ARPCacheRow) : Prop :=
  ∃ i r, SoleRow pa rows i r ∧ r.pxHa = some ha ∧ r.ucAge ≠ 0 ∧ r.ucValid ≠ 0

theorem SoleRow.find {i : ℕ} {r : ARPCacheRow} (hsole : SoleRow pa rows i r)
    (hage : r.ucAge ≠ 0) : rows.find? (fun r => r.Matches pa) = some r := by
  obtain ⟨hrow, hholds, hother⟩ := hsole
  have hm : r.Matches pa := ⟨hage, hholds⟩
  cases hfind : rows.find? fun r => r.Matches pa with
  | none =>
    have hno := List.find?_eq_none.mp hfind r (List.mem_of_getElem? hrow)
    exact absurd hm (by simpa using hno)
  | some r' =>
    have hm' : r'.Matches pa := by simpa using List.find?_some hfind
    obtain ⟨j, hj⟩ := List.mem_iff_getElem?.mp (List.mem_of_find?_eq_some hfind)
    rw [hother j r' hj hm'.2, hrow] at hj
    exact hj.symm

theorem yields_sole_iff (c : ARPCache) (pa : GPA) (ha : GHA) :
    (c.Yields pa ha ∧ ∀ (i j : ℕ) (r r' : ARPCacheRow), c.pxRows[i]? = some r →
      c.pxRows[j]? = some r' → r.holds pa = true → r'.holds pa = true → i = j) ↔
      Settled pa ha c.pxRows := by
  constructor
  · rintro ⟨⟨hgha, hgpa⟩, hone⟩
    have hres : lookupResult pa c.pxRows = some ha := by
      unfold pxARPCacheLookupGHA at hgha
      split at hgha
      · cases hgha
      · exact hgha
    rw [lookupResult_eq_find, Option.bind_eq_some_iff] at hres
    obtain ⟨r, hfind, hha⟩ := hres
    have hm : r.Matches pa := by simpa using List.find?_some hfind
    obtain ⟨i, hi⟩ := List.mem_iff_getElem?.mp (List.mem_of_find?_eq_some hfind)
    refine ⟨i, r, ⟨hi, hm.2, fun j r' hj hr' => hone j i r' r hj hi hr' hm.2⟩, hha, hm.1, ?_⟩
    intro hvalid
    obtain ⟨out, hout⟩ := lookupRows_returns pa exampleArpHeap c.pxRows
    have hfound := lookupRows_found hout
    rw [hfind, foundOutcome, if_pos hvalid] at hfound
    have hhit := (hgpa _ _ _ hout).1
    rw [congrArg Prod.fst hfound] at hhit
    cases hhit
  · rintro ⟨i, r, hsole, hha, hage, hvalid⟩
    have hfind := hsole.find hage
    obtain ⟨hrow, hholds, hother⟩ := hsole
    refine ⟨⟨?_, fun pf h out hout => ?_⟩, fun j k r₁ r₂ hj hk h₁ h₂ =>
      (hother j r₁ hj h₁).trans (hother k r₂ hk h₂).symm⟩
    · have hok : xIsGPAOK pa = true := by
        obtain ⟨pa', -, hcmp⟩ := (Option.any_eq_true _ _).mp hholds
        exact (xIsGPAOK_iff pa).mpr ((xGPACmp_iff pa' pa).mp hcmp).2.1
      simp [pxARPCacheLookupGHA, hok, lookupResult_eq_find, hfind, hha]
    · have hfound := lookupRows_found hout
      rw [hfind, foundOutcome, if_neg hvalid] at hfound
      exact ⟨congrArg Prod.fst hfound, (congrArg Prod.snd hfound).trans hha⟩

/-! ### Writes to a row -/

/-- No row has both addresses. -/
def NoBoth (pa : GPA) (ha : GHA) (rows : List ARPCacheRow) : Prop :=
  ∀ r ∈ rows, r.holds pa = true → r.hasHa ha = false

theorem NoBoth.not_hasHa (hno : NoBoth pa ha rows) {i : ℕ} {r : ARPCacheRow}
    (hrow : rows[i]? = some r) (hholds : r.holds pa = true) : ¬ r.hasHa ha = true :=
  ne_true_of_eq_false (hno r (List.mem_of_getElem? hrow) hholds)

theorem NoBoth.index_ne (hno : NoBoth pa ha rows) {i j : ℕ} {r r' : ARPCacheRow}
    (hi : rows[i]? = some r) (hholds : r.holds pa = true) (hj : rows[j]? = some r')
    (hha : r'.hasHa ha = true) : j ≠ i := by
  rintro rfl
  rw [hi, Option.some.injEq] at hj
  exact hno.not_hasHa hi hholds (hj ▸ hha)

theorem NoBoth.not_settled (hno : NoBoth pa ha rows) : ¬ Settled pa ha rows := by
  rintro ⟨i, r, ⟨hrow, hholds, -⟩, hha, -⟩
  exact hno.not_hasHa hrow hholds (hasHa_iff.mpr hha)

theorem NoBoth.clear (hno : NoBoth pa ha rows) (i : ℕ) :
    NoBoth pa ha (rows.modify i prvARPCacheFreeRow) := by
  intro r hr hholds
  obtain ⟨j, hj⟩ := List.mem_iff_getElem?.mp hr
  rw [List.getElem?_modify, Option.map_eq_map, Option.map_eq_some_iff] at hj
  obtain ⟨before, hbefore, rfl⟩ := hj
  split at hholds
  · cases hholds
  · rename_i hji
    rw [if_neg hji]
    exact hno before (List.mem_of_getElem? hbefore) hholds

/-- After a write which gives a row the protocol address, it has to be the only one. -/
theorem settled_modify {i : ℕ} {r : ARPCacheRow} {f : ARPCacheRow → ARPCacheRow}
    (hrow : rows[i]? = some r) (hf : (f r).holds pa = true) :
    Settled pa ha (rows.modify i f) ↔
      (∀ (j : ℕ) (r' : ARPCacheRow), rows[j]? = some r' → r'.holds pa = true → j = i) ∧
        (f r).pxHa = some ha ∧ (f r).ucAge ≠ 0 ∧ (f r).ucValid ≠ 0 := by
  have hnew : (rows.modify i f)[i]? = some (f r) := by
    rw [List.getElem?_modify_eq, hrow]
    rfl
  have hold : ∀ j, j ≠ i → (rows.modify i f)[j]? = rows[j]? := fun j hji =>
    List.getElem?_modify_ne f rows (Ne.symm hji)
  constructor
  · rintro ⟨k, r', ⟨hk, -, hother⟩, hha, hage, hvalid⟩
    have hik : i = k := hother i (f r) hnew hf
    subst hik
    rw [hnew, Option.some.injEq] at hk
    subst hk
    refine ⟨fun j r' hj hholds => ?_, hha, hage, hvalid⟩
    by_contra hji
    exact hji (hother j r' ((hold j hji).trans hj) hholds)
  · rintro ⟨hone, hha, hage, hvalid⟩
    refine ⟨i, f r, ⟨hnew, hf, fun j r' hj hholds => ?_⟩, hha, hage, hvalid⟩
    by_contra hji
    rw [hold j hji] at hj
    exact hji (hone j r' hj hholds)

theorem modifyRow_of_row {i : ℕ} {r : ARPCacheRow} (hrow : c.pxRows[i]? = some r)
    (f : ARPCacheRow → ARPCacheRow) :
    c.modifyRow i f = .ok { c with pxRows := c.pxRows.modify i f } := by
  have hlt : i < c.pxRows.length := (List.getElem?_eq_some_iff.mp hrow).1
  have hin : 0 ≤ (i : Int) ∧ (i : Int) < c.pxRows.length := ⟨by omega, by omega⟩
  rw [ARPCache.modifyRow, if_pos hin, Int.toNat_natCast]

/-- The row in front of the table. -/
theorem modifyRow_missing (c : ARPCache) (f : ARPCacheRow → ARPCacheRow) :
    c.modifyRow (-1) f = .error .outOfBounds := if_neg (by omega)

/-- The computation comes back with rows which are settled. -/
def Settles (pa : GPA) (ha : GHA) (out : Exec (ARPCache × Heap)) : Prop :=
  ∃ c' h', out = .ok (c', h') ∧ Settled pa ha c'.pxRows

theorem settles_error {t : Trap} : ¬ Settles pa ha (.error t) := by
  rintro ⟨c', h', hout, -⟩
  cases hout

theorem settles_ok {h' : Heap} : Settles pa ha (.ok (c', h')) ↔ Settled pa ha c'.pxRows := by
  constructor
  · rintro ⟨_, _, hout, hsettled⟩
    cases hout
    exact hsettled
  · exact fun hsettled => ⟨c', h', rfl, hsettled⟩

/-- The copy of the protocol address is made. -/
structure AddressCopied (h : Heap) (pa : GPA) : Prop where
  bytes : strip 0 pa.pucAddress ≠ []
  object : Granted h 0
  address : Granted h 1

theorem holds_strip (hne : strip 0 pa.pucAddress ≠ []) {r : ARPCacheRow}
    (hpa : r.pxPa = some ⟨strip 0 pa.pucAddress⟩) : r.holds pa = true := by
  have hpa' : pa.pucAddress ≠ [] := by
    intro hnil
    exact hne (by simp [hnil, strip])
  have hself : xGPACmp ⟨strip 0 pa.pucAddress⟩ pa = true := by
    rw [xGPACmp_strip hne, xGPACmp_iff]
    exact ⟨hpa', hpa', rfl⟩
  rw [ARPCacheRow.holds, hpa]
  exact hself

/-- Without the copy of the protocol address the rows stay. -/
theorem refreshPa_of_not_copied (hno : ¬ AddressCopied h pa) (c : ARPCache) (ha : GHA)
    (xIpcpEntry xUseEntry : Int) :
    (∃ h', refreshPa h c (some pa) (some ha) xIpcpEntry xUseEntry = .ok (c, h')) ∨
      refreshPa h c (some pa) (some ha) xIpcpEntry xUseEntry = .error .outOfBounds := by
  rcases pxDupGPA_shrink_cases h pa 0 with ⟨-, hdup⟩ | ⟨-, -, hdup⟩ | ⟨-, -, -, hdup⟩ |
    ⟨-, -, -, hdup⟩ | ⟨h0, hne, h1, -⟩
  · exact Or.inl ⟨_, by rw [refreshPa, hdup]; rfl⟩
  · exact Or.inl ⟨_, by rw [refreshPa, hdup]; rfl⟩
  · exact Or.inr (by rw [refreshPa, hdup]; rfl)
  · exact Or.inl ⟨_, by rw [refreshPa, hdup]; rfl⟩
  · exact absurd ⟨hne, h0, h1⟩ hno

theorem AddressCopied.refreshPa_eq (hcopied : AddressCopied h pa) (c : ARPCache) (ha : GHA)
    (xIpcpEntry xUseEntry : Int) :
    refreshPa h c (some pa) (some ha) xIpcpEntry xUseEntry =
      (c.modifyRow xUseEntry fun r => { r with pxPa := some ⟨strip 0 pa.pucAddress⟩ }) >>= fun c =>
        refreshHa (h.afterCalls 2) c (some ha) xIpcpEntry xUseEntry := by
  rcases pxDupGPA_shrink_cases h pa 0 with ⟨hbad, -⟩ | ⟨-, h0, -⟩ | ⟨-, -, hnil, -⟩ |
    ⟨-, -, h1, -⟩ | ⟨-, -, -, hdup⟩
  · have hnil : pa.pucAddress = [] := by simpa [xIsGPAOK, GPA.uxLength] using hbad
    exact absurd (by simp [hnil, strip]) hcopied.bytes
  · exact absurd hcopied.object h0
  · exact absurd hnil hcopied.bytes
  · exact absurd hcopied.address h1
  · rw [refreshPa, hdup]
    rfl

/-- With the copy made, the row which is used has to be the only one with the protocol address. -/
theorem settles_refreshPa (hcopied : AddressCopied h pa) {i : ℕ} {r : ARPCacheRow}
    (hrow : c.pxRows[i]? = some r) (xIpcpEntry : Int) :
    Settles pa ha (refreshPa h c (some pa) (some ha) xIpcpEntry i) ↔
      (∀ (j : ℕ) (r' : ARPCacheRow), c.pxRows[j]? = some r' → r'.holds pa = true → j = i) ∧
        (Granted h 2 ∨ r.pxHa = some ha ∧ r.ucAge ≠ 0 ∧ r.ucValid ≠ 0) := by
  rw [hcopied.refreshPa_eq, modifyRow_of_row hrow, Exec.ok_bind, refreshHa]
  by_cases h2 : Granted h 2
  · have hha : pxDupGHA (h.afterCalls 2) ha = (some ha, h.afterCalls 3) := by
      simp [pxDupGHA, xIsGHAOK_all, h2.request]
    have hnew : (c.pxRows.modify i fun r => { r with pxPa := some ⟨strip 0 pa.pucAddress⟩ })[i]? =
        some { r with pxPa := some ⟨strip 0 pa.pucAddress⟩ } := by
      rw [List.getElem?_modify_eq, hrow]
      rfl
    have hcache : (ARPCache.mk c.eType (c.pxRows.modify i fun r =>
        { r with pxPa := some ⟨strip 0 pa.pucAddress⟩ })).pxRows[i]? =
          some { r with pxPa := some ⟨strip 0 pa.pucAddress⟩ } := hnew
    rw [hha]
    show Settles pa ha (ARPCache.modifyRow _ i _ >>= fun c => .ok (c, h.afterCalls 3)) ↔ _
    rw [modifyRow_of_row hcache, Exec.ok_bind, settles_ok, List.modify_modify_eq,
      settled_modify hrow (holds_strip hcopied.bytes rfl)]
    have hage : CFG_MAX_ARP_AGE ≠ 0 := by decide
    simp [h2, hage]
  · have hha : pxDupGHA (h.afterCalls 2) ha = (none, h.afterCalls 3) := by
      simp [pxDupGHA, xIsGHAOK_all, request_refused h2]
    rw [hha, settles_ok, settled_modify hrow (holds_strip hcopied.bytes rfl)]
    simp [h2]

/-! ### The refresh -/

theorem refreshWorks_iff (h : Heap) (c : ARPCache) (pa : GPA) (ha : GHA) :
    RefreshWorks h c pa ha ↔ Settles pa ha (vARPCacheRefresh h c (some pa) (some ha)) := by
  unfold RefreshWorks Settles
  simp only [yields_sole_iff]

/-- When it refreshes with success: one row has the protocol address, and it has the hardware
address too, or its index is not the one which stands for none, and the copies are made. Without the
copy of the hardware address a row in use has to have it. -/
def Refreshable (h : Heap) (c : ARPCache) (pa : GPA) (ha : GHA) : Prop :=
  ∃ i r, SoleRow pa c.pxRows i r ∧
    (r.pxHa = some ha ∨ (i : Int) ≠ CHAR_MAX ∧ AddressCopied h pa ∧
      (Granted h 2 ∨ ∃ j r', lastIdx? (·.hasHa ha) c.pxRows = some j ∧ c.pxRows[j]? = some r' ∧
        r'.ucAge ≠ 0 ∧ r'.ucValid ≠ 0))

theorem refresh_of_found {k : ℕ} {r : ARPCacheRow} (hrow : c.pxRows[k]? = some r)
    (hholds : r.holds pa = true) (hha : r.hasHa ha = true)
    (hscan : refreshScan (some pa) (some ha) 0 c.pxRows .start = .inl k) :
    Settles pa ha (vARPCacheRefresh h c (some pa) (some ha)) ↔ Refreshable h c pa ha := by
  have hnew : ({ r with ucAge := CFG_MAX_ARP_AGE, ucValid := 1 } : ARPCacheRow).holds pa = true :=
    hholds
  have hage : CFG_MAX_ARP_AGE ≠ 0 := by decide
  have hha' : r.pxHa = some ha := hasHa_iff.mp hha
  rw [vARPCacheRefresh, hscan]
  show Settles pa ha (c.modifyRow k _ >>= fun c => .ok (c, h)) ↔ _
  rw [modifyRow_of_row hrow, Exec.ok_bind, settles_ok, settled_modify hrow hnew]
  constructor
  · rintro ⟨hone, -⟩
    exact ⟨k, r, ⟨hrow, hholds, hone⟩, Or.inl hha'⟩
  · rintro ⟨i, r', ⟨hi, hr', hone⟩, -⟩
    have hki : k = i := hone k r hrow hholds
    subst hki
    exact ⟨hone, hha', hage, (by decide : (1 : UInt8) ≠ 0)⟩

theorem not_settles_of_not_copied (hno : NoBoth pa ha c.pxRows) (hcopied : ¬ AddressCopied h pa)
    (xIpcpEntry xUseEntry : Int) :
    ¬ Settles pa ha (refreshPa h c (some pa) (some ha) xIpcpEntry xUseEntry) := by
  rcases refreshPa_of_not_copied hcopied c ha xIpcpEntry xUseEntry with ⟨h', hout⟩ | hout
  · rw [hout, settles_ok]
    exact hno.not_settled
  · rw [hout]
    exact settles_error

theorem foundEntry_some (i : ℕ) : foundEntry 0 (-1) (some i) = i := by rw [foundEntry, Nat.zero_add]

/-- What follows the search when no row has both addresses. -/
def refreshAfter (h : Heap) (c : ARPCache) (pa : GPA) (ha : GHA) (i j : Option ℕ) :
    Exec (ARPCache × Heap) := do
  let (xUseEntry, c) ← selectRow c ⟨foundEntry 0 (-1) i, foundEntry 0 (-1) j, 0, -1⟩
  refreshPa h c (some pa) (some ha) (foundEntry 0 (-1) i) xUseEntry

/-- No row has the protocol address, and the one in front of the table is written to. -/
theorem not_settles_missing (hno : NoBoth pa ha c.pxRows) (j : Option ℕ) :
    ¬ Settles pa ha (refreshAfter h c pa ha none j) := by
  have hmax : foundEntry 0 (-1) none ≠ CHAR_MAX := by decide
  cases j with
  | some j =>
    have hj : 0 ≤ foundEntry 0 (-1) (some j) := Int.natCast_nonneg _
    have herr : refreshAfter h c pa ha none (some j) = .error .outOfBounds := by
      rw [refreshAfter, selectRow, if_pos hj, if_pos hmax]
      simp only [foundEntry, modifyRow_missing, Exec.error_bind]
    rw [herr]
    exact settles_error
  | none =>
    have hafter : refreshAfter h c pa ha none none =
        refreshPa h c (some pa) (some ha) (-1) (-1) := by
      rw [refreshAfter, selectRow, if_neg (by decide), if_pos hmax]
      rfl
    rw [hafter]
    by_cases hcopied : AddressCopied h pa
    · rw [hcopied.refreshPa_eq, modifyRow_missing]
      exact settles_error
    · exact not_settles_of_not_copied hno hcopied _ _

/-- The row of the protocol address has the index which stands for none. It stays, and another row
gets the address. -/
theorem not_settles_sentinel (hno : NoBoth pa ha c.pxRows) {i : ℕ} {r : ARPCacheRow}
    (hrow : c.pxRows[i]? = some r) (hholds : r.holds pa = true) (hi : (i : Int) = CHAR_MAX)
    {j : Option ℕ} (hj : ∀ k ∈ j, ∃ r', c.pxRows[k]? = some r' ∧ r'.hasHa ha = true) :
    ¬ Settles pa ha (refreshAfter h c pa ha (some i) j) := by
  have hentry : foundEntry 0 (-1) (some i) = CHAR_MAX := by rw [foundEntry_some, hi]
  have huse : ∃ (k : ℕ) (r' : ARPCacheRow), c.pxRows[k]? = some r' ∧ k ≠ i ∧
      refreshAfter h c pa ha (some i) j =
        refreshPa h c (some pa) (some ha) (foundEntry 0 (-1) (some i)) k := by
    cases j with
    | some k =>
      obtain ⟨r', hk, hha⟩ := hj k rfl
      have hpos : 0 ≤ foundEntry 0 (-1) (some k) := Int.natCast_nonneg _
      refine ⟨k, r', hk, hno.index_ne hrow hholds hk hha, ?_⟩
      rw [refreshAfter, selectRow, if_pos hpos, if_neg (not_not_intro hentry)]
      simp [foundEntry]
    | none =>
      have hlt : i < c.pxRows.length := (List.getElem?_eq_some_iff.mp hrow).1
      have hmax : i = 127 := by
        have hval : CHAR_MAX = 127 := rfl
        omega
      refine ⟨0, _, List.getElem?_eq_getElem (by omega), by omega, ?_⟩
      have hneg : ¬ 0 ≤ foundEntry 0 (-1) none := by decide
      rw [refreshAfter, selectRow, if_neg hneg, if_neg (not_not_intro hentry)]
      rfl
  obtain ⟨k, r', hk, hki, hafter⟩ := huse
  rw [hafter]
  by_cases hcopied : AddressCopied h pa
  · rw [settles_refreshPa hcopied hk]
    rintro ⟨hone, -⟩
    exact hki (hone i r hrow hholds).symm
  · exact not_settles_of_not_copied hno hcopied _ _

/-- The row of the hardware address is used and the one of the protocol address cleared. -/
theorem settles_moved (hno : NoBoth pa ha c.pxRows) (hcopied : AddressCopied h pa) {i j : ℕ}
    {r r' : ARPCacheRow} (hi : c.pxRows[i]? = some r) (hholds : r.holds pa = true)
    (hmax : (i : Int) ≠ CHAR_MAX) (hj : c.pxRows[j]? = some r') (hha : r'.hasHa ha = true) :
    Settles pa ha (refreshAfter h c pa ha (some i) (some j)) ↔
      (∀ (k : ℕ) (r' : ARPCacheRow), c.pxRows[k]? = some r' → r'.holds pa = true → k = i) ∧
        (Granted h 2 ∨ r'.ucAge ≠ 0 ∧ r'.ucValid ≠ 0) := by
  have hji : j ≠ i := hno.index_ne hi hholds hj hha
  have hclear : ∀ k, k ≠ i → (c.pxRows.modify i prvARPCacheFreeRow)[k]? = c.pxRows[k]? :=
    fun k hki => List.getElem?_modify_ne _ _ (Ne.symm hki)
  have hrow : (ARPCache.mk c.eType (c.pxRows.modify i prvARPCacheFreeRow)).pxRows[j]? = some r' :=
    (hclear j hji).trans hj
  have hpos : 0 ≤ foundEntry 0 (-1) (some j) := Int.natCast_nonneg _
  have hafter : refreshAfter h c pa ha (some i) (some j) =
      refreshPa h ⟨c.eType, c.pxRows.modify i prvARPCacheFreeRow⟩ (some pa) (some ha) i j := by
    rw [refreshAfter, selectRow, if_pos hpos, foundEntry_some, if_pos hmax, modifyRow_of_row hi]
    simp [foundEntry, pure, Except.pure]
  rw [hafter, settles_refreshPa hcopied hrow]
  constructor
  · rintro ⟨hone, hrest⟩
    refine ⟨fun k r₁ hk hr₁ => ?_, hrest.imp id fun hr => hr.2⟩
    by_contra hki
    exact hno.index_ne hk hr₁ hj hha (hone k r₁ ((hclear k hki).trans hk) hr₁).symm
  · rintro ⟨hone, hrest⟩
    refine ⟨fun k r₁ hk hr₁ => ?_, hrest.imp id fun hr => ⟨hasHa_iff.mp hha, hr⟩⟩
    exfalso
    by_cases hki : k = i
    · subst hki
      have hempty : (c.pxRows.modify k prvARPCacheFreeRow)[k]? = some .empty := by
        rw [List.getElem?_modify_eq, hi]
        rfl
      rw [hempty, Option.some.injEq] at hk
      subst hk
      cases hr₁
    · exact hki (hone k r₁ ((hclear k hki).symm.trans hk) hr₁)

/-- The row of the protocol address gets the hardware address. -/
theorem settles_updated (hno : NoBoth pa ha c.pxRows) (hcopied : AddressCopied h pa) {i : ℕ}
    {r : ARPCacheRow} (hi : c.pxRows[i]? = some r) (hholds : r.holds pa = true)
    (hmax : (i : Int) ≠ CHAR_MAX) :
    Settles pa ha (refreshAfter h c pa ha (some i) none) ↔
      (∀ (k : ℕ) (r' : ARPCacheRow), c.pxRows[k]? = some r' → r'.holds pa = true → k = i) ∧
        Granted h 2 := by
  have hneg : ¬ 0 ≤ foundEntry 0 (-1) none := by decide
  have hafter : refreshAfter h c pa ha (some i) none =
      refreshPa h c (some pa) (some ha) i i := by
    rw [refreshAfter, selectRow, if_neg hneg, foundEntry_some, if_pos hmax]
    rfl
  have hother : ¬ r.pxHa = some ha := fun hha =>
    hno.not_hasHa hi hholds (hasHa_iff.mpr hha)
  rw [hafter, settles_refreshPa hcopied hi]
  simp [hother]

theorem not_settles_after (hno : NoBoth pa ha c.pxRows) (hcopied : ¬ AddressCopied h pa) {i : ℕ}
    {r : ARPCacheRow} (hi : c.pxRows[i]? = some r) (hmax : (i : Int) ≠ CHAR_MAX) (j : Option ℕ) :
    ¬ Settles pa ha (refreshAfter h c pa ha (some i) j) := by
  rw [refreshAfter, selectRow, foundEntry_some, if_pos hmax, if_pos hmax]
  split
  · rw [modifyRow_of_row hi]
    exact not_settles_of_not_copied (hno.clear i) hcopied _ _
  · exact not_settles_of_not_copied hno hcopied _ _

/-- Without a row with both addresses there have to be copies, and the row which was found has to be
the only one with the protocol address. -/
theorem Refreshable.at_found (hno : NoBoth pa ha c.pxRows) (href : Refreshable h c pa ha) {i : ℕ}
    {r : ARPCacheRow} (hi : c.pxRows[i]? = some r) (hholds : r.holds pa = true) :
    (∀ (j : ℕ) (r' : ARPCacheRow), c.pxRows[j]? = some r' → r'.holds pa = true → j = i) ∧
      (i : Int) ≠ CHAR_MAX ∧ AddressCopied h pa ∧
      (Granted h 2 ∨ ∃ j r', lastIdx? (·.hasHa ha) c.pxRows = some j ∧ c.pxRows[j]? = some r' ∧
        r'.ucAge ≠ 0 ∧ r'.ucValid ≠ 0) := by
  obtain ⟨k, rk, ⟨hk, hholdsk, hone⟩, hha | hrest⟩ := href
  · exact absurd (hasHa_iff.mpr hha) (hno.not_hasHa hk hholdsk)
  · obtain rfl : i = k := hone i r hi hholds
    exact ⟨hone, hrest⟩

theorem refresh_of_not_found (hno : NoBoth pa ha c.pxRows) :
    Settles pa ha (refreshAfter h c pa ha (lastIdx? (·.holds pa) c.pxRows)
      (lastIdx? (·.hasHa ha) c.pxRows)) ↔ Refreshable h c pa ha := by
  cases hi : lastIdx? (·.holds pa) c.pxRows with
  | none =>
    refine iff_of_false (not_settles_missing hno _) ?_
    rintro ⟨i, r, ⟨hrow, hholds, -⟩, -⟩
    have hnone := lastIdx?_eq_none.mp hi r (List.mem_of_getElem? hrow)
    rw [hholds] at hnone
    cases hnone
  | some i =>
    obtain ⟨r, hrow, hholds⟩ := lastIdx?_eq_some hi
    by_cases hmax : (i : Int) = CHAR_MAX
    · refine iff_of_false (not_settles_sentinel hno hrow hholds hmax fun j hj =>
        lastIdx?_eq_some hj) fun href => ?_
      exact (href.at_found hno hrow hholds).2.1 hmax
    · by_cases hcopied : AddressCopied h pa
      · cases hj : lastIdx? (·.hasHa ha) c.pxRows with
        | some j =>
          obtain ⟨r', hrow', hha⟩ := lastIdx?_eq_some hj
          rw [settles_moved hno hcopied hrow hholds hmax hrow' hha]
          constructor
          · rintro ⟨hone, hrest⟩
            exact ⟨i, r, ⟨hrow, hholds, hone⟩, Or.inr ⟨hmax, hcopied,
              hrest.imp id fun hr => ⟨j, r', hj, hrow', hr⟩⟩⟩
          · intro href
            obtain ⟨hone, -, -, hrest⟩ := href.at_found hno hrow hholds
            refine ⟨hone, hrest.imp id ?_⟩
            rintro ⟨j', r'', hj', hrow'', hr⟩
            obtain rfl : j = j' := Option.some.inj (hj.symm.trans hj')
            obtain rfl : r' = r'' := Option.some.inj (hrow'.symm.trans hrow'')
            exact hr
        | none =>
          rw [settles_updated hno hcopied hrow hholds hmax]
          constructor
          · rintro ⟨hone, h2⟩
            exact ⟨i, r, ⟨hrow, hholds, hone⟩, Or.inr ⟨hmax, hcopied, Or.inl h2⟩⟩
          · intro href
            obtain ⟨hone, -, -, hrest⟩ := href.at_found hno hrow hholds
            refine ⟨hone, hrest.resolve_right ?_⟩
            rintro ⟨j', -, hj', -⟩
            rw [hj] at hj'
            cases hj'
      · refine iff_of_false (not_settles_after hno hcopied hrow hmax _) fun href => ?_
        exact hcopied (href.at_found hno hrow hholds).2.2.1

/-- A refresh stays in the rows and leaves one row for the address, with the hardware address,
exactly when there was one row for it and that one can be found again and copied to. -/
theorem refresh_works_iff (h : Heap) (c : ARPCache) (pa : GPA) (ha : GHA) :
    RefreshWorks h c pa ha ↔ Refreshable h c pa ha := by
  rw [refreshWorks_iff]
  rcases refreshScan_cases pa ha 0 c.pxRows (s := .start) rfl with
    ⟨k, r, hrow, hholds, hha, hscan⟩ | ⟨hno, hscan⟩
  · rw [Nat.zero_add] at hscan
    exact refresh_of_found hrow hholds hha hscan
  · have hafter : vARPCacheRefresh h c (some pa) (some ha) =
        refreshAfter h c pa ha (lastIdx? (·.holds pa) c.pxRows)
          (lastIdx? (·.hasHa ha) c.pxRows) := by
      rw [vARPCacheRefresh, hscan]
      rfl
    rw [hafter]
    exact refresh_of_not_found hno

/-- The address is not in the cache, and the row in front of the first one is written to. -/
theorem refresh_new_address :
    vARPCacheRefresh exampleArpHeap ⟨.MAC_ADDR_802_3, List.replicate 4 .empty⟩ (some ⟨[65]⟩)
        (some (exampleGha 1)) = .error .outOfBounds ∧
      ¬ RefreshWorks exampleArpHeap ⟨.MAC_ADDR_802_3, List.replicate 4 .empty⟩ ⟨[65]⟩
        (exampleGha 1) := by
  have herr : vARPCacheRefresh exampleArpHeap ⟨.MAC_ADDR_802_3, List.replicate 4 .empty⟩
    (some ⟨[65]⟩) (some (exampleGha 1)) = .error .outOfBounds := rfl
  refine ⟨herr, ?_⟩
  rintro ⟨c', h', hout, -⟩
  rw [herr] at hout
  cases hout

end RinaSense.Shim
