import Mathlib.Data.List.Forall2
import RinaSense.Library.Runs
import RinaSense.Shim.ArpRequest

/-!
# The latest address of the ARP cache

Which of several rows for one protocol address a lookup finds. Additions and removals leave
rows which are either cleared or complete, so that the flags on which they and the lookups
decide agree.
-/

namespace RinaSense.Shim

open Common Library.Memory Library.Filler Library.Runs

/-- The addresses of the row are released and it is cleared. -/
def prvARPCacheFreeRow (_ : ARPCacheRow) : ARPCacheRow := .empty

def xARPCacheRemove (pxCache : ARPCache) (pxPa : GPA) : Bool × ARPCache :=
  if !xIsGPAOK pxPa then (false, pxCache)
  else
    (true, { pxCache with
      pxRows := pxCache.pxRows.map fun r =>
        if r.ucValid ≠ 0 ∧ r.pxPa.any (xGPACmp · pxPa) then prvARPCacheFreeRow r else r })

def xARPCacheRemoveHandle (pxCache : ARPCache) (nCacheHndl : ℕ) : Bool × ARPCache :=
  (true, { pxCache with pxRows := pxCache.pxRows.modify nCacheHndl prvARPCacheFreeRow })

def vARPRemoveAll (pxCache : ARPCache) : ARPCache :=
  { pxCache with pxRows := pxCache.pxRows.map fun _ => .empty }

variable (pf : Platform)

/-- A call. An addition finds the memory as the rest of the program has left it. -/
inductive CacheOp
  | add (h : Heap) (pxPa : GPA) (pxHa : GHA)
  | remove (pxPa : GPA)
  | removeHandle (nCacheHndl : ℕ)
  | removeAll

/-- A call, unless it does not come back. -/
def ARPCache.step (c : ARPCache) : CacheOp → Option ARPCache
  | .add h pxPa pxHa => (xARPCacheAdd pf h c pxPa pxHa).toOption.map fun out => out.2.1
  | .remove pxPa => some (xARPCacheRemove c pxPa).2
  | .removeHandle nCacheHndl => some (xARPCacheRemoveHandle c nCacheHndl).2
  | .removeAll => some (vARPRemoveAll c)

/-- A lookup finds the row. -/
def ARPCacheRow.Matches (q : GPA) (r : ARPCacheRow) : Prop :=
  r.ucAge ≠ 0 ∧ r.pxPa.any (xGPACmp · q) = true

instance (q : GPA) (r : ARPCacheRow) : Decidable (r.Matches q) :=
  inferInstanceAs (Decidable (_ ∧ _))

/-- The call neither adds the address again with success nor removes it. -/
def Spares (q : GPA) (c : ARPCache) : CacheOp → Prop
  | .add h pxPa pxHa =>
    ∀ out, xARPCacheAdd pf h c pxPa pxHa = .ok out → out.1 = 1 → xGPACmp pxPa q = false
  | .remove pxPa => xGPACmp pxPa q = false
  | .removeHandle nCacheHndl => ∀ r ∈ c.pxRows[nCacheHndl]?, ¬ r.Matches q
  | .removeAll => ∀ r ∈ c.pxRows, ¬ r.Matches q

/-- Both lookups give the hardware address. The debug checks of one of them take memory, and
it returns at least if there is some. -/
structure ARPCache.Maps (c : ARPCache) (q : GPA) (ha : GHA) : Prop where
  lookupGHA : pxARPCacheLookupGHA c q = some ha
  lookupGPA : ∀ h out, eARPCacheLookupGPA pf h c q = .ok out →
    out.1 = .eARPCacheHit ∧ out.2.1 = some ha
  returns : ∀ h, h.MemoryAvailable → ∃ out, eARPCacheLookupGPA pf h c q = .ok out

/-- The hardware address of the first row for the address in front of the row which an
addition fills. -/
def ARPCache.ahead (c : ARPCache) (q : GPA) : Option GHA :=
  lookupResult q (c.pxRows.takeWhile fun r => r.ucValid ≠ 0)

/-! ### Rows -/

/-- A row is cleared or complete. -/
def ARPCacheRow.Clean (r : ARPCacheRow) : Prop :=
  r = .empty ∨ ∃ pa ha, r = .live pa ha ∧ pa.pucAddress ≠ []

def ARPCache.Inv (c : ARPCache) : Prop := ∀ r ∈ c.pxRows, r.Clean

variable {pf} {c c' : ARPCache} {q pa : GPA} {ha : GHA} {rows rows' : List ARPCacheRow}

theorem ARPCacheRow.Clean.complete {r : ARPCacheRow} (h : r.Clean) : r.Complete := by
  rcases h with rfl | ⟨pa, ha, rfl, hpa⟩
  · exact ARPCacheRow.complete_empty
  · exact ARPCacheRow.complete_live hpa ha

theorem ARPCacheRow.Clean.valid {r : ARPCacheRow} (h : r.Clean) : r.ucValid = 0 ↔ r.ucAge = 0 := by
  rcases h with rfl | ⟨pa, ha, rfl, -⟩
  · exact iff_of_true rfl rfl
  · exact iff_of_false (by decide : (1 : UInt8) ≠ 0) (by decide : (1 : UInt8) ≠ 0)

theorem ARPCacheRow.Clean.matches_iff {r : ARPCacheRow} (h : r.Clean) :
    r.Matches q ↔ ∃ pa ha, r = .live pa ha ∧ xGPACmp pa q = true := by
  rcases h with rfl | ⟨pa, ha, rfl, -⟩
  · exact iff_of_false (fun hm => hm.1 rfl) (by rintro ⟨pa, ha, he, -⟩; cases he)
  · constructor
    · rintro ⟨-, hany⟩
      exact ⟨pa, ha, rfl, by simpa [ARPCacheRow.live] using hany⟩
    · rintro ⟨pa', ha', he, hcmp⟩
      cases he
      exact ⟨(by decide : (1 : UInt8) ≠ 0), by simpa [ARPCacheRow.live] using hcmp⟩

/-- Addresses which compare equal are not told apart by a third. -/
theorem xGPACmp_congr {p₁ p₂ : GPA} (h : xGPACmp p₁ p₂ = true) (q : GPA) :
    xGPACmp p₁ q = xGPACmp p₂ q := by
  rw [xGPACmp_iff] at h
  rw [Bool.eq_iff_iff, xGPACmp_iff, xGPACmp_iff, h.2.2]
  simp [h.1, h.2.1]

/-- Without the filler at its end an address compares equal to itself. -/
theorem xGPACmp_strip (hpa : strip 0 pa.pucAddress ≠ []) (q : GPA) :
    xGPACmp ⟨strip 0 pa.pucAddress⟩ q = xGPACmp pa q := by
  have hne : pa.pucAddress ≠ [] := by
    intro hnil
    exact hpa (by simp [hnil, strip])
  rw [Bool.eq_iff_iff, xGPACmp_iff, xGPACmp_iff]
  simp [GPA.key, cut_strip, hpa, hne]

theorem lookupResult_of_matches {r : ARPCacheRow} (h : r.Matches q) :
    lookupResult q (r :: rows) = r.pxHa := if_pos h

theorem lookupResult_of_not_matches {r : ARPCacheRow} (h : ¬ r.Matches q) :
    lookupResult q (r :: rows) = lookupResult q rows := if_neg h

/-- The first rows which have the address are the ones which are found. -/
theorem lookupResult_or (hrows : ∀ r ∈ rows, r.Clean) :
    lookupResult q (rows ++ rows') = (lookupResult q rows).or (lookupResult q rows') := by
  induction rows with
  | nil => rfl
  | cons r rows ih =>
    have hrest := ih fun r' hr' => hrows r' (List.mem_cons_of_mem r hr')
    by_cases hm : r.Matches q
    · obtain ⟨pa, ha, rfl, -⟩ := (hrows r List.mem_cons_self).matches_iff.mp hm
      rw [List.cons_append, lookupResult_of_matches hm, lookupResult_of_matches hm]
      rfl
    · rw [List.cons_append, lookupResult_of_not_matches hm, lookupResult_of_not_matches hm, hrest]

/-- Rows change which are not found and are not found afterwards. -/
theorem lookupResult_same
    (h : List.Forall₂ (fun r r' => r' = r ∨ ¬ r.Matches q ∧ ¬ r'.Matches q) rows rows') :
    lookupResult q rows' = lookupResult q rows := by
  induction h with
  | nil => rfl
  | @cons r r' rows rows' hr _ ih =>
    rcases hr with rfl | ⟨hno, hno'⟩
    · by_cases hm : r'.Matches q
      · rw [lookupResult_of_matches hm, lookupResult_of_matches hm]
      · rw [lookupResult_of_not_matches hm, lookupResult_of_not_matches hm, ih]
    · rw [lookupResult_of_not_matches hno, lookupResult_of_not_matches hno', ih]

theorem lookupRows_result (hrows : ∀ r ∈ rows, r.Clean) {h : Heap}
    {out : ARPLookupResult × Option GHA × Heap} (hout : lookupRows pf q h rows = .ok out) :
    out.1 = lookupOutcome (lookupResult q rows) ∧ out.2.1 = lookupResult q rows := by
  induction rows generalizing h with
  | nil =>
    cases hout
    exact ⟨rfl, rfl⟩
  | cons r rows ih =>
    have hrest := fun r' hr' => hrows r' (List.mem_cons_of_mem r hr')
    rcases hrows r List.mem_cons_self with rfl | ⟨pa, ha, rfl, hpa⟩
    · exact ih hrest hout
    · have hage : (ARPCacheRow.live pa ha).ucAge ≠ 0 := (by decide : (1 : UInt8) ≠ 0)
      rw [lookupRows, if_neg hage] at hout
      obtain ⟨h', -, hout⟩ := Exec.bind_eq_ok.mp hout
      by_cases hcmp : xGPACmp pa q = true
      · have hvalid : (ARPCacheRow.live pa ha).ucValid ≠ 0 := (by decide : (1 : UInt8) ≠ 0)
        rw [if_pos (show (ARPCacheRow.live pa ha).pxPa.any (xGPACmp · q) = true from hcmp),
          if_neg hvalid] at hout
        cases hout
        rw [lookupResult_of_matches ⟨hage, hcmp⟩]
        exact ⟨rfl, rfl⟩
      · have hno : ¬ (ARPCacheRow.live pa ha).Matches q := fun hm => hcmp hm.2
        rw [if_neg (show ¬ (ARPCacheRow.live pa ha).pxPa.any (xGPACmp · q) = true from hcmp)]
          at hout
        rw [lookupResult_of_not_matches hno]
        exact ih hrest hout

theorem ARPCache.Inv.maps_iff (hc : c.Inv) :
    c.Maps pf q ha ↔ xIsGPAOK q = true ∧ lookupResult q c.pxRows = some ha := by
  constructor
  · intro hm
    have hgha := hm.lookupGHA
    by_cases hok : xIsGPAOK q = true
    · exact ⟨hok, by simpa [pxARPCacheLookupGHA, hok] using hgha⟩
    · simp [pxARPCacheLookupGHA, hok] at hgha
  · rintro ⟨hok, hres⟩
    refine ⟨by simpa [pxARPCacheLookupGHA, hok] using hres, ?_, ?_⟩
    · intro h out hout
      have hrows := lookupRows_result hc hout
      rw [hres] at hrows
      exact hrows
    · intro h hm
      have hcomplete := fun r hr => (hc r hr).complete
      obtain ⟨k, hk⟩ := eARPCacheLookupGPA_available pf hcomplete q hm
      exact ⟨_, hk⟩

/-! ### Calls -/

theorem pxDupGPA_cases {h : Heap} {f : UInt8} {out : Option GPA × Heap}
    (hdup : pxDupGPA h pa true f = .ok out) :
    out.1 = none ∨ strip f pa.pucAddress ≠ [] ∧ out.1 = some ⟨strip f pa.pucAddress⟩ := by
  unfold pxDupGPA at hdup
  split at hdup
  · cases hdup
    exact Or.inl rfl
  · split at hdup
    · cases hdup
      exact Or.inl rfl
    · obtain ⟨bs, hbs, hdup⟩ := Exec.bind_eq_ok.mp hdup
      by_cases hnil : strip f pa.pucAddress = []
      · simp [hnil, inBounds] at hbs
      · have hbs' : strip f pa.pucAddress = bs := by simpa [hnil, inBounds] using hbs
        subst hbs'
        split at hdup
        · cases hdup
          exact Or.inl rfl
        · cases hdup
          exact Or.inr ⟨hnil, rfl⟩

theorem pxDupGHA_cases (h : Heap) (ha : GHA) :
    (pxDupGHA h ha).1 = none ∨ (pxDupGHA h ha).1 = some ha := by
  unfold pxDupGHA
  split
  · exact Or.inl rfl
  · split
    · exact Or.inl rfl
    · exact Or.inr rfl

/-- An addition returns 1 exactly when it has filled a row. -/
theorem xARPCacheAdd_cases {h h' : Heap} {r : Int}
    (hadd : xARPCacheAdd pf h c pa ha = .ok (r, c', h')) :
    r ≠ 1 ∧ c' = c ∨
      r = 1 ∧ strip 0 pa.pucAddress ≠ [] ∧ ∃ rows,
        fillRow (.live ⟨strip 0 pa.pucAddress⟩ ha) c.pxRows = some rows ∧
          c' = { c with pxRows := rows } := by
  obtain ⟨⟨dupPa, h₁⟩, hdup, hadd⟩ := Exec.bind_eq_ok.mp hadd
  rcases pxDupGPA_cases hdup with hnone | ⟨hne, hsome⟩
  · cases hnone
    cases hadd
    exact Or.inl ⟨by decide, rfl⟩
  · cases hsome
    rcases hdupHa : pxDupGHA h₁ ha with ⟨dupHa, h₂⟩
    have hcases := pxDupGHA_cases h₁ ha
    simp only [hdupHa] at hadd hcases
    rcases hcases with rfl | rfl
    · cases hadd
      exact Or.inl ⟨by decide, rfl⟩
    · cases hfill : fillRow (.live ⟨strip 0 pa.pucAddress⟩ ha) c.pxRows with
      | none =>
        simp only [hfill] at hadd
        cases hadd
        exact Or.inl ⟨by decide, rfl⟩
      | some rows =>
        simp only [hfill] at hadd
        by_cases hd : pf.ndebug = true
        · simp only [hd, Bool.not_true, Bool.false_eq_true, if_false] at hadd
          cases hadd
          exact Or.inr ⟨rfl, hne, rows, rfl, rfl⟩
        · simp only [hd, Bool.not_false, if_true] at hadd
          obtain ⟨_, -, hret⟩ := Exec.bind_eq_ok.mp hadd
          cases hret
          exact Or.inr ⟨rfl, hne, rows, rfl, rfl⟩

theorem ARPCache.inv_create {h h' : Heap} {eType : GHAType} {nEntries : ℕ}
    (hc : pxARPCacheCreate h eType nEntries = (some c, h')) : c.Inv := by
  unfold pxARPCacheCreate at hc
  split at hc
  · cases hc
  · cases hc
    intro r hr
    exact Or.inl (List.eq_of_mem_replicate hr)

theorem fillRow_changes {row : ARPCacheRow} (h : fillRow row rows = some rows') :
    List.Forall₂ (fun r r' => r' = r ∨ r ∈ rows ∧ r.ucValid = 0 ∧ r' = row) rows rows' := by
  obtain ⟨own, old, rest, rfl, rfl, hv, -⟩ := fillRow_eq_some h
  have hkept : ∀ l : List ARPCacheRow, List.Forall₂ (fun r r' =>
      r' = r ∨ r ∈ own ++ old :: rest ∧ r.ucValid = 0 ∧ r' = row) l l :=
    fun l => List.forall₂_same.mpr fun _ _ => Or.inl rfl
  refine List.rel_append (hkept own) (.cons (Or.inr ?_) (hkept rest))
  exact ⟨List.mem_append_right own List.mem_cons_self, hv, rfl⟩

theorem modify_changes (f : ARPCacheRow → ARPCacheRow) (n : ℕ) (rows : List ARPCacheRow) :
    List.Forall₂ (fun r r' => r' = r ∨ r ∈ rows[n]? ∧ r' = f r) rows (rows.modify n f) := by
  induction rows generalizing n with
  | nil => cases n <;> exact .nil
  | cons r rows ih =>
    cases n with
    | zero => exact .cons (Or.inr ⟨rfl, rfl⟩) (List.forall₂_same.mpr fun _ _ => Or.inl rfl)
    | succ n => exact .cons (Or.inl rfl) (ih n)

theorem map_changes (f : ARPCacheRow → ARPCacheRow) (rows : List ARPCacheRow) :
    List.Forall₂ (fun r r' => r ∈ rows ∧ r' = f r) rows (rows.map f) :=
  List.forall₂_map_right_iff.mpr (List.forall₂_same.mpr fun _ hr => ⟨hr, rfl⟩)

/-- What a call may do to a row. -/
def Changed (q : GPA) (spared : Prop) (r r' : ARPCacheRow) : Prop :=
  r' = r ∨ r'.Clean ∧ (spared → ¬ r.Matches q ∧ ¬ r'.Matches q)

theorem changed_empty {spared : Prop} {r : ARPCacheRow} (h : spared → ¬ r.Matches q) :
    Changed q spared r .empty :=
  Or.inr ⟨Or.inl rfl, fun hs => ⟨h hs, fun hm => hm.1 rfl⟩⟩

theorem ARPCache.Inv.step_rows (hc : c.Inv) (q : GPA) {op : CacheOp}
    (hstep : c.step pf op = some c') :
    List.Forall₂ (Changed q (Spares pf q c op)) c.pxRows c'.pxRows := by
  cases op with
  | add h pa ha =>
    obtain ⟨⟨r, c₁, h₁⟩, hadd, rfl⟩ := Exec.toOption_map_eq_some hstep
    rcases xARPCacheAdd_cases hadd with ⟨-, rfl⟩ | ⟨rfl, hne, rows, hfill, rfl⟩
    · exact List.forall₂_same.mpr fun _ _ => Or.inl rfl
    · refine (fillRow_changes hfill).imp fun r r' => ?_
      rintro (heq | ⟨hr, hv, rfl⟩)
      · exact Or.inl heq
      · refine Or.inr ⟨Or.inr ⟨_, _, rfl, hne⟩, fun hs => ⟨?_, ?_⟩⟩
        · exact fun hm => hm.1 ((hc r hr).valid.mp hv)
        · -- The new row holds the address which was added, and that is another one.
          intro hm
          have hsame : xGPACmp ⟨strip 0 pa.pucAddress⟩ q = true := hm.2
          have hother := hs _ hadd rfl
          rw [← xGPACmp_strip hne, hsame] at hother
          cases hother
  | remove pa =>
    cases hstep
    unfold xARPCacheRemove
    split
    · exact List.forall₂_same.mpr fun _ _ => Or.inl rfl
    · refine (map_changes _ _).imp fun r r' => ?_
      rintro ⟨hr, rfl⟩
      split
      · rename_i hmatch
        refine changed_empty fun hs hm => ?_
        obtain ⟨pa', ha', rfl, hcmp⟩ := (hc r hr).matches_iff.mp hm
        have hpa : xGPACmp pa' pa = true := hmatch.2
        have hother : xGPACmp pa q = false := hs
        rw [← xGPACmp_congr hpa q, hcmp] at hother
        cases hother
      · exact Or.inl rfl
  | removeHandle n =>
    cases hstep
    refine (modify_changes _ _ _).imp fun r r' => ?_
    rintro (heq | ⟨hr, rfl⟩)
    · exact Or.inl heq
    · exact changed_empty fun hs => hs r hr
  | removeAll =>
    cases hstep
    refine (map_changes _ _).imp fun r r' => ?_
    rintro ⟨hr, rfl⟩
    exact changed_empty fun hs => hs r hr

theorem clean_of_changed {spared : Prop} (h : List.Forall₂ (Changed q spared) rows rows')
    (hrows : ∀ r ∈ rows, r.Clean) : ∀ r' ∈ rows', r'.Clean := by
  induction h with
  | nil => exact hrows
  | @cons r r' rows rows' hr _ ih =>
    have hrest := ih fun r₁ hr₁ => hrows r₁ (List.mem_cons_of_mem r hr₁)
    refine List.forall_mem_cons.mpr ⟨?_, hrest⟩
    rcases hr with rfl | ⟨hclean, -⟩
    · exact hrows r' List.mem_cons_self
    · exact hclean

/-- The address which is spared does not matter for this. -/
theorem ARPCache.Inv.step (hc : c.Inv) {op : CacheOp} (hstep : c.step pf op = some c') :
    c'.Inv := clean_of_changed (hc.step_rows ⟨[]⟩ hstep) hc

/-- A call which spares an address leaves what is found for it. -/
theorem ARPCache.Inv.lookupResult_step (hc : c.Inv) {op : CacheOp}
    (hs : Spares pf q c op) (hstep : c.step pf op = some c') :
    lookupResult q c'.pxRows = lookupResult q c.pxRows := by
  refine lookupResult_same ((hc.step_rows q hstep).imp fun r r' => ?_)
  rintro (heq | ⟨-, hspared⟩)
  · exact Or.inl heq
  · exact Or.inr (hspared hs)

theorem ARPCache.Inv.run (hc : c.Inv) {ops : List CacheOp}
    (hrun : ops.foldlM (ARPCache.step pf) c = some c') : c'.Inv :=
  foldlM_invariant (fun _ _ _ hinv _ hstep => hinv.step hstep) hc
    (guardedSteps_true _ _ _) hrun

theorem ARPCache.Inv.lookupResult_run (hc : c.Inv) {ops : List CacheOp}
    (hs : GuardedSteps (ARPCache.step pf) (Spares pf q) c ops)
    (hrun : ops.foldlM (ARPCache.step pf) c = some c') :
    c'.Inv ∧ lookupResult q c'.pxRows = lookupResult q c.pxRows := by
  refine foldlM_invariant (I := fun c' =>
    c'.Inv ∧ lookupResult q c'.pxRows = lookupResult q c.pxRows) ?_ ⟨hc, rfl⟩ hs hrun
  rintro c₁ op c₂ ⟨hinv, hsame⟩ hspares hstep
  exact ⟨hinv.step hstep, (hinv.lookupResult_step hspares hstep).trans hsame⟩

/-- The new row is found unless there is one in front of it. -/
theorem ARPCache.Inv.lookupResult_add (hc : c.Inv) {h h' : Heap}
    (hadd : xARPCacheAdd pf h c pa ha = .ok (1, c', h')) :
    xIsGPAOK pa = true ∧ lookupResult pa c'.pxRows = some ((c.ahead pa).getD ha) := by
  rcases xARPCacheAdd_cases hadd with ⟨hr, -⟩ | ⟨-, hne, rows', hfill, rfl⟩
  · exact absurd rfl hr
  · have hpa : pa.pucAddress ≠ [] := by
      intro hnil
      exact hne (by simp [hnil, strip])
    refine ⟨(xIsGPAOK_iff pa).mpr hpa, ?_⟩
    obtain ⟨own, r, rest, hrows, rfl, -, hown⟩ := fillRow_eq_some hfill
    have hclean : ∀ r' ∈ own, r'.Clean := fun r' hr' => hc r' (by simp [hrows, hr'])
    have hself : xGPACmp ⟨strip 0 pa.pucAddress⟩ pa = true := by
      rw [xGPACmp_strip hne, xGPACmp_iff]
      exact ⟨hpa, hpa, rfl⟩
    have hnew : (ARPCacheRow.live ⟨strip 0 pa.pucAddress⟩ ha).Matches pa :=
      ⟨(by decide : (1 : UInt8) ≠ 0), hself⟩
    rw [lookupResult_or hclean, lookupResult_of_matches hnew, ARPCache.ahead, ← hown]
    cases lookupResult pa own <;> rfl

/-- An address which was added is found with its hardware address until it is removed or added
again, exactly when no row in front of the new one has the address with another hardware
address. -/
theorem added_latest_iff {h h₀ h₁ h' : Heap} {eType : GHAType} {nEntries : ℕ} {c₀ : ARPCache}
    {ops : List CacheOp} (hnew : pxARPCacheCreate h₀ eType nEntries = (some c₀, h₁))
    (hrun : ops.foldlM (ARPCache.step pf) c₀ = some c)
    (hadd : xARPCacheAdd pf h c pa ha = .ok (1, c', h')) :
    (∀ rest c'', GuardedSteps (ARPCache.step pf) (Spares pf pa) c' rest →
        rest.foldlM (ARPCache.step pf) c' = some c'' → c''.Maps pf pa ha) ↔
      ∀ pxHa ∈ c.ahead pa, pxHa = ha := by
  have hc : c.Inv := (ARPCache.inv_create hnew).run hrun
  have hstep : c.step pf (.add h pa ha) = some c' := by rw [ARPCache.step, hadd]; rfl
  have hc' : c'.Inv := hc.step hstep
  have hfound := hc.lookupResult_add hadd
  have hahead : (∀ pxHa ∈ c.ahead pa, pxHa = ha) ↔ (c.ahead pa).getD ha = ha := by
    cases c.ahead pa <;> simp
  rw [hahead]
  constructor
  · intro hall
    have hmaps := hc'.maps_iff.mp (hall [] c' trivial rfl)
    exact Option.some.inj (hfound.2.symm.trans hmaps.2)
  · intro hsame rest c'' hs hrest
    obtain ⟨hc'', hkept⟩ := hc'.lookupResult_run hs hrest
    exact hc''.maps_iff.mpr ⟨hfound.1, by rw [hkept, hfound.2, hsame]⟩

def exampleGha (n : UInt8) : GHA := ⟨.MAC_ADDR_802_3, exampleMac n⟩

/-- The address is added again with the hardware address it has. -/
theorem added_latest_again :
    ∃ c c' h', [CacheOp.add exampleArpHeap ⟨[65]⟩ (exampleGha 1)].foldlM
        (ARPCache.step ⟨false, false⟩) ⟨.MAC_ADDR_802_3, List.replicate 2 .empty⟩ = some c ∧
      xARPCacheAdd ⟨false, false⟩ exampleArpHeap c ⟨[65]⟩ (exampleGha 1) = .ok (1, c', h') ∧
      ∀ rest c'', GuardedSteps (ARPCache.step ⟨false, false⟩) (Spares ⟨false, false⟩ ⟨[65]⟩) c' rest →
        rest.foldlM (ARPCache.step ⟨false, false⟩) c' = some c'' →
          c''.Maps ⟨false, false⟩ ⟨[65]⟩ (exampleGha 1) :=
  ⟨_, _, _, rfl, rfl, (added_latest_iff
    (show pxARPCacheCreate exampleArpHeap .MAC_ADDR_802_3 2 = (some _, _) from rfl)
    (show [CacheOp.add exampleArpHeap ⟨[65]⟩ (exampleGha 1)].foldlM
      (ARPCache.step ⟨false, false⟩) _ = some _ from rfl)
    (show xARPCacheAdd ⟨false, false⟩ exampleArpHeap _ ⟨[65]⟩ (exampleGha 1) =
      .ok (1, _, _) from rfl)).mpr (by decide)⟩

/-- The second hardware address of a protocol address is added with success to a row behind the
one of the first, which both lookups still find. -/
theorem second_address_hidden :
    ∃ c₀ h₁ c c' h' h'', pxARPCacheCreate exampleArpHeap .MAC_ADDR_802_3 2 = (some c₀, h₁) ∧
      [CacheOp.add exampleArpHeap ⟨[65]⟩ (exampleGha 1)].foldlM
        (ARPCache.step ⟨false, false⟩) c₀ = some c ∧
      xARPCacheAdd ⟨false, false⟩ exampleArpHeap c ⟨[65]⟩ (exampleGha 2) = .ok (1, c', h') ∧
      pxARPCacheLookupGHA c' ⟨[65]⟩ = some (exampleGha 1) ∧
      eARPCacheLookupGPA ⟨false, false⟩ exampleArpHeap c' ⟨[65]⟩ =
        .ok (.eARPCacheHit, some (exampleGha 1), h'') ∧ exampleGha 1 ≠ exampleGha 2 :=
  ⟨_, _, _, _, _, _, rfl, rfl, rfl, rfl, rfl, by decide⟩

end RinaSense.Shim
