import RinaSense.Shim.ArpFrame
import RinaSense.Shim.GpaFiller

/-!
# The handles of the ARP cache

What `xARPCacheAdd` returns against what `xARPCacheRemoveHandle` takes. Each row in use carries
the value which was returned when it was filled. A removal takes the index of a row, and the
value returned for a new row is the truth value of success.
-/

namespace RinaSense.Shim

open Common Library.Memory Library.Filler Library.Runs

/-- An addition gets the copies of both addresses. -/
structure CopiesMade (h : Heap) (pa : GPA) : Prop where
  bytes : strip 0 pa.pucAddress ≠ []
  object : Granted h 0
  address : Granted h 1
  hardware : Granted h 2

/-- The row is in use. -/
def ARPCache.liveAt (c : ARPCache) (i : ℕ) : Bool := c.pxRows[i]?.any fun r => r.ucValid ≠ 0

/-- A cache with the values which were returned for its rows. -/
structure HandledCache where
  cache : ARPCache
  nHndls : ℕ → Option Int

/-- Rows which a call fills get the value it returns, and rows which it clears lose theirs. -/
def HandledCache.after (s : HandledCache) (r : Int) (c : ARPCache) : HandledCache :=
  ⟨c, fun i => if c.liveAt i then if s.cache.liveAt i then s.nHndls i else some r else none⟩

variable (pf : Platform)

def HandledCache.step (s : HandledCache) : CacheOp → Option HandledCache
  | .add h pxPa pxHa =>
    (xARPCacheAdd pf h s.cache pxPa pxHa).toOption.map fun out => s.after out.1 out.2.1
  | .remove pxPa =>
    (s.cache.step pf (.remove pxPa)).map (s.after ARP_CACHE_INVALID_HANDLE)
  | .removeHandle nCacheHndl =>
    (s.cache.step pf (.removeHandle nCacheHndl)).map (s.after ARP_CACHE_INVALID_HANDLE)
  | .removeAll => (s.cache.step pf .removeAll).map (s.after ARP_CACHE_INVALID_HANDLE)

/-- What is promised of an addition which returns `r` and leaves the cache `c`. The row it fills is
the one which its handle removes, and no other row in use has that handle. -/
structure HandleIdentifies (s : HandledCache) (r : Int) (c : ARPCache) : Prop where
  filled : ∀ i, s.cache.liveAt i = false → c.liveAt i = true → ∃ n : ℕ, r = n ∧
    (∀ j, j ≠ i → s.cache.liveAt j = true → s.nHndls j ≠ some r) ∧
      (xARPCacheRemoveHandle c n).2 = { c with pxRows := c.pxRows.set i .empty }
  full : (∀ i < s.cache.pxRows.length, s.cache.liveAt i = true) →
    r = ARP_CACHE_INVALID_HANDLE ∧ c = s.cache

/-- Every row in use was returned the value 1. -/
structure HandledCache.Inv (s : HandledCache) : Prop where
  rows : s.cache.Inv
  ones : ∀ i, s.cache.liveAt i = true → s.nHndls i = some 1

variable {pf} {c c' : ARPCache} {pa : GPA} {ha : GHA} {rows rows' : List ARPCacheRow} {h h' : Heap}
  {r : Int}

/-! ### Additions -/

/-- An addition with its copies is decided by the rows. -/
theorem CopiesMade.add_eq (hcopies : CopiesMade h pa) (c : ARPCache) (ha : GHA) :
    xARPCacheAdd pf h c pa ha =
      match fillRow (.live ⟨strip 0 pa.pucAddress⟩ ha) c.pxRows with
      | none => .ok (0, c, h.afterCalls 3)
      | some rows => do
        if !pf.ndebug then prvARPCachePrintRow (.live ⟨strip 0 pa.pucAddress⟩ ha)
        return (1, { c with pxRows := rows }, h.afterCalls 3) := by
  have hdup : pxDupGPA h pa true 0 =
      .ok (some ⟨strip 0 pa.pucAddress⟩, h.afterCalls 2) := by
    rcases pxDupGPA_shrink_cases h pa 0 with ⟨hbad, -⟩ | ⟨-, h0, -⟩ | ⟨-, -, hnil, -⟩ |
      ⟨-, -, h1, -⟩ | ⟨-, -, -, hdup⟩
    · have hnil : pa.pucAddress = [] := by simpa [xIsGPAOK, GPA.uxLength] using hbad
      exact absurd (by simp [hnil, strip]) hcopies.bytes
    · exact absurd hcopies.object h0
    · exact absurd hnil hcopies.bytes
    · exact absurd hcopies.address h1
    · exact hdup
  have hha : pxDupGHA (h.afterCalls 2) ha = (some ha, h.afterCalls 3) := by
    simp [pxDupGHA, xIsGHAOK_all, hcopies.hardware.request]
  simp only [xARPCacheAdd, hdup, Exec.ok_bind, hha]
  cases fillRow (.live ⟨strip 0 pa.pucAddress⟩ ha) c.pxRows <;> rfl

/-- Without its copies an addition fails, unless the scan for the filler leaves the address. -/
theorem add_of_not_copiesMade (pf : Platform) (hno : ¬ CopiesMade h pa) (c : ARPCache)
    (ha : GHA) :
    (xIsGPAOK pa = true ∧ strip 0 pa.pucAddress = [] ∧ Granted h 0 ∧
      xARPCacheAdd pf h c pa ha = .error .outOfBounds) ∨
    ∃ k, xARPCacheAdd pf h c pa ha = .ok (ARP_CACHE_INVALID_HANDLE, c, h.afterCalls k) := by
  rcases pxDupGPA_shrink_cases h pa 0 with ⟨-, hdup⟩ | ⟨-, -, hdup⟩ | ⟨hok, h0, hnil, hdup⟩ |
    ⟨-, -, -, hdup⟩ | ⟨h0, hne, h1, hdup⟩
  · exact Or.inr ⟨0, by rw [xARPCacheAdd, hdup]; rfl⟩
  · exact Or.inr ⟨1, by rw [xARPCacheAdd, hdup]; rfl⟩
  · exact Or.inl ⟨hok, hnil, h0, by rw [xARPCacheAdd, hdup]; rfl⟩
  · exact Or.inr ⟨2, by rw [xARPCacheAdd, hdup]; rfl⟩
  · have h2 : ¬ Granted h 2 := fun h2 => hno ⟨hne, h0, h1, h2⟩
    have hha : pxDupGHA (h.afterCalls 2) ha = (none, h.afterCalls 3) := by
      simp [pxDupGHA, xIsGHAOK_all, request_refused h2]
    refine Or.inr ⟨3, ?_⟩
    simp only [xARPCacheAdd, hdup, Exec.ok_bind, hha]
    rfl

/-- What an addition which comes back returns follows from its copies and from the rows. -/
theorem add_outcome (hadd : xARPCacheAdd pf h c pa ha = .ok (r, c', h')) :
    (¬ CopiesMade h pa ∧ r = ARP_CACHE_INVALID_HANDLE ∧ c' = c) ∨
    (CopiesMade h pa ∧ fillRow (.live ⟨strip 0 pa.pucAddress⟩ ha) c.pxRows = none ∧
      r = 0 ∧ c' = c) ∨
    (CopiesMade h pa ∧ r = 1 ∧ ∃ rows,
      fillRow (.live ⟨strip 0 pa.pucAddress⟩ ha) c.pxRows = some rows ∧
        c' = { c with pxRows := rows }) := by
  by_cases hcopies : CopiesMade h pa
  · rw [hcopies.add_eq] at hadd
    cases hfill : fillRow (.live ⟨strip 0 pa.pucAddress⟩ ha) c.pxRows with
    | none =>
      rw [hfill] at hadd
      cases hadd
      exact Or.inr (Or.inl ⟨hcopies, rfl, rfl, rfl⟩)
    | some rows =>
      simp only [hfill] at hadd
      by_cases hd : pf.ndebug = true
      · simp only [hd, Bool.not_true, Bool.false_eq_true, if_false] at hadd
        cases hadd
        exact Or.inr (Or.inr ⟨hcopies, rfl, rows, rfl, rfl⟩)
      · simp only [hd, Bool.not_false, if_true] at hadd
        obtain ⟨_, -, hret⟩ := Exec.bind_eq_ok.mp hadd
        cases hret
        exact Or.inr (Or.inr ⟨hcopies, rfl, rows, rfl, rfl⟩)
  · rcases add_of_not_copiesMade pf hcopies c ha with ⟨-, -, -, herr⟩ | ⟨k, hk⟩
    · rw [herr] at hadd
      cases hadd
    · rw [hk] at hadd
      cases hadd
      exact Or.inl ⟨hcopies, rfl, rfl⟩

/-! ### The rows in use -/

theorem liveAt_of_getElem? {i : ℕ} {row : ARPCacheRow} (hrow : c.pxRows[i]? = some row) :
    c.liveAt i = decide (row.ucValid ≠ 0) := by
  rw [ARPCache.liveAt, hrow]
  rfl

/-- Removals take no row into use. -/
theorem liveAt_removal {op : CacheOp} (hop : ∀ h pa ha, op ≠ .add h pa ha)
    (hstep : c.step pf op = some c') {i : ℕ} (hlive : c'.liveAt i = true) :
    c.liveAt i = true := by
  obtain ⟨row, hrow, hvalid⟩ := (Option.any_eq_true _ _).mp hlive
  rcases getElem?_removal hop hstep hrow with rfl | hsame
  · exact absurd rfl (of_decide_eq_true hvalid)
  · rw [liveAt_of_getElem? hsame]
    exact hvalid

variable {s s' : HandledCache}

theorem HandledCache.Inv.after_add (hs : s.Inv)
    (hadd : xARPCacheAdd pf h s.cache pa ha = .ok (r, c', h')) : (s.after r c').Inv := by
  have hstep : s.cache.step pf (.add h pa ha) = some c' := by rw [ARPCache.step, hadd]; rfl
  refine ⟨hs.rows.step hstep, fun i hlive => ?_⟩
  have hlive' : c'.liveAt i = true := hlive
  by_cases hold : s.cache.liveAt i = true
  · simpa [HandledCache.after, hlive', hold] using hs.ones i hold
  · rcases xARPCacheAdd_cases hadd with ⟨-, rfl⟩ | ⟨rfl, -⟩
    · exact absurd hlive' hold
    · simp [HandledCache.after, hlive', hold]

theorem HandledCache.Inv.after_removal (hs : s.Inv) {op : CacheOp}
    (hop : ∀ h pa ha, op ≠ .add h pa ha) (hstep : s.cache.step pf op = some c') :
    (s.after ARP_CACHE_INVALID_HANDLE c').Inv := by
  refine ⟨hs.rows.step hstep, fun i hlive => ?_⟩
  have hlive' : c'.liveAt i = true := hlive
  have hold := liveAt_removal hop hstep hlive'
  simpa [HandledCache.after, hlive', hold] using hs.ones i hold

theorem HandledCache.Inv.step (hs : s.Inv) {op : CacheOp} (hstep : s.step pf op = some s') :
    s'.Inv := by
  cases op with
  | add h pa ha =>
    obtain ⟨⟨r, c, h'⟩, hadd, rfl⟩ := Exec.toOption_map_eq_some hstep
    exact hs.after_add hadd
  | remove pa =>
    have hremove : s.cache.step pf (.remove pa) = some (xARPCacheRemove s.cache pa).2 := rfl
    cases hstep
    exact hs.after_removal (fun _ _ _ => CacheOp.noConfusion) hremove
  | removeHandle n =>
    have hremove : s.cache.step pf (.removeHandle n) =
      some (xARPCacheRemoveHandle s.cache n).2 := rfl
    cases hstep
    exact hs.after_removal (fun _ _ _ => CacheOp.noConfusion) hremove
  | removeAll =>
    have hremove : s.cache.step pf .removeAll = some (vARPRemoveAll s.cache) := rfl
    cases hstep
    exact hs.after_removal (fun _ _ _ => CacheOp.noConfusion) hremove

/-- A cache without rows in use. -/
def HandledCache.ofNew (c : ARPCache) : HandledCache := ⟨c, fun _ => none⟩

theorem HandledCache.inv_ofNew {h₀ h₁ : Heap} {eType : GHAType} {nEntries : ℕ}
    (hnew : pxARPCacheCreate h₀ eType nEntries = (some c, h₁)) :
    (HandledCache.ofNew c).Inv := by
  refine ⟨ARPCache.inv_create hnew, fun i hlive => ?_⟩
  unfold pxARPCacheCreate at hnew
  split at hnew
  · cases hnew
  · cases hnew
    obtain ⟨row, hrow, hvalid⟩ := (Option.any_eq_true _ _).mp hlive
    obtain rfl := List.eq_of_mem_replicate (List.mem_of_getElem? hrow)
    exact absurd rfl (of_decide_eq_true hvalid)

theorem HandledCache.Inv.run (hs : s.Inv) {ops : List CacheOp}
    (hrun : ops.foldlM (HandledCache.step pf) s = some s') : s'.Inv :=
  foldlM_invariant (fun _ _ _ hinv _ hstep => hinv.step hstep) hs (guardedSteps_true _ _ _) hrun

/-- The row which an addition has filled is not the one which its handle names, unless that one was
filled before with the same handle. -/
theorem HandledCache.Inv.not_identifies (hs : s.Inv) {row : ARPCacheRow}
    (hvalid : row.ucValid ≠ 0) (hfill : fillRow row s.cache.pxRows = some rows) :
    ¬ HandleIdentifies s 1 { s.cache with pxRows := rows } := by
  intro hid
  obtain ⟨own, old, rest, hrows, rfl, hold, hown⟩ := fillRow_eq_some hfill
  have hbefore : s.cache.liveAt own.length = false := by
    have hrow : s.cache.pxRows[own.length]? = some old := by simp [hrows]
    rw [liveAt_of_getElem? hrow]
    simpa using hold
  have hafter : ARPCache.liveAt { s.cache with pxRows := own ++ row :: rest } own.length =
      true := by
    have hrow : (own ++ row :: rest)[own.length]? = some row := by simp
    rw [liveAt_of_getElem? hrow]
    simpa using hvalid
  obtain ⟨n, hn, hother, hremove⟩ := hid.filled own.length hbefore hafter
  have hn1 : n = 1 := by omega
  subst hn1
  by_cases hi : own.length = 1
  · -- The row in front of it is in use and has the same handle.
    obtain ⟨first, rfl⟩ := List.length_eq_one_iff.mp hi
    have hfirst : first.ucValid ≠ 0 := by
      have hmem : first ∈ s.cache.pxRows.takeWhile fun r => r.ucValid ≠ 0 := by
        rw [← hown]
        exact List.mem_singleton_self first
      simpa using List.mem_takeWhile_imp hmem
    have hlive : s.cache.liveAt 0 = true := by
      have hrow : s.cache.pxRows[0]? = some first := by simp [hrows]
      rw [liveAt_of_getElem? hrow]
      simpa using hfirst
    exact hother 0 (by simp) hlive (hs.ones 0 hlive)
  · -- The removal leaves it.
    have hget : row = .empty := by
      have hget := congrArg (fun c : ARPCache => c.pxRows[own.length]?) hremove
      simpa [xARPCacheRemoveHandle, List.getElem?_modify, Ne.symm hi] using hget
    exact hvalid (by rw [hget]; rfl)

/-- In every cache which additions and removals lead to, the handle of an addition keeps its promise
exactly when a copy of an address is not made, so that the addition does not get to the rows. -/
theorem handle_identifies_iff {h₀ h₁ : Heap} {eType : GHAType} {nEntries : ℕ} {c₀ : ARPCache}
    {ops : List CacheOp} (hnew : pxARPCacheCreate h₀ eType nEntries = (some c₀, h₁))
    (hrun : ops.foldlM (HandledCache.step pf) (.ofNew c₀) = some s)
    (hadd : xARPCacheAdd pf h s.cache pa ha = .ok (r, c', h')) :
    HandleIdentifies s r c' ↔ ¬ CopiesMade h pa := by
  have hs : s.Inv := (HandledCache.inv_ofNew hnew).run hrun
  rcases add_outcome hadd with ⟨hno, rfl, rfl⟩ | ⟨hcopies, hfill, rfl, rfl⟩ |
    ⟨hcopies, rfl, rows, hfill, rfl⟩
  · refine iff_of_true ⟨fun i hbefore hafter => ?_, fun _ => ⟨rfl, rfl⟩⟩ hno
    rw [hbefore] at hafter
    cases hafter
  · refine iff_of_false (fun hid => ?_) (not_not_intro hcopies)
    have hfull : ∀ i < s.cache.pxRows.length, s.cache.liveAt i = true := by
      intro i hi
      have hrow := List.getElem?_eq_getElem hi
      rw [liveAt_of_getElem? hrow]
      simpa using fillRow_eq_none hfill _ (List.getElem_mem hi)
    exact absurd (hid.full hfull).1 (by decide)
  · have hvalid : (ARPCacheRow.live ⟨strip 0 pa.pucAddress⟩ ha).ucValid ≠ 0 :=
      (by decide : (1 : UInt8) ≠ 0)
    exact iff_of_false (hs.not_identifies hvalid hfill) (not_not_intro hcopies)

/-- The memory refuses the copy of the hardware address. -/
def refusedArpHeap : Heap := { exampleArpHeap with mallocOk := fun n => n ≠ 2 }

theorem handle_identifies_refused :
    ∃ c₀ h₁ s h', pxARPCacheCreate exampleArpHeap .MAC_ADDR_802_3 2 = (some c₀, h₁) ∧
      [CacheOp.add exampleArpHeap ⟨[65]⟩ (exampleGha 1)].foldlM
        (HandledCache.step ⟨false, false⟩) (.ofNew c₀) = some s ∧
      xARPCacheAdd ⟨false, false⟩ refusedArpHeap s.cache ⟨[66]⟩ (exampleGha 2) =
        .ok (ARP_CACHE_INVALID_HANDLE, s.cache, h') ∧
      HandleIdentifies s ARP_CACHE_INVALID_HANDLE s.cache :=
  have hnew : pxARPCacheCreate exampleArpHeap .MAC_ADDR_802_3 2 = (some _, _) := rfl
  have hrun : [CacheOp.add exampleArpHeap ⟨[65]⟩ (exampleGha 1)].foldlM
    (HandledCache.step ⟨false, false⟩) (.ofNew _) = some _ := rfl
  have hadd : xARPCacheAdd ⟨false, false⟩ refusedArpHeap _ ⟨[66]⟩ (exampleGha 2) =
    .ok (ARP_CACHE_INVALID_HANDLE, _, _) := rfl
  ⟨_, _, _, _, hnew, hrun, hadd, (handle_identifies_iff hnew hrun hadd).mpr fun hcopies =>
    absurd hcopies.hardware (by decide)⟩

/-- Two rows get one handle, it removes the second of them, and a full cache returns another
value than the invalid handle. -/
theorem handle_names_other_row :
    ∃ c₀ h₁ s₁ c₂ s₂ h₂ h₃, pxARPCacheCreate exampleArpHeap .MAC_ADDR_802_3 2 = (some c₀, h₁) ∧
      [CacheOp.add exampleArpHeap ⟨[65]⟩ (exampleGha 1)].foldlM
        (HandledCache.step ⟨false, false⟩) (.ofNew c₀) = some s₁ ∧
      s₁.nHndls 0 = some 1 ∧ s₁.cache.liveAt 0 = true ∧
      xARPCacheAdd ⟨false, false⟩ exampleArpHeap s₁.cache ⟨[66]⟩ (exampleGha 2) =
        .ok (1, c₂, h₂) ∧ ¬ HandleIdentifies s₁ 1 c₂ ∧
      (xARPCacheRemoveHandle s₁.cache 1).2 = s₁.cache ∧
      [CacheOp.add exampleArpHeap ⟨[65]⟩ (exampleGha 1),
        .add exampleArpHeap ⟨[66]⟩ (exampleGha 2)].foldlM
        (HandledCache.step ⟨false, false⟩) (.ofNew c₀) = some s₂ ∧
      xARPCacheAdd ⟨false, false⟩ exampleArpHeap s₂.cache ⟨[67]⟩ (exampleGha 3) =
        .ok (0, s₂.cache, h₃) ∧ (0 : Int) ≠ ARP_CACHE_INVALID_HANDLE := by
  refine ⟨_, _, _, _, _, _, _, rfl, rfl, rfl, rfl, rfl, fun hid => ?_, rfl, rfl, rfl, by decide⟩
  obtain ⟨n, hn, hother, -⟩ := hid.filled 1 rfl rfl
  exact hother 0 (by decide) rfl rfl

end RinaSense.Shim
