import RinaSense.Shim.ArpLatest

/-!
# The other addresses of the ARP cache

A call about one protocol address leaves the lookups of every address which does not compare
equal to it, and a removal leaves nothing to find. Rows are compared up to their filler, and
the row which an addition fills was not found before.
-/

namespace RinaSense.Shim

open Common Library.Memory Library.Filler Library.Runs

variable (pf : Platform)

/-- What the two lookups of an address return. The debug checks of one of them take memory, and
it returns at least if there is some. -/
structure ARPCache.Answers (c : ARPCache) (q : GPA) (result : Option GHA) : Prop where
  lookupGHA : pxARPCacheLookupGHA c q = result
  lookupGPA : ∀ h out, eARPCacheLookupGPA pf h c q = .ok out →
    out.1 = lookupOutcome result ∧ out.2.1 = result
  returns : ∀ h, h.MemoryAvailable → ∃ out, eARPCacheLookupGPA pf h c q = .ok out

/-- The call adds or removes the address. -/
def CacheOp.About (p : GPA) : CacheOp → Prop
  | .add _ pxPa _ => pxPa = p
  | .remove pxPa => pxPa = p
  | .removeHandle _ => False
  | .removeAll => False

/-- The call does not add an address which compares equal, unless it fails. -/
def AddsOther (p : GPA) (c : ARPCache) : CacheOp → Prop
  | .add h pxPa pxHa =>
    ∀ out, xARPCacheAdd pf h c pxPa pxHa = .ok out → out.1 = 1 → xGPACmp pxPa p = false
  | .remove _ => True
  | .removeHandle _ => True
  | .removeAll => True

variable {pf} {c c' : ARPCache} {p q : GPA} {rows : List ARPCacheRow}

theorem xGPACmp_comm (p q : GPA) : xGPACmp p q = xGPACmp q p := by
  rw [Bool.eq_iff_iff, xGPACmp_iff, xGPACmp_iff]
  constructor
  · rintro ⟨hp, hq, hkey⟩
    exact ⟨hq, hp, hkey.symm⟩
  · rintro ⟨hq, hp, hkey⟩
    exact ⟨hp, hq, hkey.symm⟩

/-- Nothing is found for an address without bytes. -/
theorem lookupResult_invalid (hok : ¬ xIsGPAOK q = true) (rows : List ARPCacheRow) :
    lookupResult q rows = none := by
  induction rows with
  | nil => rfl
  | cons r rows ih =>
    have hno : ¬ r.Matches q := by
      rintro ⟨-, hany⟩
      obtain ⟨pa, -, hcmp⟩ := (Option.any_eq_true _ _).mp hany
      exact hok ((xIsGPAOK_iff q).mpr ((xGPACmp_iff pa q).mp hcmp).2.1)
    rw [lookupResult_of_not_matches hno, ih]

theorem ARPCache.Inv.answers (hc : c.Inv) (q : GPA) :
    c.Answers pf q (lookupResult q c.pxRows) := by
  constructor
  · by_cases hok : xIsGPAOK q = true
    · simp [pxARPCacheLookupGHA, hok]
    · simp [pxARPCacheLookupGHA, hok, lookupResult_invalid hok]
  · intro h out hout
    exact lookupRows_result hc hout
  · intro h hm
    have hcomplete := fun r hr => (hc r hr).complete
    obtain ⟨k, hk⟩ := eARPCacheLookupGPA_available pf hcomplete q hm
    exact ⟨_, hk⟩

/-- A call about an address spares every other one. -/
theorem CacheOp.About.spares {op : CacheOp} (hop : op.About p) (hpq : xGPACmp p q = false) :
    Spares pf q c op := by
  cases op with
  | add h pa ha =>
    cases hop
    exact fun _ _ _ => hpq
  | remove pa =>
    cases hop
    exact hpq
  | removeHandle n => cases hop
  | removeAll => cases hop

theorem lookupResult_eq_none (h : ∀ r ∈ rows, ¬ r.Matches q) : lookupResult q rows = none := by
  induction rows with
  | nil => rfl
  | cons r rows ih =>
    have hrest := ih fun r' hr' => h r' (List.mem_cons_of_mem r hr')
    rw [lookupResult_of_not_matches (h r List.mem_cons_self), hrest]

theorem not_matches_of_lookupResult (hrows : ∀ r ∈ rows, r.Clean)
    (h : lookupResult q rows = none) : ∀ r ∈ rows, ¬ r.Matches q := by
  induction rows with
  | nil => exact fun r hr => absurd hr List.not_mem_nil
  | cons r rows ih =>
    by_cases hm : r.Matches q
    · obtain ⟨pa, ha, rfl, -⟩ := (hrows r List.mem_cons_self).matches_iff.mp hm
      rw [lookupResult_of_matches hm] at h
      cases h
    · rw [lookupResult_of_not_matches hm] at h
      have hrest := ih (fun r' hr' => hrows r' (List.mem_cons_of_mem r hr')) h
      exact List.forall_mem_cons.mpr ⟨hm, hrest⟩

/-- Removals clear rows where they are. -/
theorem getElem?_removal {op : CacheOp} (hop : ∀ h pa ha, op ≠ .add h pa ha)
    (hstep : c.step pf op = some c') {i : ℕ} {row : ARPCacheRow}
    (hrow : c'.pxRows[i]? = some row) : row = .empty ∨ c.pxRows[i]? = some row := by
  cases op with
  | add h pa ha => exact absurd rfl (hop h pa ha)
  | remove pa =>
    cases hstep
    unfold xARPCacheRemove at hrow
    split at hrow
    · exact Or.inr hrow
    · rw [List.getElem?_map, Option.map_eq_some_iff] at hrow
      obtain ⟨before, hbefore, rfl⟩ := hrow
      split
      · exact Or.inl rfl
      · exact Or.inr hbefore
  | removeHandle n =>
    cases hstep
    rw [xARPCacheRemoveHandle, List.getElem?_modify, Option.map_eq_map,
      Option.map_eq_some_iff] at hrow
    obtain ⟨before, hbefore, rfl⟩ := hrow
    split
    · exact Or.inl rfl
    · exact Or.inr hbefore
  | removeAll =>
    cases hstep
    rw [vARPRemoveAll, List.getElem?_map, Option.map_eq_some_iff] at hrow
    obtain ⟨before, -, rfl⟩ := hrow
    exact Or.inl rfl

/-- Removals only clear rows. -/
theorem mem_step_removal {op : CacheOp} (hop : ∀ h pa ha, op ≠ .add h pa ha)
    (hstep : c.step pf op = some c') : ∀ r' ∈ c'.pxRows, r' ∈ c.pxRows ∨ r' = .empty := by
  intro r' hr'
  obtain ⟨i, hi⟩ := List.mem_iff_getElem?.mp hr'
  rcases getElem?_removal hop hstep hi with hempty | hsame
  · exact Or.inr hempty
  · exact Or.inl (List.mem_of_getElem? hsame)

/-- What is missed stays so until it is added. -/
theorem ARPCache.Inv.missed_step (hc : c.Inv) (hmiss : lookupResult p c.pxRows = none)
    {op : CacheOp} (hother : AddsOther pf p c op) (hstep : c.step pf op = some c') :
    lookupResult p c'.pxRows = none := by
  have hno := not_matches_of_lookupResult hc hmiss
  by_cases hadd : ∀ h pa ha, op ≠ .add h pa ha
  · refine lookupResult_eq_none fun r' hr' => ?_
    rcases mem_step_removal hadd hstep r' hr' with hr | rfl
    · exact hno r' hr
    · exact fun hm => hm.1 rfl
  · push Not at hadd
    obtain ⟨h, pa, ha, rfl⟩ := hadd
    have hspares : Spares pf p c (.add h pa ha) := hother
    rw [hc.lookupResult_step hspares hstep, hmiss]

/-- A removal clears every row which is found. -/
theorem ARPCache.Inv.lookupResult_remove (hc : c.Inv) (p : GPA) :
    lookupResult p (xARPCacheRemove c p).2.pxRows = none := by
  unfold xARPCacheRemove
  split
  · rename_i hbad
    exact lookupResult_invalid (by simpa using hbad) _
  · refine lookupResult_eq_none fun r' hr' => ?_
    obtain ⟨r, hr, rfl⟩ := List.mem_map.mp hr'
    split
    · exact fun hm => hm.1 rfl
    · rename_i hno
      intro hm
      have hvalid : r.ucValid ≠ 0 := fun h0 => hm.1 ((hc r hr).valid.mp h0)
      exact hno ⟨hvalid, hm.2⟩

theorem ARPCache.Inv.missed_run (hc : c.Inv) (hmiss : lookupResult p c.pxRows = none)
    {ops : List CacheOp} (hother : GuardedSteps (ARPCache.step pf) (AddsOther pf p) c ops)
    (hrun : ops.foldlM (ARPCache.step pf) c = some c') :
    c'.Inv ∧ lookupResult p c'.pxRows = none := by
  refine foldlM_invariant (I := fun c => c.Inv ∧ lookupResult p c.pxRows = none) ?_ ⟨hc, hmiss⟩
    hother hrun
  rintro c₁ op c₂ ⟨hinv, hnone⟩ hop hstep
  exact ⟨hinv.step hstep, hinv.missed_step hnone hop hstep⟩

/-- Calls about an address leave what both lookups return for the addresses which do not compare
equal to it. A removed address is not found until one which compares equal is added. -/
theorem cache_frame {h₀ h₁ : Heap} {eType : GHAType} {nEntries : ℕ} {c₀ : ARPCache}
    {ops : List CacheOp} (hnew : pxARPCacheCreate h₀ eType nEntries = (some c₀, h₁))
    (hrun : ops.foldlM (ARPCache.step pf) c₀ = some c) :
    (∀ p op c', op.About p → c.step pf op = some c' → ∀ q, xGPACmp q p = false →
        ∃ result, c.Answers pf q result ∧ c'.Answers pf q result) ∧
      ∀ p rest c', GuardedSteps (ARPCache.step pf) (AddsOther pf p) c (.remove p :: rest) →
        (CacheOp.remove p :: rest).foldlM (ARPCache.step pf) c = some c' →
          c'.Answers pf p none := by
  have hc : c.Inv := (ARPCache.inv_create hnew).run hrun
  constructor
  · intro p op c' hop hstep q hq
    have hspares : Spares pf q c op := hop.spares (by rw [xGPACmp_comm, hq])
    have hsame := hc.lookupResult_step hspares hstep
    refine ⟨lookupResult q c.pxRows, hc.answers q, ?_⟩
    rw [← hsame]
    exact (hc.step hstep).answers q
  · intro p rest c' hguard hrest
    have hstep : c.step pf (.remove p) = some (xARPCacheRemove c p).2 := rfl
    have hremoved : (xARPCacheRemove c p).2.Inv := hc.step hstep
    rw [List.foldlM_cons] at hrest
    obtain ⟨hc', hmiss⟩ := hremoved.missed_run (hc.lookupResult_remove p) hguard.2 hrest
    rw [← hmiss]
    exact hc'.answers p

/-- One address of three bytes is removed from a cache with another one. -/
theorem cache_frame_removed : ∃ c₀ c h₁,
    pxARPCacheCreate exampleArpHeap .MAC_ADDR_802_3 2 = (some c₀, h₁) ∧
      [CacheOp.add exampleArpHeap ⟨[65, 0]⟩ (exampleGha 1),
        .add exampleArpHeap ⟨[66]⟩ (exampleGha 2)].foldlM (ARPCache.step ⟨false, false⟩) c₀ =
          some c ∧
      (∃ result, c.Answers ⟨false, false⟩ ⟨[66]⟩ result ∧
        (xARPCacheRemove c ⟨[65]⟩).2.Answers ⟨false, false⟩ ⟨[66]⟩ result) ∧
      (xARPCacheRemove c ⟨[65]⟩).2.Answers ⟨false, false⟩ ⟨[65]⟩ none :=
  have hnew : pxARPCacheCreate exampleArpHeap .MAC_ADDR_802_3 2 = (some _, _) := rfl
  have hrun : [CacheOp.add exampleArpHeap ⟨[65, 0]⟩ (exampleGha 1),
    .add exampleArpHeap ⟨[66]⟩ (exampleGha 2)].foldlM (ARPCache.step ⟨false, false⟩) _ =
      some _ := rfl
  ⟨_, _, _, hnew, hrun, (cache_frame hnew hrun).1 ⟨[65]⟩ (.remove ⟨[65]⟩) _ rfl rfl ⟨[66]⟩ rfl,
    (cache_frame hnew hrun).2 ⟨[65]⟩ [] _ ⟨trivial, trivial⟩ rfl⟩

end RinaSense.Shim
