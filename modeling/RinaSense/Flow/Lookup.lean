import RinaSense.Flow.Allocator

/-!
# Searches of the flow request table

The three searches of `FlowAllocator.c` for the port of an instance, against what was added
to the table.
-/

namespace RinaSense.Flow

open Common

/-- The handle of a pending request, with the instance that holds it. -/
def prvGetPendingFlowRequest (fa : FlowAllocator) (xPortId : PortId) :
    Option (FaiPtr × FlowAllocateHandle) :=
  (findRow fa xPortId fa.xFlowRequestTable).map fun p => (p, (fa.fais p).pxFlowAllocatorHandle)

/-- The three searches for a port agree on the instance, or on that there is none. -/
structure FindsAt (fa : FlowAllocator) (xPortId : PortId) (found : Option FaiPtr) : Prop where
  faInstance : pxFAFindInstance fa xPortId = found
  handle : pxFAFindFlowHandle fa xPortId =
    found.map fun p => (p, (fa.fais p).pxFlowAllocatorHandle)
  pending : prvGetPendingFlowRequest fa xPortId =
    found.map fun p => (p, (fa.fais p).pxFlowAllocatorHandle)

/-- The instance which was registered for a port. -/
def registered (fa : FlowAllocator) (ps : List FaiPtr) (xPortId : PortId) : Option FaiPtr :=
  ps.find? fun p => (fa.fais p).xPortId = xPortId

/-- Every port is found as it was registered, and no other port is found. -/
def FindsAll (fa : FlowAllocator) (ps : List FaiPtr) : Prop :=
  ∀ xPortId, FindsAt fa xPortId (registered fa ps xPortId)

variable {fa : FlowAllocator} {ps : List FaiPtr}

/-- The other two searches run the loop of the first. -/
theorem findsAt_iff {xPortId : PortId} {found : Option FaiPtr} :
    FindsAt fa xPortId found ↔ pxFAFindInstance fa xPortId = found := by
  refine ⟨fun h => h.faInstance, fun h => ⟨h, ?_, ?_⟩⟩
  · rw [pxFAFindFlowHandle, h]
  · rw [prvGetPendingFlowRequest, ← pxFAFindInstance, h]

theorem prvAddFlowRequestEntry_fais (pxFAI : FaiPtr) :
    (prvAddFlowRequestEntry fa pxFAI).fais = fa.fais := by
  unfold prvAddFlowRequestEntry
  split_ifs <;> rfl

theorem prvAddFlowRequestEntry_table (pxFAI : FaiPtr)
    (hroom : fa.xFlowRequestTable.length < CFG_FLOWS_REQUEST) :
    (prvAddFlowRequestEntry fa pxFAI).xFlowRequestTable = fa.xFlowRequestTable ++ [pxFAI] := by
  rw [prvAddFlowRequestEntry, dif_pos hroom]

/-- Instances which fit are all entered, in their order. -/
theorem foldl_add (hroom : fa.xFlowRequestTable.length + ps.length ≤ CFG_FLOWS_REQUEST) :
    (ps.foldl prvAddFlowRequestEntry fa).xFlowRequestTable = fa.xFlowRequestTable ++ ps ∧
      (ps.foldl prvAddFlowRequestEntry fa).fais = fa.fais := by
  induction ps generalizing fa with
  | nil => simp
  | cons p ps ih =>
    rw [List.length_cons] at hroom
    have htable := prvAddFlowRequestEntry_table p (show fa.xFlowRequestTable.length < _ by omega)
    have hfits : (prvAddFlowRequestEntry fa p).xFlowRequestTable.length + ps.length ≤
        CFG_FLOWS_REQUEST := by
      rw [htable, List.length_append, List.length_singleton]
      omega
    have hrest := ih hfits
    rw [htable, prvAddFlowRequestEntry_fais, List.append_assoc] at hrest
    exact hrest

/-- All searches see the first instance only. -/
theorem pxFAFindInstance_eq {p : FaiPtr} (htable : fa.xFlowRequestTable = p :: ps)
    (xPortId : PortId) :
    pxFAFindInstance fa xPortId = if (fa.fais p).xPortId = xPortId then some p else none := by
  by_cases hp : (fa.fais p).xPortId = xPortId
  · rw [if_pos hp, pxFAFindInstance_eq_some, htable]
    exact ⟨rfl, hp⟩
  · rw [if_neg hp, Option.eq_none_iff_forall_ne_some]
    intro q hq
    obtain ⟨hhead, hport⟩ := pxFAFindInstance_eq_some.mp hq
    rw [htable, List.head?_cons, Option.some.injEq] at hhead
    subst hhead
    exact hp hport

theorem findsAll_iff (htable : fa.xFlowRequestTable = ps)
    (hports : (ps.map fun p => (fa.fais p).xPortId).Nodup) :
    FindsAll fa ps ↔ ps.length ≤ 1 := by
  simp only [FindsAll, findsAt_iff]
  cases ps with
  | nil =>
    refine iff_of_true (fun xPortId => ?_) (Nat.zero_le 1)
    rw [pxFAFindInstance, htable]
    rfl
  | cons p ps =>
    cases ps with
    | nil =>
      refine iff_of_true (fun xPortId => ?_) le_rfl
      rw [pxFAFindInstance_eq htable, registered]
      by_cases hp : (fa.fais p).xPortId = xPortId <;> simp [hp]
    | cons q ps =>
      -- the second instance is registered, but the search for its port ends with nothing
      refine iff_of_false (fun h => ?_) (by simp)
      have hne : (fa.fais p).xPortId ≠ (fa.fais q).xPortId := by
        simp only [List.map_cons, List.nodup_cons, List.mem_cons, not_or] at hports
        exact hports.1.1
      have hq := h (fa.fais q).xPortId
      rw [pxFAFindInstance_eq htable, if_neg hne, registered] at hq
      simp [hne] at hq

/-- Whatever instances with different ports are added to an empty table for as many as it
has rows, the three searches find each of the ports as it was registered and no other if and
only if at most one instance was added. -/
theorem added_found_iff (hempty : fa.xFlowRequestTable = [])
    (hroom : ps.length ≤ CFG_FLOWS_REQUEST)
    (hports : (ps.map fun p => (fa.fais p).xPortId).Nodup) :
    FindsAll (ps.foldl prvAddFlowRequestEntry fa) ps ↔ ps.length ≤ 1 := by
  have hfits : fa.xFlowRequestTable.length + ps.length ≤ CFG_FLOWS_REQUEST := by
    simpa [hempty] using hroom
  have hadd := foldl_add hfits
  rw [hempty, List.nil_append] at hadd
  refine findsAll_iff hadd.1 ?_
  rw [hadd.2]
  exact hports

/-- An allocator without requests and an instance for each port. -/
def portPerInstance : FlowAllocator where
  xFlowRequestTable := []
  fais p := ⟨p.toUInt32, .eFAI_NONE, ⟨100, p.toUInt32, [], 0⟩⟩
  bounded := Nat.zero_le _

/-- One instance, for port 7. -/
theorem added_found_one :
    FindsAll ([7].foldl prvAddFlowRequestEntry portPerInstance) [7] :=
  (added_found_iff rfl (by decide) (by decide)).mpr le_rfl

/-- Of the instances for ports 7 and 8 the one for port 8 is not found. -/
theorem second_not_found :
    registered portPerInstance [7, 8] 8 = some 8 ∧
      pxFAFindInstance ([7, 8].foldl prvAddFlowRequestEntry portPerInstance) 8 = none ∧
      ¬ FindsAll ([7, 8].foldl prvAddFlowRequestEntry portPerInstance) [7, 8] :=
  ⟨rfl, by decide, fun h => absurd (h 8).faInstance (by decide)⟩

end RinaSense.Flow
