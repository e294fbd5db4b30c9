import RinaSense.Library.Tracking
import RinaSense.Shim.ArpObjects
import RinaSense.Shim.Flows

/-!
# Deallocating a flow of a shim

Flows with their addresses as objects in memory, where the flow table has them as values. What
a deallocation leaves is then what it did not release: the addresses of the flow, and the
pointer in the table, which stays there in every later run.
-/

namespace RinaSense.Shim

open Common Library.Memory Library.Runs Library.Tracking

/-- A flow with the pointers to its addresses, which are missing where nothing has set them. -/
structure FlowRecord where
  pxDestHa : Option (Option ℕ)
  pxDestPa : Option (Option ℕ)
  unPort : PortId
  ePortIdState : PortIdState
deriving DecidableEq, Repr

/-- The flow table, the flows and the address objects. -/
structure FlowMemory where
  xFlows : Vector (Option FlowPtr) 256
  flows : FlowPtr → Option FlowRecord
  addrs : AddrHeap

variable (pf : Platform)

namespace FlowMemory

def prvShimFindFlowByPortId (m : FlowMemory) (unPort : PortId) : Exec (Option FlowPtr) :=
  inBounds m.xFlows[unPort.toNat]?

/-- Releasing what is not there is undefined. -/
def vRsMemFree (m : FlowMemory) (xFlow : FlowPtr) : Exec FlowMemory :=
  if (m.flows xFlow).isSome then .ok { m with flows := Function.update m.flows xFlow none }
  else .error .outOfBounds

/-- Neither the addresses nor the table are looked at. -/
def prvShimFlowDestroy (m : FlowMemory) (xFlow : FlowPtr) : Exec (Bool × FlowMemory) := do
  let m ← m.vRsMemFree xFlow
  return (true, m)

/-- The port is read for the log. -/
def prvShimUnbindDestroyFlow (m : FlowMemory) (xFlow : FlowPtr) : Exec (Bool × FlowMemory) := do
  let _ ← inBounds (m.flows xFlow)
  let (destroyed, m) ← m.prvShimFlowDestroy xFlow
  if destroyed then return (false, m)
  return (true, m)

def xShimFlowDeallocate (m : FlowMemory) (xId : PortId) : Exec (Bool × FlowMemory) := do
  rsAssert pf (is_port_id_ok xId)
  match ← m.prvShimFindFlowByPortId xId with
  | none => return (false, m)
  | some p => m.prvShimUnbindDestroyFlow p

end FlowMemory

/-! ### The flows as values -/

/-- The record stands for the flow when its pointers lead to the addresses of the flow. -/
structure FlowRecord.Shows (s : AddrHeap) (r : FlowRecord) (f : ShimFlow) : Prop where
  pxDestHa : Option.Rel (Option.Rel fun a g => s.objs a = some (.gha g)) r.pxDestHa f.pxDestHa
  pxDestPa : Option.Rel (fun a g => ∃ p b rest, a = some p ∧
    s.objs p = some (.gpa g.uxLength (some b)) ∧ s.objs b = some (.bytes (g.pucAddress ++ rest)))
    r.pxDestPa f.pxDestPa
  unPort : r.unPort = f.unPort
  ePortIdState : r.ePortIdState = f.ePortIdState

/-- The objects stand for the data of a shim. -/
structure FlowMemory.Represents (m : FlowMemory) (d : ShimData) : Prop where
  xFlows : m.xFlows = d.xFlows
  flows : ∀ p, Option.Rel (FlowRecord.Shows m.addrs) (m.flows p) (d.flows p)

/-- An object belongs to the addresses of a flow. -/
def FlowRecord.Holds (s : AddrHeap) (r : FlowRecord) (a : ℕ) : Prop :=
  r.pxDestHa = some (some a) ∨
    ∃ p, r.pxDestPa = some (some p) ∧ (a = p ∨ ∃ n, s.objs p = some (.gpa n (some a)))

/-- The flow, its addresses and its entries are gone, and nothing else is. -/
structure FlowMemory.Released (m m' : FlowMemory) (p : FlowPtr) (r : FlowRecord) : Prop where
  flow : m'.flows p = none
  addresses : ∀ a, r.Holds m.addrs a → m'.addrs.objs a = none
  entry : some p ∉ m'.xFlows
  otherFlows : ∀ q ≠ p, m'.flows q = m.flows q
  otherAddresses : ∀ a, ¬ r.Holds m.addrs a → m'.addrs.objs a = m.addrs.objs a
  otherEntries : ∀ i : Fin 256, m.xFlows[i] ≠ some p → m'.xFlows[i] = m.xFlows[i]

/-- The deallocation reports its success, releases the flow, and there is nothing to release
for the second one. -/
def FlowMemory.Deallocates (m : FlowMemory) (xId : PortId) (p : FlowPtr) (r : FlowRecord) : Prop :=
  ∃ m', m.xShimFlowDeallocate pf xId = .ok (true, m') ∧ m.Released m' p r ∧
    m'.xShimFlowDeallocate pf xId = .ok (false, m')

/-- The memory after the release of a flow itself. -/
def FlowMemory.freed (m : FlowMemory) (p : FlowPtr) : FlowMemory :=
  { m with flows := Function.update m.flows p none }

section Release

variable {pf} {m : FlowMemory} {d : ShimData} {xId : PortId} {p : FlowPtr} {r : FlowRecord}

@[simp] theorem FlowMemory.freed_self : (m.freed p).flows p = none := Function.update_self _ _ _

theorem FlowMemory.freed_of_ne {q : FlowPtr} (hq : q ≠ p) : (m.freed p).flows q = m.flows q :=
  Function.update_of_ne hq _ _

/-- A port with a place in the table is none of the invalid ones. -/
theorem portOk_of_entry {entries : Vector (Option FlowPtr) 256} {e : Option FlowPtr}
    (he : entries[xId.toNat]? = some e) : is_port_id_ok xId = true := by
  rw [is_port_id_ok, bne_iff_ne]
  rintro rfl
  have hnone : entries[PORT_ID_WRONG.toNat]? = none :=
    Vector.getElem?_eq_none (by decide : 256 ≤ PORT_ID_WRONG.toNat)
  rw [hnone] at he
  cases he

theorem FlowMemory.unbindDestroy_eq (hr : m.flows p = some r) :
    m.prvShimUnbindDestroyFlow p = .ok (false, m.freed p) := by
  have hsome : (m.flows p).isSome = true := by
    rw [hr]
    rfl
  rw [prvShimUnbindDestroyFlow, prvShimFlowDestroy, vRsMemFree, if_pos hsome, hr]
  rfl

theorem FlowMemory.unbindDestroy_gone (hr : m.flows p = none) :
    m.prvShimUnbindDestroyFlow p = .error .outOfBounds := by
  rw [prvShimUnbindDestroyFlow, hr]
  rfl

theorem FlowMemory.deallocate_eq (hentry : m.xFlows[xId.toNat]? = some (some p)) :
    m.xShimFlowDeallocate pf xId = m.prvShimUnbindDestroyFlow p := by
  rw [xShimFlowDeallocate, portOk_of_entry hentry, rsAssert_true, Exec.ok_bind,
    prvShimFindFlowByPortId, hentry]
  rfl

theorem FlowMemory.Represents.freed (hm : m.Represents d) (p : FlowPtr) :
    (m.freed p).Represents (d.setFlow p none) where
  xFlows := hm.xFlows
  flows q := by
    by_cases hq : q = p
    · subst hq
      rw [FlowMemory.freed_self, ShimData.setFlow_self]
      exact .none
    · rw [FlowMemory.freed_of_ne hq, ShimData.setFlow_of_ne d none hq]
      exact hm.flows q

/-- The deallocation of the flow table, with the objects beside its values. -/
theorem FlowMemory.Represents.xShimFlowDeallocate (hm : m.Represents d) (xId : PortId) :
    Tracks (fun out out' => out.1 = out'.1 ∧ out'.2.Represents out.2)
      (Shim.xShimFlowDeallocate pf d xId) (m.xShimFlowDeallocate pf xId) := by
  rw [Shim.xShimFlowDeallocate, FlowMemory.xShimFlowDeallocate]
  apply (tracks_refl _).bind
  rintro _ _ rfl
  rw [FlowMemory.prvShimFindFlowByPortId, ShimData.prvShimFindFlowByPortId, hm.xFlows]
  apply (tracks_refl _).bind
  rintro found _ rfl
  cases found with
  | none => exact ⟨rfl, hm⟩
  | some p =>
    have hrel := hm.flows p
    cases hrecord : m.flows p with
    | none =>
      rw [hrecord] at hrel
      cases hflow : d.flows p with
      | some f =>
        rw [hflow] at hrel
        cases hrel
      | none =>
        show Tracks _ (d.prvShimUnbindDestroyFlow p) (m.prvShimUnbindDestroyFlow p)
        rw [FlowMemory.unbindDestroy_gone hrecord, ShimData.prvShimUnbindDestroyFlow,
          ShimData.prvShimFlowDestroy, ShimData.flow, hflow]
        exact Eq.refl Trap.outOfBounds
    | some r =>
      rw [hrecord] at hrel
      cases hflow : d.flows p with
      | none =>
        rw [hflow] at hrel
        cases hrel
      | some f =>
        show Tracks _ (d.prvShimUnbindDestroyFlow p) (m.prvShimUnbindDestroyFlow p)
        rw [FlowMemory.unbindDestroy_eq hrecord, ShimData.prvShimUnbindDestroyFlow,
          ShimData.prvShimFlowDestroy, ShimData.flow, hflow]
        exact ⟨rfl, hm.freed p⟩

/-- The flow is released, but this is reported as a failure, its addresses and its entry stay,
and the second deallocation follows the entry to the flow which is gone. -/
theorem deallocate_leaves_entry (hentry : m.xFlows[xId.toNat]? = some (some p))
    (hr : m.flows p = some r) :
    ¬ m.Deallocates pf xId p r ∧
      ∃ m', m.xShimFlowDeallocate pf xId = .ok (false, m') ∧ m'.flows p = none ∧
        (∀ q ≠ p, m'.flows q = m.flows q) ∧ m'.addrs = m.addrs ∧ m'.xFlows = m.xFlows ∧
        m'.xShimFlowDeallocate pf xId = .error .outOfBounds := by
  have hfirst : m.xShimFlowDeallocate pf xId = .ok (false, m.freed p) := by
    rw [FlowMemory.deallocate_eq hentry, FlowMemory.unbindDestroy_eq hr]
  have hsecond : (m.freed p).xShimFlowDeallocate pf xId = .error .outOfBounds := by
    rw [FlowMemory.deallocate_eq (m := m.freed p) hentry,
      FlowMemory.unbindDestroy_gone FlowMemory.freed_self]
  refine ⟨?_, m.freed p, hfirst, FlowMemory.freed_self, fun q => FlowMemory.freed_of_ne, rfl, rfl,
    hsecond⟩
  rintro ⟨m', hok, -, -⟩
  rw [hfirst] at hok
  cases hok

end Release

/-- One flow which is allocated on port 1, with the hardware address of its other end. -/
def exampleFlowMemory : FlowMemory where
  xFlows := (Vector.replicate 256 none).set 1 (some 0)
  flows := fun p => if p = 0 then some ⟨some (some 0), none, 1, .eALLOCATED⟩ else none
  addrs := ⟨exampleArpHeap, fun a =>
    if a = 0 then some (.gha ⟨.MAC_ADDR_802_3, ⟨List.replicate 6 1, rfl⟩⟩) else none⟩

theorem deallocate_leaves_entry_one :
    ¬ exampleFlowMemory.Deallocates ⟨false, false⟩ 1 0 ⟨some (some 0), none, 1, .eALLOCATED⟩ ∧
      ∃ m', exampleFlowMemory.xShimFlowDeallocate ⟨false, false⟩ 1 = .ok (false, m') ∧
        m'.flows 0 = none ∧ (∀ q ≠ 0, m'.flows q = exampleFlowMemory.flows q) ∧
        m'.addrs = exampleFlowMemory.addrs ∧ m'.xFlows = exampleFlowMemory.xFlows ∧
        m'.xShimFlowDeallocate ⟨false, false⟩ 1 = .error .outOfBounds :=
  deallocate_leaves_entry rfl rfl

/-- The address object and the entry are still there, and the result is that of a failure. -/
theorem deallocate_reports_failure :
    ∃ m', exampleFlowMemory.xShimFlowDeallocate ⟨false, false⟩ 1 = .ok (false, m') ∧
      m'.flows 0 = none ∧
      m'.addrs.objs 0 = some (.gha ⟨.MAC_ADDR_802_3, ⟨List.replicate 6 1, rfl⟩⟩) ∧
      m'.xFlows[1]? = some (some 0) ∧
      m'.xShimFlowDeallocate ⟨false, false⟩ 1 = .error .outOfBounds ∧
      ¬ exampleFlowMemory.Deallocates ⟨false, false⟩ 1 0
        ⟨some (some 0), none, 1, .eALLOCATED⟩ := by
  refine ⟨_, rfl, rfl, rfl, rfl, rfl, ?_⟩
  rintro ⟨m', hok, -, -⟩
  cases hok

/-! ### The entry in later runs -/

/-- The table has a flow at the port which was freed. -/
def ShimData.Stale (d : ShimData) (unPort : PortId) : Prop :=
  ∃ p, d.prvShimFindFlowByPortId unPort = .ok (some p) ∧ p < d.brk ∧ d.flows p = none

section Stale

variable {pf} {d d' : ShimData} {unPort : PortId}

theorem flow_gone {p : FlowPtr} (hp : d.flows p = none) : d.flow p = .error .outOfBounds := by
  rw [ShimData.flow, hp]
  rfl

/-- The search for an address reads every flow of the table when it finds none. -/
theorem findByGHA_reads {pxHa : Option GHA} {entries : List (Option FlowPtr)}
    (hfind : d.findByGHA pxHa entries = .ok none) {p : FlowPtr} (hp : some p ∈ entries) :
    d.flows p ≠ none := by
  induction entries with
  | nil => cases hp
  | cons e entries ih =>
    cases e with
    | none =>
      rw [ShimData.findByGHA] at hfind
      exact ih hfind (List.mem_of_ne_of_mem (Option.some_ne_none p) hp)
    | some q =>
      rw [ShimData.findByGHA] at hfind
      obtain ⟨f, hf, hfind⟩ := Exec.bind_eq_ok.mp hfind
      obtain ⟨pxDestHa, -, hfind⟩ := Exec.bind_eq_ok.mp hfind
      split at hfind
      · cases hfind
      · rcases List.mem_cons.mp hp with hpq | hrest
        · cases hpq
          rw [flow_eq_ok.mp hf]
          exact Option.some_ne_none f
        · exact ih hfind hrest

/-- No frame starts a new flow, as the search for its source comes to the flow which is gone. -/
theorem ShimData.Stale.frame_keeps (hs : d.Stale unPort) {h h' : Heap} {pxNbFrame : NbPtr}
    {unReserved : PortId} {pxIpcp : Option (PortId → Bool)} {event : Option (PortId × Option NbPtr)}
    (hf : prvShimHandleRinaFrame pf h d pxNbFrame unReserved pxIpcp = .ok (event, d', h')) :
    d' = d := by
  obtain ⟨p, hentry, -, hgone⟩ := hs
  rw [prvShimHandleRinaFrame, Exec.bind_eq_ok] at hf
  obtain ⟨pxBuf, -, hf⟩ := hf
  obtain ⟨eth, -, hf⟩ := Exec.bind_eq_ok.mp hf
  obtain ⟨b, -, hf⟩ := Exec.bind_eq_ok.mp hf
  obtain ⟨⟨pxSrcHa, h₁⟩, -, hf⟩ := Exec.bind_eq_ok.mp hf
  obtain ⟨found, hfind, hf⟩ := Exec.bind_eq_ok.mp hf
  cases found with
  | some q =>
    obtain ⟨⟨posted, h₂⟩, -, hf⟩ := Exec.bind_eq_ok.mp hf
    cases hf
    rfl
  | none =>
    have hmem : some p ∈ d.xFlows.toList := Vector.mem_toList_iff.mpr (registered_of_find hentry)
    exact absurd hgone (findByGHA_reads hfind hmem)

theorem ShimData.Stale.aside (hs : d.Stale unPort) (ha : Aside d d') : d'.Stale unPort := by
  obtain ⟨p, hentry, hlt, hgone⟩ := hs
  refine ⟨p, ?_, Nat.lt_of_lt_of_le hlt ha.brk, (ha.flows p hlt).trans hgone⟩
  rw [ShimData.prvShimFindFlowByPortId, ha.xFlows]
  exact hentry

theorem ShimData.Stale.setFlow (hs : d.Stale unPort) {q : FlowPtr} {f : Option ShimFlow}
    (hf : f ≠ none → d.flows q ≠ none) : (d.setFlow q f).Stale unPort := by
  obtain ⟨p, hentry, hlt, hgone⟩ := hs
  refine ⟨p, hentry, hlt, ?_⟩
  by_cases hpq : p = q
  · subst hpq
    rw [ShimData.setFlow_self]
    by_contra hsome
    exact hf hsome hgone
  · rw [ShimData.setFlow_of_ne d f hpq]
    exact hgone

theorem ShimData.Stale.step (hs : d.Stale unPort) {op : ShimOp} (hst : d.step pf op = some d') :
    d'.Stale unPort := by
  cases op with
  | request h src dst port queue =>
    obtain ⟨⟨ret, d₁, h'⟩, hr, rfl⟩ := Exec.toOption_map_eq_some hst
    rcases request_cases hr with ⟨p, f, -, -, -, rfl⟩ | ⟨-, haside⟩
    · exact hs
    · exact hs.aside haside
  | response port =>
    obtain ⟨⟨ret, d₁⟩, hr, rfl⟩ := Exec.toOption_map_eq_some hst
    rcases response_cases hr with ⟨-, rfl⟩ | ⟨q, f, g, -, hf, -, -, -, rfl⟩
    · exact hs
    · refine hs.setFlow fun _ => ?_
      rw [hf]
      exact Option.some_ne_none f
  | deallocate xId =>
    obtain ⟨⟨ret, d₁⟩, hd, rfl⟩ := Exec.toOption_map_eq_some hst
    rcases deallocate_cases hd with ⟨-, rfl | ⟨q, -, rfl⟩⟩
    · exact hs
    · exact hs.setFlow fun hne => absurd rfl hne
  | frame h pxNbFrame unReserved pxIpcp =>
    obtain ⟨⟨event, d₁, h'⟩, hf, rfl⟩ := Exec.toOption_map_eq_some hst
    rw [hs.frame_keeps hf]
    exact hs
  | write h port pxDu xNetworkInterfaceOutput =>
    obtain ⟨out, -, rfl⟩ := Exec.toOption_map_eq_some hst
    exact hs
  | setup xARP xPhyDev =>
    cases hst
    exact hs

/-- What is asked of the port then does not come back. -/
theorem ShimData.Stale.lost (hs : d.Stale unPort) :
    xShimFlowDeallocate pf d unPort = .error .outOfBounds ∧
      xShimFlowAllocateResponse pf d unPort = .error .outOfBounds ∧
      ∀ h src dst queue out, xShimFlowAllocateRequest pf h d src dst unPort queue ≠ .ok out := by
  obtain ⟨p, hentry, -, hgone⟩ := hs
  have hflow := flow_gone hgone
  have hat : d.xFlows[unPort.toNat]? = some (some p) := inBounds_eq_ok.mp hentry
  refine ⟨?_, ?_, fun h src dst queue out hok => ?_⟩
  · rw [xShimFlowDeallocate, portOk_of_entry hat, rsAssert_true, Exec.ok_bind, hentry]
    show d.prvShimUnbindDestroyFlow p = _
    rw [ShimData.prvShimUnbindDestroyFlow, ShimData.prvShimFlowDestroy, hflow]
    rfl
  · rw [xShimFlowAllocateResponse, portOk_of_entry hat, rsAssert_true, Exec.ok_bind, hentry]
    show (d.flow p >>= _) = _
    rw [hflow]
    rfl
  · obtain ⟨ret, d', h'⟩ := out
    rcases request_cases hok with ⟨q, f, hfind, hf, -, -⟩ | ⟨hfind, -⟩
    · rw [hentry] at hfind
      cases hfind
      rw [hgone] at hf
      cases hf
    · rw [hentry] at hfind
      cases hfind

/-- A flow which was deallocated at any time in the life of a shim keeps its entry in every
run which follows, so that its port is never used again. -/
theorem deallocated_port_lost {pxNbPool pxEthPool : PoolPtr} {ops rest : List ShimOp}
    (hrun : ops.foldlM (ShimData.step pf) (pxShimWiFiCreate pxNbPool pxEthPool) = some d)
    {p : FlowPtr} (hentry : d.prvShimFindFlowByPortId unPort = .ok (some p))
    (hrest : rest.foldlM (ShimData.step pf) (d.setFlow p none) = some d') :
    xShimFlowDeallocate pf d' unPort = .error .outOfBounds ∧
      xShimFlowAllocateResponse pf d' unPort = .error .outOfBounds ∧
      ∀ h src dst queue out, xShimFlowAllocateRequest pf h d' src dst unPort queue ≠ .ok out := by
  have hinv := (inv_create pxNbPool pxEthPool).run hrun
  have hstale : (d.setFlow p none).Stale unPort :=
    ⟨p, hentry, hinv.entry p (registered_of_find hentry), ShimData.setFlow_self _ _ _⟩
  have hstep : ∀ (d₁ : ShimData) (op : ShimOp) (d₂ : ShimData), d₁.Stale unPort →
      d₁.step pf op = some d₂ → d₂.Stale unPort := fun _ _ _ hs hst => hs.step hst
  exact (foldlM_preserves hstep hstale hrest).lost

end Stale

end RinaSense.Shim
