import RinaSense.Common.Release
import RinaSense.Library.Tracking
import RinaSense.Shim.PortTable
import RinaSense.Shim.ArpBounds
import RinaSense.Shim.Demux

/-!
# Frames which start a flow

The handling of a RINA frame with the ports of the IPC manager. A frame from a new source starts
a flow in four steps, for its address, its memory, its port and its binding, and what was done
before a step which fails stays as it is. The frame itself is neither released here nor by the
caller, for whom it is consumed.
-/

namespace RinaSense.Shim

open Common Library.Memory Library.Runs Library.Tracking
open RinaSense.Flow (MAX_PORT_ID maxPort_small)

variable (pf : Platform)

/-- A frame with a RINA PDU. The port is reserved, with the rounds it may take, when there is
memory for the flow. -/
def prvShimHandleRinaFrameReserving (fuel : ℕ) (h : Heap) (d : ShimData) (pxPidm : NumMgr)
    (pxNbFrame : NbPtr) (pxIpcp : Option (PortId → Bool)) :
    Exec (Option (PortId × Option NbPtr) × ShimData × NumMgr × Heap) := do
  let eth ← deref (← pvNetBufPtr pf h pxNbFrame)
  let b ← inBounds (h.mem eth.block)
  let (pxSrcHa, h) ← pxCreateGHA h .MAC_ADDR_802_3 b (eth.off + 6)
  match ← d.prvShimFindFlowByGHA pxSrcHa with
  | some p => do
    let (event, h) ← postRinaFrame pf h d pxNbFrame p
    return (event, d, pxPidm, h)
  | none =>
    match requestMemory h with
    | (false, h) => return (none, d, pxPidm, h)
    | (true, h) =>
      match unIpcManagerReservePort fuel pxPidm with
      | none => .error .endless
      | some (unPort, pxPidm) => do
        let p := d.brk
        let d ← (d.addFlow ⟨some pxSrcHa, none, unPort, .eALLOCATED⟩).setEntry unPort p
        let bound ← bindNewFlow pf pxIpcp unPort
        if !bound then return (none, d, pxPidm, h)
        let (event, h) ← postRinaFrame pf h d pxNbFrame p
        return (event, d, pxPidm, h)

/-- There is no flow to the source of the frame. -/
def StartsFlow (h : Heap) (d : ShimData) (pxNbFrame : NbPtr) : Prop :=
  ∃ eth b pxSrcHa h', pvNetBufPtr pf h pxNbFrame = .ok (some eth) ∧ h.mem eth.block = some b ∧
    pxCreateGHA h .MAC_ADDR_802_3 b (eth.off + 6) = .ok (pxSrcHa, h') ∧
    d.prvShimFindFlowByGHA pxSrcHa = .ok none

/-- A step of the set-up fails: there is no memory for the address or for the flow, no port is
left, or no normal IPC process binds the port which is reserved. -/
def SetupFails (h : Heap) (pxPidm : NumMgr) (pxIpcp : Option (PortId → Bool)) : Prop :=
  ¬ Granted h 0 ∨ ¬ Granted h 1 ∨ pxPidm.OthersTaken MAX_PORT_ID ∨
    ∀ fuel unPort pxPidm', unIpcManagerReservePort fuel pxPidm = some (unPort, pxPidm') →
      ∀ flowBindingIpcp ∈ pxIpcp, flowBindingIpcp unPort = false

/-- The frame is handled, the table and the reserved ports are as before, and the frame, whose
netbufs are those of the list, is released. -/
def LeavesNoTrace (h : Heap) (d : ShimData) (pxPidm : NumMgr) (pxNbFrame : NbPtr)
    (pxIpcp : Option (PortId → Bool)) (l : List NbPtr) : Prop :=
  ∃ fuel event d' pxPidm' h',
    prvShimHandleRinaFrameReserving pf fuel h d pxPidm pxNbFrame pxIpcp =
      .ok (event, d', pxPidm', h') ∧
    d'.xFlows = d.xFlows ∧
    (∀ k, xNumMgrIsAllocated pxPidm' k = xNumMgrIsAllocated pxPidm k) ∧ Gone pf h h' l

section Setup

variable {pf} {h h' : Heap} {d d' : ShimData} {pxPidm pxPidm' : NumMgr} {pxNbFrame : NbPtr}
  {pxIpcp : Option (PortId → Bool)} {event : Option (PortId × Option NbPtr)} {fuel : ℕ}

/-- Beside the number manager this is the handling with the port which is reserved. -/
theorem handleRinaFrame_reserved {unPort : PortId}
    (hport : unIpcManagerReservePort fuel pxPidm = some (unPort, pxPidm')) :
    Tracks (fun out out' => out = (out'.1, out'.2.1, out'.2.2.2))
      (prvShimHandleRinaFrame pf h d pxNbFrame unPort pxIpcp)
      (prvShimHandleRinaFrameReserving pf fuel h d pxPidm pxNbFrame pxIpcp) := by
  rw [prvShimHandleRinaFrame, prvShimHandleRinaFrameReserving]
  apply (tracks_refl _).bind
  rintro pxBuf _ rfl
  apply (tracks_refl _).bind
  rintro eth _ rfl
  apply (tracks_refl _).bind
  rintro b _ rfl
  apply (tracks_refl _).bind
  rintro ⟨pxSrcHa, h₁⟩ _ rfl
  apply (tracks_refl _).bind
  rintro found _ rfl
  cases found with
  | some p =>
    apply (tracks_refl _).bind
    rintro posted _ rfl
    exact Eq.refl _
  | none =>
    cases hm : requestMemory h₁ with
    | mk granted h₂ =>
      cases granted with
      | false =>
        simp only [ShimData.pvRsMemAllocFlow, hm]
        exact Eq.refl _
      | true =>
        simp only [ShimData.pvRsMemAllocFlow, hm, hport]
        apply (tracks_refl _).bind
        rintro d₁ _ rfl
        apply (tracks_refl _).bind
        rintro bound _ rfl
        cases bound with
        | false => exact Eq.refl _
        | true =>
          apply (tracks_refl _).bind
          rintro posted _ rfl
          exact Eq.refl _

/-- The table has the new flow at the port which was reserved for it. -/
def EntersFlow (fuel : ℕ) (d d' : ShimData) (pxPidm pxPidm' : NumMgr) (unPort : PortId) : Prop :=
  unIpcManagerReservePort fuel pxPidm = some (unPort, pxPidm') ∧
    ∃ hp : unPort.toNat < 256, d'.xFlows = d.xFlows.set unPort.toNat (some d.brk)

/-- A frame which starts a flow enters it, unless there is no memory for it, and is posted when
the flow is bound. Otherwise it stays in memory. -/
theorem handleRinaFrame_cases (hs : StartsFlow pf h d pxNbFrame)
    (hf : prvShimHandleRinaFrameReserving pf fuel h d pxPidm pxNbFrame pxIpcp =
      .ok (event, d', pxPidm', h')) :
    (event = none ∧ h'.netbufs = h.netbufs ∧ ¬ Granted h 1 ∧ d' = d ∧ pxPidm' = pxPidm) ∨
      (Granted h 1 ∧ ∃ unPort, EntersFlow fuel d d' pxPidm pxPidm' unPort ∧
        ((event = none ∧ h'.netbufs = h.netbufs ∧ bindNewFlow pf pxIpcp unPort = .ok false) ∨
          bindNewFlow pf pxIpcp unPort = .ok true)) := by
  obtain ⟨eth, b, pxSrcHa, h₁, hptr, hb, hgha, hfind⟩ := hs
  have hh₁ : h₁ = h.afterCalls 1 := by
    rcases pxCreateGHA_cases h b (eth.off + 6) with ⟨-, hrun⟩ | ⟨-, -, hrun⟩ | ⟨-, -, m, -, hrun⟩
    · rw [hrun] at hgha
      cases hgha
      rfl
    · rw [hrun] at hgha
      cases hgha
    · rw [hrun] at hgha
      cases hgha
      rfl
  rw [prvShimHandleRinaFrameReserving, hptr, Exec.ok_bind, deref_some, Exec.ok_bind, hb,
    inBounds_some, Exec.ok_bind, hgha, Exec.ok_bind] at hf
  obtain ⟨found, hfound, hf⟩ := Exec.bind_eq_ok.mp hf
  rw [hfind] at hfound
  cases hfound
  subst hh₁
  by_cases hg : Granted h 1
  · have hreq : requestMemory (h.afterCalls 1) = (true, h.afterCalls 2) := hg.request
    simp only [hreq] at hf
    cases hport : unIpcManagerReservePort fuel pxPidm with
    | none =>
      rw [hport] at hf
      cases hf
    | some out =>
      obtain ⟨unPort, pxPidm₁⟩ := out
      simp only [hport] at hf
      obtain ⟨d₁, hentry, hf⟩ := Exec.bind_eq_ok.mp hf
      obtain ⟨bound, hbound, hf⟩ := Exec.bind_eq_ok.mp hf
      have hp : unPort.toNat < 256 := by
        by_contra hp
        rw [setEntry_outside _ _ hp] at hentry
        cases hentry
      rw [ShimData.setEntry, dif_pos hp] at hentry
      cases hentry
      refine .inr ⟨hg, unPort, ?_⟩
      cases bound with
      | false =>
        cases hf
        exact ⟨⟨hport, hp, rfl⟩, .inl ⟨rfl, rfl, hbound⟩⟩
      | true =>
        obtain ⟨⟨posted, h₂⟩, -, hf⟩ := Exec.bind_eq_ok.mp hf
        cases hf
        exact ⟨⟨hport, hp, rfl⟩, .inr hbound⟩
  · have hreq : requestMemory (h.afterCalls 1) = (false, h.afterCalls 2) := request_refused hg
    simp only [hreq] at hf
    cases hf
    exact .inl ⟨rfl, rfl, hg, rfl, rfl⟩

theorem StartsFlow.netbuf (hs : StartsFlow pf h d pxNbFrame) : h.netbufs pxNbFrame ≠ none := by
  obtain ⟨eth, -, -, -, hptr, -⟩ := hs
  intro hnone
  rw [pvNetBufPtr, Heap.netbuf, hnone] at hptr
  cases hptr

/-- A port with a place in the table was free before it was reserved. -/
theorem EntersFlow.reserves (hi : pxPidm.Inv MAX_PORT_ID) {unPort : PortId}
    (he : EntersFlow fuel d d' pxPidm pxPidm' unPort) :
    ¬ pxPidm.OthersTaken MAX_PORT_ID ∧ xNumMgrIsAllocated pxPidm unPort = false ∧
      xNumMgrIsAllocated pxPidm' unPort = true := by
  obtain ⟨hport, hp, -⟩ := he
  refine hi.hands_out maxPort_small (by decide) hport ?_
  rintro rfl
  exact absurd hp (by decide)

/-- What is bound was not refused. -/
theorem not_bound_of_refused {unPort : PortId}
    (hrefuse : ∀ flowBindingIpcp ∈ pxIpcp, flowBindingIpcp unPort = false) :
    bindNewFlow pf pxIpcp unPort ≠ .ok true := by
  intro hbound
  rw [bindNewFlow] at hbound
  obtain ⟨-, -, hbound⟩ := Exec.bind_eq_ok.mp hbound
  cases hipcp : pxIpcp with
  | none =>
    rw [hipcp, ite_self] at hbound
    cases hbound
  | some flowBindingIpcp =>
    have hfalse := hrefuse flowBindingIpcp hipcp
    rw [hipcp] at hbound
    split_ifs at hbound
    · cases hbound
    · cases hbound.symm.trans (congrArg Except.ok hfalse)

theorem StartsFlow.leaves_trace (hs : StartsFlow pf h d pxNbFrame) (hi : pxPidm.Inv MAX_PORT_ID)
    {l : List NbPtr} (hl : pxNbFrame ∈ l) : ¬ LeavesNoTrace pf h d pxPidm pxNbFrame pxIpcp l := by
  rintro ⟨fuel, event, d', pxPidm', h', hf, -, hports, hgone⟩
  rcases handleRinaFrame_cases hs hf with ⟨-, hkept, -⟩ | ⟨-, unPort, henters, -⟩
  · have hnone := hgone.gone pxNbFrame hl
    rw [hkept] at hnone
    exact hs.netbuf hnone
  · obtain ⟨-, hfree, htaken⟩ := henters.reserves hi
    rw [hports, hfree] at htaken
    cases htaken

/-- A frame whose flow cannot be set up always leaves a trace. Unless only its address is
missing it is not posted but stays in memory, and where there was memory for the flow, the table
has the flow and its port is reserved. -/
theorem failed_setup_leaves_trace {memory : Bool × Bool} {im₀ : NumMgr}
    (hnew : pxNumMgrCreate MAX_PORT_ID memory = some im₀) {ops : List NumMgrOp}
    (hrun : ops.foldlM NumMgr.step im₀ = some pxPidm) (hs : StartsFlow pf h d pxNbFrame)
    (hfail : SetupFails h pxPidm pxIpcp) {l : List NbPtr} (hl : pxNbFrame ∈ l) :
    ¬ LeavesNoTrace pf h d pxPidm pxNbFrame pxIpcp l ∧
      ∀ fuel event d' pxPidm' h',
        prvShimHandleRinaFrameReserving pf fuel h d pxPidm pxNbFrame pxIpcp =
          .ok (event, d', pxPidm', h') →
        (Granted h 0 → event = none ∧ h'.netbufs = h.netbufs) ∧
          (Granted h 1 → ∃ unPort, EntersFlow fuel d d' pxPidm pxPidm' unPort ∧
            xNumMgrIsAllocated pxPidm unPort = false ∧
            xNumMgrIsAllocated pxPidm' unPort = true) := by
  have hi : pxPidm.Inv MAX_PORT_ID := foldlM_preserves
    (fun _ _ _ hi hst => hi.step (by decide) hst) (inv_init (pxNumMgrCreate_init hnew)) hrun
  refine ⟨hs.leaves_trace hi hl, fun fuel event d' pxPidm' h' hf => ?_⟩
  rcases handleRinaFrame_cases hs hf with ⟨hevent, hkept, hno, -⟩ | ⟨hg, unPort, henters, hbind⟩
  · exact ⟨fun _ => ⟨hevent, hkept⟩, fun hg => absurd hg hno⟩
  · obtain ⟨hothers, hfree, htaken⟩ := henters.reserves hi
    refine ⟨fun h0 => ?_, fun _ => ⟨unPort, henters, hfree, htaken⟩⟩
    rcases hbind with ⟨hevent, hkept, -⟩ | hbound
    · exact ⟨hevent, hkept⟩
    · rcases hfail with hno | hno | hexhausted | hrefuse
      · exact absurd h0 hno
      · exact absurd hg hno
      · exact absurd hexhausted hothers
      · exact absurd hbound (not_bound_of_refused (hrefuse fuel unPort pxPidm' henters.1))

end Setup

/-- A frame from a new source, whose flow the normal IPC process does not bind. -/
theorem failed_setup_leaves_trace_refused :
    ∃ im₀, pxNumMgrCreate MAX_PORT_ID (true, true) = some im₀ ∧
      ¬ LeavesNoTrace ⟨false, false⟩ (frameHeap 1) (pxShimWiFiCreate 0 1) im₀ 1
        (some fun _ => false) [1, 2] :=
  ⟨_, rfl, (failed_setup_leaves_trace
    (show pxNumMgrCreate MAX_PORT_ID (true, true) = some _ from rfl)
    (show ([] : List NumMgrOp).foldlM NumMgr.step _ = some _ from rfl)
    ⟨_, _, _, _, rfl, rfl, rfl, rfl⟩
    (.inr (.inr (.inr fun _ _ _ _ _ hb => by
      cases hb
      rfl)))
    List.mem_cons_self).1⟩

/-- The frame is not released, the table has an entry for a flow which is not bound, and its
port is reserved. -/
theorem refused_flow_stays :
    ∃ im₀ d' im' h', pxNumMgrCreate MAX_PORT_ID (true, true) = some im₀ ∧
      SetupFails (frameHeap 1) im₀ (some fun _ => false) ∧
      prvShimHandleRinaFrameReserving ⟨false, false⟩ 1 (frameHeap 1) (pxShimWiFiCreate 0 1) im₀ 1
        (some fun _ => false) = .ok (none, d', im', h') ∧
      d'.prvShimFindFlowByPortId 1 = .ok (some 0) ∧
      (pxShimWiFiCreate 0 1).prvShimFindFlowByPortId 1 = .ok none ∧
      xNumMgrIsAllocated im₀ 1 = false ∧ xNumMgrIsAllocated im' 1 = true ∧
      h'.netbufs = (frameHeap 1).netbufs ∧
      ¬ LeavesNoTrace ⟨false, false⟩ (frameHeap 1) (pxShimWiFiCreate 0 1) im₀ 1
        (some fun _ => false) [1, 2] := by
  refine ⟨_, _, _, _, rfl, .inr (.inr (.inr fun _ _ _ _ _ hb => ?_)), rfl, rfl, rfl, rfl, rfl, rfl,
    ?_⟩
  · cases hb
    rfl
  · have hs : StartsFlow ⟨false, false⟩ (frameHeap 1) (pxShimWiFiCreate 0 1) 1 :=
      ⟨_, _, _, _, rfl, rfl, rfl, rfl⟩
    exact hs.leaves_trace (inv_init (show xNumMgrInit MAX_PORT_ID true = some _ from rfl))
      List.mem_cons_self

end RinaSense.Shim
