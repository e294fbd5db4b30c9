import RinaSense.Common.NextNumber
import RinaSense.Flow.Traces
import RinaSense.Shim.Flows

/-!
# Ports and the flow table

The IPC manager hands out ports up to `MAX_PORT_ID`, or an invalid one when it has none, and the
shim takes a port as a position in its table, which has 256 places. Which ports it is given is
known from the state of the number manager.
-/

namespace RinaSense.Shim

open Common Library.Memory Library.Runs
open RinaSense.Flow (MAX_PORT_ID maxPort_small)

/-- That there is no port left is only logged. -/
def unIpcManagerReservePort (fuel : ℕ) (pxPidm : NumMgr) : Option (PortId × NumMgr) :=
  ulNumMgrAllocate fuel pxPidm

/-- The calls of the shim which take a port to the table. -/
inductive PortUse
  | frame
  | request
  | response
  | deallocate
  | write
deriving DecidableEq, Repr

variable (pf : Platform)

/-- What a call does with its port up to the access to the table. A frame enters its flow `p`
there, the others look for one, and some check the port first. -/
def PortUse.access (d : ShimData) (p : FlowPtr) (unPort : PortId) : PortUse → Exec Unit
  | .frame => do
    let _ ← d.setEntry unPort p
    return ()
  | .write => do
    let _ ← d.prvShimFindFlowByPortId unPort
    return ()
  | .request | .response | .deallocate => do
    rsAssert pf (is_port_id_ok unPort)
    let _ ← d.prvShimFindFlowByPortId unPort
    return ()

/-- A call stays in the table with its port, or rejects it before. -/
def PortUse.Fits (unPort : PortId) (use : PortUse) : Prop :=
  ∀ (d : ShimData) (p : FlowPtr), use.access pf d p unPort ≠ .error .outOfBounds

def PortFits (unPort : PortId) : Prop := ∀ use : PortUse, use.Fits pf unPort

/-- The calls which check their port. -/
def PortUse.checks : PortUse → Bool
  | .frame | .write => false
  | .request | .response | .deallocate => true

section Table

variable {pf} {d d' : ShimData} {p : FlowPtr} {unPort : PortId} {h : Heap}

theorem find_inside (d : ShimData) (hp : unPort.toNat < 256) :
    d.prvShimFindFlowByPortId unPort = .ok d.xFlows[unPort.toNat] := by
  rw [ShimData.prvShimFindFlowByPortId, Vector.getElem?_eq_getElem hp, inBounds_some]

theorem find_outside (d : ShimData) (hp : ¬ unPort.toNat < 256) :
    d.prvShimFindFlowByPortId unPort = .error .outOfBounds := by
  rw [ShimData.prvShimFindFlowByPortId, Vector.getElem?_eq_none (Nat.le_of_not_lt hp)]
  rfl

theorem setEntry_outside (d : ShimData) (p : FlowPtr) (hp : ¬ unPort.toNat < 256) :
    d.setEntry unPort p = .error .outOfBounds := by
  rw [ShimData.setEntry, dif_neg hp]

theorem access_checked {use : PortUse} (hu : use.checks = true) :
    use.access pf d p unPort = (do
      rsAssert pf (is_port_id_ok unPort)
      let _ ← d.prvShimFindFlowByPortId unPort
      return ()) := by
  cases use with
  | frame => cases hu
  | write => cases hu
  | request => rfl
  | response => rfl
  | deallocate => rfl

theorem access_inside (hp : unPort.toNat < 256) (use : PortUse) : use.Fits pf unPort := by
  intro d p
  have hfind := find_inside d hp
  have hset : d.setEntry unPort p =
      .ok { d with xFlows := d.xFlows.set unPort.toNat (some p) } := dif_pos hp
  cases hu : use.checks with
  | true =>
    rw [access_checked hu, hfind, rsAssert]
    split_ifs <;> simp
  | false =>
    cases use with
    | frame =>
      rw [PortUse.access, hset]
      simp
    | write =>
      rw [PortUse.access, hfind]
      simp
    | request => cases hu
    | response => cases hu
    | deallocate => cases hu

/-- Outside the table only a check which fails comes before the access. -/
theorem access_outside (hp : ¬ unPort.toNat < 256) (use : PortUse) :
    use.Fits pf unPort ↔ use.checks = true ∧ pf.ndebug = false ∧ unPort = PORT_ID_WRONG := by
  cases hu : use.checks with
  | true =>
    have hstop : use.Fits pf unPort ↔ ¬ (pf.ndebug || is_port_id_ok unPort) = true := by
      constructor
      · intro hfits hok
        refine hfits (pxShimWiFiCreate 0 0) 0 ?_
        rw [access_checked hu, find_outside _ hp, rsAssert, if_pos hok]
        rfl
      · intro hbad d p
        rw [access_checked hu, rsAssert, if_neg hbad]
        simp
    rw [hstop]
    simp [is_port_id_ok]
  | false =>
    refine iff_of_false (fun hfits => hfits (pxShimWiFiCreate 0 0) 0 ?_) (by simp)
    cases use with
    | frame =>
      rw [PortUse.access, setEntry_outside _ _ hp]
      rfl
    | write =>
      rw [PortUse.access, find_outside _ hp]
      rfl
    | request => cases hu
    | response => cases hu
    | deallocate => cases hu

/-- The result of an exhausted IPC manager is only stopped by the checks of a debug build. -/
theorem exhausted_fits_iff (use : PortUse) :
    use.Fits pf PORT_ID_WRONG ↔ use.checks = true ∧ pf.ndebug = false := by
  rw [access_outside (by decide)]
  simp

theorem portFits_iff : PortFits pf unPort ↔ unPort.toNat < 256 := by
  constructor
  · intro hfits
    by_contra hp
    have hchecks := ((access_outside hp .frame).mp (hfits .frame)).1
    cases hchecks
  · exact fun hp => access_inside hp

/-! ### The calls -/

/-- A call which checks its port comes back only if it has found its place in the table. -/
theorem checked_outside {α : Type} (hp : ¬ unPort.toNat < 256) (rest : Option FlowPtr → Exec α)
    (out : α) :
    (do
      rsAssert pf (is_port_id_ok unPort)
      let found ← d.prvShimFindFlowByPortId unPort
      rest found) ≠ .ok out := by
  rw [find_outside d hp, rsAssert]
  split_ifs
  · exact fun hout => by cases hout
  · exact fun hout => by cases hout

theorem request_outside (hp : ¬ unPort.toNat < 256) (src dst : Name) (queue : Bool) :
    d.step pf (.request h src dst unPort queue) = none := by
  rw [Option.eq_none_iff_forall_ne_some]
  intro d' hst
  obtain ⟨⟨ret, d₁, h'⟩, hr, -⟩ := Exec.toOption_map_eq_some hst
  rcases request_cases hr with ⟨q, f, hfind, -, -, -⟩ | ⟨hfind, -⟩
  · rw [find_outside d hp] at hfind
    cases hfind
  · rw [find_outside d hp] at hfind
    cases hfind

theorem response_outside (hp : ¬ unPort.toNat < 256) : d.step pf (.response unPort) = none := by
  rw [Option.eq_none_iff_forall_ne_some]
  intro d' hst
  obtain ⟨out, hr, -⟩ := Exec.toOption_map_eq_some hst
  exact checked_outside hp _ out hr

theorem deallocate_outside (hp : ¬ unPort.toNat < 256) :
    d.step pf (.deallocate unPort) = none := by
  rw [Option.eq_none_iff_forall_ne_some]
  intro d' hst
  obtain ⟨out, hr, -⟩ := Exec.toOption_map_eq_some hst
  exact checked_outside hp _ out hr

/-- A data unit which is not too long is looked up without a check. -/
theorem write_outside (hp : ¬ unPort.toNat < 256) {pxDu : NbPtr} {n : ℕ}
    (hlen : unNetBufTotalSize h pxDu = .ok n) (hn : n ≤ MTU)
    (driver : Heap → NbPtr → Exec (Bool × Heap)) :
    xShimSDUWrite pf h d unPort pxDu driver = .error .outOfBounds := by
  rw [xShimSDUWrite, hlen, Exec.ok_bind, if_neg (Nat.not_lt.mpr hn), find_outside d hp]
  rfl

/-- A frame which comes back has not started a flow. -/
theorem frame_outside (hp : ¬ unPort.toNat < 256) {pxNbFrame : NbPtr}
    {pxIpcp : Option (PortId → Bool)}
    (hst : d.step pf (.frame h pxNbFrame unPort pxIpcp) = some d') : d' = d := by
  obtain ⟨⟨event, d₁, h'⟩, hf, rfl⟩ := Exec.toOption_map_eq_some hst
  rcases frame_cases hf with rfl | ⟨f, hin, rfl, -, -⟩
  · rfl
  · exact absurd hin hp

end Table

/-! ### The ports of the IPC manager -/

/-- In every state of the IPC manager, a port which it reserves fits the table exactly when its
search comes to a free port below 256 before it comes to any other. -/
theorem port_fits_iff {memory : Bool × Bool} {im₀ im im' : NumMgr}
    (hnew : pxNumMgrCreate MAX_PORT_ID memory = some im₀) {ops : List NumMgrOp}
    (hrun : ops.foldlM NumMgr.step im₀ = some im) {fuel : ℕ} {unPort : PortId}
    (hport : unIpcManagerReservePort fuel im = some (unPort, im')) :
    PortFits pf unPort ↔ im.MeetsBelow MAX_PORT_ID 256 := by
  have hinv : im.Inv MAX_PORT_ID := foldlM_preserves
    (fun _ _ _ hi hst => hi.step (by decide) hst) (inv_init (pxNumMgrCreate_init hnew)) hrun
  rw [portFits_iff]
  exact hinv.allocate_below_iff maxPort_small (by decide) (by decide) hport

/-- The first port of a new IPC manager. -/
theorem port_fits_first :
    ∃ im₀ im', pxNumMgrCreate MAX_PORT_ID (true, true) = some im₀ ∧
      unIpcManagerReservePort 1 im₀ = some (1, im') ∧
      (PortFits ⟨false, false⟩ 1 ↔ im₀.MeetsBelow MAX_PORT_ID 256) :=
  ⟨_, _, rfl, rfl, port_fits_iff ⟨false, false⟩
    (show pxNumMgrCreate MAX_PORT_ID (true, true) = some _ from rfl)
    (show ([] : List NumMgrOp).foldlM NumMgr.step _ = some _ from rfl)
    (show unIpcManagerReservePort 1 _ = some (1, _) from rfl)⟩

/-- After 255 reservations the next port is the first one behind the table. -/
theorem port_behind_table :
    ∃ im₀ im im' unPort, pxNumMgrCreate MAX_PORT_ID (true, true) = some im₀ ∧
      (List.replicate 255 (NumMgrOp.allocate 1)).foldlM NumMgr.step im₀ = some im ∧
      unIpcManagerReservePort 1 im = some (unPort, im') ∧ unPort.toNat = 256 ∧
      ¬ PortFits ⟨false, false⟩ unPort := by
  obtain ⟨im, hrun, hinv, hlast, hfree⟩ := allocations_upwards maxPort_small (by decide)
    (show xNumMgrInit MAX_PORT_ID true = some _ from rfl) (show 255 ≤ MAX_PORT_ID.toNat by decide)
  have hsucc := succ_toNat maxPort_small (hinv.last maxPort_small)
  rw [hlast] at hsucc
  refine ⟨_, im, _, _, rfl, hrun, allocate_upwards hinv maxPort_small ?_ (hfree _ ?_) 0, hsucc,
    fun hfits => ?_⟩
  · rw [hlast]
    decide
  · omega
  · have hlt := portFits_iff.mp hfits
    omega

end RinaSense.Shim
