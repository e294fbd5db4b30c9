import RinaSense.Common.Heap
import RinaSense.Common.Ids
import RinaSense.Common.RsList

/-!
# Flow allocator

The flow request table and the posting of received packets. Rows are filled from the
front and never cleared, so the table is the list of its valid rows. Lookups visit the
valid rows one after the other but read the instance of the first row at each of them.
-/

namespace RinaSense.Flow

open Common Common.RsList

def CFG_FLOWS_REQUEST : ℕ := 10

inductive FaiState
  | eFAI_NONE
  | eFAI_PENDING
  | eFAI_ALLOCATED
deriving DecidableEq, Repr

def eFLOW_RECEIVE : UInt64 := 0x0001

structure FlowAllocateHandle where
  xReceiveBlockTime : UInt32
  xPortId : PortId
  /-- The netbufs which own the items of the list, first item first. -/
  xListWaitingPackets : List NbPtr
  nEventBits : UInt64
deriving DecidableEq, Repr

abbrev FaiPtr := ℕ

structure FlowAllocatorInstance where
  xPortId : PortId
  eFaiState : FaiState
  pxFlowAllocatorHandle : FlowAllocateHandle
deriving DecidableEq, Repr

structure FlowAllocator where
  xFlowRequestTable : List FaiPtr
  fais : FaiPtr → FlowAllocatorInstance
  bounded : xFlowRequestTable.length ≤ CFG_FLOWS_REQUEST

def FlowAllocator.setFai (fa : FlowAllocator) (p : FaiPtr) (fai : FlowAllocatorInstance) :
    FlowAllocator :=
  { fa with fais := Function.update fa.fais p fai }

/-- A full table drops the entry without a message. -/
def prvAddFlowRequestEntry (fa : FlowAllocator) (pxFAI : FaiPtr) : FlowAllocator :=
  if h : fa.xFlowRequestTable.length < CFG_FLOWS_REQUEST then
    { fa with
      xFlowRequestTable := fa.xFlowRequestTable ++ [pxFAI]
      bounded := by rw [List.length_append]; exact h }
  else fa

/-- The loop over the valid rows, which all look at the instance of the first row. -/
def findRow (fa : FlowAllocator) (xPortId : PortId) : List FaiPtr → Option FaiPtr
  | [] => none
  | _ :: rows =>
    match fa.xFlowRequestTable.head? with
    | none => none
    | some pxFAI =>
      if (fa.fais pxFAI).xPortId = xPortId then some pxFAI else findRow fa xPortId rows

def pxFAFindInstance (fa : FlowAllocator) (xPortId : PortId) : Option FaiPtr :=
  findRow fa xPortId fa.xFlowRequestTable

/-- The handle which `pxFAFindFlowHandle` finds, with the instance that holds it. -/
def pxFAFindFlowHandle (fa : FlowAllocator) (xPortId : PortId) :
    Option (FaiPtr × FlowAllocateHandle) :=
  (pxFAFindInstance fa xPortId).map fun p => (p, (fa.fais p).pxFlowAllocatorHandle)

/-- The handle once a packet was inserted and the reader was signalled. -/
def FlowAllocateHandle.posted (handle : FlowAllocateHandle) (pxDu : NbPtr) :
    FlowAllocateHandle :=
  { handle with
    xListWaitingPackets := insertAfterFirst pxDu handle.xListWaitingPackets
    nEventBits := handle.nEventBits ||| eFLOW_RECEIVE }

def xFlowAllocatorDuPost (pf : Platform) (fa : FlowAllocator) (xAppPortId : PortId)
    (pxDu : NbPtr) : Exec (Bool × FlowAllocator) := do
  rsAssert pf (is_port_id_ok xAppPortId)
  match pxFAFindInstance fa xAppPortId with
  | none => return (false, fa)
  | some p =>
    let fai := fa.fais p
    if fai.eFaiState ≠ .eFAI_ALLOCATED then return (false, fa)
    return (true, fa.setFai p
      { fai with pxFlowAllocatorHandle := fai.pxFlowAllocatorHandle.posted pxDu })

theorem findRow_head {fa : FlowAllocator} {p : FaiPtr} {port : PortId} {rows : List FaiPtr}
    (h : findRow fa port rows = some p) :
    fa.xFlowRequestTable.head? = some p ∧ (fa.fais p).xPortId = port := by
  induction rows with
  | nil => cases h
  | cons r rows ih =>
    unfold findRow at h
    cases hhead : fa.xFlowRequestTable.head? with
    | none => simp [hhead] at h
    | some q =>
      simp only [hhead] at h
      by_cases hq : (fa.fais q).xPortId = port
      · rw [if_pos hq, Option.some.injEq] at h
        subst h
        exact ⟨rfl, hq⟩
      · rw [if_neg hq] at h
        rw [← hhead]
        exact ih h

/-- The instance which is found is always the one of the first row. -/
theorem pxFAFindInstance_eq_some {fa : FlowAllocator} {p : FaiPtr} {port : PortId} :
    pxFAFindInstance fa port = some p ↔
      fa.xFlowRequestTable.head? = some p ∧ (fa.fais p).xPortId = port := by
  constructor
  · exact findRow_head
  · rintro ⟨hhead, hport⟩
    unfold pxFAFindInstance
    cases htable : fa.xFlowRequestTable with
    | nil => simp [htable] at hhead
    | cons r rows => simp [findRow, hhead, hport]

theorem xFlowAllocatorDuPost_allocated {pf : Platform} {fa : FlowAllocator} {p : FaiPtr}
    {port : PortId} (hport : is_port_id_ok port = true)
    (hp : pxFAFindInstance fa port = some p)
    (hs : (fa.fais p).eFaiState = .eFAI_ALLOCATED) (pxDu : NbPtr) :
    xFlowAllocatorDuPost pf fa port pxDu =
      .ok (true, fa.setFai p { fa.fais p with
        pxFlowAllocatorHandle := (fa.fais p).pxFlowAllocatorHandle.posted pxDu }) := by
  simp [xFlowAllocatorDuPost, hport, hp, hs, pure, Except.pure]

end RinaSense.Flow
