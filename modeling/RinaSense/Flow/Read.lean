import RinaSense.Flow.Allocator
import RinaSense.Library.Runs

/-!
# Reading from a flow

`RINA_flow_read` by one reader while the flow allocator posts packets. A call which
finds no packet waits for the receive bit and looks again each time it wakes up, so
posts come between the steps of a call. Packets are consumed in the order of posting
as long as none is posted behind two or more waiting ones.
-/

namespace RinaSense.Flow

open Common Common.RsList Library.Runs

inductive PortState
  | ePORT_STATE_NULL
  | ePORT_STATE_PENDING
  | ePORT_STATE_ALLOCATED
  | ePORT_STATE_DEALLOCATED
  | ePORT_STATE_DISABLED
deriving DecidableEq, Repr

structure NormalFlow where
  xPortId : PortId
  eState : PortState
deriving DecidableEq, Repr

def prvNormalFindFlow (flows : List NormalFlow) (xPortId : PortId) : Option NormalFlow :=
  flows.find? fun flow => flow.xPortId = xPortId

def RINA_flowStatus (flows : List NormalFlow) (xAppPortId : PortId) : Bool :=
  match prvNormalFindFlow flows xAppPortId with
  | none => false
  | some flow => flow.eState == .ePORT_STATE_ALLOCATED

/-- The bits a waiter leaves when it gets through; the clearing sets all other bits
instead of clearing its own. -/
def prvWaitForBit (nTargetBits nDesiredBits : UInt64) (xClearBits : Bool) : Option UInt64 :=
  if nTargetBits &&& nDesiredBits = 0 then none
  else some (if xClearBits then nTargetBits ||| ~~~nDesiredBits else nTargetBits)

/-- What a step of `RINA_flow_read` ends with. -/
inductive ReadStep
  | returned (lDataLength : Int)
  | packet (pxNb : NbPtr)
  | waits
deriving DecidableEq, Repr

/-- A flow in use, with the packets posted to it and consumed from it so far. -/
structure FlowRun where
  xFA : FlowAllocator
  xFlowsList : List NormalFlow
  /-- The instance whose handle the reader waits on. -/
  waiting : Option FaiPtr
  posted : List NbPtr
  consumed : List NbPtr
  trap : Option Trap

def FlowRun.handle (s : FlowRun) (p : FaiPtr) : FlowAllocateHandle :=
  (s.xFA.fais p).pxFlowAllocatorHandle

def FlowRun.setHandle (s : FlowRun) (p : FaiPtr) (handle : FlowAllocateHandle) : FlowRun :=
  { s with xFA := s.xFA.setFai p { s.xFA.fais p with pxFlowAllocatorHandle := handle } }

def FlowRun.queue (s : FlowRun) (p : FaiPtr) : List NbPtr :=
  (s.handle p).xListWaitingPackets

/-- The section under the API mutex: the owner of the first item is taken out. -/
def takePacket (s : FlowRun) (p : FaiPtr) : Exec (ReadStep × FlowRun) :=
  match s.queue p with
  | [] => .error .nullPointer
  | pxNb :: rest =>
    .ok (.packet pxNb, s.setHandle p { s.handle p with xListWaitingPackets := rest })

/-- `RINA_flow_read` up to its first wait; `xSetOk` is the result of setting up the
time-out. -/
def flowReadCall (s : FlowRun) (xPortId : PortId) (xSetOk : Bool) :
    Exec (ReadStep × FlowRun) :=
  if ¬ RINA_flowStatus s.xFlowsList xPortId then .ok (.returned 0, s)
  else
    match pxFAFindFlowHandle s.xFA xPortId with
    | none => .error .nullPointer
    | some (p, handle) =>
      if handle.xListWaitingPackets.length ≠ 0 then takePacket s p
      else if handle.xReceiveBlockTime = 0 then .ok (.returned (-1), s)
      else if ¬ xSetOk then .ok (.returned (-1), s)
      else .ok (.waits, { s with waiting := some p })

/-- A turn of the wait loop; `xCheckOk` is the result of checking the time-out. -/
def flowReadWake (s : FlowRun) (p : FaiPtr) (xCheckOk : Bool) : Exec (ReadStep × FlowRun) :=
  match prvWaitForBit (s.handle p).nEventBits eFLOW_RECEIVE true with
  | none => .ok (.waits, s)
  | some nEventBits =>
    let s := s.setHandle p { s.handle p with nEventBits := nEventBits }
    if (s.queue p).length ≠ 0 then takePacket s p
    else if ¬ xCheckOk then .ok (.returned 0, s)
    else .ok (.waits, s)

/-- What can happen next on a flow. -/
inductive FlowOp
  | post (pxDu : NbPtr)
  | call (xSetOk : Bool)
  | wake (xCheckOk : Bool)
deriving DecidableEq, Repr

def FlowOp.isRead : FlowOp → Bool
  | .post _ => false
  | .call _ => true
  | .wake _ => true

/-- The reader after a step: it waits, or it is done and may have consumed a packet. -/
def FlowRun.readerStep (s : FlowRun) : Exec (ReadStep × FlowRun) → FlowRun
  | .error t => { s with trap := some t }
  | .ok (.waits, s') => s'
  | .ok (.returned _, s') => { s' with waiting := none }
  | .ok (.packet pxNb, s') => { s' with waiting := none, consumed := s'.consumed ++ [pxNb] }

def FlowRun.step (pf : Platform) (xPortId : PortId) (s : FlowRun) (op : FlowOp) : FlowRun :=
  if s.trap.isSome then s
  else
    match op with
    | .post pxDu =>
      match xFlowAllocatorDuPost pf s.xFA xPortId pxDu with
      | .error t => { s with trap := some t }
      | .ok (false, fa) => { s with xFA := fa }
      | .ok (true, fa) => { s with xFA := fa, posted := s.posted ++ [pxDu] }
    | .call xSetOk =>
      match s.waiting with
      | some _ => s
      | none => s.readerStep (flowReadCall s xPortId xSetOk)
    | .wake xCheckOk =>
      match s.waiting with
      | none => s
      | some p => s.readerStep (flowReadWake s p xCheckOk)

/-- The port has an allocated flow, which the flow allocator finds at `p`. -/
structure FlowOpen (xPortId : PortId) (p : FaiPtr) (s : FlowRun) : Prop where
  portOk : is_port_id_ok xPortId = true
  found : pxFAFindInstance s.xFA xPortId = some p
  allocated : (s.xFA.fais p).eFaiState = .eFAI_ALLOCATED
  status : RINA_flowStatus s.xFlowsList xPortId = true
  waits : ∀ q, s.waiting = some q → q = p
  running : s.trap = none

variable {pf : Platform} {port : PortId} {p : FaiPtr} {s : FlowRun}

@[simp] theorem FlowRun.setHandle_queue (handle : FlowAllocateHandle) :
    (s.setHandle p handle).queue p = handle.xListWaitingPackets := by
  simp [FlowRun.queue, FlowRun.handle, FlowRun.setHandle, FlowAllocator.setFai]

theorem FlowOpen.setHandle (h : FlowOpen port p s) (handle : FlowAllocateHandle) :
    FlowOpen port p (s.setHandle p handle) := by
  have hfound := pxFAFindInstance_eq_some.mp h.found
  refine ⟨h.portOk, ?_, ?_, h.status, h.waits, h.running⟩
  · rw [pxFAFindInstance_eq_some]
    refine ⟨hfound.1, ?_⟩
    simpa [FlowRun.setHandle, FlowAllocator.setFai] using hfound.2
  · simpa [FlowRun.setHandle, FlowAllocator.setFai] using h.allocated

theorem FlowOpen.step_post (h : FlowOpen port p s) (x : NbPtr) :
    s.step pf port (.post x) =
      { s.setHandle p ((s.handle p).posted x) with posted := s.posted ++ [x] } := by
  simp [FlowRun.step, h.running, xFlowAllocatorDuPost_allocated h.portOk h.found h.allocated,
    FlowRun.setHandle, FlowRun.handle]

theorem takePacket_cons {x : NbPtr} {xs : List NbPtr} (hq : s.queue p = x :: xs) :
    takePacket s p =
      .ok (.packet x, s.setHandle p { s.handle p with xListWaitingPackets := xs }) := by
  simp [takePacket, hq]

/-- What a step of the reader can do to the packets of a flow. -/
structure ReaderMoves (port : PortId) (p : FaiPtr) (s t : FlowRun) : Prop where
  isOpen : FlowOpen port p t
  posted : t.posted = s.posted
  packets : (t.queue p = s.queue p ∧ t.consumed = s.consumed) ∨
    ∃ x, s.queue p = x :: t.queue p ∧ t.consumed = s.consumed ++ [x]

theorem FlowOpen.idle (h : FlowOpen port p s) : FlowOpen port p { s with waiting := none } :=
  ⟨h.portOk, h.found, h.allocated, h.status, by simp, h.running⟩

theorem FlowOpen.waiting (h : FlowOpen port p s) :
    FlowOpen port p { s with waiting := some p } := by
  refine ⟨h.portOk, h.found, h.allocated, h.status, ?_, h.running⟩
  rintro q ⟨⟩
  rfl

/-- Bits of the handle which a wake-up clears do not concern the packets. -/
theorem FlowOpen.cleared (h : FlowOpen port p s) (bits : UInt64) :
    ReaderMoves port p s (s.setHandle p { s.handle p with nEventBits := bits }) where
  isOpen := h.setHandle _
  posted := rfl
  packets := by
    rw [FlowRun.setHandle_queue]
    exact Or.inl ⟨rfl, rfl⟩

/-- A packet is taken from a queue which is not empty. -/
theorem ReaderMoves.taken {s' : FlowRun} (h : ReaderMoves port p s s')
    (hq : s'.queue p = s.queue p) (hc : s'.consumed = s.consumed) (hne : s.queue p ≠ []) :
    ReaderMoves port p s (s.readerStep (takePacket s' p)) := by
  cases hqs : s.queue p with
  | nil => exact absurd hqs hne
  | cons x xs =>
    rw [takePacket_cons (hq.trans hqs)]
    have hopen := h.isOpen.setHandle { s'.handle p with xListWaitingPackets := xs }
    refine ⟨⟨hopen.portOk, hopen.found, hopen.allocated, hopen.status, ?_, hopen.running⟩,
      h.posted, Or.inr ⟨x, ?_, ?_⟩⟩
    · intro q hq
      cases hq
    · change s.queue p = x :: (s'.setHandle p _).queue p
      rw [FlowRun.setHandle_queue, hqs]
    · change s'.consumed ++ [x] = s.consumed ++ [x]
      rw [hc]

theorem FlowOpen.called (h : FlowOpen port p s) (setOk : Bool) :
    ReaderMoves port p s (s.readerStep (flowReadCall s port setOk)) := by
  have hhandle : pxFAFindFlowHandle s.xFA port = some (p, s.handle p) := by
    simp [pxFAFindFlowHandle, h.found, FlowRun.handle]
  have hsame : ReaderMoves port p s s := ⟨h, rfl, Or.inl ⟨rfl, rfl⟩⟩
  by_cases hq : s.queue p = []
  · have hlen : (s.handle p).xListWaitingPackets.length = 0 := by
      rw [List.length_eq_zero_iff]
      exact hq
    simp only [flowReadCall, h.status, hhandle, hlen]
    by_cases hbt : (s.handle p).xReceiveBlockTime = 0
    · simp only [hbt]
      exact ⟨h.idle, rfl, hsame.packets⟩
    · cases setOk with
      | false =>
        simp only [hbt]
        exact ⟨h.idle, rfl, hsame.packets⟩
      | true =>
        simp only [hbt]
        exact ⟨h.waiting, rfl, hsame.packets⟩
  · have hlen : (s.handle p).xListWaitingPackets.length ≠ 0 := by
      rw [ne_eq, List.length_eq_zero_iff]
      exact hq
    have hgo : flowReadCall s port setOk = takePacket s p := by
      simp [flowReadCall, h.status, hhandle, hlen]
    rw [hgo]
    exact hsame.taken rfl rfl hq

theorem FlowOpen.woken (h : FlowOpen port p s) (checkOk : Bool) :
    ReaderMoves port p s (s.readerStep (flowReadWake s p checkOk)) := by
  unfold flowReadWake
  cases prvWaitForBit (s.handle p).nEventBits eFLOW_RECEIVE true with
  | none => exact ⟨h, rfl, Or.inl ⟨rfl, rfl⟩⟩
  | some bits =>
    have hclear := h.cleared bits
    have hqueue : (s.setHandle p { s.handle p with nEventBits := bits }).queue p =
        s.queue p := by
      rw [FlowRun.setHandle_queue]
      rfl
    by_cases hq : s.queue p = []
    · cases checkOk with
      | false =>
        simp only [hqueue, hq]
        exact ⟨hclear.isOpen.idle, rfl, hclear.packets⟩
      | true =>
        simp only [hqueue, hq]
        exact hclear
    · have hlen : (s.queue p).length ≠ 0 := by
        rw [ne_eq, List.length_eq_zero_iff]
        exact hq
      simp only [hqueue, if_pos hlen]
      exact hclear.taken hqueue rfl hq

variable (pf) in
/-- A read is a call, or a turn of the wait loop. -/
theorem FlowOpen.step_read (h : FlowOpen port p s) {op : FlowOp} (hop : op.isRead = true) :
    ReaderMoves port p s (s.step pf port op) := by
  have hsame : ReaderMoves port p s s := ⟨h, rfl, Or.inl ⟨rfl, rfl⟩⟩
  cases op with
  | post x => cases hop
  | call setOk =>
    cases hw : s.waiting with
    | some q => simpa [FlowRun.step, h.running, hw] using hsame
    | none => simpa [FlowRun.step, h.running, hw] using h.called setOk
  | wake checkOk =>
    cases hw : s.waiting with
    | none => simpa [FlowRun.step, h.running, hw] using hsame
    | some q =>
      obtain rfl := h.waits q hw
      simpa [FlowRun.step, h.running, hw] using h.woken checkOk

/-- The packets consumed and the packets waiting are the packets posted, in order. -/
def InOrder (p : FaiPtr) (s : FlowRun) : Prop := s.consumed ++ s.queue p = s.posted

/-- A packet is posted only when at most one other packet waits. -/
def BehindAtMostOne (p : FaiPtr) (s : FlowRun) : FlowOp → Prop
  | .post _ => (s.queue p).length ≤ 1
  | .call _ => True
  | .wake _ => True

/-- A packet which is posted is not already in the list of waiting packets. -/
def PostsUnlinked (p : FaiPtr) (s : FlowRun) : FlowOp → Prop
  | .post x => x ∉ s.queue p
  | .call _ => True
  | .wake _ => True

instance (p : FaiPtr) (s : FlowRun) : ∀ op, Decidable (BehindAtMostOne p s op)
  | .post _ => inferInstanceAs (Decidable ((s.queue p).length ≤ 1))
  | .call _ => .isTrue trivial
  | .wake _ => .isTrue trivial

instance (p : FaiPtr) (s : FlowRun) : ∀ op, Decidable (PostsUnlinked p s op)
  | .post x => inferInstanceAs (Decidable (x ∉ s.queue p))
  | .call _ => .isTrue trivial
  | .wake _ => .isTrue trivial

theorem InOrder.prefix_posted (h : InOrder p s) : s.consumed <+: s.posted :=
  ⟨s.queue p, h⟩

theorem FlowOpen.step (h : FlowOpen port p s) (op : FlowOp) :
    FlowOpen port p (s.step pf port op) := by
  cases op with
  | post x =>
    rw [h.step_post]
    have hopen := h.setHandle ((s.handle p).posted x)
    exact ⟨hopen.portOk, hopen.found, hopen.allocated, hopen.status, hopen.waits,
      hopen.running⟩
  | call setOk => exact (h.step_read pf rfl).isOpen
  | wake checkOk => exact (h.step_read pf rfl).isOpen

theorem FlowOpen.post_queue (h : FlowOpen port p s) (x : NbPtr) :
    (s.step pf port (.post x)).queue p = insertAfterFirst x (s.queue p) := by
  rw [h.step_post]
  exact FlowRun.setHandle_queue _

theorem FlowOpen.post_posted (h : FlowOpen port p s) (x : NbPtr) :
    (s.step pf port (.post x)).posted = s.posted ++ [x] := by
  rw [h.step_post]

theorem FlowOpen.post_consumed (h : FlowOpen port p s) (x : NbPtr) :
    (s.step pf port (.post x)).consumed = s.consumed := by
  rw [h.step_post]
  rfl

theorem InOrder.step_read (h : InOrder p s) (ho : FlowOpen port p s) {op : FlowOp}
    (hop : op.isRead = true) : InOrder p (s.step pf port op) := by
  obtain ⟨_, hposted, hstep⟩ := ho.step_read pf hop
  unfold InOrder at h ⊢
  rw [hposted, ← h]
  rcases hstep with ⟨hq, hc⟩ | ⟨x, hq, hc⟩
  · rw [hq, hc]
  · rw [hc, hq, List.append_assoc, List.singleton_append]

theorem InOrder.step_post (h : InOrder p s) (ho : FlowOpen port p s) {x : NbPtr}
    (hx : x ∉ s.queue p) :
    InOrder p (s.step pf port (.post x)) ↔ (s.queue p).length ≤ 1 := by
  unfold InOrder at h ⊢
  rw [ho.post_queue, ho.post_posted, ho.post_consumed, ← insertAfterFirst_eq_append hx, ← h,
    List.append_assoc, List.append_cancel_left_eq]

def FlowRun.run (pf : Platform) (xPortId : PortId) (s : FlowRun) (ops : List FlowOp) : FlowRun :=
  ops.foldl (FlowRun.step pf xPortId) s

/-- Whatever reads follow an initial part of the run, the packets consumed come in the
order in which they were posted. -/
def ReadsInOrder (pf : Platform) (xPortId : PortId) (s : FlowRun) (ops : List FlowOp) : Prop :=
  ∀ ops', ops' <+: ops → ∀ reads : List FlowOp, (∀ op ∈ reads, op.isRead = true) →
    (s.run pf xPortId (ops' ++ reads)).consumed <+: (s.run pf xPortId (ops' ++ reads)).posted

theorem InOrder.reads (h : InOrder p s) (ho : FlowOpen port p s) {reads : List FlowOp}
    (hreads : ∀ op ∈ reads, op.isRead = true) : InOrder p (s.run pf port reads) := by
  induction reads generalizing s with
  | nil => exact h
  | cons op reads ih =>
    exact ih (h.step_read ho (hreads op (by simp))) (ho.step op)
      (fun op' hop' => hreads op' (by simp [hop']))

variable (pf) in
/-- A reader which can go on takes the first packet. -/
theorem FlowOpen.call_takes (h : FlowOpen port p s) (hw : s.waiting = none) {x : NbPtr}
    {xs : List NbPtr} (hq : s.queue p = x :: xs) (b : Bool) :
    (s.step pf port (.call b)).consumed = s.consumed ++ [x] ∧
      (s.step pf port (.call b)).queue p = xs ∧ (s.step pf port (.call b)).waiting = none := by
  have hhandle : pxFAFindFlowHandle s.xFA port = some (p, s.handle p) := by
    simp [pxFAFindFlowHandle, h.found, FlowRun.handle]
  have hlen : (s.handle p).xListWaitingPackets = x :: xs := hq
  have hcall : s.step pf port (.call b) = s.readerStep (takePacket s p) := by
    simp [FlowRun.step, h.running, hw, flowReadCall, h.status, hhandle, hlen]
  rw [hcall, takePacket_cons hq]
  exact ⟨rfl, FlowRun.setHandle_queue _, rfl⟩

variable (pf) in
theorem FlowOpen.wake_takes (h : FlowOpen port p s) (hw : s.waiting = some p)
    (hbit : (s.handle p).nEventBits &&& eFLOW_RECEIVE ≠ 0) {x : NbPtr} {xs : List NbPtr}
    (hq : s.queue p = x :: xs) (b : Bool) :
    (s.step pf port (.wake b)).consumed = s.consumed ++ [x] ∧
      (s.step pf port (.wake b)).queue p = xs ∧ (s.step pf port (.wake b)).waiting = none := by
  let bits := (s.handle p).nEventBits ||| ~~~eFLOW_RECEIVE
  let s' := s.setHandle p { s.handle p with nEventBits := bits }
  have hq' : s'.queue p = x :: xs := (FlowRun.setHandle_queue _).trans hq
  have hwake : s.step pf port (.wake b) = s.readerStep (takePacket s' p) := by
    have hlist : (s.handle p).xListWaitingPackets = x :: xs := hq
    simp [FlowRun.step, h.running, hw, flowReadWake, prvWaitForBit, hbit, s', bits, hlist]
  rw [hwake, takePacket_cons hq']
  exact ⟨rfl, FlowRun.setHandle_queue _, rfl⟩

private theorem receiveBit_set (bits : UInt64) :
    (bits ||| eFLOW_RECEIVE) &&& eFLOW_RECEIVE ≠ 0 := by
  intro hzero
  have hbit := congrArg (fun bits => bits.toBitVec.getLsbD 0) hzero
  simp [eFLOW_RECEIVE] at hbit

variable (pf) in
/-- Two reads after a post which found two packets waiting consume the new packet before
the second of them. -/
theorem overtaken (ho : FlowOpen port p s) (hi : InOrder p s) {x y z : NbPtr}
    {zs : List NbPtr} (hq : s.queue p = y :: z :: zs) (hx : x ∉ s.queue p) :
    ¬ ReadsInOrder pf port s [.post x] := by
  intro hord
  let s₁ := s.step pf port (.post x)
  have ho₁ : FlowOpen port p s₁ := ho.step _
  have hq₁ : s₁.queue p = y :: x :: z :: zs := by
    rw [ho.post_queue, hq]
    rfl
  have hp₁ : s₁.posted = s.consumed ++ (y :: z :: zs ++ [x]) := by
    rw [ho.post_posted, ← hi, hq, List.append_assoc]
  have hc₁ : s₁.consumed = s.consumed := ho.post_consumed x
  have hread := hord [.post x] (List.prefix_refl _) [.wake true, .call true, .call true] (by decide)
  let s₂ := s₁.step pf port (.wake true)
  let s₃ := s₂.step pf port (.call true)
  let s₄ := s₃.step pf port (.call true)
  have hrun : s.run pf port ([.post x] ++ [.wake true, .call true, .call true]) = s₄ := rfl
  rw [hrun] at hread
  have ho₂ : FlowOpen port p s₂ := ho₁.step _
  have ho₃ : FlowOpen port p s₃ := ho₂.step _
  have hposted : s₄.posted = s.consumed ++ (y :: z :: zs ++ [x]) := by
    rw [← hp₁, (ho₃.step_read pf rfl).posted, (ho₂.step_read pf rfl).posted,
      (ho₁.step_read pf rfl).posted]
  have hbegin : (s.consumed ++ [y, x]) <+: s₄.consumed := by
    cases hw : s₁.waiting with
    | none =>
      have hs₂ : s₂ = s₁ := by simp [s₂, FlowRun.step, ho₁.running, hw]
      obtain ⟨hc₃, hq₃, hw₃⟩ := ho₂.call_takes pf (hs₂ ▸ hw) (hs₂ ▸ hq₁) true
      obtain ⟨hc₄, -, -⟩ := ho₃.call_takes pf hw₃ hq₃ true
      refine ⟨[], ?_⟩
      rw [hc₄, hc₃, hs₂, hc₁]
      simp
    | some q =>
      have hbit : (s₁.handle p).nEventBits &&& eFLOW_RECEIVE ≠ 0 := by
        have hhandle : (s₁.handle p).nEventBits = (s.handle p).nEventBits ||| eFLOW_RECEIVE := by
          simp only [s₁]
          rw [ho.step_post]
          simp [FlowRun.handle, FlowRun.setHandle, FlowAllocator.setFai,
            FlowAllocateHandle.posted]
        rw [hhandle]
        exact receiveBit_set _
      obtain ⟨hc₂, hq₂, hw₂⟩ :=
        ho₁.wake_takes pf (ho₁.waits q hw ▸ hw) hbit hq₁ true
      obtain ⟨hc₃, hq₃, hw₃⟩ := ho₂.call_takes pf hw₂ hq₂ true
      obtain ⟨hc₄, -, -⟩ := ho₃.call_takes pf hw₃ hq₃ true
      refine ⟨[z], ?_⟩
      rw [hc₄, hc₃, hc₂, hc₁]
      simp
  have hpre : (s.consumed ++ [y, x]) <+: s.consumed ++ (y :: z :: zs ++ [x]) :=
    hposted ▸ hbegin.trans hread
  rw [List.prefix_append_right_inj, List.cons_append, List.cons_prefix_cons,
    List.cons_append, List.cons_prefix_cons] at hpre
  exact hx (by simp [hq, hpre.2.1])

/-- The packets of a flow are consumed in the order of posting exactly when no packet is
posted while two or more packets wait. -/
theorem readsInOrder_iff {ops : List FlowOp} (ho : FlowOpen port p s) (hi : InOrder p s)
    (hlink : Guarded (FlowRun.step pf port) (PostsUnlinked p) s ops) :
    ReadsInOrder pf port s ops ↔
      Guarded (FlowRun.step pf port) (BehindAtMostOne p) s ops := by
  induction ops generalizing s with
  | nil =>
    refine ⟨fun _ => trivial, fun _ ops' hops' reads hreads => ?_⟩
    rw [List.prefix_nil.mp hops', List.nil_append]
    exact (hi.reads ho hreads).prefix_posted
  | cons op ops ih =>
    have hstep : BehindAtMostOne p s op → InOrder p (s.step pf port op) := by
      intro hb
      cases op with
      | post x => exact (hi.step_post ho hlink.1).mpr hb
      | call b => exact hi.step_read ho rfl
      | wake b => exact hi.step_read ho rfl
    constructor
    · intro hord
      have hb : BehindAtMostOne p s op := by
        cases op with
        | call b => trivial
        | wake b => trivial
        | post x =>
          change (s.queue p).length ≤ 1
          by_contra hlen
          obtain ⟨y, z, zs, hq⟩ : ∃ y z zs, s.queue p = y :: z :: zs := by
            cases hq : s.queue p with
            | nil => simp [hq] at hlen
            | cons y ys =>
              cases ys with
              | nil => simp [hq] at hlen
              | cons z zs => exact ⟨y, z, zs, rfl⟩
          refine overtaken pf ho hi hq hlink.1 ?_
          intro ops' hops' reads hreads
          exact hord ops' (hops'.trans (by simp)) reads hreads
      refine ⟨hb, (ih (ho.step op) (hstep hb) hlink.2).mp ?_⟩
      intro ops' hops' reads hreads
      exact hord (op :: ops') (List.cons_prefix_cons.mpr ⟨rfl, hops'⟩) reads hreads
    · rintro ⟨hb, hrest⟩ ops' hops' reads hreads
      cases ops' with
      | nil => exact (hi.reads ho hreads).prefix_posted
      | cons op' ops' =>
        obtain ⟨rfl, hinit⟩ := List.cons_prefix_cons.mp hops'
        exact (ih (ho.step op') (hstep hb) hlink.2).mpr hrest ops' hinit reads hreads

/-- A process whose only flow is allocated and has carried nothing yet. -/
def FlowRun.fresh (xPortId : PortId) (xReceiveBlockTime : UInt32) : FlowRun where
  xFA :=
    { xFlowRequestTable := [0]
      fais := fun _ =>
        { xPortId := xPortId
          eFaiState := .eFAI_ALLOCATED
          pxFlowAllocatorHandle := ⟨xReceiveBlockTime, xPortId, [], 0⟩ }
      bounded := by decide }
  xFlowsList := [⟨xPortId, .ePORT_STATE_ALLOCATED⟩]
  waiting := none
  posted := []
  consumed := []
  trap := none

theorem FlowRun.fresh_open (hport : is_port_id_ok port = true) (t : UInt32) :
    FlowOpen port 0 (FlowRun.fresh port t) where
  portOk := hport
  found := pxFAFindInstance_eq_some.mpr ⟨rfl, rfl⟩
  allocated := rfl
  status := by simp [FlowRun.fresh, RINA_flowStatus, prvNormalFindFlow]
  waits := by simp [FlowRun.fresh]
  running := rfl

/-- Two packets posted and read come out in order. -/
theorem readsInOrder_two :
    ReadsInOrder ⟨false, false⟩ 1 (FlowRun.fresh 1 0)
      [.post 10, .post 11, .call true, .call true] :=
  (readsInOrder_iff (FlowRun.fresh_open (by decide) 0) rfl (by decide)).mpr (by decide)

/-- Of three packets posted before any is read, the last overtakes the second. -/
theorem read_overtaken :
    ¬ ((FlowRun.fresh 1 0).run ⟨false, false⟩ 1
        [.post 10, .post 11, .post 12, .call true, .call true, .call true]).consumed <+:
      ((FlowRun.fresh 1 0).run ⟨false, false⟩ 1
        [.post 10, .post 11, .post 12, .call true, .call true, .call true]).posted := by
  decide

end RinaSense.Flow
