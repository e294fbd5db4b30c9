import RinaSense.Common.PoolCap
import RinaSense.Library.Fifo
import RinaSense.Queue.InMemory

/-!
# Queues as bounded queues

One thread calls the sends and receives which do not block. They behave as a first-in first-out
queue of the maximum of the parameters, as long as the pool and the semaphore of the places have
that maximum too.
-/

namespace RinaSense.Queue.InMemory

open Common Common.RsList Library.Memory Library.Bounded Library.Runs

inductive Op (n : ℕ)
  | send (pxItem : ItemBuf n)
  | receive (pxItem : ItemBuf n)

variable {n N : ℕ}

def Op.pxItem : Op n → Bytes
  | .send pxItem => pxItem
  | .receive pxItem => pxItem

variable (pf : Platform)

/-- A call with the memory of its caller before and after it. -/
def call (s : RsQueueMem) : Op n → Exec (Option (RsErr × Bytes × RsQueueMem))
  | .send pxItem => do
    let out ← xRsQueueSendToBack pf s pxItem
    return out.map fun (xStatus, s) => (xStatus, pxItem, s)
  | .receive pxItem => xRsQueueReceive pf s pxItem

/-- What the operation does to a bounded queue, with the memory of the caller after it. -/
def Op.onFifo (t : Fifo Bytes N) : Op n → Option (Bytes × Fifo Bytes N)
  | .send pxItem => (t.push (pxItem.val.take n)).map fun t => (pxItem.val, t)
  | .receive pxItem => t.pop.map fun (bs, t) => (bs ++ pxItem.val.drop n, t)

/-- The call succeeds with the bytes of the bounded queue, or fails with it and changes nothing.
The only one which does not come back is aborted because memory ran out. -/
def Answers (st : RsQueueMem × Fifo Bytes N) (op : Op n) : Prop :=
  match call pf st.1 op, op.onFifo st.2 with
  | .error e, _ => e = .abort ∧ st.1.heap.mallocOk st.1.heap.calls = false
  | .ok none, _ => False
  | .ok (some (xStatus, pxItem, _)), some (pxItem', _) => xStatus = .SUCCESS ∧ pxItem = pxItem'
  | .ok (some (xStatus, pxItem, s)), none => xStatus ≠ .SUCCESS ∧ pxItem = op.pxItem ∧ s = st.1

/-- Both queues after a call which comes back. -/
def step (st : RsQueueMem × Fifo Bytes N) (op : Op n) : Option (RsQueueMem × Fifo Bytes N) :=
  match call pf st.1 op with
  | .ok (some (_, _, s)) => some (s, ((op.onFifo st.2).map Prod.snd).getD st.2)
  | _ => none

/-- Every queue with the parameters answers every sequence of calls as a bounded queue does. -/
def ActsAsFifo (params : RsQueueParams) : Prop :=
  ∀ h m xQueueList pxPool sQueueName s, xQueueList < h.brk →
    (pf.valgrind = true → h.MemoryAvailable) →
    xRsQueueInit h m xQueueList pxPool sQueueName params = .ok (some s) →
    ∀ ops : List (Op params.unItemSz), GuardedSteps (step pf) (Answers pf)
      (s, (.empty : Fifo Bytes params.unMaxItemCount)) ops

/-- The maximum as an `unsigned int`. -/
def RsQueueParams.cap (params : RsQueueParams) : ℕ := params.unMaxItemCount % 2 ^ 32

/-- The queue has the items of the bounded queue, and its semaphores count them. -/
structure InStep (params : RsQueueParams) (st : RsQueueMem × Fifo Bytes params.unMaxItemCount)
    (q : RsQueue Bytes) (addrs : List Addr) : Prop where
  represents : Represents pf st.1 q addrs
  xParams : st.1.xParams = params
  items : q.xQueueList = st.2.items
  uiMaxNumRes : q.xPool.uiMaxNumRes = if pf.valgrind then 0 else params.cap
  xSemItems : params.xBlock = true → q.xSemItems = q.xQueueList.length
  xSemPlaces : params.bounded = true → q.xSemPlaces + q.xQueueList.length = params.cap
  memory : pf.valgrind = true → st.1.heap.MemoryAvailable

/-- Neither the semaphore of the places nor the pool stops an item behind `k` others. -/
def Room (params : RsQueueParams) (k : ℕ) : Prop :=
  (params.xBlock = true → k < params.cap) ∧ (pf.valgrind = false → params.cap = 0 ∨ k < params.cap)

variable {pf} {params : RsQueueParams} {st : RsQueueMem × Fifo Bytes params.unMaxItemCount}
  {q : RsQueue Bytes} {addrs : List Addr}

theorem bounded_of_blocks (hb : params.xBlock = true) (hN : 1 ≤ params.unMaxItemCount) :
    params.bounded = true := by
  simp only [Queue.RsQueueParams.bounded, hb, Bool.true_and, decide_eq_true_eq]
  exact hN

theorem blocks_of_bounded (hb : params.bounded = true) : params.xBlock = true := by
  simp only [Queue.RsQueueParams.bounded, Bool.and_eq_true] at hb
  exact hb.1

theorem InStep.length (hi : InStep pf params st q addrs) :
    unRsListLength st.1.lists st.1.xQueueList = st.2.items.length := by
  rw [hi.represents.length, hi.items]

/-- A send to a full queue is refused. -/
theorem InStep.send_full (hi : InStep pf params st q addrs) (hN : 1 ≤ params.unMaxItemCount)
    (hfull : st.2.items.length = params.unMaxItemCount) (pxItem : ItemBuf params.unItemSz) :
    call pf st.1 (.send pxItem) = .ok (some (.ERR_OVERFLOW, pxItem.val, st.1)) ∧
      (Op.send pxItem).onFifo st.2 = none := by
  constructor
  · have hcode : xRsQueueSendToBack pf st.1 pxItem = .ok (some (.ERR_OVERFLOW, st.1)) := by
      rw [xRsQueueSendToBack, if_pos]
      rw [hi.length, hi.xParams]
      exact ⟨Nat.ne_of_gt hN, hfull⟩
    rw [call, hcode]
    rfl
  · rw [Op.onFifo, Fifo.push_full hfull]
    rfl

/-- A receive from an empty queue is refused. -/
theorem InStep.receive_empty (hi : InStep pf params st q addrs) (hempty : st.2.items = [])
    (pxItem : ItemBuf params.unItemSz) :
    call pf st.1 (.receive pxItem) = .ok (some (.ERR_UNDERFLOW, pxItem.val, st.1)) ∧
      (Op.receive pxItem).onFifo st.2 = none := by
  constructor
  · rw [call, xRsQueueReceive, if_pos]
    rw [hi.length, hempty, List.length_nil]
  · rw [Op.onFifo, Fifo.pop_empty hempty]
    rfl

/-! ### Calls which succeed -/

theorem enqueue_success {q q' : RsQueue Bytes} {x : Bytes}
    (h : q.enqueue x = .returned .SUCCESS none q') :
    q'.xQueueList = q.xQueueList ++ [x] ∧ q'.xSemPlaces = q.xSemPlaces ∧
      (q.xParams.xBlock = true → q'.xSemItems = q.xSemItems + 1) ∧
      q'.xPool.uiMaxNumRes = q.xPool.uiMaxNumRes := by
  cases hpool : q.xPool.pxRsrcAlloc with
  | none => simp [RsQueue.enqueue, hpool] at h
  | some xPool =>
    obtain ⟨-, rfl⟩ := ItemPool.pxRsrcAlloc_eq_some.mp hpool
    simp only [RsQueue.enqueue, hpool, Call.returned.injEq, true_and] at h
    subst h
    cases hb : q.xParams.xBlock with
    | true => simp [RsQueue.insert, RsQueue.postItem, hb]
    | false => simp [RsQueue.insert, hb]

theorem dequeue_success {q q' : RsQueue Bytes} {x : Bytes} {rest : List Bytes}
    (hlist : q.xQueueList = x :: rest) (h : q.dequeue = .returned .SUCCESS (some x) q') :
    q'.xQueueList = rest ∧ q'.xSemItems = q.xSemItems ∧
      (q.xParams.xBlock = true → q'.xSemPlaces = q.xSemPlaces + 1) ∧
      q'.xPool.uiMaxNumRes = q.xPool.uiMaxNumRes := by
  simp only [RsQueue.dequeue, hlist, Call.returned.injEq, true_and] at h
  subst h
  cases hb : q.xParams.xBlock with
  | true => simp [RsQueue.postPlace, ItemPool.vRsrcFree]
  | false => simp [ItemPool.vRsrcFree]

theorem Represents.takePlace {s : RsQueueMem} {k : ℕ} (hr : Represents pf s q addrs) :
    Represents pf { s with xSemPlaces := k } { q with xSemPlaces := k } addrs :=
  ⟨hr.xParams, hr.xSemItems, rfl, hr.list, hr.owner, hr.items, hr.below, hr.lent, hr.pooled,
    hr.uiNumInUse⟩

theorem Represents.takeItem {s : RsQueueMem} {k : ℕ} (hr : Represents pf s q addrs) :
    Represents pf { s with xSemItems := k } { q with xSemItems := k } addrs :=
  ⟨hr.xParams, rfl, hr.xSemPlaces, hr.list, hr.owner, hr.items, hr.below, hr.lent, hr.pooled,
    hr.uiNumInUse⟩

/-- Where a send gets to after its test of the length. -/
theorem InStep.send_waits (hi : InStep pf params st q addrs) (hN : 1 ≤ params.unMaxItemCount)
    (hlt : st.2.items.length < params.unMaxItemCount) (pxItem : Bytes) :
    xRsQueueSendToBack pf st.1 pxItem =
      if params.xBlock then
        match st.1.xSemPlaces with
        | 0 => .ok none
        | xSemPlaces + 1 => some <$> { st.1 with xSemPlaces := xSemPlaces }.enqueue pf pxItem
      else some <$> st.1.enqueue pf pxItem := by
  have hpos : 0 < st.1.xParams.unMaxItemCount := by
    rw [hi.xParams]
    exact hN
  have hroom : unRsListLength st.1.lists st.1.xQueueList ≠ st.1.xParams.unMaxItemCount := by
    rw [hi.length, hi.xParams]
    exact Nat.ne_of_lt hlt
  have hblock : st.1.xParams.xBlock = params.xBlock := by rw [hi.xParams]
  rewrite [xRsQueueSendToBack, if_neg fun hfull => hroom hfull.2, prvQueueSendToBack,
    if_pos hpos, if_neg hroom, hblock]
  cases params.xBlock with
  | true => cases st.1.xSemPlaces <;> rfl
  | false => rfl

theorem InStep.pool_room (hi : InStep pf params st q addrs) (hroom : Room pf params
    st.2.items.length) : q.xPool.uiMaxNumRes = 0 ∨ q.xPool.uiNumInUse < q.xPool.uiMaxNumRes := by
  rw [hi.uiMaxNumRes, hi.represents.uiNumInUse, hi.items]
  cases hv : pf.valgrind with
  | true => exact Or.inl rfl
  | false => exact hroom.2 hv

/-- A send which finds a place takes it. -/
theorem InStep.send_takes (hi : InStep pf params st q addrs) (hN : 1 ≤ params.unMaxItemCount)
    (hlt : st.2.items.length < params.unMaxItemCount)
    (hplace : params.xBlock = true → st.2.items.length < params.cap) (pxItem : Bytes) :
    ∃ s₀ q₀, xRsQueueSendToBack pf st.1 pxItem = some <$> s₀.enqueue pf pxItem ∧
      Represents pf s₀ q₀ addrs ∧ s₀.xParams = params ∧ s₀.heap = st.1.heap ∧
      q₀.xPool = q.xPool ∧ q₀.xQueueList = q.xQueueList ∧ q₀.xSemItems = q.xSemItems ∧
      (params.bounded = true → q₀.xSemPlaces + q.xQueueList.length + 1 = params.cap) := by
  rw [hi.send_waits hN hlt]
  cases hb : params.xBlock with
  | false =>
    refine ⟨st.1, q, rfl, hi.represents, hi.xParams, rfl, rfl, rfl, rfl, fun hbounded => ?_⟩
    cases hb.symm.trans (blocks_of_bounded hbounded)
  | true =>
    have hplaces := hi.xSemPlaces (bounded_of_blocks hb hN)
    have hlt' := hplace hb
    rw [hi.represents.xSemPlaces, hi.items] at hplaces
    obtain ⟨k, hk⟩ : ∃ k, st.1.xSemPlaces = k + 1 :=
      Nat.exists_eq_succ_of_ne_zero (by omega)
    refine ⟨{ st.1 with xSemPlaces := k }, { q with xSemPlaces := k }, ?_,
      hi.represents.takePlace, hi.xParams, rfl, rfl, rfl, rfl, fun _ => ?_⟩
    · rw [if_pos rfl, hk]
    · rw [hi.items]
      change k + _ + 1 = _
      omega

/-- A send to a queue with room puts its bytes behind the others. -/
theorem InStep.send_room (hi : InStep pf params st q addrs) (hN : 1 ≤ params.unMaxItemCount)
    (hlt : st.2.items.length < params.unMaxItemCount) (hroom : Room pf params st.2.items.length)
    (pxItem : ItemBuf params.unItemSz) :
    st.1.heap.mallocOk st.1.heap.calls = false ∧ call pf st.1 (.send pxItem) = .error .abort ∨
      ∃ s' t' q' addrs', call pf st.1 (.send pxItem) = .ok (some (.SUCCESS, pxItem.val, s')) ∧
        (Op.send pxItem).onFifo st.2 = some (pxItem.val, t') ∧
        InStep pf params (s', t') q' addrs' ∧ t'.items.length = st.2.items.length + 1 ∧
        s'.heap.mallocOk = st.1.heap.mallocOk := by
  obtain ⟨s₀, q₀, hcode, hr, hparams, hheap, hpool, hlist, hitems, hplaces⟩ :=
    hi.send_takes hN hlt hroom.1 pxItem
  have hmemory : pf.valgrind = true → s₀.heap.MemoryAvailable := hheap ▸ hi.memory
  have hgranted : q₀.xPool.pxRsrcAlloc ≠ none := by
    rw [hpool, ItemPool.pxRsrcAlloc_eq_some.mpr ⟨hi.pool_room hroom, rfl⟩]
    exact Option.some_ne_none _
  have hitem : s₀.xParams.unItemSz ≤ pxItem.val.length := by
    rw [hparams]
    exact pxItem.property
  rcases hr.enqueue hmemory hitem hgranted with
    ⟨hmalloc, habort⟩ | ⟨s', q', addrs', hok, hq, hr', hparams', hmalloc⟩
  · refine Or.inl ⟨hheap ▸ hmalloc, ?_⟩
    rw [call, hcode, habort]
    rfl
  · obtain ⟨t', hpush, ht'⟩ := Fifo.push_of_lt hlt (pxItem.val.take params.unItemSz)
    obtain ⟨hlist', hplaces', hitems', hmax'⟩ := enqueue_success hq
    have hq₀ : q₀.xParams.xBlock = params.xBlock := by rw [hr.xParams, hparams]
    have hlength : q'.xQueueList.length = q.xQueueList.length + 1 := by
      rw [hlist', hlist, List.length_append, List.length_singleton]
    refine Or.inr ⟨s', t', q', addrs', ?_, ?_, ⟨hr', hparams'.trans hparams, ?_, ?_, fun hb => ?_,
      fun hb => ?_, fun hv => ?_⟩, ?_, ?_⟩
    · rw [call, hcode, hok]
      rfl
    · rw [Op.onFifo, hpush]
      rfl
    · rw [hlist', hlist, hi.items, hparams, ht']
    · rw [hmax', hpool, hi.uiMaxNumRes]
    · rw [hitems' (hq₀.trans hb), hitems, hi.xSemItems hb, hlength]
    · rw [hplaces', hlength, ← hplaces hb]
      omega
    · intro k
      rw [hmalloc]
      exact hmemory hv k
    · rw [ht', List.length_append, List.length_singleton]
    · rw [hmalloc, hheap]

/-- Without such room a send to a queue which is not full waits, or is refused by the pool. -/
theorem InStep.send_stuck (hi : InStep pf params st q addrs) (hN : 1 ≤ params.unMaxItemCount)
    (hlt : st.2.items.length < params.unMaxItemCount) (hno : ¬ Room pf params st.2.items.length)
    (pxItem : ItemBuf params.unItemSz) : ¬ Answers pf st (.send pxItem) := by
  obtain ⟨t', hpush, -⟩ := Fifo.push_of_lt hlt (pxItem.val.take params.unItemSz)
  have hfifo : (Op.send pxItem).onFifo st.2 = some (pxItem.val, t') := by
    rw [Op.onFifo, hpush]
    rfl
  by_cases hplace : params.xBlock = true → st.2.items.length < params.cap
  · obtain ⟨s₀, q₀, hcode, hr, hparams, hheap, hpool, -, -, -⟩ :=
      hi.send_takes hN hlt hplace pxItem
    have hcap : ¬ (pf.valgrind = false → params.cap = 0 ∨ st.2.items.length < params.cap) :=
      fun h => hno ⟨hplace, h⟩
    obtain ⟨hv, hfull⟩ := Classical.not_imp.mp hcap
    obtain ⟨hne, hle⟩ := not_or.mp hfull
    have hnone : q₀.xPool.pxRsrcAlloc = none := by
      rw [hpool, ItemPool.pxRsrcAlloc, if_pos]
      rw [hi.uiMaxNumRes, hi.represents.uiNumInUse, hi.items, hv]
      exact ⟨hne, Nat.not_lt.mp hle⟩
    have hcall : call pf st.1 (.send pxItem) = .ok (some (.ERR_OOM, pxItem.val, s₀)) := by
      rw [call, hcode, hr.enqueue_refused hnone]
      rfl
    rw [Answers, hcall, hfifo]
    rintro ⟨hstatus, -⟩
    cases hstatus
  · obtain ⟨hb, hge⟩ := Classical.not_imp.mp hplace
    have hplaces := hi.xSemPlaces (bounded_of_blocks hb hN)
    rw [hi.represents.xSemPlaces, hi.items] at hplaces
    have hzero : st.1.xSemPlaces = 0 := by omega
    have hcall : call pf st.1 (.send pxItem) = .ok none := by
      rw [call, hi.send_waits hN hlt, if_pos hb, hzero]
      rfl
    rw [Answers, hcall]
    exact id

/-- A receive which finds an item takes it off the count. -/
theorem InStep.receive_takes (hi : InStep pf params st q addrs) {bs : Bytes} {rest : List Bytes}
    (hitems : st.2.items = bs :: rest) (pxItem : Bytes) :
    ∃ s₀ q₀, xRsQueueReceive pf st.1 pxItem = some <$> s₀.dequeue pf pxItem ∧
      Represents pf s₀ q₀ addrs ∧ s₀.xParams = params ∧ s₀.heap = st.1.heap ∧
      q₀.xPool = q.xPool ∧ q₀.xQueueList = q.xQueueList ∧ q₀.xSemPlaces = q.xSemPlaces ∧
      (params.xBlock = true → q₀.xSemItems + 1 = q.xQueueList.length) := by
  have hlist : q.xQueueList = bs :: rest := hi.items.trans hitems
  have hlength : unRsListLength st.1.lists st.1.xQueueList ≠ 0 := by
    rw [hi.length, hitems]
    exact Nat.succ_ne_zero _
  have hblock : st.1.xParams.xBlock = params.xBlock := by rw [hi.xParams]
  rw [xRsQueueReceive, if_neg hlength, prvQueueReceive, hblock]
  cases hb : params.xBlock with
  | false =>
    exact ⟨st.1, q, rfl, hi.represents, hi.xParams, rfl, rfl, rfl, rfl, fun h => by cases h⟩
  | true =>
    have hsem := hi.xSemItems hb
    rw [hi.represents.xSemItems, hlist, List.length_cons] at hsem
    refine ⟨{ st.1 with xSemItems := rest.length }, { q with xSemItems := rest.length }, ?_,
      hi.represents.takeItem, hi.xParams, rfl, rfl, rfl, rfl, fun _ => ?_⟩
    · rw [if_pos rfl, hsem]
    · rw [hlist, List.length_cons]

/-- A receive takes the bytes of the first item. -/
theorem InStep.receive_item (hi : InStep pf params st q addrs) {bs : Bytes} {rest : List Bytes}
    (hitems : st.2.items = bs :: rest) (pxItem : ItemBuf params.unItemSz) :
    ∃ s' t' q' addrs', call pf st.1 (.receive pxItem) =
        .ok (some (.SUCCESS, bs ++ pxItem.val.drop params.unItemSz, s')) ∧
      (Op.receive pxItem).onFifo st.2 = some (bs ++ pxItem.val.drop params.unItemSz, t') ∧
      InStep pf params (s', t') q' addrs' ∧ s'.heap.mallocOk = st.1.heap.mallocOk := by
  have hq : q.xQueueList = bs :: rest := hi.items.trans hitems
  obtain ⟨s₀, q₀, hcode, hr, hparams, hheap, hpool, hlist, hplaces, hcount⟩ :=
    hi.receive_takes hitems pxItem
  have hitem : s₀.xParams.unItemSz ≤ pxItem.val.length := by
    rw [hparams]
    exact pxItem.property
  obtain ⟨s', q', addrs', hok, hq', hr', hparams', hmalloc⟩ := hr.dequeue (hlist.trans hq) hitem
  obtain ⟨t', hpop, ht'⟩ := Fifo.pop_cons hitems
  obtain ⟨hlist', hitems', hplaces', hmax'⟩ := dequeue_success (hlist.trans hq) hq'
  have hq₀ : q₀.xParams.xBlock = params.xBlock := by rw [hr.xParams, hparams]
  have hcons : q.xQueueList.length = q'.xQueueList.length + 1 := by
    rw [hq, hlist', List.length_cons]
  refine ⟨s', t', q', addrs', ?_, ?_, ⟨hr', hparams'.trans hparams, hlist'.trans ht'.symm, ?_,
    fun hb => ?_, fun hb => ?_, fun hv k => ?_⟩, ?_⟩
  · rw [call, hcode, hok, hparams]
    rfl
  · rw [Op.onFifo, hpop]
    rfl
  · rw [hmax', hpool, hi.uiMaxNumRes]
  · have := hcount hb
    rw [hitems']
    omega
  · have := hi.xSemPlaces hb
    rw [hplaces' (hq₀.trans (blocks_of_bounded hb)), hplaces]
    omega
  · rw [hmalloc, hheap]
    exact hi.memory hv k
  · rw [hmalloc, hheap]

/-! ### Runs -/

/-- A call answers as the bounded queue unless it is a send to a queue which has places left and
no room. -/
def Fits (pf : Platform) (params : RsQueueParams)
    (st : RsQueueMem × Fifo Bytes params.unMaxItemCount) : Op params.unItemSz → Prop
  | .send _ => st.2.items.length < params.unMaxItemCount → Room pf params st.2.items.length
  | .receive _ => True

/-- Such a call aborts because memory ran out, or fails with the bounded queue, or succeeds with
it. -/
theorem InStep.outcome (hi : InStep pf params st q addrs) (hN : 1 ≤ params.unMaxItemCount)
    {op : Op params.unItemSz} (hfits : Fits pf params st op) :
    (st.1.heap.mallocOk st.1.heap.calls = false ∧ call pf st.1 op = .error .abort) ∨
      (∃ xStatus, xStatus ≠ .SUCCESS ∧ op.onFifo st.2 = none ∧
        call pf st.1 op = .ok (some (xStatus, op.pxItem, st.1))) ∨
      ∃ pxItem s' t' q' addrs', call pf st.1 op = .ok (some (.SUCCESS, pxItem, s')) ∧
        op.onFifo st.2 = some (pxItem, t') ∧ InStep pf params (s', t') q' addrs' := by
  cases op with
  | send pxItem =>
    by_cases hlt : st.2.items.length < params.unMaxItemCount
    · rcases hi.send_room hN hlt (hfits hlt) pxItem with
        habort | ⟨s', t', q', addrs', hcall, hfifo, hi', -⟩
      · exact Or.inl habort
      · exact Or.inr (Or.inr ⟨_, s', t', q', addrs', hcall, hfifo, hi'⟩)
    · have hfull := Nat.le_antisymm st.2.fits (Nat.not_lt.mp hlt)
      obtain ⟨hcall, hfifo⟩ := hi.send_full hN hfull pxItem
      exact Or.inr (Or.inl ⟨_, by decide, hfifo, hcall⟩)
  | receive pxItem =>
    cases hitems : st.2.items with
    | nil =>
      obtain ⟨hcall, hfifo⟩ := hi.receive_empty hitems pxItem
      exact Or.inr (Or.inl ⟨_, by decide, hfifo, hcall⟩)
    | cons bs rest =>
      obtain ⟨s', t', q', addrs', hcall, hfifo, hi', -⟩ := hi.receive_item hitems pxItem
      exact Or.inr (Or.inr ⟨_, s', t', q', addrs', hcall, hfifo, hi'⟩)

/-- What one call does. -/
theorem InStep.answers_iff (hi : InStep pf params st q addrs) (hN : 1 ≤ params.unMaxItemCount)
    (op : Op params.unItemSz) : Answers pf st op ↔ Fits pf params st op := by
  constructor
  · intro hanswers
    cases op with
    | send pxItem =>
      intro hlt
      by_contra hroom
      exact hi.send_stuck hN hlt hroom pxItem hanswers
    | receive pxItem => exact trivial
  · intro hfits
    rcases hi.outcome hN hfits with
      ⟨hmalloc, hcall⟩ | ⟨xStatus, hfails, hfifo, hcall⟩ | ⟨pxItem, s', t', _, _, hcall, hfifo, -⟩
    · rw [Answers, hcall]
      exact ⟨rfl, hmalloc⟩
    · rw [Answers, hcall, hfifo]
      exact ⟨hfails, rfl, rfl⟩
    · rw [Answers, hcall, hfifo]
      exact ⟨rfl, rfl⟩

theorem InStep.next (hi : InStep pf params st q addrs) (hN : 1 ≤ params.unMaxItemCount)
    {op : Op params.unItemSz} (hfits : Fits pf params st op)
    {st' : RsQueueMem × Fifo Bytes params.unMaxItemCount} (hstep : step pf st op = some st') :
    ∃ q addrs, InStep pf params st' q addrs := by
  rcases hi.outcome hN hfits with
    ⟨-, hcall⟩ | ⟨xStatus, -, hfifo, hcall⟩ | ⟨pxItem, s', t', q', addrs', hcall, hfifo, hi'⟩
  · simp [step, hcall] at hstep
  · simp only [step, hcall, hfifo, Option.some.injEq] at hstep
    exact hstep ▸ ⟨q, addrs, hi⟩
  · simp only [step, hcall, hfifo, Option.some.injEq] at hstep
    exact hstep ▸ ⟨q', addrs', hi'⟩

variable (pf) in
/-- The new queue and the empty one. -/
theorem inStep_init {h : Heap} {m : ListMem} {xQueueList : Addr} {pxPool : Option PoolPtr}
    {sQueueName : Option String} {s : RsQueueMem} (hbelow : xQueueList < h.brk)
    (hm : pf.valgrind = true → h.MemoryAvailable)
    (hinit : xRsQueueInit h m xQueueList pxPool sQueueName params = .ok (some s)) :
    params.cap < 65536 ∧ s.heap.mallocOk = h.mallocOk ∧
      ∃ q, InStep pf params (s, .empty) q [] := by
  obtain ⟨hcap, hparams, hmalloc, hr⟩ := xRsQueueInit_represents pf hbelow hinit
  refine ⟨hcap, hmalloc, _, hr, hparams, rfl, rfl, fun _ => rfl, fun hb => ?_, fun hv k => ?_⟩
  · rw [if_pos hb]
    rfl
  · rw [hmalloc]
    exact hm hv k

/-- A queue whose calls all fit answers as the bounded queue, and no other one. -/
theorem guardedSteps_iff_fits (hN : 1 ≤ params.unMaxItemCount) (hi : InStep pf params st q addrs)
    (ops : List (Op params.unItemSz)) :
    GuardedSteps (step pf) (Answers pf) st ops ↔
      GuardedSteps (step pf) (Fits pf params) st ops :=
  guardedSteps_congr (fun st => ∃ q addrs, InStep pf params st q addrs)
    (fun _ op ⟨_, _, hi⟩ => hi.answers_iff hN op)
    (fun _ _ _ ⟨_, _, hi⟩ hfits hstep => hi.next hN hfits hstep) ⟨q, addrs, hi⟩

/-- Sends fill a queue with room up to the maximum of its pool. -/
theorem InStep.fill (hN : params.cap < params.unMaxItemCount) (pxItem : ItemBuf params.unItemSz)
    (k : ℕ) (hi : InStep pf params st q addrs) (hm : st.1.heap.MemoryAvailable)
    (hk : st.2.items.length + k = params.cap) :
    ∃ st', (List.replicate k (.send pxItem)).foldlM (step pf) st = some st' ∧
      (∃ q addrs, InStep pf params st' q addrs) ∧ st'.2.items.length = params.cap := by
  induction k generalizing st q addrs with
  | zero => exact ⟨st, rfl, ⟨q, addrs, hi⟩, hk⟩
  | succ k ih =>
    have hlt : st.2.items.length < params.cap := by omega
    rcases hi.send_room (Nat.lt_of_le_of_lt (Nat.zero_le _) hN) (Nat.lt_trans hlt hN)
      ⟨fun _ => hlt, fun _ => Or.inr hlt⟩ pxItem with
      ⟨hmalloc, -⟩ | ⟨s', t', q', addrs', hcall, hfifo, hi', hlen, hmalloc⟩
    · rw [hm] at hmalloc
      cases hmalloc
    · have hstep : step pf st (.send pxItem) = some (s', t') := by
        simp [step, hcall, hfifo]
      obtain ⟨st', hrun, hst'⟩ := ih hi' (fun j => by rw [hmalloc]; exact hm j)
        (by rw [hlen]; omega)
      refine ⟨st', ?_, hst'⟩
      rw [List.replicate_succ, List.foldlM_cons, hstep]
      exact hrun

/-- A heap with room for a queue at its first address. -/
def roomyHeap : Heap := { bareHeap with brk := 1 }

theorem xRsQueueInit_roomyHeap (m : ListMem) (hcap : params.cap < 65536) :
    ∃ s, xRsQueueInit roomyHeap m 0 (some 0) (some "queue") params = .ok (some s) := by
  have hfit : ¬ 65535 < (0 ||| 1 ||| params.cap) :=
    (or_le_iff 0 1 params.cap).mpr ⟨by decide, by decide, Nat.le_of_lt_succ hcap⟩
  obtain ⟨h', hnew⟩ : ∃ h', pxRsrcNewPool roomyHeap (some 0) (some "queue")
      (sizeofQueueItem + params.unItemSz) 0 1 params.cap = .ok (some 0, h') := by
    rw [pxRsrcNewPool, if_neg (not_or.mpr ⟨hfit, by decide⟩), if_neg (by simp [sizeofQueueItem])]
    exact ⟨_, rfl⟩
  simp only [RsQueueParams.cap] at hnew
  simp only [xRsQueueInit, hnew, Exec.ok_bind]
  exact ⟨_, rfl⟩

/-- A queue which is full for its pool or its semaphore, but not for its parameters. -/
theorem not_actsAsFifo (hlarge : 2 ^ 32 ≤ params.unMaxItemCount) (hcap : params.cap < 65536)
    (hstops : params.xBlock = true ∨ params.cap ≠ 0 ∧ pf.valgrind = false) :
    ¬ ActsAsFifo pf params := by
  intro hacts
  have hlt : params.cap < params.unMaxItemCount :=
    Nat.lt_of_lt_of_le (Nat.mod_lt _ (by decide)) hlarge
  have hN : 1 ≤ params.unMaxItemCount := Nat.le_trans (by decide) hlarge
  obtain ⟨s, hinit⟩ := xRsQueueInit_roomyHeap ⟨⟨fun _ => none, fun _ => none⟩, fun _ => none,
    fun _ => none, fun _ => 0⟩ hcap
  have hmem : roomyHeap.MemoryAvailable := fun _ => rfl
  obtain ⟨-, hmalloc, q, hi⟩ := inStep_init pf (by decide) (fun _ => hmem) hinit
  let pxItem : ItemBuf params.unItemSz := ⟨List.replicate params.unItemSz 0, by simp⟩
  obtain ⟨st', hrun, ⟨q', addrs', hi'⟩, hlen⟩ := hi.fill hlt pxItem params.cap
    (fun k => by rw [hmalloc]; rfl) (Nat.zero_add _)
  have hall := hacts _ _ _ _ _ s (by decide) (fun _ => hmem) hinit
    (List.replicate params.cap (.send pxItem) ++ [.send pxItem])
  have hlast := (hall.of_append hrun).1
  obtain ⟨hplace, hpool⟩ := (hi'.answers_iff hN _).mp hlast (hlen ▸ hlt)
  rw [hlen] at hplace hpool
  rcases hstops with hblock | ⟨hcapped, hv⟩
  · exact Nat.lt_irrefl _ (hplace hblock)
  · exact Nat.lt_irrefl _ ((hpool hv).resolve_left hcapped)

/-- The queues with the parameters act as bounded queues of their maximum if and only if it has no
more than 32 bits, or it leaves no queue because the pool aborts, or nothing but the length of the
list stops a send. -/
theorem actsAsFifo_iff (hN : 1 ≤ params.unMaxItemCount) :
    ActsAsFifo pf params ↔ params.unMaxItemCount < 2 ^ 32 ∨
      65536 ≤ params.unMaxItemCount % 2 ^ 32 ∨
      params.xBlock = false ∧ (params.unMaxItemCount % 2 ^ 32 = 0 ∨ pf.valgrind = true) := by
  constructor
  · intro hacts
    by_contra hno
    simp only [not_or, not_and_or, Nat.not_lt, Nat.not_le] at hno
    obtain ⟨hlarge, hcap, hstops⟩ := hno
    refine not_actsAsFifo hlarge hcap (hstops.imp eq_true_of_ne_false fun ⟨hzero, hv⟩ => ?_) hacts
    exact ⟨hzero, eq_false_of_ne_true hv⟩
  · intro hcond h m xQueueList pxPool sQueueName s hbelow hm hinit ops
    obtain ⟨hcap, -, q, hi⟩ := inStep_init pf hbelow hm hinit
    refine (guardedSteps_iff_fits hN hi ops).mpr ?_
    refine (guardedSteps_congr (fun _ => True) (fun st op _ => ?_) (fun _ _ _ _ _ _ => trivial)
      trivial).mp (guardedSteps_true _ _ ops)
    refine iff_of_true trivial ?_
    cases op with
    | receive => exact trivial
    | send pxItem =>
      intro hlt
      rcases hcond with hsmall | hlarge | ⟨hblock, hfree⟩
      · have hsame : params.cap = params.unMaxItemCount := Nat.mod_eq_of_lt hsmall
        rw [Room, hsame]
        exact ⟨fun _ => hlt, fun _ => Or.inr hlt⟩
      · exact absurd hcap (Nat.not_lt.mpr hlarge)
      · refine ⟨fun hb => ?_, fun hv => Or.inl (hfree.resolve_right ?_)⟩
        · rw [hblock] at hb
          cases hb
        · rw [hv]
          decide

/-- Every blocking queue of two items of four bytes acts as a bounded queue. -/
theorem actsAsFifo_two : ActsAsFifo ⟨true, false⟩ ⟨⟨2, true⟩, 4⟩ :=
  (actsAsFifo_iff (by decide)).mpr (Or.inl (by decide))

/-- A queue of more than `2 ^ 32` items is full after the first one. -/
theorem second_send_refused : ¬ ActsAsFifo ⟨true, false⟩ ⟨⟨2 ^ 32 + 1, false⟩, 4⟩ :=
  not_actsAsFifo (by decide) (by decide) (Or.inr ⟨by decide, rfl⟩)

end RinaSense.Queue.InMemory
