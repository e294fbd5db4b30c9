import RinaSense.Common.Platform

/-!
# Queues

The queue of `common/queue.c`, a list of items from a capped pool with a semaphore for the
items and one for the places, and its operations as one thread runs them when no other
thread is in the way. A call which has to sleep on a semaphore does not come back by
itself.
-/

namespace RinaSense.Queue

open Common

inductive RsErr
  | SUCCESS
  | FAIL
  | ERR_OOM
  | ERR_OVERFLOW
  | ERR_UNDERFLOW
deriving DecidableEq, Repr

structure RsQueueParams where
  unMaxItemCount : ℕ
  xBlock : Bool
deriving DecidableEq, Repr

/-- The pool of a queue starts empty and grows by one item, so each item it gets back goes
to the heap and its freelist is empty between two calls. -/
structure ItemPool where
  uiMaxNumRes : ℕ
  uiNumInUse : ℕ
deriving DecidableEq, Repr

def ItemPool.pxRsrcAlloc (pool : ItemPool) : Option ItemPool :=
  if pool.uiMaxNumRes ≠ 0 ∧ pool.uiMaxNumRes ≤ pool.uiNumInUse then none
  else some { pool with uiNumInUse := pool.uiNumInUse + 1 }

def ItemPool.vRsrcFree (pool : ItemPool) : ItemPool :=
  { pool with uiNumInUse := pool.uiNumInUse - 1 }

variable {α : Type}

structure RsQueue (α : Type) where
  xQueueList : List α
  xPool : ItemPool
  xSemItems : ℕ
  xSemPlaces : ℕ
  xParams : RsQueueParams
deriving DecidableEq, Repr

/-- Whether the senders take their places from the semaphore. -/
def RsQueueParams.bounded (params : RsQueueParams) : Bool :=
  params.xBlock && decide (0 < params.unMaxItemCount)

/-- A pool for more than `UINT16_MAX` items aborts; here the maximum fits an `unsigned int`. The
semaphore of the places is only initialised for a bounded queue. -/
def xRsQueueInit (params : RsQueueParams) : Exec (RsQueue α) :=
  if UInt16.size ≤ params.unMaxItemCount then .error .abort
  else .ok {
    xQueueList := []
    xPool := ⟨params.unMaxItemCount, 0⟩
    xSemItems := 0
    xSemPlaces := if params.bounded then params.unMaxItemCount else 0
    xParams := params }

def RsQueue.postItem (q : RsQueue α) : RsQueue α := { q with xSemItems := q.xSemItems + 1 }

/-- The place is posted whether or not the queue is bounded. -/
def RsQueue.postPlace (q : RsQueue α) : RsQueue α := { q with xSemPlaces := q.xSemPlaces + 1 }

def RsQueue.insert (q : RsQueue α) (x : α) : RsQueue α :=
  { q with xQueueList := q.xQueueList ++ [x] }

/-- How a call goes: it returns a status and, for a receive, the item, or it sleeps on a
semaphore, at most for its timeout unless that is zero. -/
inductive Call (α : Type)
  | returned (status : RsErr) (item : Option α) (q : RsQueue α)
  | waits (unTimeout : ℕ)
deriving DecidableEq, Repr

/-- The part of `prvQueueSendToBack` which follows the wait for a place. -/
def RsQueue.enqueue (q : RsQueue α) (x : α) : Call α :=
  match q.xPool.pxRsrcAlloc with
  | none => .returned .ERR_OOM none q
  | some xPool =>
    let q := { q with xPool := xPool }.insert x
    .returned .SUCCESS none (if q.xParams.xBlock then q.postItem else q)

def prvQueueSendToBack (q : RsQueue α) (x : α) (unTimeout : ℕ) : Call α :=
  if 0 < q.xParams.unMaxItemCount then
    if q.xParams.xBlock then
      match q.xSemPlaces with
      | 0 => .waits unTimeout
      | xSemPlaces + 1 => { q with xSemPlaces := xSemPlaces }.enqueue x
    else if q.xQueueList.length = q.xParams.unMaxItemCount then .returned .ERR_OVERFLOW none q
    else q.enqueue x
  else q.enqueue x

/-- The part of `prvQueueReceive` which follows the wait for an item. The place is posted
before the item goes back to the pool. -/
def RsQueue.dequeue (q : RsQueue α) : Call α :=
  match q.xQueueList with
  | [] => .returned .ERR_UNDERFLOW none q
  | x :: rest =>
    let q := { q with xQueueList := rest }
    let q := if q.xParams.xBlock then q.postPlace else q
    .returned .SUCCESS (some x) { q with xPool := q.xPool.vRsrcFree }

def prvQueueReceive (q : RsQueue α) (unTimeout : ℕ) : Call α :=
  if q.xParams.xBlock then
    match q.xSemItems with
    | 0 => .waits unTimeout
    | xSemItems + 1 => { q with xSemItems := xSemItems }.dequeue
  else q.dequeue

def xRsQueueSendToBackWait (q : RsQueue α) (x : α) : Call α := prvQueueSendToBack q x 0

def xRsQueueSendToBackTimed (q : RsQueue α) (x : α) (unTimeout : ℕ) : Call α :=
  prvQueueSendToBack q x unTimeout

def xRsQueueReceiveWait (q : RsQueue α) : Call α := prvQueueReceive q 0

def xRsQueueReceiveTimed (q : RsQueue α) (unTimeout : ℕ) : Call α := prvQueueReceive q unTimeout

/-- The call which does not block looks at the list, then goes on as one without a
timeout. It holds the mutex of the queue throughout. -/
def xRsQueueSendToBack (q : RsQueue α) (x : α) : Call α :=
  if q.xParams.unMaxItemCount ≠ 0 ∧ q.xQueueList.length = q.xParams.unMaxItemCount then
    .returned .ERR_OVERFLOW none q
  else prvQueueSendToBack q x 0

def xRsQueueReceive (q : RsQueue α) : Call α :=
  if q.xQueueList.length = 0 then .returned .ERR_UNDERFLOW none q
  else prvQueueReceive q 0

theorem ItemPool.pxRsrcAlloc_eq_some {pool pool' : ItemPool} :
    pool.pxRsrcAlloc = some pool' ↔
      (pool.uiMaxNumRes = 0 ∨ pool.uiNumInUse < pool.uiMaxNumRes) ∧
        pool' = { pool with uiNumInUse := pool.uiNumInUse + 1 } := by
  by_cases hfull : pool.uiMaxNumRes ≠ 0 ∧ pool.uiMaxNumRes ≤ pool.uiNumInUse
  · rw [ItemPool.pxRsrcAlloc, if_pos hfull]
    refine iff_of_false (by simp) fun h => ?_
    omega
  · rw [ItemPool.pxRsrcAlloc, if_neg hfull, Option.some.injEq, eq_comm]
    refine ⟨fun h => ⟨by omega, h⟩, And.right⟩

@[simp] theorem RsQueue.insert_length (q : RsQueue α) (x : α) :
    (q.insert x).xQueueList.length = q.xQueueList.length + 1 := by
  rw [RsQueue.insert, List.length_append, List.length_singleton]

theorem prvQueueSendToBack_full {q : RsQueue α} (hb : q.xParams.bounded = true)
    (hk : q.xSemPlaces = 0) (x : α) (unTimeout : ℕ) :
    prvQueueSendToBack q x unTimeout = .waits unTimeout := by
  simp only [RsQueueParams.bounded, Bool.and_eq_true, decide_eq_true_eq] at hb
  rw [prvQueueSendToBack, if_pos hb.2, if_pos hb.1, hk]

theorem prvQueueSendToBack_place {q : RsQueue α} (hb : q.xParams.bounded = true) {k : ℕ}
    (hk : q.xSemPlaces = k + 1) (x : α) (unTimeout : ℕ) :
    prvQueueSendToBack q x unTimeout = { q with xSemPlaces := k }.enqueue x := by
  simp only [RsQueueParams.bounded, Bool.and_eq_true, decide_eq_true_eq] at hb
  rw [prvQueueSendToBack, if_pos hb.2, if_pos hb.1, hk]

/-- After the wait for a place a send returns. -/
theorem RsQueue.enqueue_returns (q : RsQueue α) (x : α) :
    ∃ status q', q.enqueue x = .returned status none q' := by
  cases hp : q.xPool.pxRsrcAlloc with
  | none => exact ⟨.ERR_OOM, q, by rw [RsQueue.enqueue, hp]⟩
  | some xPool => exact ⟨.SUCCESS, _, by rw [RsQueue.enqueue, hp]⟩

end RinaSense.Queue
