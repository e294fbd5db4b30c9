import RinaSense.Library.Runs
import RinaSense.Library.Threads
import RinaSense.Queue.RsQueue
import Mathlib.Logic.Relation

/-!
# Interleaved queue operations

The senders and receivers of one queue, blocking or not, each at a step of its operation:
the wait for a semaphore, the pool, the mutex, the list and the post. A call which does
not block holds the mutex of the queue, which is recursive, from its look at the list to
its return.
-/

namespace RinaSense.Queue

open Common Library.Runs Library.Threads

variable {α : Type}

inductive Op (α : Type)
  | send (x : α)
  | receive
deriving DecidableEq, Repr

/-- What the list operation did. -/
inductive Moved (α : Type)
  | inserted
  | took (x : α)
  | empty
deriving DecidableEq, Repr

/-- Where a thread is. The flag of an operation tells that it does not block. -/
inductive Phase (α : Type)
  | idle
  | enter (op : Op α)
  | test (op : Op α)
  | wait (nb : Bool) (op : Op α) (unTimeout : ℕ)
  | asleep (nb : Bool) (op : Op α) (unTimeout : ℕ)
  | alloc (nb : Bool) (x : α)
  | lock (nb : Bool) (op : Op α)
  | list (nb : Bool) (op : Op α)
  | unlock (nb : Bool) (moved : Moved α)
  | post (nb : Bool) (moved : Moved α)
  | free (nb : Bool) (x : α)
  | leave (status : RsErr) (item : Option α)
  | returned (status : RsErr) (item : Option α)
deriving DecidableEq, Repr

/-- A call which does not block still has to give the mutex back. -/
def Phase.finish (nb : Bool) (status : RsErr) (item : Option α) : Phase α :=
  if nb then .leave status item else .returned status item

/-- Past the semaphores. -/
def Phase.begin (nb : Bool) : Op α → Phase α
  | .send x => .alloc nb x
  | .receive => .lock nb .receive

/-- Past the post. -/
def Phase.afterPost (nb : Bool) : Moved α → Phase α
  | .inserted => .finish nb .SUCCESS none
  | .took x => .free nb x
  | .empty => .finish nb .ERR_UNDERFLOW none

/-- Taking the semaphore on which the operation waits. -/
def RsQueue.take (q : RsQueue α) : Op α → Option (RsQueue α)
  | .send _ =>
    match q.xSemPlaces with
    | 0 => none
    | xSemPlaces + 1 => some { q with xSemPlaces := xSemPlaces }
  | .receive =>
    match q.xSemItems with
    | 0 => none
    | xSemItems + 1 => some { q with xSemItems := xSemItems }

/-- Whether the operation waits on a semaphore. -/
def RsQueueParams.waits (params : RsQueueParams) : Op α → Bool
  | .send _ => params.bounded
  | .receive => params.xBlock

def RsQueue.posted (q : RsQueue α) : Moved α → RsQueue α
  | .inserted => q.postItem
  | .took _ => q.postPlace
  | .empty => q

/-- The next step of a thread on the queue, mutex apart. -/
def Phase.next (q : RsQueue α) : Phase α → Option (RsQueue α × Phase α)
  | .idle => none
  | .enter op => some (q, .test op)
  | .test (.send x) =>
    if q.xParams.unMaxItemCount ≠ 0 ∧ q.xQueueList.length = q.xParams.unMaxItemCount then
      some (q, .leave .ERR_OVERFLOW none)
    else some (q, .wait true (.send x) 0)
  | .test .receive =>
    if q.xQueueList.length = 0 then some (q, .leave .ERR_UNDERFLOW none)
    else some (q, .wait true .receive 0)
  | .wait nb op unTimeout =>
    if q.xParams.waits op then
      match q.take op with
      | some q' => some (q', .begin nb op)
      | none => some (q, .asleep nb op unTimeout)
    else
      match op with
      | .send x =>
        if 0 < q.xParams.unMaxItemCount ∧ q.xParams.xBlock = false ∧
            q.xQueueList.length = q.xParams.unMaxItemCount then
          some (q, .finish nb .ERR_OVERFLOW none)
        else some (q, .alloc nb x)
      | .receive => some (q, .lock nb .receive)
  | .asleep nb op _ => (q.take op).map fun q' => (q', .begin nb op)
  | .alloc nb x =>
    match q.xPool.pxRsrcAlloc with
    | none => some (q, .finish nb .ERR_OOM none)
    | some xPool => some ({ q with xPool := xPool }, .lock nb (.send x))
  | .lock nb op => some (q, .list nb op)
  | .list nb (.send x) => some (q.insert x, .unlock nb .inserted)
  | .list nb .receive =>
    match q.xQueueList with
    | [] => some (q, .unlock nb .empty)
    | x :: rest => some ({ q with xQueueList := rest }, .unlock nb (.took x))
  | .unlock nb .empty => some (q, .finish nb .ERR_UNDERFLOW none)
  | .unlock nb moved =>
    if q.xParams.xBlock then some (q, .post nb moved) else some (q, .afterPost nb moved)
  | .post nb moved => some (q.posted moved, .afterPost nb moved)
  | .free nb x => some ({ q with xPool := q.xPool.vRsrcFree }, .finish nb .SUCCESS (some x))
  | .leave status item => some (q, .returned status item)
  | .returned _ _ => none

variable {n : ℕ}

/-- A recursive mutex, with its owner and how many times it is locked. -/
structure Mutex (n : ℕ) where
  owner : Option (Fin n)
  depth : ℕ
deriving DecidableEq, Repr

def Mutex.lock (m : Mutex n) (t : Fin n) : Option (Mutex n) :=
  match m.owner with
  | none => some ⟨some t, 1⟩
  | some u => if u = t then some { m with depth := m.depth + 1 } else none

def Mutex.unlock (m : Mutex n) : Mutex n :=
  if m.depth ≤ 1 then ⟨none, 0⟩ else { m with depth := m.depth - 1 }

/-- How many times a thread has the mutex locked. -/
def Mutex.held (m : Mutex n) (t : Fin n) : ℕ := if m.owner = some t then m.depth else 0

/-- What the step of a thread does to the mutex. The pool has the mutex of the queue and
gives it back before its functions return. -/
def Phase.mutex (m : Mutex n) (t : Fin n) : Phase α → Option (Mutex n)
  | .enter _ | .lock _ _ => m.lock t
  | .unlock _ _ | .leave _ _ => some m.unlock
  | .alloc _ _ | .free _ _ => (m.lock t).map fun _ => m
  | _ => some m

/-- A send which the pool refuses. -/
def Phase.refused (q : RsQueue α) : Phase α → ℕ
  | .alloc _ _ => if q.xPool.pxRsrcAlloc.isNone then 1 else 0
  | _ => 0

structure State (α : Type) (n : ℕ) where
  queue : RsQueue α
  phase : Fin n → Phase α
  xMutex : Mutex n
  /-- How many sends the pool has refused so far. -/
  refusals : ℕ

def State.init (q : RsQueue α) (n : ℕ) : State α n where
  queue := q
  phase := fun _ => .idle
  xMutex := ⟨none, 0⟩
  refusals := 0

/-- A thread calls an operation, takes its next step, or comes back from a wait with an
error: its timeout is over or a signal interrupts it. -/
inductive Act (α : Type) (n : ℕ)
  | call (t : Fin n) (nb : Bool) (op : Op α) (unTimeout : ℕ)
  | run (t : Fin n)
  | fail (t : Fin n)
deriving DecidableEq, Repr

def Phase.resting : Phase α → Bool
  | .idle | .returned _ _ => true
  | _ => false

/-- The wait which can come back with an error. -/
def Phase.failed (q : RsQueue α) : Phase α → Option (Phase α)
  | .wait nb op _ => if q.xParams.waits op then some (.finish nb .FAIL none) else none
  | .asleep nb _ _ => some (.finish nb .FAIL none)
  | _ => none

def State.setPhase (s : State α n) (t : Fin n) (p : Phase α) : State α n :=
  { s with phase := Function.update s.phase t p }

def State.step (s : State α n) : Act α n → Option (State α n)
  | .call t nb op unTimeout =>
    if (s.phase t).resting then
      some (s.setPhase t (if nb then .enter op else .wait false op unTimeout))
    else none
  | .run t => do
    let xMutex ← (s.phase t).mutex s.xMutex t
    let (q, p) ← (s.phase t).next s.queue
    return { s.setPhase t p with
      queue := q
      xMutex := xMutex
      refusals := s.refusals + (s.phase t).refused s.queue }
  | .fail t => ((s.phase t).failed s.queue).map fun p => s.setPhase t p

/-- A thread calls a blocking operation and takes `k` steps of it. -/
def Act.runs (t : Fin n) (op : Op α) (k : ℕ) : List (Act α n) :=
  .call t false op 0 :: List.replicate k (.run t)

/-! ### The steps of one thread -/

/-- What a step of a thread can be: from its phase `p` it leaves the queue `q'` and goes to
the phase `p'`. -/
inductive Steps (q : RsQueue α) : Phase α → RsQueue α → Phase α → Prop
  | enter (op : Op α) : Steps q (.enter op) q (.test op)
  | turned (op : Op α) (status : RsErr) (hs : status ≠ .ERR_OOM) :
    Steps q (.test op) q (.leave status none)
  | passed (op : Op α) : Steps q (.test op) q (.wait true op 0)
  | took {q' : RsQueue α} (nb : Bool) (op : Op α) (unTimeout : ℕ) (h : q.take op = some q') :
    Steps q (.wait nb op unTimeout) q' (.begin nb op)
  | sleeps (nb : Bool) (op : Op α) (unTimeout : ℕ) (hw : q.xParams.waits op = true)
    (h : q.take op = none) : Steps q (.wait nb op unTimeout) q (.asleep nb op unTimeout)
  | skipped (nb : Bool) (op : Op α) (unTimeout : ℕ) (hw : q.xParams.waits op = false) :
    Steps q (.wait nb op unTimeout) q (.begin nb op)
  | overflow (nb : Bool) (op : Op α) (unTimeout : ℕ) (hw : q.xParams.waits op = false) :
    Steps q (.wait nb op unTimeout) q (.finish nb .ERR_OVERFLOW none)
  | woken {q' : RsQueue α} (nb : Bool) (op : Op α) (unTimeout : ℕ) (h : q.take op = some q') :
    Steps q (.asleep nb op unTimeout) q' (.begin nb op)
  | refused (nb : Bool) (x : α) (h : q.xPool.pxRsrcAlloc = none) :
    Steps q (.alloc nb x) q (.finish nb .ERR_OOM none)
  | alloc {xPool : ItemPool} (nb : Bool) (x : α) (h : q.xPool.pxRsrcAlloc = some xPool) :
    Steps q (.alloc nb x) { q with xPool := xPool } (.lock nb (.send x))
  | lock (nb : Bool) (op : Op α) : Steps q (.lock nb op) q (.list nb op)
  | insert (nb : Bool) (x : α) :
    Steps q (.list nb (.send x)) (q.insert x) (.unlock nb .inserted)
  | underflow (nb : Bool) (h : q.xQueueList = []) :
    Steps q (.list nb .receive) q (.unlock nb .empty)
  | remove {x : α} {rest : List α} (nb : Bool) (h : q.xQueueList = x :: rest) :
    Steps q (.list nb .receive) { q with xQueueList := rest } (.unlock nb (.took x))
  | unlock (nb : Bool) (moved : Moved α) (hm : moved ≠ .empty) :
    Steps q (.unlock nb moved) q (.post nb moved)
  | unposted (nb : Bool) (moved : Moved α) (hb : moved = .empty ∨ q.xParams.xBlock = false) :
    Steps q (.unlock nb moved) q (.afterPost nb moved)
  | post (nb : Bool) (moved : Moved α) :
    Steps q (.post nb moved) (q.posted moved) (.afterPost nb moved)
  | free (nb : Bool) (x : α) :
    Steps q (.free nb x) { q with xPool := q.xPool.vRsrcFree } (.finish nb .SUCCESS (some x))
  | leave (status : RsErr) (item : Option α) :
    Steps q (.leave status item) q (.returned status item)

theorem Steps.of_wait {q q' : RsQueue α} {nb : Bool} {op : Op α} {unTimeout : ℕ}
    {p' : Phase α} (h : (Phase.wait nb op unTimeout).next q = some (q', p')) :
    Steps q (.wait nb op unTimeout) q' p' := by
  simp only [Phase.next] at h
  cases hw : q.xParams.waits op with
  | true =>
    rw [hw, if_pos rfl] at h
    cases ht : q.take op with
    | none =>
      rw [ht] at h
      cases h
      exact .sleeps nb op unTimeout hw ht
    | some q₁ =>
      rw [ht] at h
      cases h
      exact .took nb op unTimeout ht
  | false =>
    rw [hw, if_neg Bool.false_ne_true] at h
    cases op with
    | receive =>
      cases h
      exact .skipped nb .receive unTimeout hw
    | send x =>
      simp only at h
      split_ifs at h
      · cases h
        exact .overflow nb _ unTimeout hw
      · cases h
        exact .skipped nb (.send x) unTimeout hw

theorem Steps.of_unlock {q q' : RsQueue α} {nb : Bool} {moved : Moved α} {p' : Phase α}
    (h : (Phase.unlock nb moved).next q = some (q', p')) :
    Steps q (.unlock nb moved) q' p' := by
  cases moved with
  | empty =>
    cases h
    exact .unposted nb .empty (.inl rfl)
  | inserted | took x =>
    simp only [Phase.next] at h
    split_ifs at h with hb
    · cases h
      exact .unlock nb _ (by simp)
    · cases h
      exact .unposted nb _ (.inr (by simpa using hb))

theorem steps_of_next {q q' : RsQueue α} {p p' : Phase α} (h : p.next q = some (q', p')) :
    Steps q p q' p' := by
  cases p with
  | idle | returned _ _ => cases h
  | enter op =>
    cases h
    exact .enter op
  | test op =>
    cases op <;> simp only [Phase.next] at h <;> split_ifs at h <;> cases h
    · exact .turned _ _ (by simp)
    · exact .passed _
    · exact .turned _ _ (by simp)
    · exact .passed _
  | wait nb op unTimeout => exact .of_wait h
  | asleep nb op unTimeout =>
    obtain ⟨q₁, hq, he⟩ := Option.map_eq_some_iff.mp h
    cases he
    exact .woken nb op unTimeout hq
  | alloc nb x =>
    simp only [Phase.next] at h
    cases hp : q.xPool.pxRsrcAlloc with
    | none =>
      rw [hp] at h
      cases h
      exact .refused nb x hp
    | some xPool =>
      rw [hp] at h
      cases h
      exact .alloc nb x hp
  | lock nb op =>
    cases h
    exact .lock nb op
  | list nb op =>
    cases op with
    | send x =>
      cases h
      exact .insert nb x
    | receive =>
      simp only [Phase.next] at h
      cases hl : q.xQueueList with
      | nil =>
        rw [hl] at h
        cases h
        exact .underflow nb hl
      | cons x rest =>
        rw [hl] at h
        cases h
        exact .remove nb hl
  | unlock nb moved => exact .of_unlock h
  | post nb moved =>
    cases h
    exact .post nb moved
  | free nb x =>
    cases h
    exact .free nb x
  | leave status item =>
    cases h
    exact .leave status item

/-! ### A thread which is left alone -/

/-- One step of a thread with the queue to itself. -/
def Alone (a b : RsQueue α × Phase α) : Prop := a.2.next a.1 = some b

/-- From its phase a thread left alone comes to the end of its operation, or to sleep, as
the call says. -/
def Goes (q : RsQueue α) (p : Phase α) (nb : Bool) : Call α → Prop
  | .returned status item q' =>
    Relation.ReflTransGen Alone (q, p) (q', .finish nb status item)
  | .waits unTimeout =>
    ∃ q' op, Relation.ReflTransGen Alone (q, p) (q', .asleep nb op unTimeout)

theorem Goes.head {q q' : RsQueue α} {p p' : Phase α} {nb : Bool} {call : Call α}
    (hstep : p.next q = some (q', p')) (h : Goes q' p' nb call) : Goes q p nb call := by
  cases call with
  | returned status item q₁ => exact Relation.ReflTransGen.head hstep h
  | waits unTimeout =>
    rcases h with ⟨q₁, op, ho⟩
    exact ⟨q₁, op, Relation.ReflTransGen.head hstep ho⟩

theorem Goes.finished (q : RsQueue α) (nb : Bool) (status : RsErr) (item : Option α) :
    Goes q (.finish nb status item) nb (.returned status item q) :=
  Relation.ReflTransGen.refl

theorem Goes.asleep (q : RsQueue α) (nb : Bool) (op : Op α) (unTimeout : ℕ) :
    Goes q (.asleep nb op unTimeout) nb (.waits unTimeout) :=
  ⟨q, op, Relation.ReflTransGen.refl⟩

theorem enqueue_goes (q : RsQueue α) (nb : Bool) (x : α) :
    Goes q (.alloc nb x) nb (q.enqueue x) := by
  cases hp : q.xPool.pxRsrcAlloc with
  | none =>
    rw [RsQueue.enqueue, hp]
    exact .head (by rw [Phase.next, hp]) (.finished q nb .ERR_OOM none)
  | some xPool =>
    rw [RsQueue.enqueue, hp]
    refine .head (by rw [Phase.next, hp]) (.head rfl (.head rfl ?_))
    cases hb : q.xParams.xBlock with
    | true =>
      simp only [RsQueue.insert, hb, if_true]
      exact .head (if_pos hb) (.head rfl (.finished _ nb .SUCCESS none))
    | false =>
      simp only [RsQueue.insert, hb]
      exact .head (if_neg (by simp [hb])) (.finished _ nb .SUCCESS none)

theorem dequeue_goes (q : RsQueue α) (nb : Bool) :
    Goes q (.lock nb .receive) nb q.dequeue := by
  refine .head rfl ?_
  cases hl : q.xQueueList with
  | nil =>
    rw [RsQueue.dequeue, hl]
    exact .head (by rw [Phase.next, hl]) (.head rfl (.finished q nb .ERR_UNDERFLOW none))
  | cons x rest =>
    rw [RsQueue.dequeue, hl]
    refine .head (by rw [Phase.next, hl]) ?_
    cases hb : q.xParams.xBlock with
    | true =>
      simp only [hb, if_true]
      exact .head (if_pos hb) (.head rfl (.head rfl (.finished _ nb .SUCCESS (some x))))
    | false =>
      simp only [hb, Bool.false_eq_true, if_false]
      exact .head (if_neg (by simp [hb])) (.head rfl (.finished _ nb .SUCCESS (some x)))

/-- A send by a thread which is left alone. -/
theorem prvQueueSendToBack_goes (q : RsQueue α) (nb : Bool) (x : α) (unTimeout : ℕ) :
    Goes q (.wait nb (.send x) unTimeout) nb (prvQueueSendToBack q x unTimeout) := by
  by_cases hN : 0 < q.xParams.unMaxItemCount
  · rw [prvQueueSendToBack, if_pos hN]
    cases hb : q.xParams.xBlock with
    | true =>
      have hw : q.xParams.waits (.send x) = true := by
        simp [RsQueueParams.waits, RsQueueParams.bounded, hb, hN]
      rw [if_pos rfl]
      cases hk : q.xSemPlaces with
      | zero =>
        exact .head (by simp [Phase.next, hw, RsQueue.take, hk]) (.asleep q nb (.send x) unTimeout)
      | succ k =>
        exact .head (by simp [Phase.next, hw, RsQueue.take, hk]; rfl) (enqueue_goes _ nb x)
    | false =>
      have hw : q.xParams.waits (.send x) = false := by
        simp [RsQueueParams.waits, RsQueueParams.bounded, hb]
      rw [if_neg Bool.false_ne_true]
      by_cases hfull : q.xQueueList.length = q.xParams.unMaxItemCount
      · rw [if_pos hfull]
        exact .head (by simp [Phase.next, hw, hb, hfull, hN]) (.finished q nb .ERR_OVERFLOW none)
      · rw [if_neg hfull]
        exact .head (by simp [Phase.next, hw, hfull]) (enqueue_goes q nb x)
  · have hw : q.xParams.waits (.send x) = false := by
      simp [RsQueueParams.waits, RsQueueParams.bounded, hN]
    rw [prvQueueSendToBack, if_neg hN]
    exact .head (by simp [Phase.next, hw, hN]) (enqueue_goes q nb x)

/-- A receive by a thread which is left alone. -/
theorem prvQueueReceive_goes (q : RsQueue α) (nb : Bool) (unTimeout : ℕ) :
    Goes q (.wait nb .receive unTimeout) nb (prvQueueReceive q unTimeout) := by
  rw [prvQueueReceive]
  cases hb : q.xParams.xBlock with
  | true =>
    rw [if_pos rfl]
    cases hk : q.xSemItems with
    | zero =>
      exact .head (by simp [Phase.next, RsQueueParams.waits, hb, RsQueue.take, hk])
        (.asleep q nb .receive unTimeout)
    | succ k =>
      exact .head (by simp [Phase.next, RsQueueParams.waits, hb, RsQueue.take, hk]; rfl)
        (dequeue_goes _ nb)
  | false =>
    rw [if_neg Bool.false_ne_true]
    exact .head (by simp [Phase.next, RsQueueParams.waits, hb]) (dequeue_goes q nb)

/-- The calls which do not block, up to the mutex which they still hold. -/
theorem xRsQueueSendToBack_goes (q : RsQueue α) (x : α) :
    Goes q (.enter (.send x)) true (xRsQueueSendToBack q x) := by
  refine .head rfl ?_
  rw [xRsQueueSendToBack]
  split_ifs with hfull
  · exact .head (if_pos hfull) (.finished q true .ERR_OVERFLOW none)
  · exact .head (if_neg hfull) (prvQueueSendToBack_goes q true x 0)

theorem xRsQueueReceive_goes (q : RsQueue α) :
    Goes q (.enter .receive) true (xRsQueueReceive q) := by
  refine .head rfl ?_
  rw [xRsQueueReceive]
  split_ifs with hempty
  · exact .head (if_pos hempty) (.finished q true .ERR_UNDERFLOW none)
  · exact .head (if_neg hempty) (prvQueueReceive_goes q true 0)

end RinaSense.Queue
