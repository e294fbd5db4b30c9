import RinaSense.Queue.Interleaving

/-!
# Accounting for places and items

What each thread holds of the places, of the items and of the pool of a queue, at every
step of its operation, and what therefore stays in step in every interleaving.
-/

namespace RinaSense.Queue

open Common Library.Runs Library.Threads

variable {α : Type} {n : ℕ}

/-! ### What one thread holds -/

/-- A place without an item of the pool. -/
def Phase.allocating : Phase α → ℕ
  | .alloc _ _ => 1
  | _ => 0

/-- A place with an item of the pool which is not on the list. -/
def Phase.carried : Phase α → ℕ
  | .lock _ (.send _) | .list _ (.send _) | .unlock _ (.took _) | .post _ (.took _) => 1
  | _ => 0

/-- An item of the pool whose place was posted. -/
def Phase.freeing : Phase α → ℕ
  | .free _ _ => 1
  | _ => 0

/-- The claim to an item which is still on the list. -/
def Phase.holding : Phase α → ℕ
  | .lock _ .receive | .list _ .receive => 1
  | _ => 0

/-- An item on the list which was not posted. -/
def Phase.unposted : Phase α → ℕ
  | .unlock _ .inserted | .post _ .inserted => 1
  | _ => 0

/-- How many times the thread has the mutex. -/
def Phase.depth : Phase α → ℕ
  | .test _ | .leave _ _ => 1
  | .wait nb _ _ | .asleep nb _ _ | .alloc nb _ | .lock nb _ | .post nb _ | .free nb _ =>
    nb.toNat
  | .list nb _ | .unlock nb _ => nb.toNat + 1
  | .idle | .enter _ | .returned _ _ => 0

/-- The send failed because the pool refused it an item. -/
def Phase.outOfMemory : Phase α → Bool
  | .leave .ERR_OOM _ | .returned .ERR_OOM _ => true
  | _ => false

/-- Neither a place nor an item. -/
structure Phase.Free (p : Phase α) : Prop where
  allocating : p.allocating = 0
  carried : p.carried = 0
  freeing : p.freeing = 0
  holding : p.holding = 0
  unposted : p.unposted = 0

theorem Phase.finish_free (nb : Bool) (status : RsErr) (item : Option α) :
    (Phase.finish nb status item).Free := by
  cases nb <;> exact ⟨rfl, rfl, rfl, rfl, rfl⟩

@[simp] theorem Phase.finish_depth (nb : Bool) (status : RsErr) (item : Option α) :
    (Phase.finish nb status item).depth = nb.toNat := by
  cases nb <;> rfl

@[simp] theorem Phase.finish_outOfMemory (nb : Bool) (status : RsErr) (item : Option α) :
    (Phase.finish nb status item).outOfMemory = decide (status = .ERR_OOM) := by
  cases nb <;> cases status <;> rfl

theorem Phase.Free.of_resting {p : Phase α} (hp : p.resting = true) : p.Free := by
  cases p <;> first | exact ⟨rfl, rfl, rfl, rfl, rfl⟩ | cases hp

/-! ### What a step changes -/

theorem RsQueue.take_send {q q' : RsQueue α} {x : α} (h : q.take (.send x) = some q') :
    ∃ k, q.xSemPlaces = k + 1 ∧ q' = { q with xSemPlaces := k } := by
  simp only [RsQueue.take] at h
  cases hk : q.xSemPlaces with
  | zero => simp [hk] at h
  | succ k =>
    rw [hk] at h
    cases h
    exact ⟨k, rfl, rfl⟩

theorem RsQueue.take_receive {q q' : RsQueue α} (h : q.take .receive = some q') :
    ∃ k, q.xSemItems = k + 1 ∧ q' = { q with xSemItems := k } := by
  simp only [RsQueue.take] at h
  cases hk : q.xSemItems with
  | zero => simp [hk] at h
  | succ k =>
    rw [hk] at h
    cases h
    exact ⟨k, rfl, rfl⟩

/-- Taking a semaphore leaves the rest of the queue as it is. -/
theorem RsQueue.take_same {q q' : RsQueue α} {op : Op α} (h : q.take op = some q') :
    q'.xQueueList = q.xQueueList ∧ q'.xPool = q.xPool ∧ q'.xParams = q.xParams := by
  cases op with
  | send x =>
    rcases RsQueue.take_send h with ⟨k, -, rfl⟩
    exact ⟨rfl, rfl, rfl⟩
  | receive =>
    rcases RsQueue.take_receive h with ⟨k, -, rfl⟩
    exact ⟨rfl, rfl, rfl⟩

@[simp] theorem RsQueue.posted_same (q : RsQueue α) (moved : Moved α) :
    (q.posted moved).xQueueList = q.xQueueList ∧ (q.posted moved).xPool = q.xPool ∧
      (q.posted moved).xParams = q.xParams := by
  cases moved <;> exact ⟨rfl, rfl, rfl⟩

section Effects

variable {q q' : RsQueue α} {p p' : Phase α}

theorem Steps.xParams (h : Steps q p q' p') : q'.xParams = q.xParams := by
  cases h with
  | took _ op _ ht | woken _ op _ ht => exact (RsQueue.take_same ht).2.2
  | post nb moved => exact (q.posted_same moved).2.2
  | _ => rfl

theorem Steps.uiMaxNumRes (h : Steps q p q' p') :
    q'.xPool.uiMaxNumRes = q.xPool.uiMaxNumRes := by
  cases h with
  | took _ op _ ht | woken _ op _ ht => rw [(RsQueue.take_same ht).2.1]
  | post nb moved => rw [(q.posted_same moved).2.1]
  | alloc nb x hp => rw [(ItemPool.pxRsrcAlloc_eq_some.mp hp).2]
  | _ => rfl

theorem Phase.begin_pool (nb : Bool) (op : Op α) :
    (Phase.begin nb op).carried = 0 ∧ (Phase.begin nb op).freeing = 0 := by
  cases op <;> exact ⟨rfl, rfl⟩

/-- The pool lends one item for each item on the list and for each which a thread has off
the list. -/
theorem Steps.pool (h : Steps q p q' p') (hfree : p.freeing ≤ q.xPool.uiNumInUse) :
    q'.xPool.uiNumInUse + q.xQueueList.length + (p.carried + p.freeing) =
      q.xPool.uiNumInUse + q'.xQueueList.length + (p'.carried + p'.freeing) := by
  cases h with
  | took nb op _ ht | woken nb op _ ht =>
    rw [(RsQueue.take_same ht).1, (RsQueue.take_same ht).2.1, (Phase.begin_pool nb op).1,
      (Phase.begin_pool nb op).2]
    rfl
  | skipped nb op _ _ =>
    rw [(Phase.begin_pool nb op).1, (Phase.begin_pool nb op).2]
    rfl
  | overflow nb _ _ _ | refused nb _ _ =>
    have hend := Phase.finish_free (α := α) nb
    rw [(hend _ _).carried, (hend _ _).freeing]
    rfl
  | alloc nb x hp =>
    rw [(ItemPool.pxRsrcAlloc_eq_some.mp hp).2]
    simp [Phase.carried, Phase.freeing]
    omega
  | insert nb x =>
    rw [RsQueue.insert_length]
    simp [Phase.carried, Phase.freeing, RsQueue.insert]
    omega
  | remove nb hl =>
    rw [hl]
    simp [Phase.carried, Phase.freeing]
    omega
  | unposted nb moved _ =>
    cases moved <;> cases nb <;> rfl
  | post nb moved =>
    cases moved <;> cases nb <;> rfl
  | unlock nb moved _ => cases moved <;> rfl
  | lock nb op => cases op <;> rfl
  | free nb x =>
    have hend := Phase.finish_free nb .SUCCESS (some x)
    rw [hend.carried, hend.freeing]
    change 1 ≤ q.xPool.uiNumInUse at hfree
    simp only [ItemPool.vRsrcFree, Phase.carried, Phase.freeing]
    omega
  | _ => rfl

/-- An item on the list is posted, claimed by a receiver or about to be posted. -/
theorem Steps.items (h : Steps q p q' p') (hb : q.xParams.xBlock = true)
    (hlist : p.holding ≤ q.xQueueList.length) :
    q'.xSemItems + (p'.holding + p'.unposted) + q.xQueueList.length =
      q.xSemItems + (p.holding + p.unposted) + q'.xQueueList.length := by
  cases h with
  | took nb op _ ht | woken nb op _ ht =>
    cases op with
    | send x =>
      rcases RsQueue.take_send ht with ⟨k, -, rfl⟩
      rfl
    | receive =>
      rcases RsQueue.take_receive ht with ⟨k, hk, rfl⟩
      simp [hk, Phase.begin, Phase.holding, Phase.unposted]
  | skipped nb op _ hw =>
    cases op with
    | send x => rfl
    | receive => exact absurd (hw.symm.trans hb) Bool.false_ne_true
  | overflow nb _ _ _ | refused nb _ _ | free nb _ =>
    have hend := Phase.finish_free (α := α) nb
    rw [(hend _ _).holding, (hend _ _).unposted]
    rfl
  | insert nb x =>
    rw [RsQueue.insert_length]
    simp [Phase.holding, Phase.unposted, RsQueue.insert]
    omega
  | underflow nb hl =>
    change 1 ≤ q.xQueueList.length at hlist
    rw [hl] at hlist
    cases hlist
  | remove nb hl =>
    rw [hl]
    simp [Phase.holding, Phase.unposted]
    omega
  | unlock nb moved _ => cases moved <;> rfl
  | unposted nb moved hm =>
    rcases hm with rfl | hm
    · cases nb <;> rfl
    · exact absurd (hm.symm.trans hb) Bool.false_ne_true
  | post nb moved =>
    cases moved <;> cases nb <;>
      simp [Phase.holding, Phase.unposted, Phase.afterPost, Phase.finish, RsQueue.posted,
        RsQueue.postItem, RsQueue.postPlace]
  | lock nb op => cases op <;> rfl
  | _ => rfl

theorem RsQueueParams.bounded_xBlock {params : RsQueueParams} (h : params.bounded = true) :
    params.xBlock = true :=
  (Bool.and_eq_true_iff.mp h).1

/-- A place is free, taken by an item on the list, held by a thread, or lost to a send which
the pool refused. -/
theorem Steps.places (h : Steps q p q' p') (hb : q.xParams.bounded = true) :
    q'.xSemPlaces + q'.xQueueList.length + (p'.allocating + p'.carried) + p.refused q =
      q.xSemPlaces + q.xQueueList.length + (p.allocating + p.carried) := by
  cases h with
  | took nb op _ ht | woken nb op _ ht =>
    cases op with
    | send x =>
      rcases RsQueue.take_send ht with ⟨k, hk, rfl⟩
      simp [hk, Phase.begin, Phase.allocating, Phase.carried, Phase.refused]
      omega
    | receive =>
      rcases RsQueue.take_receive ht with ⟨k, -, rfl⟩
      rfl
  | skipped nb op _ hw =>
    cases op with
    | send x => exact absurd (hw.symm.trans hb) Bool.false_ne_true
    | receive => rfl
  | overflow nb _ _ _ | free nb _ =>
    have hend := Phase.finish_free (α := α) nb
    rw [(hend _ _).allocating, (hend _ _).carried]
    rfl
  | refused nb x hp =>
    have hend := Phase.finish_free (α := α) nb
    rw [(hend _ _).allocating, (hend _ _).carried]
    simp [Phase.allocating, Phase.carried, Phase.refused, hp]
  | alloc nb x hp => simp [Phase.allocating, Phase.carried, Phase.refused, hp]
  | insert nb x =>
    rw [RsQueue.insert_length]
    simp [Phase.allocating, Phase.carried, Phase.refused, RsQueue.insert]
    omega
  | remove nb hl =>
    rw [hl]
    simp [Phase.allocating, Phase.carried, Phase.refused]
    omega
  | unlock nb moved _ => cases moved <;> rfl
  | unposted nb moved hm =>
    rcases hm with rfl | hm
    · cases nb <;> rfl
    · exact absurd (hm.symm.trans (RsQueueParams.bounded_xBlock hb)) Bool.false_ne_true
  | post nb moved =>
    cases moved <;> cases nb <;>
      simp [Phase.allocating, Phase.carried, Phase.refused, Phase.afterPost, Phase.finish,
        RsQueue.posted, RsQueue.postItem, RsQueue.postPlace] <;> omega
  | lock nb op => cases op <;> rfl
  | _ => rfl

/-- A send ends without memory only when the pool refuses it. -/
theorem Steps.outOfMemory (h : Steps q p q' p') (ho : p'.outOfMemory = true) :
    p.outOfMemory = true ∨ p.refused q = 1 := by
  cases h with
  | turned op status hs => cases status <;> simp_all [Phase.outOfMemory]
  | refused nb x hp => exact .inr (by simp [Phase.refused, hp])
  | took nb op _ _ | woken nb op _ _ | skipped nb op _ _ =>
    cases op <;> cases ho
  | unposted nb moved _ | post nb moved => cases moved <;> cases nb <;> cases ho
  | leave status item => cases status <;> first | exact .inl rfl | cases ho
  | overflow nb _ _ _ | free nb _ => cases nb <;> cases ho
  | _ => cases ho

end Effects

/-! ### The mutex -/

theorem Mutex.held_lock {m m' : Mutex n} {t : Fin n} (h : m.lock t = some m') (u : Fin n) :
    m'.held u = m.held u + if u = t then 1 else 0 := by
  cases ho : m.owner with
  | none =>
    simp only [Mutex.lock, ho, Option.some.injEq] at h
    subst h
    by_cases hu : u = t
    · simp [Mutex.held, ho, hu]
    · simp [Mutex.held, ho, hu, Ne.symm hu]
  | some v =>
    simp only [Mutex.lock, ho] at h
    split_ifs at h with hv
    cases h
    by_cases hu : u = t
    · simp [Mutex.held, ho, hu, hv]
    · simp [Mutex.held, ho, hu, hv, Ne.symm hu]

theorem Mutex.held_unlock {m : Mutex n} {t : Fin n} (h : 0 < m.held t) (u : Fin n) :
    (m.unlock.held u + if u = t then 1 else 0) = m.held u := by
  have ho : m.owner = some t := by
    by_contra hne
    simp [Mutex.held, hne] at h
  have hd : 0 < m.depth := by simpa [Mutex.held, ho] using h
  by_cases hone : m.depth ≤ 1
  · by_cases hu : u = t
    · simp [Mutex.unlock, Mutex.held, hone, ho, hu]
      omega
    · simp [Mutex.unlock, Mutex.held, hone, ho, hu, Ne.symm hu]
  · by_cases hu : u = t
    · simp [Mutex.unlock, Mutex.held, hone, ho, hu]
      omega
    · simp [Mutex.unlock, Mutex.held, hone, ho, hu, Ne.symm hu]

/-- A thread moves from a depth to another, and the others keep theirs. -/
structure Mutex.Moved (m m' : Mutex n) (t : Fin n) (depth depth' : ℕ) : Prop where
  self : m'.held t + depth = m.held t + depth'
  other : ∀ u, u ≠ t → m'.held u = m.held u

theorem Mutex.Moved.of_lock {m m' : Mutex n} {t : Fin n} (h : m.lock t = some m') (d : ℕ) :
    m.Moved m' t d (d + 1) where
  self := by
    rw [Mutex.held_lock h, if_pos rfl]
    omega
  other u hu := by rw [Mutex.held_lock h, if_neg hu, Nat.add_zero]

theorem Mutex.Moved.of_unlock {m : Mutex n} {t : Fin n} (h : 0 < m.held t) (d : ℕ) :
    m.Moved m.unlock t (d + 1) d where
  self := by
    have := Mutex.held_unlock h t
    rw [if_pos rfl] at this
    omega
  other u hu := by
    have := Mutex.held_unlock h u
    rw [if_neg hu] at this
    exact this

theorem Mutex.Moved.refl (m : Mutex n) (t : Fin n) (d : ℕ) : m.Moved m t d d :=
  ⟨rfl, fun _ _ => rfl⟩

/-- A step takes and gives back the mutex as the depths of its two phases say. -/
theorem Steps.mutex {q q' : RsQueue α} {p p' : Phase α} {m m' : Mutex n} {t : Fin n}
    (h : Steps q p q' p') (hm : p.mutex m t = some m') (hheld : m.held t = p.depth) :
    m.Moved m' t p.depth p'.depth := by
  cases h with
  | enter op => exact .of_lock hm 0
  | lock nb op => exact .of_lock hm _
  | took nb op _ _ | woken nb op _ _ | skipped nb op _ _ =>
    cases hm
    cases op <;> exact .refl m t _
  | overflow nb _ _ _ =>
    cases hm
    rw [Phase.finish_depth]
    exact .refl m t _
  | refused nb x _ =>
    obtain ⟨m₁, -, rfl⟩ := Option.map_eq_some_iff.mp hm
    rw [Phase.finish_depth]
    exact .refl m t _
  | alloc nb x _ =>
    obtain ⟨m₁, -, rfl⟩ := Option.map_eq_some_iff.mp hm
    exact .refl m t _
  | free nb x =>
    obtain ⟨m₁, -, rfl⟩ := Option.map_eq_some_iff.mp hm
    rw [Phase.finish_depth]
    exact .refl m t _
  | unlock nb moved _ =>
    cases hm
    exact .of_unlock (by rw [hheld]; exact Nat.succ_pos _) _
  | unposted nb moved _ =>
    cases hm
    have hd : (Phase.afterPost nb moved).depth = nb.toNat := by
      cases moved <;> cases nb <;> rfl
    rw [hd]
    exact .of_unlock (by rw [hheld]; exact Nat.succ_pos _) _
  | post nb moved =>
    cases hm
    have hd : (Phase.afterPost nb moved).depth = nb.toNat := by
      cases moved <;> cases nb <;> rfl
    rw [hd]
    exact .refl m t _
  | leave status item =>
    cases hm
    exact .of_unlock (by rw [hheld]; exact Nat.one_pos) 0
  | _ =>
    cases hm
    exact .refl m t _

/-! ### The steps of the threads -/

/-- A thread sleeps on a semaphore. -/
def Phase.sleeping : Phase α → Bool
  | .asleep _ _ _ => true
  | _ => false

/-- A thread moves between two phases in which it holds nothing. -/
structure Phase.Quiet (p p' : Phase α) : Prop where
  before : p.Free
  after : p'.Free
  depth : p'.depth = p.depth
  outOfMemory : p'.outOfMemory = false
  sleeping : p'.sleeping = false

theorem Phase.finish_quiet {p : Phase α} {nb : Bool} (hp : p.Free) (hd : p.depth = nb.toNat) :
    p.Quiet (.finish nb .FAIL none) where
  before := hp
  after := Phase.finish_free nb .FAIL none
  depth := by rw [Phase.finish_depth, hd]
  outOfMemory := by rw [Phase.finish_outOfMemory]; rfl
  sleeping := by cases nb <;> rfl

variable {s s' : State α n} {a : Act α n}

/-- What the thread's own step makes of the state. -/
def State.after (s : State α n) (t : Fin n) (xMutex : Mutex n) (q : RsQueue α) (p : Phase α) :
    State α n :=
  { s.setPhase t p with
    queue := q
    xMutex := xMutex
    refusals := s.refusals + (s.phase t).refused s.queue }

theorem step_run {t : Fin n} (h : s.step (.run t) = some s') :
    ∃ xMutex q p, (s.phase t).mutex s.xMutex t = some xMutex ∧
      Steps s.queue (s.phase t) q p ∧ s' = s.after t xMutex q p := by
  simp only [State.step, Option.bind_eq_bind, Option.bind_eq_some_iff] at h
  obtain ⟨xMutex, hm, ⟨q, p⟩, hn, hs⟩ := h
  cases hs
  exact ⟨xMutex, q, p, hm, steps_of_next hn, rfl⟩

theorem step_call {t : Fin n} {nb : Bool} {op : Op α} {unTimeout : ℕ}
    (h : s.step (.call t nb op unTimeout) = some s') :
    ∃ p, s' = s.setPhase t p ∧ (s.phase t).Quiet p := by
  cases hr : (s.phase t).resting with
  | false => simp [State.step, hr] at h
  | true =>
    rw [State.step, if_pos hr] at h
    cases h
    have hd : (s.phase t).depth = 0 := by
      cases hp : s.phase t <;> simp [hp, Phase.resting] at hr <;> rfl
    refine ⟨_, rfl, .of_resting hr, ?_, ?_, ?_, ?_⟩
    · cases nb <;> exact ⟨rfl, rfl, rfl, rfl, rfl⟩
    · rw [hd]
      cases nb <;> rfl
    · cases nb <;> rfl
    · cases nb <;> rfl

theorem step_fail {t : Fin n} (h : s.step (.fail t) = some s') :
    ∃ p, s' = s.setPhase t p ∧ (s.phase t).Quiet p := by
  obtain ⟨p, hp, rfl⟩ := Option.map_eq_some_iff.mp h
  refine ⟨p, rfl, ?_⟩
  cases ht : s.phase t with
  | wait nb op unTimeout =>
    simp only [ht, Phase.failed] at hp
    split_ifs at hp
    cases hp
    exact Phase.finish_quiet ⟨rfl, rfl, rfl, rfl, rfl⟩ rfl
  | asleep nb op unTimeout =>
    simp only [ht, Phase.failed] at hp
    cases hp
    exact Phase.finish_quiet ⟨rfl, rfl, rfl, rfl, rfl⟩ rfl
  | _ =>
    rw [ht] at hp
    cases hp

theorem step_cases (h : s.step a = some s') :
    (∃ t p, s' = s.setPhase t p ∧ (s.phase t).Quiet p ∧ ∀ u, a ≠ .run u) ∨
    (∃ t xMutex q p, a = .run t ∧ (s.phase t).mutex s.xMutex t = some xMutex ∧
      Steps s.queue (s.phase t) q p ∧ s' = s.after t xMutex q p) := by
  cases a with
  | call t nb op unTimeout =>
    rcases step_call h with ⟨p, rfl, hq⟩
    exact .inl ⟨t, p, rfl, hq, by simp⟩
  | fail t =>
    rcases step_fail h with ⟨p, rfl, hq⟩
    exact .inl ⟨t, p, rfl, hq, by simp⟩
  | run t =>
    rcases step_run h with ⟨xMutex, q, p, hm, hn, rfl⟩
    exact .inr ⟨t, xMutex, q, p, rfl, hm, hn, rfl⟩

/-- The places which threads hold, with an item of the pool or without. -/
def State.heldPlaces (s : State α n) : ℕ :=
  tally Phase.allocating s.phase + tally Phase.carried s.phase

/-- The items on the list which a receiver has claimed or which are not posted. -/
def State.heldItems (s : State α n) : ℕ :=
  tally Phase.holding s.phase + tally Phase.unposted s.phase

/-- The items of the pool which are not on the list. -/
def State.heldPool (s : State α n) : ℕ :=
  tally Phase.carried s.phase + tally Phase.freeing s.phase

/-- What holds in every state of every interleaving. -/
structure Inv (params : RsQueueParams) (s : State α n) : Prop where
  xParams : s.queue.xParams = params
  uiMaxNumRes : s.queue.xPool.uiMaxNumRes = params.unMaxItemCount
  pool : s.queue.xPool.uiNumInUse = s.queue.xQueueList.length + s.heldPool
  items : params.xBlock = true →
    s.queue.xSemItems + s.heldItems = s.queue.xQueueList.length
  places : params.bounded = true →
    s.queue.xSemPlaces + s.queue.xQueueList.length + s.heldPlaces + s.refusals =
      params.unMaxItemCount
  mutex : ∀ t, s.xMutex.held t = (s.phase t).depth
  refused : ∀ t, (s.phase t).outOfMemory = true → 0 < s.refusals

variable {params : RsQueueParams}

theorem tally_init (q : RsQueue α) {w : Phase α → ℕ} (hw : w .idle = 0) :
    tally w (State.init q n).phase = 0 :=
  tally_start hw

theorem inv_init {q : RsQueue α} (hq : xRsQueueInit params = .ok q) :
    Inv params (State.init q n) := by
  have hallocating : tally Phase.allocating (State.init q n).phase = 0 := tally_init q rfl
  have hcarried : tally Phase.carried (State.init q n).phase = 0 := tally_init q rfl
  have hfreeing : tally Phase.freeing (State.init q n).phase = 0 := tally_init q rfl
  have hholding : tally Phase.holding (State.init q n).phase = 0 := tally_init q rfl
  have hunposted : tally Phase.unposted (State.init q n).phase = 0 := tally_init q rfl
  rw [xRsQueueInit] at hq
  split at hq
  · cases hq
  · refine ⟨?_, ?_, ?_, fun _ => ?_, fun hb => ?_, fun t => rfl, fun t ht => by cases ht⟩
    · cases hq
      rfl
    · cases hq
      rfl
    · rw [State.heldPool, hcarried, hfreeing]
      cases hq
      rfl
    · rw [State.heldItems, hholding, hunposted]
      cases hq
      rfl
    · rw [State.heldPlaces, hallocating, hcarried]
      cases hq
      exact if_pos hb

theorem tally_quiet {w : Phase α → ℕ} {phase : Fin n → Phase α} {t : Fin n} {p : Phase α}
    (hw : w (phase t) = 0) (hp : w p = 0) :
    tally w (Function.update phase t p) = tally w phase := by
  have := tally_update w phase t p
  omega

theorem Inv.quiet (h : Inv params s) {t : Fin n} {p : Phase α} (hq : (s.phase t).Quiet p) :
    Inv params (s.setPhase t p) := by
  have hallocating := tally_quiet hq.before.allocating hq.after.allocating
  have hcarried := tally_quiet hq.before.carried hq.after.carried
  have hfreeing := tally_quiet hq.before.freeing hq.after.freeing
  have hholding := tally_quiet hq.before.holding hq.after.holding
  have hunposted := tally_quiet hq.before.unposted hq.after.unposted
  refine ⟨h.xParams, h.uiMaxNumRes, ?_, fun hb => ?_, fun hb => ?_, fun u => ?_, fun u hu => ?_⟩
  · have hpool := h.pool
    simpa only [State.heldPool, State.setPhase, hcarried, hfreeing] using hpool
  · have hitems := h.items hb
    simpa only [State.heldItems, State.setPhase, hholding, hunposted] using hitems
  · have hplaces := h.places hb
    simpa only [State.heldPlaces, State.setPhase, hallocating, hcarried] using hplaces
  · by_cases hu : u = t
    · subst hu
      simpa [State.setPhase, hq.depth] using h.mutex u
    · simpa [State.setPhase, Function.update_of_ne hu] using h.mutex u
  · by_cases hut : u = t
    · subst hut
      simp [State.setPhase, hq.outOfMemory] at hu
    · exact h.refused u (by simpa [State.setPhase, Function.update_of_ne hut] using hu)

theorem Inv.run (h : Inv params s) {t : Fin n} {xMutex : Mutex n} {q : RsQueue α}
    {p : Phase α} (hm : (s.phase t).mutex s.xMutex t = some xMutex)
    (hst : Steps s.queue (s.phase t) q p) : Inv params (s.after t xMutex q p) := by
  have hpool := h.pool
  have hcarried := tally_update Phase.carried s.phase t p
  have hfreeing := tally_update Phase.freeing s.phase t p
  have hmutex := hst.mutex hm (h.mutex t)
  simp only [State.heldPool] at hpool
  refine ⟨hst.xParams.trans h.xParams, hst.uiMaxNumRes.trans h.uiMaxNumRes, ?_, fun hb => ?_,
    fun hb => ?_, fun u => ?_, fun u hu => ?_⟩
  · have hle := le_tally Phase.freeing s.phase t
    have := hst.pool (by omega)
    simp only [State.after, State.heldPool, State.setPhase]
    omega
  · have hitems := h.items hb
    have hholding := tally_update Phase.holding s.phase t p
    have hunposted := tally_update Phase.unposted s.phase t p
    have hle := le_tally Phase.holding s.phase t
    simp only [State.heldItems] at hitems
    have := hst.items (by rw [h.xParams, hb]) (by omega)
    simp only [State.after, State.heldItems, State.setPhase]
    omega
  · have hplaces := h.places hb
    have hallocating := tally_update Phase.allocating s.phase t p
    have := hst.places (by rw [h.xParams, hb])
    simp only [State.heldPlaces] at hplaces
    simp only [State.after, State.heldPlaces, State.setPhase]
    omega
  · have hself := hmutex.self
    by_cases hu : u = t
    · subst hu
      have := h.mutex u
      simp only [State.after, State.setPhase, Function.update_self]
      omega
    · simp only [State.after, State.setPhase, Function.update_of_ne hu]
      rw [hmutex.other u hu, h.mutex u]
  · change 0 < s.refusals + (s.phase t).refused s.queue
    by_cases hut : u = t
    · subst hut
      simp only [State.after, State.setPhase, Function.update_self] at hu
      rcases hst.outOfMemory hu with ho | ho
      · have := h.refused u ho
        omega
      · omega
    · simp only [State.after, State.setPhase, Function.update_of_ne hut] at hu
      have := h.refused u hu
      omega

theorem Inv.step (h : Inv params s) (hst : s.step a = some s') : Inv params s' := by
  rcases step_cases hst with ⟨t, p, rfl, hq, -⟩ | ⟨t, xMutex, q, p, -, hm, hn, rfl⟩
  · exact h.quiet hq
  · exact h.run hm hn

/-- The accounts are right in every state which an interleaving reaches. -/
theorem inv_reached {q : RsQueue α} (hq : xRsQueueInit params = .ok q) {acts : List (Act α n)}
    (hrun : acts.foldlM State.step (State.init q n) = some s) : Inv params s :=
  foldlM_preserves (fun _ _ _ h hst => Inv.step h hst) (inv_init hq) hrun

end RinaSense.Queue
