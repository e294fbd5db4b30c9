import RinaSense.Library.Linear
import RinaSense.Queue.Accounting

/-!
# Queues under concurrency

Whatever the threads do, every operation on a queue acts at one instant between its call and its
return, and the operations act as those of a bounded list in the order of these instants. The
instant of a send or a receive which succeeds is its step on the list, that of an operation which
fails is the step that turns it away.
-/

namespace RinaSense.Queue

open Common Library.Runs Library.Threads Library.Linear

variable {α : Type} {n : ℕ}

/-- What an operation makes of the list of the queue, and what it returns. -/
inductive QueueOp (params : RsQueueParams) : List α → Op α → RsErr × Option α → List α → Prop
  | sent {l : List α} {x : α}
    (hroom : params.unMaxItemCount = 0 ∨ l.length < params.unMaxItemCount) :
    QueueOp params l (.send x) (.SUCCESS, none) (l ++ [x])
  | received {l : List α} {x : α} :
    QueueOp params (x :: l) .receive (.SUCCESS, some x) l
  | full {l : List α} {x : α} (hfull : l.length = params.unMaxItemCount) :
    QueueOp params l (.send x) (.ERR_OVERFLOW, none) l
  | empty : QueueOp params [] .receive (.ERR_UNDERFLOW, none) []
  | refused {l : List α} {x : α} (hmax : params.unMaxItemCount ≠ 0) :
    QueueOp params l (.send x) (.ERR_OOM, none) l
  | gaveUp {l : List α} {op : Op α} (hblock : params.xBlock = true) :
    QueueOp params l op (.FAIL, none) l

def Moved.result : Moved α → RsErr × Option α
  | .inserted => (.SUCCESS, none)
  | .took x => (.SUCCESS, some x)
  | .empty => (.ERR_UNDERFLOW, none)

def Phase.stage : Phase α → Stage (Op α) (RsErr × Option α)
  | .idle | .returned _ _ => .outside
  | .enter op | .test op | .wait _ op _ | .asleep _ op _ | .lock _ op | .list _ op => .pending op
  | .alloc _ x => .pending (.send x)
  | .unlock _ moved | .post _ moved => .done moved.result
  | .free _ x => .done (.SUCCESS, some x)
  | .leave status item => .done (status, item)

def State.config (s : State α n) : Config (Fin n) (Op α) (RsErr × Option α) (List α) where
  stage := fun t => (s.phase t).stage
  object := s.queue.xQueueList

/-- The return which a thread has come to. -/
def Phase.returns (t : Fin n) : Phase α → List (Event (Fin n) (Op α) (RsErr × Option α))
  | .returned status item => [.ret t (status, item)]
  | _ => []

/-- What is seen of a step. -/
def State.events (_ : State α n) (a : Act α n) (s' : State α n) :
    List (Event (Fin n) (Op α) (RsErr × Option α)) :=
  match a with
  | .call t _ op _ => [.call t op]
  | .run t | .fail t => (s'.phase t).returns t

/-- Past its instant, with its result. -/
def Phase.Ended (p : Phase α) (res : RsErr × Option α) : Prop :=
  p.stage = .done res ∨ p = .returned res.1 res.2

theorem Phase.finish_ended (nb : Bool) (status : RsErr) (item : Option α) :
    (Phase.finish nb status item).Ended (status, item) := by
  cases nb with
  | false => exact .inr rfl
  | true => exact .inl rfl

theorem Phase.afterPost_ended (nb : Bool) (moved : Moved α) :
    (Phase.afterPost nb moved).Ended moved.result := by
  cases moved with
  | inserted | empty => exact Phase.finish_ended nb _ _
  | took x => exact .inl rfl

theorem Phase.begin_stage (nb : Bool) (op : Op α) : (Phase.begin nb op).stage = .pending op := by
  cases op <;> rfl

/-! ### The steps of one thread -/

/-- What a step of a thread is for its operation. -/
inductive Progress (params : RsQueueParams) (l : List α) (p : Phase α) (l' : List α)
    (p' : Phase α) : Prop
  | goesOn (hstage : p'.stage = p.stage) (hp : p.stage ≠ .outside) (hl : l' = l)
  | acts {op : Op α} {res : RsErr × Option α} (hp : p.stage = .pending op)
    (hop : QueueOp params l op res l') (hend : p'.Ended res)
  | ends {res : RsErr × Option α} (hp : p.stage = .done res) (hend : p'.Ended res) (hl : l' = l)

variable {q q' : RsQueue α} {p p' : Phase α} {params : RsQueueParams}

theorem progress_test {op : Op α} (hparams : q.xParams = params)
    (h : (Phase.test op).next q = some (q', p')) :
    Progress params q.xQueueList (.test op) q'.xQueueList p' := by
  subst hparams
  cases op with
  | send x =>
    simp only [Phase.next] at h
    split_ifs at h with hfull
    · cases h
      exact .acts rfl (.full hfull.2) (.inl rfl)
    · cases h
      exact .goesOn rfl (by simp [Phase.stage]) rfl
  | receive =>
    simp only [Phase.next] at h
    split_ifs at h with hempty
    · cases h
      rw [List.length_eq_zero_iff.mp hempty]
      exact .acts rfl .empty (.inl rfl)
    · cases h
      exact .goesOn rfl (by simp [Phase.stage]) rfl

theorem progress_wait {nb : Bool} {op : Op α} {unTimeout : ℕ} (hparams : q.xParams = params)
    (h : (Phase.wait nb op unTimeout).next q = some (q', p')) :
    Progress params q.xQueueList (.wait nb op unTimeout) q'.xQueueList p' := by
  subst hparams
  simp only [Phase.next] at h
  cases hw : q.xParams.waits op with
  | true =>
    rw [hw, if_pos rfl] at h
    cases ht : q.take op with
    | none =>
      rw [ht] at h
      cases h
      exact .goesOn rfl (by simp [Phase.stage]) rfl
    | some q₁ =>
      rw [ht] at h
      cases h
      exact .goesOn (Phase.begin_stage nb op) (by simp [Phase.stage]) (RsQueue.take_same ht).1
  | false =>
    rw [hw, if_neg Bool.false_ne_true] at h
    cases op with
    | receive =>
      cases h
      exact .goesOn rfl (by simp [Phase.stage]) rfl
    | send x =>
      simp only at h
      split_ifs at h with hfull
      · cases h
        exact .acts rfl (.full hfull.2.2) (Phase.finish_ended nb _ _)
      · cases h
        exact .goesOn rfl (by simp [Phase.stage]) rfl

/-- A send which has an item of the pool finds room on the list. -/
def Room (params : RsQueueParams) (l : List α) : Phase α → Prop
  | .list _ (.send _) => params.unMaxItemCount = 0 ∨ l.length < params.unMaxItemCount
  | _ => True

theorem progress_next (hparams : q.xParams = params)
    (hmax : q.xPool.uiMaxNumRes = params.unMaxItemCount) (hroom : Room params q.xQueueList p)
    (h : p.next q = some (q', p')) : Progress params q.xQueueList p q'.xQueueList p' := by
  cases p with
  | idle | returned status item => cases h
  | enter op | lock nb op =>
    cases h
    exact .goesOn rfl (by simp [Phase.stage]) rfl
  | test op => exact progress_test hparams h
  | wait nb op unTimeout => exact progress_wait hparams h
  | asleep nb op unTimeout =>
    obtain ⟨q₁, ht, he⟩ := Option.map_eq_some_iff.mp h
    cases he
    exact .goesOn (Phase.begin_stage nb op) (by simp [Phase.stage]) (RsQueue.take_same ht).1
  | alloc nb x =>
    simp only [Phase.next] at h
    cases hp : q.xPool.pxRsrcAlloc with
    | none =>
      rw [hp] at h
      cases h
      have hzero : params.unMaxItemCount ≠ 0 := by
        intro hzero
        simp [ItemPool.pxRsrcAlloc, hmax, hzero] at hp
      exact .acts rfl (.refused hzero) (Phase.finish_ended nb _ _)
    | some xPool =>
      rw [hp] at h
      cases h
      exact .goesOn rfl (by simp [Phase.stage]) rfl
  | list nb op =>
    cases op with
    | send x =>
      cases h
      exact .acts rfl (.sent hroom) (.inl rfl)
    | receive =>
      simp only [Phase.next] at h
      cases hl : q.xQueueList with
      | nil =>
        rw [hl] at h
        cases h
        rw [hl]
        exact .acts rfl .empty (.inl rfl)
      | cons x rest =>
        rw [hl] at h
        cases h
        exact .acts rfl .received (.inl rfl)
  | unlock nb moved =>
    cases Steps.of_unlock h with
    | unlock _ _ _ => exact .goesOn rfl (by simp [Phase.stage]) rfl
    | unposted _ _ _ => exact .ends rfl (Phase.afterPost_ended nb moved) rfl
  | post nb moved =>
    cases h
    exact .ends rfl (Phase.afterPost_ended nb moved) (q.posted_same moved).1
  | free nb x =>
    cases h
    exact .ends rfl (Phase.finish_ended nb _ _) rfl
  | leave status item =>
    cases h
    exact .ends rfl (.inr rfl) rfl

/-- A wait which comes back with an error. -/
theorem progress_failed (hparams : q.xParams = params)
    (hblock : ∀ nb op unTimeout, p = .asleep nb op unTimeout → params.xBlock = true)
    (h : p.failed q = some p') : Progress params q.xQueueList p q.xQueueList p' := by
  cases p with
  | wait nb op unTimeout =>
    simp only [Phase.failed] at h
    split_ifs at h with hw
    cases h
    have hb : params.xBlock = true := by
      subst hparams
      cases op with
      | send x => exact RsQueueParams.bounded_xBlock hw
      | receive => exact hw
    exact .acts rfl (.gaveUp hb) (Phase.finish_ended nb _ _)
  | asleep nb op unTimeout =>
    cases h
    exact .acts rfl (.gaveUp (hblock nb op unTimeout rfl)) (Phase.finish_ended nb _ _)
  | _ => cases h

/-! ### The steps of the threads -/

/-- The pool lends no more than its maximum. -/
def ItemPool.Within (pool : ItemPool) : Prop :=
  pool.uiMaxNumRes = 0 ∨ pool.uiNumInUse ≤ pool.uiMaxNumRes

theorem Steps.within (h : Steps q p q' p') (hq : q.xPool.Within) : q'.xPool.Within := by
  cases h with
  | took _ _ _ ht | woken _ _ _ ht => exact (RsQueue.take_same ht).2.1 ▸ hq
  | post nb moved => exact (q.posted_same moved).2.1 ▸ hq
  | alloc nb x hp =>
    obtain ⟨hlt, rfl⟩ := ItemPool.pxRsrcAlloc_eq_some.mp hp
    exact hlt.imp_right Nat.succ_le_of_lt
  | free nb x => exact hq.imp_right fun hle => (Nat.sub_le _ 1).trans hle
  | _ => exact hq

/-- Only what waits can sleep. -/
def Phase.SleepsIn (params : RsQueueParams) : Phase α → Prop
  | .asleep _ op _ => params.waits op = true
  | _ => True

theorem Phase.finish_sleepsIn (nb : Bool) (status : RsErr) (item : Option α) :
    (Phase.finish nb status item).SleepsIn params := by
  cases nb <;> exact trivial

theorem Phase.begin_sleepsIn (nb : Bool) (op : Op α) : (Phase.begin nb op).SleepsIn params := by
  cases op <;> exact trivial

theorem Steps.sleepsIn (h : Steps q p q' p') : p'.SleepsIn q.xParams := by
  cases h with
  | sleeps nb op unTimeout hw _ => exact hw
  | took nb op _ _ | woken nb op _ _ | skipped nb op _ _ => exact Phase.begin_sleepsIn nb op
  | overflow nb _ _ _ | refused nb _ _ | free nb _ => exact Phase.finish_sleepsIn nb _ _
  | unposted nb moved _ | post nb moved => cases moved <;> cases nb <;> exact trivial
  | _ => exact trivial

theorem RsQueueParams.waits_xBlock {op : Op α} (h : params.waits op = true) :
    params.xBlock = true := by
  cases op with
  | send x => exact RsQueueParams.bounded_xBlock h
  | receive => exact h

variable {s s' : State α n} {a : Act α n}

/-- The accounts, with what bounds the pool and the sleepers. -/
structure Sound (params : RsQueueParams) (s : State α n) : Prop where
  accounts : Inv params s
  within : s.queue.xPool.Within
  sleeps : ∀ t, (s.phase t).SleepsIn params

theorem sound_init {q : RsQueue α} (hq : xRsQueueInit params = .ok q) :
    Sound params (State.init q n) := by
  refine ⟨inv_init hq, ?_, fun _ => trivial⟩
  rw [xRsQueueInit] at hq
  split at hq
  · cases hq
  · cases hq
    exact .inr (Nat.zero_le _)

/-- Once a thread is in another phase, the phases satisfy what they did. -/
theorem forall_update {phase : Fin n → Phase α} {P : Phase α → Prop} {t : Fin n}
    (h : ∀ u, P (phase u)) (hp : P p) (u : Fin n) : P (Function.update phase t p u) := by
  by_cases hu : u = t
  · subst hu
    rwa [Function.update_self]
  · rw [Function.update_of_ne hu]
    exact h u

theorem Sound.step (h : Sound params s) (hst : s.step a = some s') : Sound params s' := by
  refine ⟨h.accounts.step hst, ?_, ?_⟩
  · rcases step_cases hst with ⟨t, p, rfl, -, -⟩ | ⟨t, xMutex, q, p, -, -, hn, rfl⟩
    · exact h.within
    · exact hn.within h.within
  · rcases step_cases hst with ⟨t, p, rfl, hq, -⟩ | ⟨t, xMutex, q, p, -, -, hn, rfl⟩
    · have hp : p.SleepsIn params := by
        cases p with
        | asleep nb op unTimeout => exact absurd hq.sleeping (by simp [Phase.sleeping])
        | _ => exact trivial
      exact forall_update h.sleeps hp
    · exact forall_update h.sleeps (h.accounts.xParams ▸ hn.sleepsIn)

theorem Sound.room (h : Sound params s) (t : Fin n) :
    Room params s.queue.xQueueList (s.phase t) := by
  cases hp : s.phase t with
  | list nb op =>
    cases op with
    | receive => exact trivial
    | send x =>
      have hcarried := le_tally Phase.carried s.phase t
      rw [hp] at hcarried
      have hpool := h.accounts.pool
      have hmax := h.accounts.uiMaxNumRes
      have hwithin := h.within
      simp only [State.heldPool, ItemPool.Within, hmax] at hpool hwithin
      change 1 ≤ _ at hcarried
      change _ ∨ _
      omega
  | _ => exact trivial

/-! ### The instants -/

theorem Phase.returns_of_stage {t : Fin n} (h : p.stage ≠ .outside) : p.returns t = [] := by
  cases p with
  | returned status item => exact absurd rfl h
  | _ => rfl

theorem setStage_self {c : Config (Fin n) (Op α) (RsErr × Option α) (List α)} {t : Fin n}
    {stage : Stage (Op α) (RsErr × Option α)} (h : c.stage t = stage) : c.setStage t stage = c := by
  subst h
  simp [Config.setStage]

/-- A thread past its instant returns or is still to return. -/
theorem Phase.Ended.linearizes {c : Config (Fin n) (Op α) (RsErr × Option α) (List α)}
    {t : Fin n} {res : RsErr × Option α} (hend : p.Ended res) (hc : c.stage t = .done res) :
    Linearizes (QueueOp params) c (p.returns t) (c.setStage t p.stage) := by
  rcases hend with hstage | rfl
  · have hnone : p.returns t = [] := Phase.returns_of_stage (by simp [hstage])
    rw [hnone, setStage_self (hc.trans hstage.symm)]
    exact .refl c
  · exact (Moves.ret hc).linearizes

theorem config_update {t : Fin n} (hs' : s'.phase = Function.update s.phase t p) :
    s'.config = { s.config.setStage t p.stage with object := s'.queue.xQueueList } := by
  simp only [State.config, Config.setStage, hs', Config.mk.injEq, and_true]
  ext1 u
  by_cases hu : u = t
  · subst hu
    simp
  · simp [Function.update_of_ne hu]

theorem Progress.linearizes {t : Fin n} (hprog : Progress params s.queue.xQueueList (s.phase t)
    s'.queue.xQueueList p) (hs' : s'.phase = Function.update s.phase t p) :
    Linearizes (QueueOp params) s.config (p.returns t) s'.config := by
  rw [config_update hs']
  cases hprog with
  | goesOn hstage hp hl =>
    have hnone : p.returns t = [] := Phase.returns_of_stage (hstage ▸ hp)
    rw [hnone, hl, setStage_self hstage.symm]
    exact .refl s.config
  | @acts op res hp hop hend =>
    have hinstant : Moves (QueueOp params) s.config (.instant t op res) _ :=
      .instant (x := s'.queue.xQueueList) hp hop
    have hrest : Linearizes (QueueOp params) { s.config.setStage t (.done res) with
        object := s'.queue.xQueueList } _ _ := hend.linearizes (t := t) (by simp [Config.setStage])
    have hall := hinstant.linearizes.trans hrest
    simpa [Config.setStage, Mark.event] using hall
  | ends hp hend hl =>
    rw [hl]
    exact hend.linearizes hp

theorem Sound.linearizes (h : Sound params s) (hst : s.step a = some s') :
    Linearizes (QueueOp params) s.config (State.events s a s') s'.config := by
  cases a with
  | call t nb op unTimeout =>
    rw [State.step] at hst
    split at hst
    · rename_i hr
      cases hst
      have hstage : (s.phase t).stage = .outside := by
        cases hp : s.phase t <;> simp [hp, Phase.resting] at hr <;> rfl
      obtain ⟨p, hp⟩ : ∃ p, (if nb then Phase.enter op else .wait false op unTimeout) = p :=
        ⟨_, rfl⟩
      have hpending : p.stage = .pending op := by
        subst hp
        cases nb <;> rfl
      have hs' : (s.setPhase t p).phase = Function.update s.phase t p := rfl
      rw [hp, config_update hs', hpending]
      exact (Moves.call hstage).linearizes
    · cases hst
  | run t =>
    obtain ⟨xMutex, -, hst⟩ := Option.bind_eq_some_iff.mp hst
    obtain ⟨⟨q, p⟩, hnext, hst⟩ := Option.bind_eq_some_iff.mp hst
    cases hst
    have hprog := progress_next h.accounts.xParams h.accounts.uiMaxNumRes (h.room t) hnext
    have hevents : (s.setPhase t p).phase t = p := Function.update_self ..
    simp only [State.events, hevents]
    exact hprog.linearizes rfl
  | fail t =>
    obtain ⟨p, hp, rfl⟩ := Option.map_eq_some_iff.mp hst
    have hblock : ∀ nb op unTimeout, s.phase t = .asleep nb op unTimeout →
        params.xBlock = true := by
      intro nb op unTimeout hasleep
      have hsleeps := h.sleeps t
      rw [hasleep] at hsleeps
      exact RsQueueParams.waits_xBlock hsleeps
    have hprog : Progress params s.queue.xQueueList (s.phase t)
        (s.setPhase t p).queue.xQueueList p := progress_failed h.accounts.xParams hblock hp
    have hevents : (s.setPhase t p).phase t = p := Function.update_self ..
    simp only [State.events, hevents]
    exact hprog.linearizes rfl

/-- Whatever the threads do, the operations on a queue take effect one after the other, each
between its call and its return, on a list of at most as many items as the queue is to have. -/
theorem queue_linearizable {q : RsQueue α} (hq : xRsQueueInit params = .ok q)
    {acts : List (Act α n)} (hrun : acts.foldlM State.step (State.init q n) = some s) :
    Linearizes (QueueOp params) (.start [])
      (history State.step State.events (State.init q n) acts) s.config := by
  have hstart : (State.init q n).config = .start [] := by
    rw [xRsQueueInit] at hq
    split at hq
    · cases hq
    · cases hq
      rfl
  have hstep : ∀ (s : State α n) a s', Sound params s → s.step a = some s' →
      Linearizes (QueueOp params) s.config (s.events a s') s'.config :=
    fun _ _ _ h hst => h.linearizes hst
  rw [← hstart]
  exact linearizes_run (fun _ _ _ h hst => Sound.step h hst) hstep (sound_init hq) hrun

/-- One thread waits for an item which another thread sends. -/
def exampleHandover : List (Act ℕ 2) :=
  [.call 1 false .receive 0, .run 1, .call 0 false (.send 5) 0] ++ List.replicate 6 (.run 0) ++
    List.replicate 6 (.run 1)

def exampleHandoverQueue : RsQueue ℕ := ⟨[], ⟨1, 0⟩, 0, 1, ⟨1, true⟩⟩

theorem queue_linearizable_handover :
    ∃ s, exampleHandover.foldlM State.step (State.init exampleHandoverQueue 2) = some s ∧
      Linearizes (QueueOp ⟨1, true⟩) (.start [])
        [.call 1 .receive, .call 0 (.send 5), .ret 0 (.SUCCESS, none),
          .ret 1 (.SUCCESS, some 5)] s.config := by
  obtain ⟨s, hs⟩ : ∃ s, exampleHandover.foldlM State.step (State.init exampleHandoverQueue 2) =
      some s := Option.isSome_iff_exists.mp rfl
  have hseen : history State.step State.events (State.init exampleHandoverQueue 2)
      exampleHandover = [.call 1 .receive, .call 0 (.send 5), .ret 0 (.SUCCESS, none),
        .ret 1 (.SUCCESS, some 5)] := rfl
  exact ⟨s, hs, hseen ▸ queue_linearizable rfl hs⟩

/-! ### The order of the items -/

/-- The item of a send which succeeds. -/
def pushedAt : Mark (Fin n) (Op α) (RsErr × Option α) → Option α
  | .instant _ (.send x) (.SUCCESS, _) => some x
  | _ => none

/-- The item which a receive gives. -/
def poppedAt : Mark (Fin n) (Op α) (RsErr × Option α) → Option α
  | .instant _ _ res => res.2
  | .seen _ => none

variable {c c' : Config (Fin n) (Op α) (RsErr × Option α) (List α)}
  {ms : List (Mark (Fin n) (Op α) (RsErr × Option α))}

theorem QueueOp.items {l l' : List α} {op : Op α} {res : RsErr × Option α} {t : Fin n}
    (h : QueueOp params l op res l') :
    l ++ (pushedAt (.instant t op res)).toList = res.2.toList ++ l' := by
  cases h <;> simp [pushedAt]

/-- Only a receive gives an item. -/
theorem QueueOp.receives {l l' : List α} {op : Op α} {res : RsErr × Option α}
    (h : QueueOp params l op res l') (hitem : res.2 ≠ none) : op = .receive := by
  cases h with
  | received => rfl
  | _ => exact absurd rfl hitem

theorem moves_items {m : Mark (Fin n) (Op α) (RsErr × Option α)}
    (hmove : Moves (QueueOp params) c m c') :
    c.object ++ (pushedAt m).toList = (poppedAt m).toList ++ c'.object := by
  cases hmove with
  | call hstage | ret hstage => simp [pushedAt, poppedAt]
  | instant hstage hspec => exact hspec.items

/-- The items come out in the order in which they were put in, and none is lost. -/
theorem marked_items (hms : Marked (QueueOp params) c ms c') :
    c.object ++ ms.filterMap pushedAt = ms.filterMap poppedAt ++ c'.object := by
  induction hms with
  | nil => simp
  | @cons c c₁ c' m ms hmove _ ih =>
    have hfirst := moves_items hmove
    calc c.object ++ (m :: ms).filterMap pushedAt
        = (c.object ++ (pushedAt m).toList) ++ ms.filterMap pushedAt := by
          rw [filterMap_cons_toList, List.append_assoc]
      _ = (poppedAt m).toList ++ (c₁.object ++ ms.filterMap pushedAt) := by
          rw [hfirst, List.append_assoc]
      _ = (m :: ms).filterMap poppedAt ++ c'.object := by
          rw [ih, filterMap_cons_toList, List.append_assoc]

end RinaSense.Queue
