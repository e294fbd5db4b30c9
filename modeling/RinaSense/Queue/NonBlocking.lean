import RinaSense.Queue.Accounting

/-!
# Calls which do not block

A call which does not block looks at the list under the mutex and then takes a semaphore,
while the others take their semaphore before the mutex. The list and the semaphores differ
by what the threads in between hold.
-/

namespace RinaSense.Queue

open Library.Runs Library.Threads

variable {α : Type} {n : ℕ} {params : RsQueueParams} {s s' : State α n} {a : Act α n}

/-- A thread asleep on a semaphore is in a blocking call and does not hold the mutex. -/
def State.Awake (s : State α n) : Prop :=
  ∀ t nb op unTimeout, s.phase t = .asleep nb op unTimeout →
    nb = false ∧ s.xMutex.held t = 0

/-- The list leaves something which no thread inside a call holds: a place which is not lost
to a refused send, or an item. -/
def Leaves (s : State α n) : Op α → Prop
  | .send _ => s.queue.xQueueList.length + s.heldPlaces + s.refusals <
      s.queue.xParams.unMaxItemCount
  | .receive => s.heldItems < s.queue.xQueueList.length

instance (s : State α n) : ∀ op, Decidable (Leaves s op)
  | .send _ => inferInstanceAs (Decidable (_ < _))
  | .receive => inferInstanceAs (Decidable (_ < _))

/-- A call which does not block comes to a semaphore only when the list leaves what it
waits for. -/
def Ready (s : State α n) : Act α n → Prop
  | .run t =>
    match s.phase t with
    | .wait true op _ => s.queue.xParams.waits op = true → Leaves s op
    | _ => True
  | _ => True

instance (s : State α n) : ∀ a, Decidable (Ready s a)
  | .call _ _ _ _ | .fail _ => .isTrue trivial
  | .run t =>
    match h : s.phase t with
    | .wait true op _ =>
      decidable_of_iff (s.queue.xParams.waits op = true → Leaves s op) (by simp [Ready, h])
    | .wait false _ _ | .idle | .enter _ | .test _ | .asleep _ _ _ | .alloc _ _ | .lock _ _
    | .list _ _ | .unlock _ _ | .post _ _ | .free _ _ | .leave _ _ | .returned _ _ =>
      .isTrue (by simp [Ready, h])

/-- An operation finds its semaphore at zero exactly when the threads inside hold all that
the list leaves. -/
theorem take_isSome_iff (h : Inv params s) {op : Op α}
    (hw : s.queue.xParams.waits op = true) : (s.queue.take op).isSome ↔ Leaves s op := by
  rw [h.xParams] at hw
  cases op with
  | send x =>
    have hplaces := h.places hw
    have hN : s.queue.xParams.unMaxItemCount = params.unMaxItemCount := by rw [h.xParams]
    simp only [RsQueue.take, Leaves]
    cases hk : s.queue.xSemPlaces with
    | zero =>
      refine iff_of_false (by simp) fun hlt => ?_
      omega
    | succ k =>
      refine iff_of_true rfl ?_
      omega
  | receive =>
    have hitems := h.items hw
    simp only [RsQueue.take, Leaves]
    cases hk : s.queue.xSemItems with
    | zero =>
      refine iff_of_false (by simp) fun hlt => ?_
      omega
    | succ k =>
      refine iff_of_true rfl ?_
      omega

/-- A thread sleeps in a call which does not block. -/
def Phase.stuck : Phase α → Bool
  | .asleep true _ _ => true
  | _ => false

theorem awake_iff (h : Inv params s) : s.Awake ↔ ∀ t, (s.phase t).stuck = false := by
  constructor
  · intro hs t
    cases hp : s.phase t with
    | asleep nb op unTimeout =>
      rw [(hs t nb op unTimeout hp).1]
      rfl
    | _ => rfl
  · intro hs t nb op unTimeout hp
    have hnb : nb = false := by
      have := hs t
      rw [hp] at this
      cases nb
      · rfl
      · cases this
    refine ⟨hnb, ?_⟩
    rw [h.mutex t, hp, hnb]
    rfl

theorem Phase.finish_stuck (nb : Bool) (status : RsErr) (item : Option α) :
    (Phase.finish nb status item).stuck = false := by
  cases nb <;> rfl

/-- The only step into such a sleep is that of a call which does not block and finds its
semaphore at zero. -/
theorem Steps.stuck_iff {p : Phase α} {q : RsQueue α} {t : Fin n} (h : Inv params s)
    (hst : Steps s.queue (s.phase t) q p) : p.stuck = false ↔ Ready s (.run t) := by
  generalize hp : s.phase t = p₀ at hst
  cases hst with
  | sleeps nb op unTimeout hw hnone =>
    cases nb with
    | false => exact iff_of_true rfl (by simp [Ready, hp])
    | true =>
      refine iff_of_false (by simp [Phase.stuck]) fun hr => ?_
      simp only [Ready, hp] at hr
      have := (take_isSome_iff h hw).mpr (hr hw)
      rw [hnone] at this
      cases this
  | took nb op unTimeout hsome =>
    refine iff_of_true (by cases op <;> rfl) ?_
    cases nb with
    | false => simp [Ready, hp]
    | true =>
      simp only [Ready, hp]
      exact fun hw => (take_isSome_iff h hw).mp (by rw [hsome]; rfl)
  | skipped nb op unTimeout hw =>
    refine iff_of_true (by cases op <;> rfl) ?_
    cases nb <;> simp [Ready, hp, hw]
  | overflow nb op unTimeout hw =>
    refine iff_of_true (Phase.finish_stuck nb _ _) ?_
    cases nb <;> simp [Ready, hp, hw]
  | woken nb op unTimeout _ => exact iff_of_true (by cases op <;> rfl) (by simp [Ready, hp])
  | refused nb _ _ | free nb _ =>
    exact iff_of_true (Phase.finish_stuck nb _ _) (by simp [Ready, hp])
  | unposted nb moved _ | post nb moved =>
    refine iff_of_true ?_ (by simp [Ready, hp])
    cases moved <;> cases nb <;> rfl
  | _ => exact iff_of_true rfl (by simp [Ready, hp])

theorem Phase.stuck_of_awake {p : Phase α} (h : p.sleeping = false) : p.stuck = false := by
  cases p with
  | asleep nb op unTimeout => cases h
  | _ => rfl

theorem awake_step (h : Inv params s) (ha : s.Awake) (hst : s.step a = some s') :
    s'.Awake ↔ Ready s a := by
  rw [awake_iff (h.step hst)]
  rw [awake_iff h] at ha
  rcases step_cases hst with ⟨t, p, rfl, hq, hrun⟩ | ⟨t, xMutex, q, p, rfl, -, hn, rfl⟩
  · refine iff_of_true (fun u => ?_) ?_
    · by_cases hu : u = t
      · subst hu
        simpa [State.setPhase] using Phase.stuck_of_awake hq.sleeping
      · simpa [State.setPhase, Function.update_of_ne hu] using ha u
    · cases a with
      | run u => exact absurd rfl (hrun u)
      | _ => trivial
  · rw [← hn.stuck_iff h]
    constructor
    · intro hs
      simpa [State.after, State.setPhase] using hs t
    · intro hp u
      by_cases hu : u = t
      · subst hu
        simpa [State.after, State.setPhase] using hp
      · simpa [State.after, State.setPhase, Function.update_of_ne hu] using ha u

/-- In every interleaving of calls which block and calls which do not, none of the latter
sleeps on a semaphore and no sleeper holds the mutex if and only if each of them comes to
its semaphore when the list leaves a place, or an item, which no other thread holds. -/
theorem awake_iff_ready {q : RsQueue α} (hq : xRsQueueInit params = .ok q)
    {acts : List (Act α n)} (hrun : acts.foldlM State.step (State.init q n) = some s) :
    Throughout State.step State.Awake (State.init q n) acts ↔
      GuardedSteps State.step Ready (State.init q n) acts :=
  throughout_iff (fun _ _ _ h hst => Inv.step h hst) (fun _ _ _ h ha hst => awake_step h ha hst)
    (inv_init hq) (fun _ _ _ _ hp => by cases hp) hrun

/-- An item through a queue of two by calls which do not block. -/
theorem awake_undisturbed :
    Throughout State.step State.Awake (State.init ⟨[], ⟨2, 0⟩, 0, 2, ⟨2, true⟩⟩ 2)
      (Act.call 0 true (.send 7) 0 :: List.replicate 9 (.run 0) ++
        Act.call 1 true .receive 0 :: List.replicate 9 (.run 1)) :=
  (awake_iff_ready (show xRsQueueInit ⟨2, true⟩ = .ok _ from rfl) rfl).mpr (by decide)

/-- A receiver has taken the semaphore of the only item but not the mutex when another comes
with a call which does not block. It finds the item on the list and sleeps with the mutex,
and neither can take a step. -/
theorem receivers_deadlocked :
    ∃ s, (Act.call 0 false (.send 7) 0 :: List.replicate 6 (.run 0) ++
        [Act.call 0 false .receive 0, .run 0, .call 1 true .receive 0, .run 1, .run 1,
          .run 1]).foldlM State.step (State.init ⟨[], ⟨1, 0⟩, 0, 1, ⟨1, true⟩⟩ 2) = some s ∧
      s.phase 1 = .asleep true .receive 0 ∧ s.xMutex.held 1 = 1 ∧
      s.step (.run 0) = none ∧ s.step (.run 1) = none ∧ ¬ s.Awake :=
  ⟨_, rfl, rfl, rfl, rfl, rfl, fun h => absurd (h 1 true .receive 0 rfl).1 (by decide)⟩

end RinaSense.Queue
