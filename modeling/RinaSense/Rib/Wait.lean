import RinaSense.Library.Runs
import RinaSense.Rib.Daemon

/-!
# Waiting for a reply

The steps of a thread in `xRibObjectWaitReply` against those of the task which handles the
reply to its query. The waiter tests the row before it takes the mutex of the row, and the
task stores the response and signals without that mutex.
-/

namespace RinaSense.Rib.Wait

open Library.Runs

/-- Where the waiter is. -/
inductive Phase
  | start
  | lookup
  | found
  /-- There was no response when the waiter looked. -/
  | missed
  | locked
  | asleep
  /-- Back from its sleep, with the mutex. -/
  | awake
  | unlocked
  | returned (status : RsErr) (pxResp : Option ℕ)
deriving DecidableEq, Repr

/-- Where the task is with the reply. -/
inductive ReplyPhase
  | idle
  | stored
  | signalled
deriving DecidableEq, Repr

structure State where
  phase : Phase
  /-- A signal reached the sleeping waiter. -/
  woken : Bool
  /-- The waiter holds the mutex of the row. -/
  xMutex : Bool
  pxResp : Option ℕ
  reply : ReplyPhase
  /-- What the reply method makes of the reply. -/
  response : Option ℕ
  /-- The deadline of the waiter has passed. -/
  expired : Bool
  /-- The reply was handled before that. -/
  inTime : Bool
deriving DecidableEq, Repr

def State.init (response : Option ℕ) : State where
  phase := .start
  woken := false
  xMutex := false
  pxResp := none
  reply := .idle
  response := response
  expired := false
  inTime := false

inductive Act
  | deadline (ok : Bool)
  | find (pending : Bool)
  | test
  | lock
  | sleep
  | wake
  | spurious
  | timeout
  | unlock
  | read
  | expire
  | store
  | signal
deriving DecidableEq, Repr

/-- A step of the waiter, of the task or of the clock, where it can be taken. -/
def State.step (s : State) : Act → Option State
  | .deadline ok =>
    match s.phase with
    | .start => some { s with phase := if ok then .lookup else .returned .ERRNO none }
    | _ => none
  | .find pending =>
    match s.phase with
    | .lookup =>
      some { s with phase := if pending then .found else .returned .ERR_RIB_NOT_PENDING none }
    | _ => none
  | .test =>
    match s.phase, s.pxResp with
    | .found, some pxResp => some { s with phase := .returned .SUCCESS (some pxResp) }
    | .found, none => some { s with phase := .missed }
    | _, _ => none
  | .lock =>
    match s.phase, s.xMutex with
    | .missed, false => some { s with phase := .locked, xMutex := true }
    | _, _ => none
  | .sleep =>
    match s.phase with
    | .locked => some { s with phase := .asleep, xMutex := false }
    | _ => none
  | .wake =>
    match s.phase, s.xMutex, s.woken with
    | .asleep, false, true => some { s with phase := .awake, xMutex := true }
    | _, _, _ => none
  | .spurious =>
    match s.phase, s.xMutex with
    | .asleep, false => some { s with phase := .awake, xMutex := true }
    | _, _ => none
  -- the mutex is taken again before the call comes back, and is not given back
  | .timeout =>
    match s.phase, s.xMutex, s.expired, s.woken with
    | .asleep, false, true, false =>
      some { s with phase := .returned .ERR_RIB_TIMEOUT none, xMutex := true }
    | _, _, _, _ => none
  | .unlock =>
    match s.phase with
    | .awake => some { s with phase := .unlocked, xMutex := false }
    | _ => none
  | .read =>
    match s.phase with
    | .unlocked => some { s with phase := .returned .SUCCESS s.pxResp }
    | _ => none
  | .expire => if s.phase = .start then none else some { s with expired := true }
  | .store =>
    match s.reply with
    | .idle => some { s with pxResp := s.response, reply := .stored }
    | _ => none
  | .signal =>
    match s.reply with
    | .stored =>
      some { s with
        reply := .signalled
        woken := decide (s.phase = .asleep)
        inTime := !s.expired }
    | _ => none

/-- A return is no timeout, and a success gives the response. -/
def Answered (s : State) (status : RsErr) (pxResp : Option ℕ) : Prop :=
  status ≠ .ERR_RIB_TIMEOUT ∧ (status = .SUCCESS → pxResp = s.response)

instance (s : State) (status : RsErr) (pxResp : Option ℕ) :
    Decidable (Answered s status pxResp) :=
  inferInstanceAs (Decidable (_ ∧ _))

/-- When the waiter has returned it has given the mutex back, and if the reply was handled
in time it has the response. -/
def State.Law (s : State) : Prop :=
  ∀ status pxResp, s.phase = .returned status pxResp →
    s.xMutex = false ∧ (s.inTime = true → Answered s status pxResp)

/-- The wait does not time out, and no reply is signalled in time after a waiter which has
returned without it. -/
def Met (s : State) : Act → Prop
  | .timeout => False
  | .signal =>
    match s.phase with
    | .returned status pxResp => s.expired = true ∨ Answered s status pxResp
    | _ => True
  | _ => True

instance (s : State) : ∀ a, Decidable (Met s a)
  | .timeout => .isFalse id
  | .signal =>
    match h : s.phase with
    | .returned status pxResp =>
      decidable_of_iff (s.expired = true ∨ Answered s status pxResp) (by simp [Met, h])
    | .start | .lookup | .found | .missed | .locked | .asleep | .awake | .unlocked =>
      .isTrue (by simp [Met, h])
  | .deadline _ | .find _ | .test | .lock | .sleep | .wake | .spurious | .unlock | .read
  | .expire | .store => .isTrue trivial

/-- The mutex is held while the waiter is inside, and left so by a timeout. -/
def Phase.holds : Phase → Bool
  | .locked | .awake | .returned .ERR_RIB_TIMEOUT _ => true
  | _ => false

structure State.Inv (s : State) : Prop where
  mutex : s.xMutex = s.phase.holds
  stored : s.reply ≠ .idle → s.pxResp = s.response
  inTime : s.inTime = true → s.reply ≠ .idle

theorem inv_init (response : Option ℕ) : (State.init response).Inv where
  mutex := rfl
  stored := fun h => absurd rfl h
  inTime := by simp [State.init]

variable {s s' : State} {a : Act}

/-- The waiter moves to a phase. -/
def State.move (s : State) (phase : Phase) : State :=
  { s with phase := phase, xMutex := phase.holds }

/-- A step moves the waiter to a phase. When it returns it takes the response there is, and
it returns a timeout exactly when the wait times out. -/
structure Moves (s : State) (a : Act) (phase : Phase) : Prop where
  noSignal : a ≠ .signal
  timeout : a = .timeout → phase = .returned .ERR_RIB_TIMEOUT none
  success : ∀ pxResp, phase = .returned .SUCCESS pxResp → pxResp = s.pxResp
  timedOut : ∀ pxResp, phase = .returned .ERR_RIB_TIMEOUT pxResp → a = .timeout

theorem move_eq (hm : s.xMutex = s.phase.holds) {phase : Phase}
    (h : phase.holds = s.phase.holds) : { s with phase := phase } = s.move phase := by
  rw [State.move, h, ← hm]

/-- Every step is a move of the waiter, the passing of the deadline, or one of the two steps
of the task. -/
theorem step_cases (hm : s.xMutex = s.phase.holds) (hst : s.step a = some s') :
    (∃ phase, s' = s.move phase ∧ Moves s a phase) ∨
    (a = .expire ∧ s' = { s with expired := true }) ∨
    (a = .store ∧ s' = { s with pxResp := s.response, reply := .stored }) ∨
    (a = .signal ∧ s.reply = .stored ∧
      ∃ woken, s' = { s with reply := .signalled, woken := woken, inTime := !s.expired }) := by
  cases a with
  | expire =>
    simp only [State.step] at hst
    split_ifs at hst
    cases hst
    exact .inr (.inl ⟨rfl, rfl⟩)
  | store =>
    simp only [State.step] at hst
    split at hst
    · cases hst
      exact .inr (.inr (.inl ⟨rfl, rfl⟩))
    · cases hst
  | signal =>
    simp only [State.step] at hst
    split at hst
    · rename_i hreply
      cases hst
      exact .inr (.inr (.inr ⟨rfl, hreply, _, rfl⟩))
    · cases hst
  | deadline ok =>
    simp only [State.step] at hst
    split at hst
    · rename_i hphase
      cases hst
      refine .inl ⟨_, move_eq hm ?_, ?_⟩
      · rw [hphase]
        cases ok <;> rfl
      · cases ok <;> exact ⟨by simp, by simp, by simp, by simp⟩
    · cases hst
  | find pending =>
    simp only [State.step] at hst
    split at hst
    · rename_i hphase
      cases hst
      refine .inl ⟨_, move_eq hm ?_, ?_⟩
      · rw [hphase]
        cases pending <;> rfl
      · cases pending <;> exact ⟨by simp, by simp, by simp, by simp⟩
    · cases hst
  | test =>
    simp only [State.step] at hst
    split at hst
    · rename_i hphase hresp
      cases hst
      exact .inl ⟨_, move_eq hm (by rw [hphase]; rfl), by simp, by simp, by simp [hresp], by simp⟩
    · rename_i hphase hresp
      cases hst
      exact .inl ⟨_, move_eq hm (by rw [hphase]; rfl), by simp, by simp, by simp, by simp⟩
    · cases hst
  | read =>
    simp only [State.step] at hst
    split at hst
    · rename_i hphase
      cases hst
      exact .inl ⟨_, move_eq hm (by rw [hphase]; rfl), by simp, by simp, by simp, by simp⟩
    · cases hst
  | lock | sleep | wake | spurious | unlock | timeout =>
    simp only [State.step] at hst
    split at hst
    · cases hst
      exact .inl ⟨_, rfl, by simp, by simp, by simp, by simp⟩
    · cases hst

theorem State.Inv.step (h : s.Inv) (hst : s.step a = some s') : s'.Inv := by
  rcases step_cases h.mutex hst with ⟨phase, rfl, -⟩ | ⟨-, rfl⟩ | ⟨-, rfl⟩ | ⟨-, hr, w, rfl⟩
  · exact ⟨rfl, h.stored, h.inTime⟩
  · exact ⟨h.mutex, h.stored, h.inTime⟩
  · exact ⟨h.mutex, fun _ => rfl, by simp⟩
  · exact ⟨h.mutex, fun _ => h.stored (by rw [hr]; simp), by simp⟩

theorem holds_returned {status : RsErr} {pxResp : Option ℕ} :
    (Phase.returned status pxResp).holds = false ↔ status ≠ .ERR_RIB_TIMEOUT := by
  cases status <;> simp [Phase.holds]

/-- A move of the waiter keeps the law unless it is the timeout. -/
theorem law_move (h : s.Inv) {phase : Phase} (hmove : Moves s a phase) :
    (s.move phase).Law ↔ Met s a := by
  by_cases hto : a = .timeout
  · subst hto
    refine iff_of_false (fun hlaw => ?_) id
    have := (hlaw .ERR_RIB_TIMEOUT none (hmove.timeout rfl)).1
    rw [State.move, hmove.timeout rfl] at this
    cases this
  · have hmet : Met s a := by
      cases a with
      | timeout => exact hto rfl
      | signal => exact absurd rfl hmove.noSignal
      | _ => trivial
    refine iff_of_true (fun status pxResp hphase => ?_) hmet
    change phase = _ at hphase
    have hne : status ≠ .ERR_RIB_TIMEOUT := by
      rintro rfl
      exact hto (hmove.timedOut pxResp hphase)
    constructor
    · change phase.holds = false
      rw [hphase, holds_returned]
      exact hne
    · refine fun hin => ⟨hne, ?_⟩
      rintro rfl
      exact (hmove.success pxResp hphase).trans (h.stored (h.inTime hin))

/-- A signal keeps the law unless it comes in time for a waiter which has returned without
the response. -/
theorem law_signal (hlaw : s.Law) {woken : Bool} :
    State.Law { s with reply := .signalled, woken := woken, inTime := !s.expired } ↔
      Met s .signal := by
  simp only [State.Law, Met]
  cases hphase : s.phase with
  | returned status pxResp =>
    have hmutex := (hlaw status pxResp hphase).1
    cases hexp : s.expired with
    | true => simp [hmutex]
    | false =>
      constructor
      · intro h
        exact .inr ((h status pxResp rfl).2 rfl)
      · rintro (h | h) status' pxResp' ⟨⟩
        · cases h
        · exact ⟨hmutex, fun _ => h⟩
  | _ => simp

theorem law_step_iff (h : s.Inv) (hlaw : s.Law) (hst : s.step a = some s') :
    s'.Law ↔ Met s a := by
  rcases step_cases h.mutex hst with ⟨phase, rfl, hmove⟩ | ⟨rfl, rfl⟩ | ⟨rfl, rfl⟩ |
    ⟨rfl, -, woken, rfl⟩
  · exact law_move h hmove
  · exact iff_of_true hlaw trivial
  · exact iff_of_true hlaw trivial
  · exact law_signal hlaw

/-- In every interleaving a waiter which returns has given the mutex back, and has the
response when the reply was handled in time, if and only if no wait times out and no reply
is signalled in time after a waiter which has returned without it. -/
theorem law_iff (response : Option ℕ) {acts : List Act} {s : State}
    (hrun : acts.foldlM State.step (State.init response) = some s) :
    Throughout State.step State.Law (State.init response) acts ↔
      GuardedSteps State.step Met (State.init response) acts :=
  throughout_iff (fun _ _ _ h hst => State.Inv.step h hst)
    (fun _ _ _ h hlaw hst => law_step_iff h hlaw hst) (inv_init response)
    (fun _ _ h => by cases h) hrun

/-- A signal between the test of the waiter and its sleep wakes nobody up. -/
theorem signal_lost (hphase : s.phase = .missed ∨ s.phase = .locked)
    (hst : s.step .signal = some s') : s'.woken = false := by
  simp only [State.step] at hst
  split at hst
  · cases hst
    rcases hphase with hphase | hphase <;> simp [hphase]
  · cases hst

/-- A response which arrives while the waiter sleeps. -/
theorem law_asleep :
    Throughout State.step State.Law (State.init (some 1))
      [.deadline true, .find true, .test, .lock, .sleep, .store, .signal, .wake, .unlock,
        .read] :=
  (law_iff (some 1) rfl).mpr (by decide)

/-- The reply is handled between the test and the sleep, well before the deadline, and the
waiter returns a timeout with the mutex held. -/
theorem lost_wakeup :
    ∃ s, [Act.deadline true, .find true, .test, .store, .signal, .lock, .sleep, .expire,
        .timeout].foldlM State.step (State.init (some 1)) = some s ∧
      s.inTime = true ∧ s.pxResp = some 1 ∧ s.phase = .returned .ERR_RIB_TIMEOUT none ∧
      s.xMutex = true ∧ ¬ s.Law :=
  ⟨_, rfl, rfl, rfl, rfl, rfl, fun h => absurd (h .ERR_RIB_TIMEOUT none rfl).1 (by decide)⟩

end RinaSense.Rib.Wait
