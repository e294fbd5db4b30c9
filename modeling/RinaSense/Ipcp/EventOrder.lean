import RinaSense.Ipcp.Task
import RinaSense.Queue.Linearizable

/-!
# The order of the events

The task of the IPC process is the only receiver of its queue, while the network driver, the
applications, the RIB daemon and the task itself send events to it.
-/

namespace RinaSense.Ipcp

open Queue Library.Linear

/-- A round of the loop in `prvIPCPTask`, with the event of the round before and what the queue
gives. -/
def taskRound (xEv : RINAStackEvent) : Option RINAStackEvent → RINAStackEvent
  | some ev => ev
  | none => { xEv with eEventType := .eNoEvent }

/-- The calls of the loop, round after round. -/
def taskCalls (xEv : RINAStackEvent) : List (Option RINAStackEvent) → List TaskCall
  | [] => []
  | item :: items => prvIPCPTask (taskRound xEv item) ++ taskCalls (taskRound xEv item) items

/-- Only the rounds which get an event make calls, whatever is left of earlier events. -/
theorem taskCalls_eq (xEv : RINAStackEvent) (items : List (Option RINAStackEvent)) :
    taskCalls xEv items = (items.filterMap id).flatMap prvIPCPTask := by
  induction items generalizing xEv with
  | nil => rfl
  | cons item items ih =>
    rw [taskCalls, ih]
    cases item with
    | none => rfl
    | some ev => rfl

variable {n : ℕ} {q : RsQueue RINAStackEvent} {s s' : State RINAStackEvent n}
  {acts : List (Act RINAStackEvent n)} {task : Fin n}

/-- The other threads only send. -/
def OneReceiver (task : Fin n) (acts : List (Act RINAStackEvent n)) : Prop :=
  ∀ t nb unTimeout, .call t nb .receive unTimeout ∈ acts → t = task

/-- What is seen of a run was called in it. -/
theorem called_of_seen {t : Fin n} {op : Op RINAStackEvent}
    (h : .call t op ∈ history State.step State.events s acts) :
    ∃ nb unTimeout, .call t nb op unTimeout ∈ acts := by
  induction acts generalizing s with
  | nil => simp [history] at h
  | cons a acts ih =>
    rw [history] at h
    cases hst : s.step a with
    | none => simp [hst] at h
    | some s₁ =>
      rw [hst] at h
      rcases List.mem_append.mp h with h | h
      · cases a with
        | call u nb op' unTimeout =>
          rcases List.mem_singleton.mp h with ⟨rfl, rfl⟩
          exact ⟨nb, unTimeout, List.mem_cons_self⟩
        | run u | fail u =>
          rw [State.events] at h
          cases hp : s₁.phase u <;> simp [hp, Phase.returns] at h
      · obtain ⟨nb, unTimeout, hmem⟩ := ih h
        exact ⟨nb, unTimeout, List.mem_cons_of_mem a hmem⟩

/-- With one receiver, what comes out of the queue comes out at the instants of that thread. -/
theorem popped_eq_answers {params : RsQueueParams}
    {c c' : Config (Fin n) (Op RINAStackEvent) (RsErr × Option RINAStackEvent)
      (List RINAStackEvent)}
    {ms : List (Mark (Fin n) (Op RINAStackEvent) (RsErr × Option RINAStackEvent))}
    (hms : Marked (QueueOp params) c ms c')
    (honly : ∀ t res, .instant t .receive res ∈ ms → t = task) :
    ms.filterMap poppedAt = (answers task ms).filterMap (·.2) := by
  induction hms with
  | nil => rfl
  | @cons c c₁ c' m ms hmove _ ih =>
    have hrest := ih fun t res hmem => honly t res (List.mem_cons_of_mem m hmem)
    have hfirst : (poppedAt m).toList = ((m.answer task).bind (·.2)).toList := by
      cases hmove with
      | call hstage | ret hstage => rfl
      | @instant t op res x hstage hspec =>
        by_cases ht : t = task
        · simp [poppedAt, Mark.answer, ht]
        · have hnone : res.2 = none := by
            by_contra hitem
            obtain rfl := hspec.receives hitem
            exact ht (honly t res List.mem_cons_self)
          simp [poppedAt, Mark.answer, ht, hnone]
    rw [filterMap_cons_toList, hfirst, hrest, answers_cons, List.filterMap_append,
      toList_filterMap]

/-- The events which the task gets, in the order in which its receives return. -/
def received (task : Fin n)
    (h : List (Event (Fin n) (Op RINAStackEvent) (RsErr × Option RINAStackEvent))) :
    List RINAStackEvent :=
  (returns task h).filterMap (·.2)

/-- The event which a thread has taken from the queue and does not have yet. -/
def taking (s : State RINAStackEvent n) (task : Fin n) : Option RINAStackEvent :=
  (s.config.stage task).unreturned.bind (·.2)

/-- Whatever the other threads send and when, the task gets each event once and in the order in
which the sends took effect, and so go the calls which it makes for them. What is not there yet
is on the list of the queue, one event apart which the task may just be taking. -/
theorem events_in_order (hq : xRsQueueInit xIpcpQueueParams = .ok q)
    (hrun : acts.foldlM State.step (State.init q n) = some s) (honly : OneReceiver task acts) :
    ∃ ms, observed ms = history State.step State.events (State.init q n) acts ∧
      Marked (QueueOp xIpcpQueueParams) (.start []) ms s.config ∧
      ms.filterMap pushedAt = received task (observed ms) ++ (taking s task).toList ++
        s.queue.xQueueList ∧
      ∀ xEv items, items.filterMap id = received task (observed ms) →
        taskCalls xEv items <+: (ms.filterMap pushedAt).flatMap prvIPCPTask := by
  obtain ⟨ms, hseen, hms⟩ := queue_linearizable hq hrun
  have hreceives : ∀ t res, .instant t .receive res ∈ ms → t = task := by
    intro t res hmem
    refine hms.called (P := fun t op => op = .receive → t = task) ?_ ?_ t .receive res hmem rfl
    · intro t op hstage
      cases hstage
    · rintro t op hcall rfl
      rw [hseen] at hcall
      obtain ⟨nb, unTimeout, hact⟩ := called_of_seen hcall
      exact honly t nb unTimeout hact
  have hanswers := hms.answers task
  have hitems := marked_items hms
  rw [popped_eq_answers hms hreceives] at hitems
  have hgot : (answers task ms).filterMap (·.2) =
      received task (observed ms) ++ (taking s task).toList := by
    have hstart : answers task ms = returns task (observed ms) ++
        (s.config.stage task).unreturned.toList := by
      simpa [Config.start, Stage.unreturned] using hanswers
    rw [hstart, List.filterMap_append, toList_filterMap]
    rfl
  have hpushed : ms.filterMap pushedAt = received task (observed ms) ++ (taking s task).toList ++
      s.queue.xQueueList := by
    rw [← hgot]
    exact hitems
  refine ⟨ms, hseen, hms, hpushed, fun xEv items hrounds => ?_⟩
  rw [taskCalls_eq, hrounds, hpushed, List.append_assoc, List.flatMap_append]
  exact List.prefix_append _ _

/-- Two threads send, and the task has received the first event. -/
def exampleSends : List (Act RINAStackEvent 3) :=
  Act.runs 1 (.send ⟨.eSendMgmtEvent, .UN 1, .PV (some 7)⟩) 6 ++
    Act.runs 2 (.send ⟨.eRinaRxEvent, .UN 2, .PV (some 9)⟩) 6 ++ Act.runs 0 .receive 6

theorem events_in_order_two : ∃ s pushed,
    exampleSends.foldlM State.step
      (State.init (filled ⟨.eFATimerEvent, .PV none, .UN 0⟩ 0 255) 3) = some s ∧
    pushed = [⟨.eSendMgmtEvent, .UN 1, .PV (some 7)⟩] ++ s.queue.xQueueList ∧
    [TaskCall.mgmtDuWrite 1 (some 7)] <+: pushed.flatMap prvIPCPTask := by
  have honly : OneReceiver (n := 3) 0 exampleSends := by
    intro t nb unTimeout hmem
    have hcall : t = 0 ∧ nb = false ∧ unTimeout = 0 := by
      simpa [exampleSends, Act.runs] using hmem
    exact hcall.1
  obtain ⟨s, hs⟩ : ∃ s, exampleSends.foldlM State.step
      (State.init (filled ⟨.eFATimerEvent, .PV none, .UN 0⟩ 0 255) 3) = some s :=
    Option.isSome_iff_exists.mp rfl
  obtain ⟨ms, hseen, -, hpushed, hcalls⟩ := events_in_order rfl hs honly
  have hgot : received 0 (observed ms) = [⟨.eSendMgmtEvent, .UN 1, .PV (some 7)⟩] := by
    rw [hseen]
    rfl
  have htaking : taking s 0 = none := by
    cases hs
    rfl
  rw [hgot, htaking] at hpushed
  rw [hgot] at hcalls
  refine ⟨s, _, hs, by simpa using hpushed, ?_⟩
  exact hcalls ⟨.eNoEvent, .PV none, .UN 0⟩ [none, some ⟨.eSendMgmtEvent, .UN 1, .PV (some 7)⟩] rfl

end RinaSense.Ipcp
