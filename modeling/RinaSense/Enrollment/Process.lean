import RinaSense.Library.Lifetimes
import RinaSense.Rib.Daemon

/-!
# The inbound process

The thread of an inbound enrollment makes three object values one after the other, sends each,
and releases it whether it was sent or not. What it does with them, and when it reads the reply
to its M_STOP, depends on which of its calls fail.
-/

namespace RinaSense.Enrollment

open Library.Lifetimes

/-- The values which the thread makes. -/
inductive Value
  | startReply
  | neighbors
  | stop
deriving DecidableEq, Repr

inductive EncodeResult
  /-- The pool has no object. -/
  | noMemory
  /-- The protobuf library does not encode the message. -/
  | refused
  | encoded
deriving DecidableEq, Repr

/-- How the calls of the thread end. -/
structure Failures where
  startReplyEncode : EncodeResult
  xRibSTART_REPLY : Bool
  pvRsMemAlloc : Bool
  neighborsEncode : EncodeResult
  xRibCREATE_CMD : Bool
  /-- The pool notices that an object is released again, and aborts. -/
  aborts : Bool
  stopEncode : EncodeResult
  xRibSTOP_QUERY_SYNC : Bool
  /-- The status of the wait, and the response which there is if that is a success. -/
  xStatus : Rib.RsErr
  pxResp : Option ℤ
  /-- What the variable for the reply contains before the wait. -/
  nStopReply : ℤ
  xRibSTART_CMD : Bool
deriving DecidableEq

inductive Event
  /-- The encoder is called for the message of the value. -/
  | encodes (v : Value)
  | value (v : Value) (action : Action)
  | replied
  | replyRead
deriving DecidableEq, Repr

/-- What a part of the thread does, and whether the next part comes. -/
structure Block where
  events : List Event
  goesOn : Bool
deriving DecidableEq, Repr

def Block.andThen (b next : Block) : Block :=
  if b.goesOn then ⟨b.events ++ next.events, next.goesOn⟩ else b

/-- An enrollment message is encoded, sent and released. A value which was not made is a null
pointer, which stands for a message without a value and needs no release. -/
def sendsValue (v : Value) : EncodeResult → List Event
  | .encoded => [.encodes v, .value v .make, .value v .use, .value v .release]
  | .noMemory | .refused => [.encodes v]

section Process

variable (p : Failures)

def startReplyBlock : Block := ⟨sendsValue .startReply p.startReplyEncode, p.xRibSTART_REPLY⟩

/-- The list of the neighbors is encoded into a value on the stack, whose buffer is released when
that fails; the value is sent in any case and its buffer released once more. -/
def createEvents : EncodeResult → List Event
  | .encoded =>
    [.encodes .neighbors, .value .neighbors .make, .value .neighbors .use,
      .value .neighbors .release]
  | .refused =>
    [.encodes .neighbors, .value .neighbors .release, .value .neighbors .use,
      .value .neighbors .release]
  | .noMemory => [.encodes .neighbors, .value .neighbors .use]

def createBlock : Block :=
  if p.pvRsMemAlloc then
    ⟨createEvents p.neighborsEncode,
      p.xRibCREATE_CMD && !(decide (p.neighborsEncode = .refused) && p.aborts)⟩
  else ⟨[], false⟩

def stopBlock : Block := ⟨sendsValue .stop p.stopEncode, p.xRibSTOP_QUERY_SYNC⟩

/-- The reply is what the wait stores, the response or a null pointer, when it succeeds. After
any error but a timeout it is what the variable contained. -/
def stopReply : ℤ :=
  match p.xStatus with
  | .SUCCESS => p.pxResp.getD 0
  | _ => p.nStopReply

def waitBlock : Block :=
  if p.xStatus = .ERR_RIB_TIMEOUT then ⟨[], false⟩
  else
    ⟨(if p.xStatus = .SUCCESS ∧ p.pxResp.isSome then [.replied] else []) ++ [.replyRead],
      decide (stopReply p = 1)⟩

/-- The last command has no value. -/
def startBlock : Block := ⟨[], p.xRibSTART_CMD⟩

def xEnrollmentInboundProcess : List Event :=
  ((startReplyBlock p).andThen ((createBlock p).andThen ((stopBlock p).andThen
    ((waitBlock p).andThen (startBlock p))))).events

end Process

/-! ### What should become of the values -/

/-- Each value which was encoded is released once, none is used or released after its release or
used without having been encoded, and the reply is read behind a reply. -/
structure Tidy (es : List Event) : Prop where
  released : ∀ v, .value v .make ∈ es → es.count (.value v .release) = 1
  used : ∀ v pre post, es = pre ++ .value v .use :: post →
    .value v .make ∈ pre ∧ .value v .release ∉ pre
  releasedOnce : ∀ v pre post, es = pre ++ .value v .release :: post → .value v .release ∉ pre
  replyRead : Follows .replied .replyRead es

def Event.entry : Event → Option (Entry Value)
  | .value v action => some ⟨v, action⟩
  | _ => none

/-- What happens to the values. -/
def entries (es : List Event) : List (Entry Value) := es.filterMap Event.entry

@[simp] theorem entries_append (es es' : List Event) :
    entries (es ++ es') = entries es ++ entries es' := List.filterMap_append

@[simp] theorem entries_value (v : Value) (action : Action) (es : List Event) :
    entries (.value v action :: es) = ⟨v, action⟩ :: entries es := rfl

theorem mem_entries {v : Value} {action : Action} {es : List Event} :
    ⟨v, action⟩ ∈ entries es ↔ .value v action ∈ es := by
  simp only [entries, List.mem_filterMap]
  constructor
  · rintro ⟨e, he, hentry⟩
    cases e with
    | value v' action' =>
      cases hentry
      exact he
    | encodes v' => cases hentry
    | replied => cases hentry
    | replyRead => cases hentry
  · exact fun he => ⟨_, he, rfl⟩

theorem count_entries (v : Value) (action : Action) (es : List Event) :
    (entries es).count ⟨v, action⟩ = es.count (.value v action) := by
  induction es with
  | nil => rfl
  | cons e es ih =>
    cases e with
    | value v' action' =>
      rw [entries_value, List.count_cons, List.count_cons, ih]
      simp
    | encodes v' => rw [List.count_cons_of_ne (by simp), ← ih]; rfl
    | replied => rw [List.count_cons_of_ne (by simp), ← ih]; rfl
    | replyRead => rw [List.count_cons_of_ne (by simp), ← ih]; rfl

theorem tidy_of_settled {es : List Event} (h : Settled (entries es))
    (hreply : Follows .replied .replyRead es) : Tidy es where
  released v hv := by
    rw [← count_entries]
    exact h.released (mem_entries.mpr hv)
  used v pre post hes := by
    rw [hes, entries_append, entries_value] at h
    have hlive := h.live (by decide)
    rw [mem_entries, mem_entries] at hlive
    exact hlive
  releasedOnce v pre post hes := by
    rw [hes, entries_append, entries_value] at h
    have hlive := h.live (by decide)
    rw [mem_entries, mem_entries] at hlive
    exact hlive.2
  replyRead := hreply

/-! ### The parts of the thread -/

/-- What a part needs: its values are looked after, and it reads no reply which did not come. -/
structure Block.Sound (b : Block) : Prop where
  settled : Settled (entries b.events)
  replyRead : Follows .replied .replyRead b.events

/-- Parts with different values. -/
theorem Block.Sound.andThen {b next : Block} (h : b.Sound) (hnext : b.goesOn = true → next.Sound)
    (hdiff : ∀ v v' action action', .value v action ∈ b.events → .value v' action' ∈ next.events →
      v ≠ v') : (b.andThen next).Sound := by
  unfold Block.andThen
  split_ifs with hgo
  · refine ⟨?_, h.replyRead.append (hnext hgo).replyRead⟩
    rw [entries_append]
    refine h.settled.append (hnext hgo).settled ?_
    rintro ⟨v, action⟩ he ⟨v', action'⟩ he'
    exact hdiff v v' action action' (mem_entries.mp he) (mem_entries.mp he')
  · exact h

theorem mem_andThen {b next : Block} {e : Event} :
    e ∈ (b.andThen next).events ↔ e ∈ b.events ∨ b.goesOn = true ∧ e ∈ next.events := by
  unfold Block.andThen
  split_ifs with hgo
  · simp [hgo]
  · simp [hgo]

theorem settled_sent (v : Value) :
    Settled [⟨v, .make⟩, ⟨v, .use⟩, ⟨v, .release⟩] := by
  intro k
  by_cases hk : v = k
  · simpa [actions, hk] using Lifetime.made (.use .release)
  · simpa [actions, hk] using Lifetime.nothing

theorem sendsValue_sound (v : Value) (r : EncodeResult) (goesOn : Bool) :
    (Block.mk (sendsValue v r) goesOn).Sound := by
  refine ⟨?_, follows_of_notMem (by cases r <;> simp [sendsValue])⟩
  cases r with
  | encoded => exact settled_sent v
  | noMemory => exact settled_nil
  | refused => exact settled_nil

theorem eq_of_mem_sendsValue {v w : Value} {r : EncodeResult} {action : Action}
    (h : .value w action ∈ sendsValue v r) : w = v := by
  cases r <;> simp [sendsValue] at h
  rcases h with h | h | h <;> exact h.1

theorem eq_of_mem_createBlock {p : Failures} {w : Value} {action : Action}
    (h : .value w action ∈ (createBlock p).events) : w = .neighbors := by
  unfold createBlock at h
  split_ifs at h
  · cases hr : p.neighborsEncode <;> simp [createEvents, hr] at h
    · exact h.1
    · rcases h with h | h | h <;> exact h.1
    · rcases h with h | h | h <;> exact h.1
  · cases h

theorem notMem_waitBlock {p : Failures} {w : Value} {action : Action} :
    .value w action ∉ (waitBlock p).events := by
  unfold waitBlock
  split_ifs <;> simp

/-- The reply came, or the wait timed out. -/
def Failures.Awaited (p : Failures) : Prop :=
  p.xStatus = .ERR_RIB_TIMEOUT ∨ p.xStatus = .SUCCESS ∧ p.pxResp.isSome

instance (p : Failures) : Decidable p.Awaited := inferInstanceAs (Decidable (_ ∨ _))

theorem createBlock_sound {p : Failures}
    (h : p.pvRsMemAlloc = true → p.neighborsEncode = .encoded) : (createBlock p).Sound := by
  unfold createBlock
  split_ifs with hmem
  · rw [h hmem]
    exact ⟨settled_sent .neighbors, follows_of_notMem (by simp [createEvents])⟩
  · exact ⟨settled_nil, follows_of_notMem List.not_mem_nil⟩

theorem waitBlock_sound {p : Failures} (h : p.Awaited) : (waitBlock p).Sound := by
  unfold waitBlock
  split_ifs with htimeout hreply
  · exact ⟨settled_nil, follows_of_notMem List.not_mem_nil⟩
  · exact ⟨settled_nil, follows_cons (by simp) _⟩
  · exact absurd (h.resolve_left htimeout) hreply

theorem startBlock_sound (p : Failures) : (startBlock p).Sound :=
  ⟨settled_nil, follows_of_notMem List.not_mem_nil⟩

/-- The list of the neighbors is encoded when the thread gets so far, and the wait ends with the
reply or with a timeout when it gets there. -/
def Failures.Regular (p : Failures) : Prop :=
  p.xRibSTART_REPLY = true → p.pvRsMemAlloc = true →
    p.neighborsEncode = .encoded ∧
      (p.xRibCREATE_CMD = true → p.xRibSTOP_QUERY_SYNC = true → p.Awaited)

instance (p : Failures) : Decidable p.Regular :=
  inferInstanceAs (Decidable (_ → _ → _ ∧ (_ → _ → _)))

theorem createBlock_goesOn {p : Failures} (h : (createBlock p).goesOn = true) :
    p.pvRsMemAlloc = true ∧ p.xRibCREATE_CMD = true := by
  unfold createBlock at h
  split_ifs at h with hmem
  exact ⟨hmem, (Bool.and_eq_true_iff.mp h).1⟩

/-- The parts behind the M_STOP have no value. -/
theorem notMem_afterStop {p : Failures} {v : Value} {action : Action} :
    .value v action ∉ ((waitBlock p).andThen (startBlock p)).events := fun hv =>
  (mem_andThen.mp hv).elim notMem_waitBlock fun hv => List.not_mem_nil hv.2

theorem eq_of_mem_afterCreate {p : Failures} {v : Value} {action : Action}
    (h : .value v action ∈
      ((stopBlock p).andThen ((waitBlock p).andThen (startBlock p))).events) : v = .stop :=
  (mem_andThen.mp h).elim eq_of_mem_sendsValue fun hv => (notMem_afterStop hv.2).elim

theorem process_tidy {p : Failures} (h : p.Regular) : Tidy (xEnrollmentInboundProcess p) := by
  have hwait (hreply : (startReplyBlock p).goesOn = true) (hcreate : (createBlock p).goesOn = true)
      (hstop : (stopBlock p).goesOn = true) : ((waitBlock p).andThen (startBlock p)).Sound := by
    obtain ⟨hmem, hcmd⟩ := createBlock_goesOn hcreate
    exact (waitBlock_sound ((h hreply hmem).2 hcmd hstop)).andThen (fun _ => startBlock_sound p)
      fun v v' action action' hv => absurd hv notMem_waitBlock
  have hsound : ((startReplyBlock p).andThen ((createBlock p).andThen ((stopBlock p).andThen
      ((waitBlock p).andThen (startBlock p))))).Sound := by
    refine (sendsValue_sound _ _ _).andThen (fun hreply => ?_) ?_
    · refine (createBlock_sound fun hmem => (h hreply hmem).1).andThen (fun hcreate => ?_) ?_
      · refine (sendsValue_sound _ _ _).andThen (hwait hreply hcreate) ?_
        exact fun v v' action action' _ hv' => absurd hv' notMem_afterStop
      · intro v v' action action' hv hv'
        rw [eq_of_mem_createBlock hv, eq_of_mem_afterCreate hv']
        decide
    · intro v v' action action' hv hv'
      rw [eq_of_mem_sendsValue hv]
      rcases mem_andThen.mp hv' with hv' | ⟨-, hv'⟩
      · rw [eq_of_mem_createBlock hv']
        decide
      · rw [eq_of_mem_afterCreate hv']
        decide
  exact tidy_of_settled hsound.settled hsound.replyRead

/-! ### Where it goes wrong -/

theorem Tidy.made {es : List Event} (h : Tidy es) {v : Value} (hv : .value v .use ∈ es) :
    .value v .make ∈ es := by
  obtain ⟨pre, post, rfl⟩ := List.append_of_mem hv
  exact List.mem_append_left _ (h.used v pre post rfl).1

theorem Tidy.replied {es : List Event} (h : Tidy es) (hread : .replyRead ∈ es) :
    .replied ∈ es := by
  obtain ⟨pre, post, rfl⟩ := List.append_of_mem hread
  exact List.mem_append_left _ (h.replyRead pre post rfl)

/-- The value for the neighbors is used whether it was made or not. -/
theorem encoded_of_tidy {p : Failures} (h : Tidy (xEnrollmentInboundProcess p))
    (hreply : p.xRibSTART_REPLY = true) (hmem : p.pvRsMemAlloc = true) :
    p.neighborsEncode = .encoded := by
  have hused : .value .neighbors .use ∈ (createBlock p).events := by
    rw [createBlock, if_pos hmem]
    cases p.neighborsEncode <;> simp [createEvents]
  have hmade := h.made (mem_andThen.mpr (.inr ⟨hreply, mem_andThen.mpr (.inl hused)⟩))
  rcases mem_andThen.mp hmade with hmade | ⟨-, hmade⟩
  · cases eq_of_mem_sendsValue hmade
  · rcases mem_andThen.mp hmade with hmade | ⟨-, hmade⟩
    · rw [createBlock, if_pos hmem] at hmade
      cases hr : p.neighborsEncode with
      | encoded => rfl
      | noMemory => simp [createEvents, hr] at hmade
      | refused => simp [createEvents, hr] at hmade
    · cases eq_of_mem_afterCreate hmade

theorem replied_waitBlock {p : Failures} (h : .replied ∈ (waitBlock p).events) : p.Awaited := by
  unfold waitBlock at h
  split_ifs at h with htimeout hreply
  · exact .inl htimeout
  · exact .inr hreply
  · simp at h

/-- The reply is read unless the wait timed out. -/
theorem awaited_of_tidy {p : Failures} (h : Tidy (xEnrollmentInboundProcess p))
    (hreply : (startReplyBlock p).goesOn = true) (hcreate : (createBlock p).goesOn = true)
    (hstop : (stopBlock p).goesOn = true) : p.Awaited := by
  by_contra hawait
  have hread : .replyRead ∈ (waitBlock p).events := by
    rw [waitBlock, if_neg fun htimeout => hawait (.inl htimeout)]
    simp
  have hreplied := h.replied (mem_andThen.mpr (.inr ⟨hreply, mem_andThen.mpr (.inr ⟨hcreate,
    mem_andThen.mpr (.inr ⟨hstop, mem_andThen.mpr (.inl hread)⟩)⟩)⟩))
  have hsent {v : Value} {r : EncodeResult} : .replied ∉ sendsValue v r := by
    cases r <;> simp [sendsValue]
  have hcreated : .replied ∉ (createBlock p).events := by
    unfold createBlock
    split_ifs
    · cases p.neighborsEncode <;> simp [createEvents]
    · exact List.not_mem_nil
  rcases mem_andThen.mp hreplied with hr | ⟨-, hr⟩
  · exact hsent hr
  rcases mem_andThen.mp hr with hr | ⟨-, hr⟩
  · exact hcreated hr
  rcases mem_andThen.mp hr with hr | ⟨-, hr⟩
  · exact hsent hr
  rcases mem_andThen.mp hr with hr | ⟨-, hr⟩
  · exact hawait (replied_waitBlock hr)
  · cases hr

/-- The thread looks after its values exactly when its calls end so. -/
theorem process_tidy_iff (p : Failures) : Tidy (xEnrollmentInboundProcess p) ↔ p.Regular := by
  refine ⟨fun h hreply hmem => ?_, process_tidy⟩
  have hencoded := encoded_of_tidy h hreply hmem
  refine ⟨hencoded, fun hcreate hstop => awaited_of_tidy h hreply ?_ hstop⟩
  simp [createBlock, hmem, hcreate, hencoded]

/-- Everything goes well but for the list of the neighbors and the command which sends it. -/
def refusedNeighbors : Failures where
  startReplyEncode := .encoded
  xRibSTART_REPLY := true
  pvRsMemAlloc := true
  neighborsEncode := .refused
  xRibCREATE_CMD := false
  aborts := true
  stopEncode := .encoded
  xRibSTOP_QUERY_SYNC := true
  xStatus := .SUCCESS
  pxResp := some 1
  nStopReply := 0
  xRibSTART_CMD := true

/-- The buffer of the list is sent after its release and released once more. -/
theorem refused_used :
    xEnrollmentInboundProcess refusedNeighbors =
        [.encodes .startReply, .value .startReply .make, .value .startReply .use,
          .value .startReply .release, .encodes .neighbors, .value .neighbors .release,
          .value .neighbors .use, .value .neighbors .release] ∧
      ¬ Tidy (xEnrollmentInboundProcess refusedNeighbors) := by
  refine ⟨rfl, fun h => ?_⟩
  cases encoded_of_tidy h rfl rfl

end RinaSense.Enrollment
