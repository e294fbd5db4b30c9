import Mathlib.Logic.Function.Basic
import RinaSense.Library.Runs
import RinaSense.Common.Ids
import RinaSense.SerDes.Message

/-!
# Inbound enrollments

The handler of M_START on the enrollment object writes the port and the invoke id of its
peer to the data block of the object and starts a thread, which reads them from there each
time it sends. All enrollments of the object share the block.
-/

namespace RinaSense.Enrollment

open Common SerDes Library.Runs

/-- An M_START on the enrollment object. -/
structure Start where
  unPort : PortId
  nInvokeID : ℤ
deriving DecidableEq, Repr

/-- Where a thread is in `xEnrollmentInboundProcess`. -/
inductive Phase
  | notStarted
  /-- Before the M_START_R, with what was read of the block for it. -/
  | replying (unPort : Option PortId) (unStartInvokeId : Option ℤ)
  | creating
  | stopping
  | waiting
  | operating
  | ended
deriving DecidableEq, Repr

/-- Where the handler of M_START is. -/
inductive Handler
  | idle
  | portWritten (nInvokeID : ℤ)
  | dataWritten
deriving DecidableEq, Repr

/-- A message of the thread which was started for an M_START. -/
structure Sent where
  thread : ℕ
  eOpCode : OpCode
  unPort : PortId
  nInvokeID : Option ℤ
deriving DecidableEq, Repr

/-- The data block, the handler, and the threads numbered like their M_STARTs. -/
structure State where
  unPort : PortId
  unStartInvokeId : ℤ
  handler : Handler
  starts : List Start
  threads : ℕ → Phase
  sent : List Sent

def State.init : State where
  unPort := 0
  unStartInvokeId := 0
  handler := .idle
  starts := []
  threads := fun _ => .notStarted
  sent := []

inductive Act
  | start (msg : Start)
  | writeInvokeId
  | create (ok : Bool)
  | loadPort (k : ℕ)
  | loadInvokeId (k : ℕ)
  | send (k : ℕ) (ok : Bool)
  | await (k : ℕ) (ok : Bool)
  | abandon (k : ℕ)
deriving DecidableEq, Repr

def State.setThread (s : State) (k : ℕ) (phase : Phase) : State :=
  { s with threads := Function.update s.threads k phase }

/-- A message goes out, and the thread goes on or gives up. -/
def State.sends (s : State) (k : ℕ) (msg : Sent) (next : Phase) (ok : Bool) : State :=
  { s.setThread k (if ok then next else .ended) with sent := s.sent ++ [msg] }

/-- A step of the handler or of a thread, where it can be taken. -/
def State.step (s : State) : Act → Option State
  | .start msg =>
    match s.handler with
    | .idle =>
      some { s with
        unPort := msg.unPort
        handler := .portWritten msg.nInvokeID
        starts := s.starts ++ [msg] }
    | _ => none
  | .writeInvokeId =>
    match s.handler with
    | .portWritten nInvokeID =>
      some { s with unStartInvokeId := nInvokeID, handler := .dataWritten }
    | _ => none
  | .create ok =>
    match s.handler with
    | .dataWritten =>
      some { s.setThread (s.starts.length - 1) (if ok then .replying none none else .ended) with
        handler := .idle }
    | _ => none
  -- the two arguments of the reply are read in either order
  | .loadPort k =>
    match s.threads k with
    | .replying none id => some (s.setThread k (.replying (some s.unPort) id))
    | _ => none
  | .loadInvokeId k =>
    match s.threads k with
    | .replying port none => some (s.setThread k (.replying port (some s.unStartInvokeId)))
    | _ => none
  | .send k ok =>
    match s.threads k with
    | .replying (some port) (some id) =>
      some (s.sends k ⟨k, .M_START_R, port, some id⟩ .creating ok)
    | .creating => some (s.sends k ⟨k, .M_CREATE, s.unPort, none⟩ .stopping ok)
    | .stopping => some (s.sends k ⟨k, .M_STOP, s.unPort, none⟩ .waiting ok)
    | .operating => some (s.sends k ⟨k, .M_START, s.unPort, none⟩ .ended ok)
    | _ => none
  | .await k ok =>
    match s.threads k with
    | .waiting => some (s.setThread k (if ok then .operating else .ended))
    | _ => none
  | .abandon k =>
    match s.threads k with
    | .creating => some (s.setThread k .ended)
    | _ => none

/-! ### What the messages should say -/

/-- The port of the peer which the thread was started for. -/
def State.peerPort (s : State) (k : ℕ) : Option PortId := s.starts[k]?.map Start.unPort

def State.peerInvokeId (s : State) (k : ℕ) : Option ℤ := s.starts[k]?.map Start.nInvokeID

/-- Every message went to the peer of its thread, and every M_START_R carries its invoke
id. -/
def State.OwnPeer (s : State) : Prop :=
  ∀ msg ∈ s.sent, s.peerPort msg.thread = some msg.unPort ∧
    (msg.eOpCode = .M_START_R → s.peerInvokeId msg.thread = msg.nInvokeID)

/-- When a thread reads the block, the block holds what the M_START of the thread wrote. -/
def ReadsOwn (s : State) : Act → Prop
  | .loadPort k => s.peerPort k = some s.unPort
  | .loadInvokeId k => s.peerInvokeId k = some s.unStartInvokeId
  | .send k _ =>
    match s.threads k with
    | .replying .. => True
    | _ => s.peerPort k = some s.unPort
  | _ => True

instance (s : State) : ∀ a, Decidable (ReadsOwn s a)
  | .loadPort k => inferInstanceAs (Decidable (s.peerPort k = some s.unPort))
  | .loadInvokeId k => inferInstanceAs (Decidable (s.peerInvokeId k = some s.unStartInvokeId))
  | .send k _ =>
    match h : s.threads k with
    | .replying .. => .isTrue (by simp [ReadsOwn, h])
    | .notStarted | .creating | .stopping | .waiting | .operating | .ended =>
      decidable_of_iff (s.peerPort k = some s.unPort) (by simp [ReadsOwn, h])
  | .start _ | .writeInvokeId | .create _ | .await .. | .abandon _ => .isTrue trivial

structure State.Inv (s : State) : Prop where
  ownPeer : s.OwnPeer
  port : ∀ k port id, s.threads k = .replying (some port) id → s.peerPort k = some port
  invokeId : ∀ k port id, s.threads k = .replying port (some id) → s.peerInvokeId k = some id

theorem inv_init : State.init.Inv where
  ownPeer := by simp [State.OwnPeer, State.init]
  port := by simp [State.init]
  invokeId := by simp [State.init]

variable {s s' : State} {a : Act}

theorem State.threads_setThread (s : State) (k j : ℕ) (phase : Phase) :
    (s.setThread k phase).threads j = if j = k then phase else s.threads j := by
  simp [State.setThread, Function.update_apply]

theorem lt_of_peerPort {k : ℕ} {port : PortId} (h : s.peerPort k = some port) :
    k < s.starts.length := by
  obtain ⟨st, hst, -⟩ := Option.map_eq_some_iff.mp h
  exact (List.getElem?_eq_some_iff.mp hst).1

theorem lt_of_peerInvokeId {k : ℕ} {id : ℤ} (h : s.peerInvokeId k = some id) :
    k < s.starts.length := by
  obtain ⟨st, hst, -⟩ := Option.map_eq_some_iff.mp h
  exact (List.getElem?_eq_some_iff.mp hst).1

/-- A later M_START does not change what the peers of earlier threads are. -/
theorem peer_append {α : Type} {starts : List Start} {k : ℕ} (hk : k < starts.length)
    (f : Start → α) (msg : Start) : (starts ++ [msg])[k]?.map f = starts[k]?.map f := by
  rw [List.getElem?_append_left hk]

/-- A thread moves to a phase in which what it has read is its own. -/
theorem State.Inv.setThread (h : s.Inv) (k : ℕ) {phase : Phase}
    (hport : ∀ port id, phase = .replying (some port) id → s.peerPort k = some port)
    (hid : ∀ port id, phase = .replying port (some id) → s.peerInvokeId k = some id) :
    (s.setThread k phase).Inv where
  ownPeer := h.ownPeer
  port := by
    intro j port id hj
    rw [s.threads_setThread] at hj
    split_ifs at hj with hjk
    · rw [hjk]
      exact hport port id hj
    · exact h.port j port id hj
  invokeId := by
    intro j port id hj
    rw [s.threads_setThread] at hj
    split_ifs at hj with hjk
    · rw [hjk]
      exact hid port id hj
    · exact h.invokeId j port id hj

/-- A message to the own peer goes out. -/
theorem State.Inv.sends (h : s.Inv) {k : ℕ} {msg : Sent} {next : Phase} {ok : Bool}
    (hport : s.peerPort msg.thread = some msg.unPort)
    (hid : msg.eOpCode = .M_START_R → s.peerInvokeId msg.thread = msg.nInvokeID)
    (hnext : ∀ port id, next ≠ .replying port id) : (s.sends k msg next ok).Inv := by
  have hnot : ∀ port id, (if ok then next else .ended) ≠ Phase.replying port id := by
    intro port id
    cases ok with
    | false => simp
    | true => simpa using hnext port id
  have hset := h.setThread k (fun port id heq => absurd heq (hnot _ _))
    (fun port id heq => absurd heq (hnot _ _))
  refine ⟨?_, hset.port, hset.invokeId⟩
  intro msg' hmem
  rcases List.mem_append.mp hmem with hmem | hmem
  · exact h.ownPeer msg' hmem
  · rw [List.mem_singleton.mp hmem]
    exact ⟨hport, hid⟩

/-- An M_START writes its port to the block, which no thread has read so far for it. -/
theorem State.Inv.starts (h : s.Inv) (msg : Start) (handler : Handler) :
    State.Inv { s with unPort := msg.unPort, handler := handler, starts := s.starts ++ [msg] } where
  ownPeer m hm := by
    obtain ⟨hport, hid⟩ := h.ownPeer m hm
    have hlt := lt_of_peerPort hport
    exact ⟨(peer_append hlt _ msg).trans hport,
      fun hop => (peer_append hlt _ msg).trans (hid hop)⟩
  port k port id hk := by
    have hport := h.port k port id hk
    exact (peer_append (lt_of_peerPort hport) _ msg).trans hport
  invokeId k port id hk := by
    have hid := h.invokeId k port id hk
    exact (peer_append (lt_of_peerInvokeId hid) _ msg).trans hid

/-- What a thread sends is the reply which it has read the block for, or goes to the port
which is in the block. -/
theorem send_cases {k : ℕ} {ok : Bool} (hst : s.step (.send k ok) = some s') :
    (∃ port id, s.threads k = .replying (some port) (some id) ∧
      s' = s.sends k ⟨k, .M_START_R, port, some id⟩ .creating ok) ∨
    ∃ eOpCode next, (∀ port id, s.threads k ≠ .replying port id) ∧ eOpCode ≠ .M_START_R ∧
      (∀ port id, next ≠ .replying port id) ∧
      s' = s.sends k ⟨k, eOpCode, s.unPort, none⟩ next ok := by
  simp only [State.step] at hst
  split at hst
  · rename_i port id hk
    cases hst
    exact .inl ⟨port, id, hk, rfl⟩
  · rename_i hk
    cases hst
    exact .inr ⟨.M_CREATE, .stopping, by simp [hk], by simp, by simp, rfl⟩
  · rename_i hk
    cases hst
    exact .inr ⟨.M_STOP, .waiting, by simp [hk], by simp, by simp, rfl⟩
  · rename_i hk
    cases hst
    exact .inr ⟨.M_START, .ended, by simp [hk], by simp, by simp, rfl⟩
  · cases hst

theorem readsOwn_send {k : ℕ} {ok : Bool} (hphase : ∀ port id, s.threads k ≠ .replying port id) :
    ReadsOwn s (.send k ok) ↔ s.peerPort k = some s.unPort := by
  cases hk : s.threads k with
  | replying port id => exact absurd hk (hphase port id)
  | _ => simp [ReadsOwn, hk]

theorem State.Inv.step (h : s.Inv) (hg : ReadsOwn s a) (hst : s.step a = some s') : s'.Inv := by
  cases a with
  | start msg =>
    simp only [State.step] at hst
    split at hst
    · cases hst
      exact h.starts msg _
    · cases hst
  | writeInvokeId =>
    simp only [State.step] at hst
    split at hst
    · cases hst
      exact ⟨h.ownPeer, h.port, h.invokeId⟩
    · cases hst
  | create ok =>
    simp only [State.step] at hst
    split at hst
    · cases hst
      have hset : (s.setThread (s.starts.length - 1)
          (if ok then .replying none none else .ended)).Inv :=
        h.setThread _ (by cases ok <;> simp) (by cases ok <;> simp)
      exact ⟨hset.ownPeer, hset.port, hset.invokeId⟩
    · cases hst
  | loadPort k =>
    simp only [State.step] at hst
    split at hst
    · rename_i id hk
      cases hst
      refine h.setThread k (fun port id' heq => ?_) (fun port id' heq => ?_)
      · cases heq
        exact hg
      · cases heq
        exact h.invokeId k none id' hk
    · cases hst
  | loadInvokeId k =>
    simp only [State.step] at hst
    split at hst
    · rename_i port hk
      cases hst
      refine h.setThread k (fun port' id' heq => ?_) (fun port' id' heq => ?_)
      · cases heq
        exact h.port k port' none hk
      · cases heq
        exact hg
    · cases hst
  | send k ok =>
    obtain ⟨port, id, hk, rfl⟩ | ⟨eOpCode, next, hphase, hop, hnext, rfl⟩ := send_cases hst
    · exact h.sends (h.port k port _ hk) (fun _ => h.invokeId k _ id hk) (by simp)
    · exact h.sends ((readsOwn_send hphase).mp hg) (fun hrep => absurd hrep hop) hnext
  | await k ok =>
    simp only [State.step] at hst
    split at hst
    · cases hst
      exact h.setThread k (by cases ok <;> simp) (by cases ok <;> simp)
    · cases hst
  | abandon k =>
    simp only [State.step] at hst
    split at hst
    · cases hst
      exact h.setThread k (by simp) (by simp)
    · cases hst

/-- In every interleaving in which the threads read the block only while it holds the data of
their own M_START, every message goes to the peer of its thread. -/
theorem ownPeer_of_readsOwn (acts : List Act) {s : State}
    (hg : GuardedSteps State.step ReadsOwn State.init acts)
    (hrun : acts.foldlM State.step State.init = some s) : s.OwnPeer :=
  (foldlM_invariant (fun _ _ _ h hr hst => State.Inv.step h hr hst) inv_init hg hrun).ownPeer

/-- A message which is sent from the block of another port goes to the wrong peer. -/
theorem send_other {k : ℕ} {ok : Bool} (hphase : ∀ port id, s.threads k ≠ .replying port id)
    (hother : s.peerPort k ≠ some s.unPort) (hst : s.step (.send k ok) = some s') :
    ¬ s'.OwnPeer := by
  intro hown
  obtain ⟨port, id, hk, -⟩ | ⟨eOpCode, next, -, -, -, rfl⟩ := send_cases hst
  · exact hphase _ _ hk
  · exact hother (hown ⟨k, eOpCode, s.unPort, none⟩ (by simp [State.sends])).1

/-! ### Two peers -/

/-- The handling of an M_START whose thread is started. -/
def handleStart (unPort : PortId) (nInvokeID : ℤ) : List Act :=
  [.start ⟨unPort, nInvokeID⟩, .writeInvokeId, .create true]

/-- A whole enrollment. -/
def enroll (k : ℕ) : List Act :=
  [.loadPort k, .loadInvokeId k, .send k true, .send k true, .send k true, .await k true,
    .send k true]

/-- Two peers one after the other. -/
theorem ownPeer_sequence :
    ∃ s, (handleStart 1 5 ++ enroll 0 ++ handleStart 2 6 ++ enroll 1).foldlM State.step
        State.init = some s ∧ s.OwnPeer :=
  ⟨_, rfl, ownPeer_of_readsOwn (handleStart 1 5 ++ enroll 0 ++ handleStart 2 6 ++ enroll 1)
    (by decide) rfl⟩

/-- Two peers of which the second asks before the first is answered: the answer to the first
goes to the second. -/
theorem ownPeer_crossed :
    ∃ s, (handleStart 1 5 ++ handleStart 2 6 ++ enroll 0).foldlM State.step State.init = some s ∧
      s.sent.head? = some ⟨0, .M_START_R, 2, some 6⟩ ∧ s.peerPort 0 = some 1 ∧ ¬ s.OwnPeer :=
  ⟨_, rfl, rfl, rfl, fun h =>
    absurd (h ⟨0, .M_START_R, 2, some 6⟩ (List.mem_cons_self ..)).1 (by decide)⟩

end RinaSense.Enrollment
