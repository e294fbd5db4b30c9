import RinaSense.Common.RsTime
import RinaSense.Flow.EventBits

/-!
# Reading with a time-out

The wait loop of `RINA_flow_read` on a flow to which no packet comes, with the readings of
the clock and the bits which are set meanwhile. A wait has no time limit of its own, and the
loop does not look at the time which is left.
-/

namespace RinaSense.Flow

open Common Library.Runs Ipcp

/-- The loop at its wait. -/
structure ReadLoop where
  nEventBits : UInt64
  xTimeOut : Timespec
  xRemainingTime : UInt32
deriving DecidableEq

/-- The bits set while the reader waits, and the reading of the check if the wait is over. -/
structure ReadTurn where
  nNewBits : UInt64
  clock : Option Timespec
deriving DecidableEq

/-- What `RINA_flow_read` returns when it has left the loop, or the loop at its next wait. -/
abbrev ReadState := Int ⊕ ReadLoop

/-- The first iteration up to the wait. -/
def flowReadEnter (xReceiveBlockTime : UInt32) (nEventBits : UInt64) (clock : Option Timespec) :
    ReadState :=
  if xReceiveBlockTime = 0 then .inl (-1)
  else
    match xRsTimeSetTimeOut clock with
    | none => .inl (-1)
    | some xTimeOut => .inr ⟨nEventBits, xTimeOut, xReceiveBlockTime⟩

/-- A turn of the loop, which finds no packet. -/
def ReadLoop.turn (s : ReadLoop) (t : ReadTurn) : ReadState :=
  match prvWaitForBit (s.nEventBits ||| t.nNewBits) eFLOW_RECEIVE true with
  | none => .inr { s with nEventBits := s.nEventBits ||| t.nNewBits }
  | some nEventBits =>
    match xRsTimeCheckTimeOut s.xTimeOut s.xRemainingTime t.clock with
    | none => .inl 0
    | some (xTimeOut, xRemainingTime) => .inr ⟨nEventBits, xTimeOut, xRemainingTime⟩

/-- A turn, unless the loop has been left. -/
def ReadState.step : ReadState → ReadTurn → Option ReadState
  | .inl _, _ => none
  | .inr s, t => some (s.turn t)

/-- When a wait which begins at `now` is over, if bits are set at the given times. -/
def prvWaitForBitEnd (nDesiredBits : UInt64) (now : ℕ) (nTargetBits : UInt64) :
    List (ℕ × UInt64) → Option ℕ
  | [] => if nTargetBits &&& nDesiredBits = 0 then none else some now
  | (t, nNewBits) :: wakeUps =>
    if nTargetBits &&& nDesiredBits = 0 then
      prvWaitForBitEnd nDesiredBits t (nTargetBits ||| nNewBits) wakeUps
    else some now

/-- The wait ends within the time left, whatever bits are set meanwhile. -/
def ReadLoop.Bounded (s : ReadLoop) : Prop :=
  ∀ wakeUps, ∃ t, prvWaitForBitEnd eFLOW_RECEIVE 0 s.nEventBits wakeUps = some t ∧
    t ≤ s.xRemainingTime.toNat

/-- The reading is at least the time `T`, in microseconds, behind the start. -/
def Late (T : UInt32) (start : Option Timespec) (clock : Option Timespec) : Prop :=
  ∃ then_ now, start = some then_ ∧ clock = some now ∧
    (T.toNat * 1000 : Int) ≤ then_.elapsed now

/-- A turn whose check sees that the time is over leaves the loop with -1. -/
def ReadState.Leaves (T : UInt32) (start : Option Timespec) : ReadState → ReadTurn → Prop
  | .inl _, _ => True
  | .inr s, t => (s.nEventBits ||| t.nNewBits) &&& eFLOW_RECEIVE ≠ 0 → Late T start t.clock →
      s.turn t = .inl (-1)

/-- Every wait of the read is bounded, and it leaves the loop when its time is over. -/
structure InTime (T : UInt32) (start : Option Timespec) (r : ReadState) (turns : List ReadTurn) :
    Prop where
  bounded : Throughout ReadState.step (fun r => ∀ s, r = .inr s → s.Bounded) r turns
  leaves : GuardedSteps ReadState.step (ReadState.Leaves T start) r turns

/-- None of the readings up to the first one that fails is late. -/
def NoneLate (T : UInt32) (start : Option Timespec) : List ReadTurn → Prop
  | [] => True
  | t :: turns => t.clock = none ∨ ¬ Late T start t.clock ∧ NoneLate T start turns

variable {T : UInt32} {start : Option Timespec}

theorem ReadLoop.bounded_iff {s : ReadLoop} :
    s.Bounded ↔ s.nEventBits &&& eFLOW_RECEIVE ≠ 0 := by
  constructor
  · intro h hclear
    obtain ⟨t, ht, -⟩ := h []
    rw [prvWaitForBitEnd, if_pos hclear] at ht
    cases ht
  · intro hset wakeUps
    refine ⟨0, ?_, Nat.zero_le _⟩
    cases wakeUps <;> rw [prvWaitForBitEnd, if_neg hset]

/-- Bits which are set meanwhile do not clear one. -/
theorem or_and_ne_zero {w d : UInt64} (h : w &&& d ≠ 0) (b : UInt64) : (w ||| b) &&& d ≠ 0 := by
  have hdist : (w ||| b) &&& d = w &&& d ||| b &&& d := by
    apply UInt64.toBitVec_inj.mp
    ext i hi
    simp only [UInt64.toBitVec_and, UInt64.toBitVec_or, BitVec.getElem_and, BitVec.getElem_or,
      Bool.and_or_distrib_right]
  rw [hdist]
  intro hzero
  exact h (UInt64.or_eq_zero_iff.mp hzero).1

/-- A wait whose bit is set gets through and leaves it set. -/
theorem ReadLoop.turn_set {s : ReadLoop} (hset : s.nEventBits &&& eFLOW_RECEIVE ≠ 0)
    (t : ReadTurn) :
    (t.clock = none ∧ s.turn t = .inl 0) ∨
      (t.clock ≠ none ∧ ∃ s' : ReadLoop, s.turn t = .inr s' ∧
        s'.nEventBits &&& eFLOW_RECEIVE ≠ 0) := by
  have hset' := or_and_ne_zero hset t.nNewBits
  have hwait := prvWaitForBit_eq_some.mpr ⟨hset', rfl⟩
  rw [ReadLoop.turn, hwait]
  cases hc : t.clock with
  | none => exact .inl ⟨rfl, rfl⟩
  | some now =>
    refine .inr ⟨by simp, _, rfl, ?_⟩
    rw [or_not_and]
    exact hset'

/-- On an empty queue the turn is the wake-up of a reader which has the same bits. -/
theorem flowReadWake_turn {s : FlowRun} {p : FaiPtr} (hq : s.queue p = []) {r : ReadLoop}
    {t : ReadTurn} (hbits : (s.handle p).nEventBits = r.nEventBits ||| t.nNewBits) :
    ∃ s', flowReadWake s p t.clock.isSome =
        .ok (Sum.elim ReadStep.returned (fun _ => .waits) (r.turn t), s') ∧
      s'.queue p = [] ∧ ∀ r', r.turn t = .inr r' → (s'.handle p).nEventBits = r'.nEventBits := by
  rw [flowReadWake, hbits, ReadLoop.turn]
  cases hw : prvWaitForBit (r.nEventBits ||| t.nNewBits) eFLOW_RECEIVE true with
  | none =>
    refine ⟨s, rfl, hq, ?_⟩
    rintro r' ⟨⟩
    exact hbits
  | some bits =>
    have hempty : (s.setHandle p { s.handle p with nEventBits := bits }).queue p = [] := by
      rw [FlowRun.setHandle_queue]
      exact hq
    refine ⟨s.setHandle p { s.handle p with nEventBits := bits }, ?_, hempty, ?_⟩
    · dsimp only
      rw [hempty]
      cases t.clock <;> rfl
    · intro r' hr'
      cases hc : t.clock with
      | none =>
        rw [hc] at hr'
        cases hr'
      | some now =>
        rw [hc] at hr'
        cases hr'
        simp [FlowRun.handle, FlowRun.setHandle, FlowAllocator.setFai]

theorem inTime_left (v : Int) (turns : List ReadTurn) : InTime T start (.inl v) turns := by
  constructor
  · intro js _ r hr s hs
    subst hs
    cases js with
    | nil => cases hr
    | cons j js => cases hr
  · cases turns with
    | nil => trivial
    | cons t turns => exact ⟨trivial, trivial⟩

theorem inTime_nil_iff {s : ReadLoop} : InTime T start (.inr s) [] ↔ s.Bounded := by
  constructor
  · intro h
    exact h.bounded [] List.nil_prefix _ rfl s rfl
  · intro hb
    refine ⟨fun js hjs r hr s' hs' => ?_, trivial⟩
    rw [List.prefix_nil.mp hjs] at hr
    cases hr
    cases hs'
    exact hb

theorem inTime_cons_iff {s : ReadLoop} {t : ReadTurn} {turns : List ReadTurn} :
    InTime T start (.inr s) (t :: turns) ↔
      s.Bounded ∧ ReadState.Leaves T start (.inr s) t ∧ InTime T start (s.turn t) turns := by
  have hstep : ReadState.step (.inr s) t = some (s.turn t) := rfl
  constructor
  · rintro ⟨hb, hl⟩
    obtain ⟨hnow, hrest⟩ := (throughout_cons hstep).mp hb
    exact ⟨hnow s rfl, hl.1, hrest, hl.2⟩
  · rintro ⟨hb, hl, hrest⟩
    refine ⟨(throughout_cons hstep).mpr ⟨?_, hrest.bounded⟩, hl, hrest.leaves⟩
    rintro s' ⟨⟩
    exact hb

/-- The loop leaves in time when it can begin with its bit set and sees no late reading. -/
theorem inTime_loop_iff (s : ReadLoop) (turns : List ReadTurn) :
    InTime T start (.inr s) turns ↔
      s.nEventBits &&& eFLOW_RECEIVE ≠ 0 ∧ NoneLate T start turns := by
  induction turns generalizing s with
  | nil => rw [inTime_nil_iff, ReadLoop.bounded_iff, NoneLate, and_true]
  | cons t turns ih =>
    rw [inTime_cons_iff, ReadLoop.bounded_iff, NoneLate]
    apply and_congr_right
    intro hset
    obtain ⟨hc, hturn⟩ | ⟨hc, s', hturn, hset'⟩ := s.turn_set hset t
    · have hlate : ¬ Late T start t.clock := by
        rintro ⟨then_, now, -, hnow, -⟩
        rw [hc] at hnow
        cases hnow
      rw [hturn]
      exact iff_of_true ⟨fun _ hl => absurd hl hlate, inTime_left 0 turns⟩ (.inl hc)
    · have hleaves : ReadState.Leaves T start (.inr s) t ↔ ¬ Late T start t.clock := by
        constructor
        · intro hl hlate
          have hleft := hl (or_and_ne_zero hset t.nNewBits) hlate
          rw [hturn] at hleft
          cases hleft
        · intro hnot _ hlate
          exact absurd hlate hnot
      rw [hleaves, hturn, ih s', or_iff_right hc, and_iff_right hset']

/-- A read with a block time, whatever bits are set and whatever the clock shows, has bounded
waits and leaves when its time is over if and only if the time-out cannot be set up, or the
bit it waits for is set from the start and no check sees that the time is over. -/
theorem read_inTime_iff (hT : T ≠ 0) (w : UInt64) (start : Option Timespec)
    (turns : List ReadTurn) :
    InTime T start (flowReadEnter T w start) turns ↔
      start = none ∨ w &&& eFLOW_RECEIVE ≠ 0 ∧ NoneLate T start turns := by
  rw [flowReadEnter, if_neg hT]
  cases start with
  | none => simp [xRsTimeSetTimeOut, inTime_left]
  | some then_ => simp [xRsTimeSetTimeOut, inTime_loop_iff]

/-- The bit is set, and the second reading of the clock fails. -/
theorem read_inTime_failing :
    InTime 1000 (some ⟨5, 0⟩) (flowReadEnter 1000 eFLOW_RECEIVE (some ⟨5, 0⟩))
      [⟨0, some ⟨5, 1000⟩⟩, ⟨0, none⟩] := by
  apply (read_inTime_iff (by decide) eFLOW_RECEIVE (some ⟨5, 0⟩) _).mpr
  refine .inr ⟨by decide, .inr ⟨?_, .inl rfl⟩⟩
  rintro ⟨_, _, ⟨⟩, ⟨⟩, hle⟩
  exact absurd hle (by decide)

/-- A second after a read with a time-out of one millisecond the check sees that the time is
over, and the read goes on. -/
theorem read_late :
    ¬ InTime 1000 (some ⟨5, 0⟩) (flowReadEnter 1000 eFLOW_RECEIVE (some ⟨5, 0⟩))
      [⟨0, some ⟨6, 0⟩⟩] := by
  rintro ⟨-, hleaves, -⟩
  have hleft := hleaves (by decide) ⟨_, _, rfl, rfl, by decide⟩
  exact absurd hleft (by decide)

end RinaSense.Flow
