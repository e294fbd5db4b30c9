import RinaSense.Flow.Read
import RinaSense.Ipcp.Task

/-!
# Event bits

The word of event bits of a flow request, which several waits and setters share. Beside it
stand the bits which were set and which no wait has taken since.
-/

namespace RinaSense.Flow

open Common Library.Runs Ipcp

/-- The word after a wake-up; the bits are those of an `int`. -/
def vRINA_WakeUpFlowRequest (pf : Platform) (nEventBits : UInt64) (nNewBits : Int32) :
    Exec UInt64 := do
  rsAssert pf (nNewBits ≠ 0)
  .ok (nEventBits ||| nNewBits.toInt64.toUInt64)

/-- What happens to the word: a wake-up, bits set in place, or a wait looks at it and clears
its bit when it gets through. -/
inductive BitOp
  | wakeUp (nNewBits : Int32)
  | set (nBits : UInt64)
  | wait (nDesiredBits : UInt64)
deriving DecidableEq

/-- The word and the bits which are set for a wait to come. -/
structure BitRun where
  nEventBits : UInt64
  owed : UInt64
deriving DecidableEq

/-- A step, unless the wake-up traps. A wait which does not get through leaves the word. -/
def BitRun.step (pf : Platform) (s : BitRun) : BitOp → Option BitRun
  | .wakeUp nNewBits =>
    (vRINA_WakeUpFlowRequest pf s.nEventBits nNewBits).toOption.map fun nEventBits =>
      ⟨nEventBits, s.owed ||| nNewBits.toInt64.toUInt64⟩
  | .set nBits => some ⟨s.nEventBits ||| nBits, s.owed ||| nBits⟩
  | .wait nDesiredBits =>
    match prvWaitForBit s.nEventBits nDesiredBits true with
    | none => some s
    | some nEventBits => some ⟨nEventBits, s.owed &&& ~~~nDesiredBits⟩

/-- A wait which gets through takes a bit that was set for it and clears that bit only. -/
def BitRun.Consumes (s : BitRun) : BitOp → Prop
  | .wakeUp _ => True
  | .set _ => True
  | .wait nDesiredBits => ∀ nEventBits, prvWaitForBit s.nEventBits nDesiredBits true =
      some nEventBits → s.owed &&& nDesiredBits ≠ 0 ∧ nEventBits = s.nEventBits &&& ~~~nDesiredBits

/-- The wait finds its bit clear. -/
def BitRun.Blocks (s : BitRun) : BitOp → Prop
  | .wakeUp _ => True
  | .set _ => True
  | .wait nDesiredBits => s.nEventBits &&& nDesiredBits = 0

theorem prvWaitForBit_eq_some {w d w' : UInt64} :
    prvWaitForBit w d true = some w' ↔ w &&& d ≠ 0 ∧ w' = w ||| ~~~d := by
  rw [prvWaitForBit]
  by_cases h : w &&& d = 0
  · simp [h]
  · simp [h, eq_comm]

/-- The clearing leaves the desired bit as it is. -/
theorem or_not_and (w d : UInt64) : (w ||| ~~~d) &&& d = w &&& d := by
  apply UInt64.toBitVec_inj.mp
  ext i hi
  simp only [UInt64.toBitVec_and, UInt64.toBitVec_or, UInt64.toBitVec_not, BitVec.getElem_and,
    BitVec.getElem_or, BitVec.getElem_not]
  cases w.toBitVec[i] <;> cases d.toBitVec[i] <;> rfl

theorem and_not_and (w d : UInt64) : (w &&& ~~~d) &&& d = 0 := by
  apply UInt64.toBitVec_inj.mp
  ext i hi
  simp only [UInt64.toBitVec_and, UInt64.toBitVec_not, BitVec.getElem_and, BitVec.getElem_not,
    UInt64.toBitVec_zero, BitVec.getElem_zero]
  cases w.toBitVec[i] <;> cases d.toBitVec[i] <;> rfl

/-- Setting all other bits is not clearing the bit. -/
theorem or_not_ne {w d : UInt64} (h : w &&& d ≠ 0) : w ||| ~~~d ≠ w &&& ~~~d := by
  intro he
  apply h
  calc w &&& d = (w ||| ~~~d) &&& d := (or_not_and w d).symm
    _ = (w &&& ~~~d) &&& d := by rw [he]
    _ = 0 := and_not_and w d

theorem BitRun.consumes_iff (s : BitRun) (op : BitOp) : s.Consumes op ↔ s.Blocks op := by
  cases op with
  | wakeUp n => exact Iff.rfl
  | set b => exact Iff.rfl
  | wait d =>
    constructor
    · intro h
      by_contra hset
      exact or_not_ne hset (h _ (prvWaitForBit_eq_some.mpr ⟨hset, rfl⟩)).2
    · intro h w' hw
      exact absurd h (prvWaitForBit_eq_some.mp hw).1

/-- In a run of wake-ups, sets and clearing waits from any word, every wait that gets through
consumes its bit and no other if and only if no wait finds its bit set. -/
theorem bits_consumed_iff (pf : Platform) (w : UInt64) (ops : List BitOp) :
    GuardedSteps (BitRun.step pf) BitRun.Consumes ⟨w, w⟩ ops ↔
      GuardedSteps (BitRun.step pf) BitRun.Blocks ⟨w, w⟩ ops :=
  guardedSteps_congr (fun _ => True) (fun s op _ => s.consumes_iff op)
    (fun _ _ _ _ _ _ => trivial) trivial

/-- After the flow is bound, a wait for a packet gets through which nobody announced. -/
theorem bits_fabricated :
    ¬ GuardedSteps (BitRun.step ⟨false, false⟩) BitRun.Consumes ⟨0, 0⟩
      [.wakeUp 0x10, .wait eFLOW_BOUND, .wait eFLOW_RECEIVE] := by
  rintro ⟨-, -, h, -⟩
  exact (h _ rfl).1 rfl

end RinaSense.Flow
