import RinaSense.Common.Errors
import RinaSense.Common.PoolRuns
import RinaSense.Library.CString

/-!
# Error information

The functions of `error.c`. A thread has a chain of error structures, the last error in front,
and the chains of all threads take their structures from one pool. A call holds the mutex of the
pool from its first access to its last, so that the calls of the threads follow one another.
-/

namespace RinaSense.Common

open Library.Memory

/-! ### The structure -/

def sizeofErrFile : ℕ := 255

def sizeofErrMsg : ℕ := 50

/-- The line and the code stand between the two arrays, and the pointer behind them. -/
def offsetofErrMsg : ℕ := 264

def sizeofRsErrInfo : ℕ := 328

structure RsErrInfo where
  pcFile : Bytes
  unLine : UInt32
  unErrCode : RsErrT
  pcErrMsg : Bytes
  pxNext : Option ℕ
deriving DecidableEq

/-- The name of the file goes into its array, which is then cut off at the size of the message. -/
def RsErrInfo.setFile (buf : Bytes) : Option CString → Bytes
  | none => buf
  | some pcFile =>
    (splice buf 0 (strncpy (sizeofErrFile - 1) pcFile)).set (sizeofErrMsg - 1) 0

/-- A message as it is. -/
def RsErrInfo.setMsg (pcMsg : Option CString) (buf : Bytes) : Bytes :=
  match pcMsg with
  | some pcMsg => (splice buf 0 (strncpy sizeofErrMsg pcMsg)).set (sizeofErrMsg - 1) 0
  | none => splice buf 0 [0]

/-- What `vsnprintf` prints of a formatted message. -/
def RsErrInfo.setMsgf (pcMsg : Option CString) (buf : Bytes) : Bytes :=
  match pcMsg with
  | some pcMsg => (splice buf 0 (pcMsg.take (sizeofErrMsg - 1)).terminated).set (sizeofErrMsg - 1) 0
  | none => splice buf 0 [0]

/-! ### The calls -/

def CFG_ERR_POOL_INIT_ALLOC : ℕ := 1

def CFG_ERR_POOL_INCR_ALLOC : ℕ := 1

def CFG_ERR_POOL_MAX_RES : ℕ := 0

/-- The threads `τ` with the pointer of each to its last error. The contents of a structure are
kept beside its block. -/
structure ErrSystem (τ : Type) where
  heap : Heap
  xErrPool : Option PoolPtr
  infos : ℕ → Option RsErrInfo
  errPtr : τ → Option ℕ

/-- No thread has had an error yet. -/
def ErrSystem.start (τ : Type) (h : Heap) : ErrSystem τ := ⟨h, none, fun _ => none, fun _ => none⟩

section

variable (pf : Platform) (pxPool : Option PoolPtr) {τ : Type} [DecidableEq τ]

/-- `pxPool` is the struct which a new pool would get. -/
def ErrSystem.prvErrorCheckPool (s : ErrSystem τ) : Exec (ErrSystem τ) :=
  if s.xErrPool.isSome then .ok s
  else do
    match ← pxRsrcNewPool s.heap pxPool (some "Thread Error Pool") sizeofRsErrInfo
      CFG_ERR_POOL_INIT_ALLOC CFG_ERR_POOL_INCR_ALLOC CFG_ERR_POOL_MAX_RES with
    | (none, _) => .error .abort
    | (some pp, h) => return { s with heap := h, xErrPool := some pp }

def ErrSystem.setInfo (s : ErrSystem τ) (a : ℕ) (info : Option RsErrInfo) : ErrSystem τ :=
  { s with infos := Function.update s.infos a info }

def ErrSystem.errSetPtr (s : ErrSystem τ) (t : τ) (pxErr : Option ℕ) : ErrSystem τ :=
  { s with errPtr := Function.update s.errPtr t pxErr }

def ErrSystem.prvErrorSetNew (s : ErrSystem τ) (t : τ) (pcFile : Option CString)
    (unLine : UInt32) (unErrCode : RsErrT) (pxNext : Option ℕ) : Exec (ℕ × ErrSystem τ) := do
  match ← pxRsrcAlloc pf s.heap s.xErrPool (some "Thread Error Info") with
  | (none, _) => .error .abort
  | (some a, h) =>
    let bs ← inBounds (h.mem a)
    let info : RsErrInfo := {
      pcFile := RsErrInfo.setFile (bs.take sizeofErrFile) pcFile
      unLine := unLine
      unErrCode := unErrCode
      pcErrMsg := (bs.drop offsetofErrMsg).take sizeofErrMsg
      pxNext := pxNext }
    return (a, ({ s with heap := h }.setInfo a (some info)).errSetPtr t (some a))

/-- The new error gets its message. -/
def ErrSystem.putMsg (f : Bytes → Bytes) (out : ℕ × ErrSystem τ) : Exec (ErrSystem τ) := do
  let info ← inBounds (out.2.infos out.1)
  return out.2.setInfo out.1 (some { info with pcErrMsg := f info.pcErrMsg })

def ErrSystem.prvErrorSetNew_s (s : ErrSystem τ) (t : τ) (pcFile : Option CString)
    (unLine : UInt32) (unErrCode : RsErrT) (pcMsg : Option CString) (pxNext : Option ℕ) :
    Exec (ErrSystem τ) := do
  let out ← s.prvErrorSetNew pf t pcFile unLine unErrCode pxNext
  ErrSystem.putMsg (RsErrInfo.setMsg pcMsg) out

/-- `pcMsg` is what the format and its parameters come to. -/
def ErrSystem.prvErrorSetNew_v (s : ErrSystem τ) (t : τ) (pcFile : Option CString)
    (unLine : UInt32) (unErrCode : RsErrT) (pcMsg : Option CString) (pxNext : Option ℕ) :
    Exec (ErrSystem τ) := do
  let out ← s.prvErrorSetNew pf t pcFile unLine unErrCode pxNext
  ErrSystem.putMsg (RsErrInfo.setMsgf pcMsg) out

/-- The loop of `prvErrorClearLocked`, which reads the next pointer before it frees. -/
def ErrSystem.clearLoop : ℕ → Option ℕ → ErrSystem τ → Exec (ErrSystem τ)
  | _, none, s => .ok s
  | 0, some _, _ => .error .endless
  | fuel + 1, some px, s => do
    let info ← inBounds (s.infos px)
    let heap ← vRsrcFree pf s.heap (some ⟨px, 0⟩)
    ErrSystem.clearLoop fuel info.pxNext ({ s with heap := heap }.setInfo px none)

def ErrSystem.prvErrorClearLocked (s : ErrSystem τ) (t : τ) : Exec (ErrSystem τ) := do
  let s ← ErrSystem.clearLoop pf s.heap.brk (s.errPtr t) s
  return s.errSetPtr t none

def ErrSystem.clearIfSet (s : ErrSystem τ) (t : τ) : Exec (ErrSystem τ) :=
  if (s.errPtr t).isSome then s.prvErrorClearLocked pf t else .ok s

def ErrSystem.vErrorClear (s : ErrSystem τ) (t : τ) : Exec (ErrSystem τ) :=
  s.prvErrorClearLocked pf t

def ErrSystem.xErrorPush (s : ErrSystem τ) (t : τ) (pcFile : Option CString) (unLine : UInt32)
    (unErrCode : RsErrT) (pcMsg : Option CString) : Exec (RsErrT × ErrSystem τ) := do
  let s ← s.prvErrorCheckPool pxPool
  let s ← s.prvErrorSetNew_s pf t pcFile unLine unErrCode pcMsg (s.errPtr t)
  return (unErrCode, s)

def ErrSystem.xErrorSet (s : ErrSystem τ) (t : τ) (pcFile : Option CString) (unLine : UInt32)
    (unErrCode : RsErrT) (pcMsg : Option CString) : Exec (RsErrT × ErrSystem τ) := do
  let s ← s.clearIfSet pf t
  let s ← s.prvErrorCheckPool pxPool
  let s ← s.prvErrorSetNew_s pf t pcFile unLine unErrCode pcMsg none
  return (unErrCode, s)

/-- `strerror_r` finds a message for the number or fails. -/
def ErrSystem.xErrorSetErrno (s : ErrSystem τ) (t : τ) (pcFile : Option CString)
    (unLine errno : UInt32) (strerror_r : Option CString) : Exec (RsErrT × ErrSystem τ) := do
  let s ← s.clearIfSet pf t
  let unErrCode := Common.xErrorSetErrno errno
  let s ← s.prvErrorCheckPool pxPool
  match strerror_r with
  | some pcErrMsg =>
    let s ← s.prvErrorSetNew_s pf t pcFile unLine unErrCode (some pcErrMsg) none
    return (unErrCode, s)
  | none =>
    let (_, s) ← s.prvErrorSetNew pf t pcFile unLine unErrCode none
    return (unErrCode, s)

def ErrSystem.xErrorSetf (s : ErrSystem τ) (t : τ) (pcFile : Option CString) (unLine : UInt32)
    (unErrCode : RsErrT) (pcMsg : Option CString) : Exec (RsErrT × ErrSystem τ) := do
  let s ← s.clearIfSet pf t
  let s ← s.prvErrorCheckPool pxPool
  let s ← s.prvErrorSetNew_v pf t pcFile unLine unErrCode pcMsg none
  return (unErrCode, s)

/-- What a log shows of an error. -/
structure ErrLine where
  unErrCode : RsErrT
  pcFile : CString
  unLine : UInt32
  pcErrMsg : CString
deriving DecidableEq

def errorLogLoop (infos : ℕ → Option RsErrInfo) : ℕ → Option ℕ → Exec (List ErrLine)
  | _, none => .ok []
  | 0, some _ => .error .endless
  | fuel + 1, some a => do
    let info ← inBounds (infos a)
    let pcFile ← inBounds (cstring info.pcFile)
    let pcErrMsg ← inBounds (cstring info.pcErrMsg)
    let rest ← errorLogLoop infos fuel info.pxNext
    return ⟨info.unErrCode, pcFile, info.unLine, pcErrMsg⟩ :: rest

def ErrSystem.xErrorGet (s : ErrSystem τ) (t : τ) : Option ℕ := s.errPtr t

/-- The errors which are logged for the calling thread. -/
def ErrSystem.vErrorLog (s : ErrSystem τ) (t : τ) : Exec (List ErrLine) :=
  errorLogLoop s.infos s.heap.brk (s.xErrorGet t)

/-! ### Runs of calls -/

inductive ErrCall
  | vErrorClear
  | xErrorPush (pcFile : Option CString) (unLine : UInt32) (unErrCode : RsErrT)
      (pcMsg : Option CString)
  | xErrorSet (pcFile : Option CString) (unLine : UInt32) (unErrCode : RsErrT)
      (pcMsg : Option CString)
  | xErrorSetErrno (pcFile : Option CString) (unLine errno : UInt32)
      (strerror_r : Option CString)
  | xErrorSetf (pcFile : Option CString) (unLine : UInt32) (unErrCode : RsErrT)
      (pcMsg : Option CString)

def ErrSystem.step (s : ErrSystem τ) (c : τ × ErrCall) : Exec (ErrSystem τ) :=
  match c.2 with
  | .vErrorClear => s.vErrorClear pf c.1
  | .xErrorPush pcFile unLine unErrCode pcMsg =>
    (s.xErrorPush pf pxPool c.1 pcFile unLine unErrCode pcMsg).map Prod.snd
  | .xErrorSet pcFile unLine unErrCode pcMsg =>
    (s.xErrorSet pf pxPool c.1 pcFile unLine unErrCode pcMsg).map Prod.snd
  | .xErrorSetErrno pcFile unLine errno strerror_r =>
    (s.xErrorSetErrno pf pxPool c.1 pcFile unLine errno strerror_r).map Prod.snd
  | .xErrorSetf pcFile unLine unErrCode pcMsg =>
    (s.xErrorSetf pf pxPool c.1 pcFile unLine unErrCode pcMsg).map Prod.snd

end

/-- What an array of the structure shows of a string. -/
def shown (s : Option CString) : CString := (s.getD CString.empty).take (sizeofErrMsg - 1)

/-- What a call makes of the errors of its thread, the last one in front. -/
def ErrCall.replay (log : List ErrLine) : ErrCall → List ErrLine
  | .vErrorClear => []
  | .xErrorPush pcFile unLine unErrCode pcMsg =>
    ⟨unErrCode, shown pcFile, unLine, shown pcMsg⟩ :: log
  | .xErrorSet pcFile unLine unErrCode pcMsg => [⟨unErrCode, shown pcFile, unLine, shown pcMsg⟩]
  | .xErrorSetErrno pcFile unLine errno strerror_r =>
    [⟨Common.xErrorSetErrno errno, shown pcFile, unLine, shown strerror_r⟩]
  | .xErrorSetf pcFile unLine unErrCode pcMsg => [⟨unErrCode, shown pcFile, unLine, shown pcMsg⟩]

/-- The errors of a thread after calls of several threads are those of its own calls. -/
def replayOf {τ : Type} [DecidableEq τ] (calls : List (τ × ErrCall)) (t : τ) : List ErrLine :=
  ((calls.filter fun c => c.1 = t).map Prod.snd).foldl ErrCall.replay []

/-! ### The arrays -/

section Arrays

variable {buf rest : Bytes} {s : CString} {k n : ℕ}

/-- A terminator behind a string does not change it. -/
theorem cstring_set_behind (hk : s.length ≤ k) :
    cstring ((s.bytes ++ 0 :: rest).set k 0) = some s := by
  have hlen : s.bytes.length = s.length := rfl
  rw [List.set_append_right _ _ (by omega)]
  cases k - s.bytes.length with
  | zero => exact cstring_append s rest
  | succ j => exact cstring_append s (rest.set j 0)

/-- A terminator inside a string cuts it off. -/
theorem cstring_set_inside (hk : k < buf.length) (hfront : buf.take k = (s.take k).bytes) :
    cstring (buf.set k 0) = some (s.take k) := by
  rw [List.set_eq_take_append_cons_drop, if_pos hk, hfront]
  exact cstring_append (s.take k) _

/-- A copy which is cut off shows the front of the string. -/
theorem cstring_cut (hk : k < n) :
    cstring ((splice buf 0 (strncpy n s)).set k 0) = some (s.take k) := by
  obtain ⟨tail, htail⟩ : ∃ tail, splice buf 0 (strncpy n s) =
      s.bytes.take n ++ (List.replicate (n - s.length) 0 ++ tail) :=
    ⟨_, by rw [splice, strncpy, List.take_zero, List.nil_append, List.append_assoc]⟩
  have hlen : s.bytes.length = s.length := rfl
  rw [htail]
  by_cases hlong : k ≤ s.length
  · refine cstring_set_inside ?_ ?_
    · simp only [List.length_append, List.length_take, List.length_replicate]
      omega
    · rw [List.take_append_of_le_length (by rw [List.length_take]; omega), List.take_take,
        Nat.min_eq_left (Nat.le_of_lt hk)]
      rfl
  · have hshort : s.length ≤ k := Nat.le_of_not_le hlong
    obtain ⟨j, hj⟩ : ∃ j, n - s.length = j + 1 := ⟨n - s.length - 1, by omega⟩
    rw [List.take_of_length_le (by omega), hj, List.replicate_succ,
      CString.take_of_length_le hshort]
    exact cstring_set_behind hshort

theorem cstring_front (buf : Bytes) (s : CString) :
    cstring (splice buf 0 s.terminated) = some s := by
  rw [splice, List.take_zero, List.nil_append, CString.terminated, List.append_assoc]
  exact cstring_append s _

theorem cstring_setFile (pcFile : Option CString) (hz : 0 < n) :
    cstring (RsErrInfo.setFile (List.replicate n 0) pcFile) = some (shown pcFile) := by
  cases pcFile with
  | none =>
    refine (cstring_zeros hz).trans (congrArg some ?_)
    exact CString.ext rfl
  | some pcFile => exact cstring_cut (by decide)

theorem cstring_setMsg (pcMsg : Option CString) (buf : Bytes) :
    cstring (RsErrInfo.setMsg pcMsg buf) = some (shown pcMsg) := by
  cases pcMsg with
  | none => exact cstring_front buf CString.empty
  | some pcMsg => exact cstring_cut (by decide)

theorem cstring_setMsgf (pcMsg : Option CString) (buf : Bytes) :
    cstring (RsErrInfo.setMsgf pcMsg buf) = some (shown pcMsg) := by
  cases pcMsg with
  | none => exact cstring_front buf CString.empty
  | some pcMsg =>
    obtain ⟨t, ht⟩ : ∃ t, t = pcMsg.take (sizeofErrMsg - 1) := ⟨_, rfl⟩
    have hlen : t.length ≤ sizeofErrMsg - 1 := by
      rw [ht]
      exact List.length_take_le _ _
    rw [RsErrInfo.setMsgf, ← ht, splice, List.take_zero, List.nil_append, CString.terminated,
      List.append_assoc]
    exact (cstring_set_behind hlen).trans (congrArg some ht)

end Arrays

end RinaSense.Common
