import Mathlib.Data.List.Forall2
import RinaSense.Common.ErrorInfo
import RinaSense.Common.PoolSupply
import RinaSense.Library.Stacks

/-!
# The errors of the threads

What the chains of all threads hold after any calls. The structures which the pool lends are
those of the chains, each of which is the stack of its own thread.
-/

namespace RinaSense.Common

open Library.Memory Library.Stacks

/-! ### The chains -/

/-- The settings of the pool. -/
def errPool : PoolArgs where
  pcName := "Thread Error Pool"
  xRsrcSize := sizeofRsErrInfo
  uiInitAlloc := 1
  uiIncrement := 1
  uiMaxNumRes := 0
  some_resource := by decide
  variable_size := by decide

theorem errPool_unbounded : errPool.Unbounded := ⟨by decide, by decide, rfl⟩

/-- The arrays of the structure read back as the line. -/
structure RsErrInfo.Shows (info : RsErrInfo) (line : ErrLine) : Prop where
  unErrCode : info.unErrCode = line.unErrCode
  pcFile : cstring info.pcFile = some line.pcFile
  unLine : info.unLine = line.unLine
  pcErrMsg : cstring info.pcErrMsg = some line.pcErrMsg

section Chains

variable {τ : Type} [DecidableEq τ]

/-- The pool is to be created yet, or it lends the structures. -/
def ErrSystem.Pooled (pp : PoolPtr) (s : ErrSystem τ) (lent : List ℕ) : Prop :=
  s.xErrPool = none ∧ s.heap.Without pp ∧ lent = [] ∨
    s.xErrPool = some pp ∧ Lends pp errPool s.heap lent

/-- The structures which the pool lends are those of the chains, which begin at `top`. -/
structure ErrSystem.Chained (pp : PoolPtr) (s : ErrSystem τ) (top : τ → Option ℕ)
    (stack : τ → List (ℕ × RsErrInfo)) (lent : List ℕ) : Prop where
  held : Held RsErrInfo.pxNext s.infos top stack
  pooled : s.Pooled pp lent
  mem : ∀ k, k ∈ lent ↔ ∃ t, k ∈ keys (stack t)

/-- The chain of every thread shows the errors of its log. -/
def ErrSystem.Shows (pp : PoolPtr) (s : ErrSystem τ) (logs : τ → List ErrLine)
    (lent : List ℕ) : Prop :=
  ∃ stack, s.Chained pp s.errPtr stack lent ∧
    ∀ t, List.Forall₂ (fun c line => RsErrInfo.Shows c.2 line) (stack t) (logs t)

/-- Memory is as willing as before. -/
def ErrSystem.SameMemory (s s' : ErrSystem τ) : Prop := s'.heap.mallocOk = s.heap.mallocOk

/-- The call gives up because memory has run out, or comes back with the errors `logs`. -/
def Ends (pp : PoolPtr) (s : ErrSystem τ) (out : Exec (ErrSystem τ))
    (logs : τ → List ErrLine) : Prop :=
  (out = .error .abort ∧ ∃ n, s.heap.mallocOk n = false) ∨
    ∃ s' lent, out = .ok s' ∧ s.SameMemory s' ∧ s'.Shows pp logs lent

variable {pf : Platform} {pp : PoolPtr} {s s' : ErrSystem τ} {top : τ → Option ℕ}
  {stack : τ → List (ℕ × RsErrInfo)} {lent : List ℕ} {logs logs' : τ → List ErrLine} {t : τ}
  {l : List (ℕ × RsErrInfo)} {px : Option ℕ} {fuel : ℕ}

omit [DecidableEq τ] in
/-- A structure of a chain comes from the pool. -/
theorem ErrSystem.Chained.lends (hc : s.Chained pp top stack lent) {k : ℕ}
    (hk : k ∈ keys (stack t)) : s.xErrPool = some pp ∧ Lends pp errPool s.heap lent ∧ k ∈ lent := by
  have hlent := (hc.mem k).mpr ⟨t, hk⟩
  rcases hc.pooled with ⟨-, -, rfl⟩ | ⟨hpool, hlends⟩
  · exact absurd hlent List.not_mem_nil
  · exact ⟨hpool, hlends, hlent⟩

omit [DecidableEq τ] in
theorem ErrSystem.Chained.length_le (hc : s.Chained pp top stack lent) (t : τ) :
    (stack t).length ≤ s.heap.brk := by
  cases hstack : stack t with
  | nil => exact Nat.zero_le _
  | cons c l =>
    have hc' : c.1 ∈ keys (stack t) := by simp [hstack]
    obtain ⟨-, hlends, -⟩ := hc.lends hc'
    have hle := hlends.length_le (hc.held.distinct t) fun k hk => (hc.mem k).mpr ⟨t, hk⟩
    rwa [keys_length, hstack] at hle

/-! ### Clearing -/

/-- One structure goes back to the pool. -/
theorem ErrSystem.Chained.free (hv : pf.valgrind = false) (hc : s.Chained pp top stack lent)
    {k : ℕ} {b : RsErrInfo} (hi : stack t = (k, b) :: l) :
    ∃ heap, vRsrcFree pf s.heap (some ⟨k, 0⟩) = .ok heap ∧
      heap.mallocOk = s.heap.mallocOk ∧
      ({ s with heap := heap }.setInfo k none).Chained pp (Function.update top t b.pxNext)
        (Function.update stack t l) (lent.erase k) := by
  obtain ⟨hpool, hlends, hk⟩ := hc.lends (t := t) (k := k) (by simp [hi])
  obtain ⟨heap, hfree, hlends', hmalloc, -⟩ := hlends.free hv hk
  refine ⟨heap, hfree, hmalloc, hc.held.pop hi, Or.inr ⟨hpool, hlends'⟩, fun k' => ?_⟩
  rw [hlends.nodup.mem_erase_iff, hc.mem k', hc.held.exists_mem_pop hi]

/-- The loop gives the whole chain of the thread back. -/
theorem ErrSystem.Chained.clearLoop (hv : pf.valgrind = false)
    (hc : s.Chained pp (Function.update top t px) stack lent) (hl : stack t = l)
    (hfuel : l.length ≤ fuel) :
    ∃ s' lent', ErrSystem.clearLoop pf fuel px s = .ok s' ∧ s'.errPtr = s.errPtr ∧
      s.SameMemory s' ∧
      s'.Chained pp (Function.update top t none) (Function.update stack t []) lent' := by
  induction l generalizing s px stack lent fuel with
  | nil =>
    have hend := hc.held.linked t
    rw [hl, Function.update_self] at hend
    obtain rfl : px = none := hend
    have hsame : Function.update stack t [] = stack := by rw [← hl, Function.update_eq_self]
    exact ⟨s, lent, by cases fuel <;> rfl, rfl, rfl, by rwa [hsame]⟩
  | cons c l ih =>
    obtain ⟨k, b⟩ := c
    have hfirst := hc.held.linked t
    rw [hl, Function.update_self] at hfirst
    obtain ⟨rfl, hinfo, -⟩ := hfirst
    obtain ⟨fuel, rfl⟩ : ∃ f, fuel = f + 1 := ⟨fuel - 1, by simp at hfuel; omega⟩
    obtain ⟨heap, hfree, hmalloc, hc'⟩ := hc.free hv hl
    rw [Function.update_idem] at hc'
    obtain ⟨s', lent', hrun, hptr, hmem, hc''⟩ := ih hc' (Function.update_self _ _ _)
      (Nat.le_of_succ_le_succ hfuel)
    rw [Function.update_idem] at hc''
    refine ⟨s', lent', ?_, hptr, hmem.trans hmalloc, hc''⟩
    rw [ErrSystem.clearLoop, hinfo, inBounds_some, Exec.ok_bind, hfree]
    exact hrun

theorem ErrSystem.Shows.clear (hv : pf.valgrind = false) (hs : s.Shows pp logs lent) (t : τ) :
    ∃ s' lent', s.prvErrorClearLocked pf t = .ok s' ∧ s.SameMemory s' ∧
      s'.errPtr t = none ∧ s'.Shows pp (Function.update logs t []) lent' := by
  obtain ⟨stack, hc, hlines⟩ := hs
  have hc₀ : s.Chained pp (Function.update s.errPtr t (s.errPtr t)) stack lent := by
    rwa [Function.update_eq_self]
  obtain ⟨s', lent', hrun, hptr, hmem, hc'⟩ := hc₀.clearLoop hv rfl (hc.length_le t)
  rw [← hptr] at hc'
  refine ⟨s'.errSetPtr t none, lent', ?_, hmem, Function.update_self _ _ _,
    Function.update stack t [], ⟨hc'.held, hc'.pooled, hc'.mem⟩, fun u => ?_⟩
  · rw [ErrSystem.prvErrorClearLocked, hrun]
    rfl
  · by_cases hu : u = t
    · subst hu
      rw [Function.update_self, Function.update_self]
      exact .nil
    · rw [Function.update_of_ne hu, Function.update_of_ne hu]
      exact hlines u

theorem ErrSystem.Shows.clearIfSet (hv : pf.valgrind = false) (hs : s.Shows pp logs lent)
    (t : τ) : ∃ s' lent', s.clearIfSet pf t = .ok s' ∧ s.SameMemory s' ∧ s'.errPtr t = none ∧
      s'.Shows pp (Function.update logs t []) lent' := by
  cases hptr : s.errPtr t with
  | some a =>
    rw [ErrSystem.clearIfSet, hptr, Option.isSome_some, if_pos rfl]
    exact hs.clear hv t
  | none =>
    refine ⟨s, lent, by rw [ErrSystem.clearIfSet, hptr]; rfl, rfl, hptr, ?_⟩
    obtain ⟨stack, hc, hlines⟩ := id hs
    have hfirst := hc.held.linked t
    have hnil : logs t = [] := by
      cases hstack : stack t with
      | nil =>
        have hline := hlines t
        rw [hstack] at hline
        exact List.forall₂_nil_left_iff.mp hline
      | cons c l =>
        rw [hstack, hptr] at hfirst
        cases hfirst.1
    have hsame : Function.update logs t [] = logs := by rw [← hnil, Function.update_eq_self]
    rwa [hsame]

/-! ### Setting -/

omit [DecidableEq τ] in
/-- The pool is there from the first error on. -/
theorem ErrSystem.Shows.checkPool (hs : s.Shows pp logs lent) :
    (s.prvErrorCheckPool (some pp) = .error .abort ∧ ∃ n, s.heap.mallocOk n = false) ∨
      ∃ s', s.prvErrorCheckPool (some pp) = .ok s' ∧ s.SameMemory s' ∧ s'.xErrPool = some pp ∧
        s'.errPtr = s.errPtr ∧ s'.Shows pp logs lent := by
  obtain ⟨stack, hc, hlines⟩ := id hs
  rcases hc.pooled with ⟨hnone, hw, rfl⟩ | ⟨hpool, hlends⟩
  · rw [ErrSystem.prvErrorCheckPool, hnone, if_neg (by decide)]
    rcases errPool.create_lends hw with ⟨hmem, habort⟩ | ⟨h', hnew, hlends, hmalloc⟩
    · refine Or.inl ⟨?_, _, hmem⟩
      change errPool.create s.heap pp >>= _ = _
      rw [habort]
      rfl
    · refine Or.inr ⟨{ s with heap := h', xErrPool := some pp }, ?_, hmalloc, rfl, rfl, stack,
        ⟨hc.held, Or.inr ⟨rfl, hlends⟩, hc.mem⟩, hlines⟩
      change errPool.create s.heap pp >>= _ = _
      rw [hnew]
      rfl
  · exact Or.inr ⟨s, by rw [ErrSystem.prvErrorCheckPool, hpool]; rfl, rfl, hpool, rfl, hs⟩

/-- A new structure stands in front of the chain of its thread, with an empty message. -/
theorem ErrSystem.Shows.setNew (hv : pf.valgrind = false) (hs : s.Shows pp logs lent)
    (hpool : s.xErrPool = some pp) (t : τ) (pcFile : Option CString) (unLine : UInt32)
    (unErrCode : RsErrT) (hpx : px = s.errPtr t) :
    (s.prvErrorSetNew pf t pcFile unLine unErrCode px = .error .abort ∧
        ∃ n, s.heap.mallocOk n = false) ∨
      ∃ a s' info rest stack lent', s.prvErrorSetNew pf t pcFile unLine unErrCode px =
          .ok (a, s') ∧ s.SameMemory s' ∧ s'.Chained pp s'.errPtr stack lent' ∧
        stack t = (a, info) :: rest ∧ info.Shows ⟨unErrCode, shown pcFile, unLine, .empty⟩ ∧
        List.Forall₂ (fun c line => RsErrInfo.Shows c.2 line) rest (logs t) ∧
        ∀ u, u ≠ t → List.Forall₂ (fun c line => RsErrInfo.Shows c.2 line) (stack u) (logs u) := by
  obtain ⟨stack, hc, hlines⟩ := hs
  have hlends : Lends pp errPool s.heap lent := by
    rcases hc.pooled with ⟨hnone, -, -⟩ | ⟨-, hlends⟩
    · rw [hpool] at hnone
      cases hnone
    · exact hlends
  rw [ErrSystem.prvErrorSetNew]
  rcases hlends.alloc hv errPool_unbounded "Thread Error Info" with
    ⟨hmem, habort⟩ | ⟨a, h', halloc, hlends', hmalloc, hblock, -⟩
  · exact Or.inl ⟨by rw [hpool, habort]; rfl, _, hmem⟩
  · have hnew : a ∉ lent := (List.nodup_cons.mp hlends'.nodup).1
    have hout : ∀ u, a ∉ keys (stack u) := fun u hu => hnew ((hc.mem a).mpr ⟨u, hu⟩)
    obtain ⟨info, hinfo⟩ : ∃ info : RsErrInfo, info = {
      pcFile := RsErrInfo.setFile (List.replicate sizeofErrFile 0) pcFile
      unLine := unLine
      unErrCode := unErrCode
      pcErrMsg := List.replicate sizeofErrMsg 0
      pxNext := px } := ⟨_, rfl⟩
    have hnext : info.pxNext = s.errPtr t := by rw [hinfo, hpx]
    have hmsg : cstring (List.replicate sizeofErrMsg (0 : UInt8)) = some CString.empty :=
      cstring_zeros (by decide)
    refine Or.inr ⟨a, ({ s with heap := h' }.setInfo a (some info)).errSetPtr t (some a), info,
      stack t, Function.update stack t ((a, info) :: stack t), a :: lent, ?_, ?_,
      ⟨hc.held.push hout hnext, Or.inr ⟨hpool, hlends'⟩, fun k => ?_⟩,
      Function.update_self _ _ _, ?_, hlines t, fun u hu => ?_⟩
    · have hfile : (List.replicate errPool.xRsrcSize (0 : UInt8)).take sizeofErrFile =
          List.replicate sizeofErrFile 0 := by
        rw [List.take_replicate, Nat.min_eq_left (by decide)]
      have hrest : ((List.replicate errPool.xRsrcSize (0 : UInt8)).drop offsetofErrMsg).take
          sizeofErrMsg = List.replicate sizeofErrMsg 0 := by
        rw [List.drop_replicate, List.take_replicate, Nat.min_eq_left (by decide)]
      rw [← hpool] at halloc
      rw [halloc, Exec.ok_bind]
      simp only [hblock, inBounds_some, Exec.ok_bind, hfile, hrest, ← hinfo]
      rfl
    · exact hmalloc
    · rw [List.mem_cons, hc.mem k, exists_mem_push]
    · rw [hinfo]
      exact ⟨rfl, cstring_setFile pcFile (by decide), rfl, hmsg⟩
    · rw [Function.update_of_ne hu]
      exact hlines u

/-- The new error with its message. -/
theorem ErrSystem.Shows.setMsg (hv : pf.valgrind = false) (hs : s.Shows pp logs lent)
    (hpool : s.xErrPool = some pp) (t : τ) (pcFile : Option CString) (unLine : UInt32)
    (unErrCode : RsErrT) {m : CString} {f : Bytes → Bytes}
    (hf : ∀ buf, cstring buf = some .empty → cstring (f buf) = some m) (hpx : px = s.errPtr t) :
    Ends pp s (s.prvErrorSetNew pf t pcFile unLine unErrCode px >>= ErrSystem.putMsg f)
      (Function.update logs t (⟨unErrCode, shown pcFile, unLine, m⟩ :: logs t)) := by
  rcases hs.setNew hv hpool t pcFile unLine unErrCode hpx with
    ⟨habort, hmem⟩ | ⟨a, s', info, rest, stack, lent', hrun, hmem, hc, htop, hinfo, hrest, hothers⟩
  · exact Or.inl ⟨by rw [habort]; rfl, hmem⟩
  · have hfirst := hc.held.linked t
    rw [htop] at hfirst
    obtain ⟨info', hinfo'⟩ : ∃ info', info' = { info with pcErrMsg := f info.pcErrMsg } := ⟨_, rfl⟩
    have hheld := hc.held.change (c := info') htop (by rw [hinfo'])
    refine Or.inr ⟨s'.setInfo a (some info'), lent', ?_, hmem, _,
      ⟨hheld, hc.pooled, fun k => ?_⟩, fun u => ?_⟩
    · rw [hrun, Exec.ok_bind, ErrSystem.putMsg, hfirst.2.1, hinfo']
      rfl
    · rw [hc.mem k]
      have hkeys : ∀ u, keys (Function.update stack t ((a, info') :: rest) u) =
          keys (stack u) := by
        intro u
        by_cases hu : u = t
        · subst hu
          rw [Function.update_self, htop]
          rfl
        · rw [Function.update_of_ne hu]
      simp only [hkeys]
    · by_cases hu : u = t
      · subst hu
        rw [Function.update_self, Function.update_self]
        refine .cons ?_ hrest
        rw [hinfo']
        exact ⟨hinfo.unErrCode, hinfo.pcFile, hinfo.unLine, hf _ hinfo.pcErrMsg⟩
      · rw [Function.update_of_ne hu, Function.update_of_ne hu]
        exact hothers u hu

/-! ### Calls -/

omit [DecidableEq τ] in
theorem Ends.of_same {out : Exec (ErrSystem τ)} (hsame : s.SameMemory s')
    (h : Ends pp s' out logs) : Ends pp s out logs := by
  rcases h with ⟨habort, n, hmem⟩ | ⟨s'', lent, hrun, hmem, hs''⟩
  · exact Or.inl ⟨habort, n, hsame ▸ hmem⟩
  · exact Or.inr ⟨s'', lent, hrun, hmem.trans hsame, hs''⟩

/-- A call which puts an error in front of those which its thread has then. -/
theorem ErrSystem.Shows.put (hv : pf.valgrind = false) (hs : s.Shows pp logs lent) (t : τ)
    (pcFile : Option CString) (unLine : UInt32) (unErrCode : RsErrT) {m : CString}
    {f : Bytes → Bytes} (hf : ∀ buf, cstring buf = some .empty → cstring (f buf) = some m)
    {g : ErrSystem τ → Option ℕ} (hg : ∀ s', s'.errPtr = s.errPtr → g s' = s.errPtr t) :
    Ends pp s (do
        let s ← s.prvErrorCheckPool (some pp)
        s.prvErrorSetNew pf t pcFile unLine unErrCode (g s) >>= ErrSystem.putMsg f)
      (Function.update logs t (⟨unErrCode, shown pcFile, unLine, m⟩ :: logs t)) := by
  rcases hs.checkPool with ⟨habort, hmem⟩ | ⟨s', hcheck, hsame, hpool, hptr, hs'⟩
  · exact Or.inl ⟨by rw [habort]; rfl, hmem⟩
  · rw [hcheck, Exec.ok_bind]
    exact (hs'.setMsg hv hpool t pcFile unLine unErrCode hf
      (by rw [hg s' hptr, hptr])).of_same hsame

/-- A call which clears the errors of its thread first. -/
theorem ErrSystem.Shows.replace (hv : pf.valgrind = false) (hs : s.Shows pp logs lent) (t : τ)
    (pcFile : Option CString) (unLine : UInt32) (unErrCode : RsErrT) {m : CString}
    {f : Bytes → Bytes} (hf : ∀ buf, cstring buf = some .empty → cstring (f buf) = some m) :
    Ends pp s (do
        let s ← s.clearIfSet pf t
        let s ← s.prvErrorCheckPool (some pp)
        s.prvErrorSetNew pf t pcFile unLine unErrCode none >>= ErrSystem.putMsg f)
      (Function.update logs t [⟨unErrCode, shown pcFile, unLine, m⟩]) := by
  obtain ⟨s', lent', hclear, hsame, hptr, hs'⟩ := hs.clearIfSet hv t
  have hput := hs'.put hv t pcFile unLine unErrCode hf (g := fun _ => none)
    fun _ _ => hptr.symm
  rw [Function.update_idem, Function.update_self] at hput
  rw [hclear, Exec.ok_bind]
  exact hput.of_same hsame

/-- An error whose number has no message keeps the zeros of its structure. -/
theorem prvErrorSetNew_putMsg (s : ErrSystem τ) (t : τ) (pcFile : Option CString)
    (unLine : UInt32) (unErrCode : RsErrT) (px : Option ℕ) :
    (s.prvErrorSetNew pf t pcFile unLine unErrCode px >>= ErrSystem.putMsg id) =
      (s.prvErrorSetNew pf t pcFile unLine unErrCode px).map Prod.snd := by
  rw [ErrSystem.prvErrorSetNew]
  cases pxRsrcAlloc pf s.heap s.xErrPool (some "Thread Error Info") with
  | error e => rfl
  | ok out =>
    obtain ⟨a, h⟩ := out
    cases a with
    | none => rfl
    | some a =>
      simp only [Exec.ok_bind]
      cases h.mem a with
      | none => rfl
      | some bs =>
        simp only [inBounds_some, Exec.ok_bind, pure, Except.pure, ErrSystem.putMsg,
          ErrSystem.errSetPtr, ErrSystem.setInfo, Function.update_self, Except.map, id]
        rw [Function.update_idem]

theorem Exec.map_bind {α β γ : Type} (x : Exec α) (f : α → Exec β) (g : β → γ) :
    (x >>= f).map g = x >>= fun a => (f a).map g := by
  cases x <;> rfl

theorem Exec.map_pure {α β : Type} (a : α) (g : α → β) :
    Except.map g (pure a : Exec α) = pure (g a) := rfl

theorem Exec.bind_snd {α β : Type} (x : Exec (α × β)) :
    (x >>= fun a => pure a.2) = x.map Prod.snd := by
  cases x <;> rfl

/-- A call of a thread changes the errors of the thread as it says, and no others. -/
theorem ErrSystem.Shows.step (hv : pf.valgrind = false) (hs : s.Shows pp logs lent)
    (c : τ × ErrCall) :
    Ends pp s (s.step pf (some pp) c)
      (Function.update logs c.1 (c.2.replay (logs c.1))) := by
  obtain ⟨t, call⟩ := c
  cases call with
  | vErrorClear =>
    obtain ⟨s', lent', hclear, hsame, -, hs'⟩ := hs.clear hv t
    exact Or.inr ⟨s', lent', hclear, hsame, hs'⟩
  | xErrorPush pcFile unLine unErrCode pcMsg =>
    have hput := hs.put hv t pcFile unLine unErrCode (f := RsErrInfo.setMsg pcMsg)
      (fun buf _ => cstring_setMsg pcMsg buf) (g := fun s' => s'.errPtr t)
      fun s' hptr => congrFun hptr t
    simp only [ErrSystem.step, ErrSystem.xErrorPush, Exec.map_bind, ErrSystem.prvErrorSetNew_s,
      Exec.map_pure, bind_pure]
    exact hput
  | xErrorSet pcFile unLine unErrCode pcMsg =>
    have hset := hs.replace hv t pcFile unLine unErrCode (f := RsErrInfo.setMsg pcMsg)
      fun buf _ => cstring_setMsg pcMsg buf
    simp only [ErrSystem.step, ErrSystem.xErrorSet, Exec.map_bind, ErrSystem.prvErrorSetNew_s,
      Exec.map_pure, bind_pure]
    exact hset
  | xErrorSetErrno pcFile unLine errno strerror_r =>
    cases strerror_r with
    | some pcMsg =>
      have hset := hs.replace hv t pcFile unLine (Common.xErrorSetErrno errno)
        (f := RsErrInfo.setMsg (some pcMsg)) fun buf _ => cstring_setMsg (some pcMsg) buf
      simp only [ErrSystem.step, ErrSystem.xErrorSetErrno, Exec.map_bind,
        ErrSystem.prvErrorSetNew_s, Exec.map_pure, bind_pure]
      exact hset
    | none =>
      have hset := hs.replace hv t pcFile unLine (Common.xErrorSetErrno errno) (f := id)
        (m := shown none) fun buf hbuf => hbuf
      simp only [ErrSystem.step, ErrSystem.xErrorSetErrno, Exec.map_bind, Exec.map_pure,
        Exec.bind_snd, ← prvErrorSetNew_putMsg]
      exact hset
  | xErrorSetf pcFile unLine unErrCode pcMsg =>
    have hset := hs.replace hv t pcFile unLine unErrCode (f := RsErrInfo.setMsgf pcMsg)
      fun buf _ => cstring_setMsgf pcMsg buf
    simp only [ErrSystem.step, ErrSystem.xErrorSetf, Exec.map_bind, ErrSystem.prvErrorSetNew_v,
      Exec.map_pure, bind_pure]
    exact hset

/-! ### Runs -/

theorem ErrSystem.Shows.run (hv : pf.valgrind = false) (hs : s.Shows pp logs lent)
    (calls : List (τ × ErrCall)) :
    Ends pp s (calls.foldlM (ErrSystem.step pf (some pp)) s)
      (calls.foldl (fun logs c => Function.update logs c.1 (c.2.replay (logs c.1))) logs) := by
  induction calls generalizing s logs lent with
  | nil => exact Or.inr ⟨s, lent, rfl, rfl, hs⟩
  | cons c calls ih =>
    rw [List.foldlM_cons, List.foldl_cons]
    rcases hs.step hv c with ⟨habort, hmem⟩ | ⟨s', lent', hstep, hsame, hs'⟩
    · exact Or.inl ⟨by rw [habort]; rfl, hmem⟩
    · rw [hstep]
      exact (ih hs').of_same hsame

/-- The calls of the other threads do not count. -/
theorem foldl_replay (calls : List (τ × ErrCall)) (logs : τ → List ErrLine) (t : τ) :
    calls.foldl (fun logs c => Function.update logs c.1 (c.2.replay (logs c.1))) logs t =
      ((calls.filter fun c => c.1 = t).map Prod.snd).foldl ErrCall.replay (logs t) := by
  induction calls generalizing logs with
  | nil => rfl
  | cons c calls ih =>
    rw [List.foldl_cons, ih, List.filter_cons]
    by_cases hc : c.1 = t
    · rw [← hc, Function.update_self]
      simp
    · rw [Function.update_of_ne (Ne.symm hc)]
      simp [hc]

/-- A log prints the chain which it is given. -/
theorem errorLogLoop_eq {infos : ℕ → Option RsErrInfo} {lines : List ErrLine}
    (hl : Linked RsErrInfo.pxNext infos px l)
    (hlines : List.Forall₂ (fun c line => RsErrInfo.Shows c.2 line) l lines)
    (hfuel : l.length ≤ fuel) : errorLogLoop infos fuel px = .ok lines := by
  induction hlines generalizing px fuel with
  | nil =>
    obtain rfl : px = none := hl
    cases fuel <;> rfl
  | @cons c line l lines hc hrest ih =>
    obtain ⟨k, info⟩ := c
    obtain ⟨rfl, hinfo, hlinked⟩ := hl
    obtain ⟨fuel, rfl⟩ : ∃ f, fuel = f + 1 := ⟨fuel - 1, by simp at hfuel; omega⟩
    rw [errorLogLoop, hinfo, inBounds_some, Exec.ok_bind, hc.pcFile, inBounds_some, Exec.ok_bind,
      hc.pcErrMsg, inBounds_some, Exec.ok_bind, ih hlinked (Nat.le_of_succ_le_succ hfuel),
      Exec.ok_bind, hc.unErrCode, hc.unLine]
    rfl

omit [DecidableEq τ] in
theorem ErrSystem.Shows.log (hs : s.Shows pp logs lent) (t : τ) :
    s.vErrorLog t = .ok (logs t) := by
  obtain ⟨stack, hc, hlines⟩ := hs
  exact errorLogLoop_eq (hc.held.linked t) (hlines t) (hc.length_le t)

omit [DecidableEq τ] in
/-- The structures which are out are as many as the errors of all threads. -/
theorem ErrSystem.Shows.inUse [Fintype τ] (hs : s.Shows pp logs lent)
    (hpool : s.xErrPool = some pp) :
    ∃ pool, s.heap.pools pp = some pool ∧ pool.xActive.length = ∑ t, (logs t).length := by
  obtain ⟨stack, hc, hlines⟩ := hs
  rcases hc.pooled with ⟨hnone, -, -⟩ | ⟨-, hlends⟩
  · rw [hpool] at hnone
    cases hnone
  · obtain ⟨free, pool, hp, -, -, hactive, -⟩ := id hlends
    refine ⟨pool, hp, ?_⟩
    rw [hactive, hc.held.length_eq_sum hlends.nodup hc.mem]
    exact Finset.sum_congr rfl fun t _ => (hlines t).length_eq

omit [DecidableEq τ] in
theorem ErrSystem.start_shows {h : Heap} (hw : h.Without pp) :
    (ErrSystem.start τ h).Shows pp (fun _ => []) [] :=
  ⟨fun _ => [], ⟨held_empty _ _, Or.inl ⟨rfl, hw, rfl⟩, fun k => by simp⟩, fun _ => .nil⟩

/-- Whatever calls the threads make in whatever order, a thread finds the errors of its own calls,
no structure is lost and none is given back twice. A run which does not come back has run out of
memory. -/
theorem errors_replayed [Fintype τ] (hv : pf.valgrind = false) {h : Heap} (hw : h.Without pp)
    (calls : List (τ × ErrCall)) :
    (calls.foldlM (ErrSystem.step pf (some pp)) (ErrSystem.start τ h) = .error .abort ∧
        ¬ h.MemoryAvailable) ∨
      ∃ s, calls.foldlM (ErrSystem.step pf (some pp)) (ErrSystem.start τ h) = .ok s ∧
        (∀ t, s.vErrorLog t = .ok (replayOf calls t)) ∧
        (s.xErrPool = some pp → ∃ pool, s.heap.pools pp = some pool ∧
          pool.xActive.length = ∑ t, (replayOf calls t).length) := by
  rcases (ErrSystem.start_shows hw).run hv calls with ⟨habort, n, hmem⟩ | ⟨s, lent, hrun, -, hs⟩
  · refine Or.inl ⟨habort, fun hall => ?_⟩
    rw [ErrSystem.start, hall n] at hmem
    cases hmem
  · refine Or.inr ⟨s, hrun, fun t => ?_, fun hpool => ?_⟩
    · rw [hs.log t, foldl_replay]
      rfl
    · obtain ⟨pool, hp, hlen⟩ := hs.inUse hpool
      refine ⟨pool, hp, hlen.trans (Finset.sum_congr rfl fun t _ => ?_)⟩
      rw [foldl_replay]
      rfl

end Chains

/-- Memory in which nothing is allocated yet. -/
def unusedHeap : Heap where
  mem := fun _ => none
  netbufs := fun _ => none
  rsrcs := fun _ => none
  pools := fun _ => none
  brk := 1
  calls := 0
  mallocOk := fun _ => true
  junk := fun _ _ => 0

/-- One thread has an error and pushes another one while a second thread has its own. -/
def errorCalls : List (Bool × ErrCall) :=
  [(false, .xErrorSet none 7 ERR_OOM none), (true, .xErrorSet none 8 ERR_BAD_ARG none),
    (false, .xErrorPush none 9 ERR_TIMEDOUT none), (true, .vErrorClear),
    (true, .xErrorSetErrno none 10 22 none)]

theorem errors_replayed_two : ∃ s,
    errorCalls.foldlM (ErrSystem.step ⟨true, false⟩ (some 0)) (ErrSystem.start Bool unusedHeap) =
        .ok s ∧
      s.vErrorLog false = .ok [⟨ERR_TIMEDOUT, .empty, 9, .empty⟩, ⟨ERR_OOM, .empty, 7, .empty⟩] ∧
      s.vErrorLog true = .ok [⟨SUCCESS, .empty, 10, .empty⟩] := by
  have hw : unusedHeap.Without 0 := fun _ _ h => by cases h
  rcases @errors_replayed Bool _ ⟨true, false⟩ 0 _ rfl unusedHeap hw errorCalls with
    ⟨-, hmem⟩ | ⟨s, hrun, hlog, -⟩
  · exact absurd (fun _ => rfl) hmem
  · refine ⟨s, hrun, (hlog false).trans (congrArg Except.ok ?_),
      (hlog true).trans (congrArg Except.ok ?_)⟩
    · decide
    · decide

end RinaSense.Common
