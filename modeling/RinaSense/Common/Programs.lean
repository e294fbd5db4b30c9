import RinaSense.Common.Lifecycle

/-!
# Programs on netbufs

What a piece of code does to the netbufs, as a program which keeps to the contract of their
functions. Such a program frees a netbuf at most once, so a netbuf which is dead behind it and
was alive in front of it was freed exactly once.
-/

namespace RinaSense.Common

open Library.Memory Library.Runs

variable (pf : Platform)

/-- A program which keeps to the contract leads from one state to the other. -/
def Ran (s s' : NbState) : Prop :=
  ∃ ops, GuardedSteps (NbState.step pf) (Permitted pf) s ops ∧
    ops.foldlM (NbState.step pf) s = some s'

variable {pf} {s s' s'' : NbState} {h : Heap} {p q c : NbPtr} {nb : Netbuf}

theorem Ran.refl (s : NbState) : Ran pf s s := ⟨[], trivial, rfl⟩

theorem Ran.trans (h₁ : Ran pf s s') (h₂ : Ran pf s' s'') : Ran pf s s'' := by
  obtain ⟨ops, hops, hrun⟩ := h₁
  obtain ⟨ops', hops', hrun'⟩ := h₂
  refine ⟨ops ++ ops', guardedSteps_append hops hrun hops', ?_⟩
  rw [List.foldlM_append, hrun]
  exact hrun'

theorem Ran.op (op : NbOp) (hperm : Permitted pf s op) (hstep : s.step pf op = some s') :
    Ran pf s s' := by
  refine ⟨[op], ⟨hperm, ?_⟩, ?_⟩
  · rw [hstep]
    trivial
  · rw [List.foldlM_cons, hstep]
    rfl

theorem Ran.inv (hi : s.Inv pf) (hran : Ran pf s s') : s'.Inv pf := by
  obtain ⟨ops, hops, hrun⟩ := hran
  refine foldlM_invariant (fun t op t' ht hperm hstep => ?_) hi hops hrun
  obtain ⟨u, hu, hinv⟩ := ht.step hperm
  rw [hu] at hstep
  cases hstep
  exact hinv

theorem Ran.other (hl : Leaves s h) : Ran pf s ⟨h, s.ledger⟩ :=
  Ran.op (.other h) hl rfl

/-- Freeing a netbuf which is alive. -/
theorem Ran.free (hi : s.Inv pf) (hp : s.ledger.live p = true) :
    ∃ h', vNetBufFree pf s.heap p = .ok h' ∧ Ran pf s ⟨h', s.ledger.leave p⟩ := by
  obtain ⟨s', hstep, -⟩ := hi.free_step hp
  obtain ⟨h', hcode, rfl⟩ := Exec.toOption_map_eq_some hstep
  exact ⟨h', hcode, Ran.op (.free p) hp hstep⟩

/-- A cut which has made a new netbuf. -/
theorem Ran.split (hp : s.ledger.live p = true) {eType : NetBufType} {n : ℕ} {ok : Bool}
    (hcode : xNetBufSplit s.heap p eType n = .ok (ok, h)) (hnew : (h.netbufs s.heap.brk).isSome) :
    Ran pf s ⟨h, s.ledger.cut p s.heap.brk⟩ := by
  refine Ran.op (.split p eType n) hp ?_
  rw [NbState.step, hcode]
  exact congrArg (fun d => some (NbState.mk h d)) (if_pos hnew)

/-! ### Addresses handed out -/

section Break

variable {h' : Heap}

theorem vRsMemFree_brk {ptr : Option Ptr} (hrun : vRsMemFree h ptr = .ok h') :
    h'.brk = h.brk := by
  cases ptr with
  | none =>
    cases hrun
    rfl
  | some ptr =>
    rw [vRsMemFree] at hrun
    split at hrun
    · cases hrun
      rfl
    · cases hrun

theorem prvvFreeResTail_brk (h : Heap) (pp : PoolPtr) (pool : RsrcPool) (a : ℕ) :
    (prvvFreeResTail h pp pool a).1.brk = h.brk := by
  rw [prvvFreeResTail]
  split <;> rfl

theorem vRsrcFree_brk {ptr : Option Ptr} (hrun : vRsrcFree pf h ptr = .ok h') :
    h'.brk = h.brk := by
  cases ptr with
  | none =>
    cases hrun
    rfl
  | some ptr =>
    rw [vRsrcFree] at hrun
    split at hrun
    · exact vRsMemFree_brk hrun
    · obtain ⟨rsrc, -, hrun⟩ := Exec.bind_eq_ok.mp hrun
      obtain ⟨pool, -, hrun⟩ := Exec.bind_eq_ok.mp hrun
      split at hrun
      · cases hrun
      · dsimp only at hrun
        split at hrun
        · cases hrun
          rfl
        · cases hrun
          exact prvvFreeResTail_brk _ _ _ _

theorem callFreeMethod_brk (hrun : callFreeMethod pf h p nb = .ok h') : h'.brk = h.brk := by
  rw [callFreeMethod] at hrun
  split at hrun
  · cases hrun
    rfl
  · cases hrun
    rfl
  · obtain ⟨h₁, hfree, hrun⟩ := Exec.bind_eq_ok.mp hrun
    cases hrun
    exact (vRsMemFree_brk hfree :)
  · obtain ⟨h₁, hfree, hrun⟩ := Exec.bind_eq_ok.mp hrun
    cases hrun
    exact (vRsrcFree_brk hfree :)

theorem vRsMemFreeNetbuf_brk (hrun : vRsMemFreeNetbuf h p = .ok h') : h'.brk = h.brk := by
  rw [vRsMemFreeNetbuf] at hrun
  split at hrun
  · cases hrun
    rfl
  · cases hrun

theorem freeChain_brk {l : List NbPtr} (hrun : freeChain pf h l = .ok h') : h'.brk = h.brk := by
  induction l generalizing h with
  | nil =>
    cases hrun
    rfl
  | cons p ps ih =>
    obtain ⟨nb, -, hrun⟩ := Exec.bind_eq_ok.mp hrun
    have hrest : ∀ h₁, (do
        let h ← vRsMemFreeNetbuf h₁ p
        freeChain pf h ps) = .ok h' → h'.brk = h₁.brk := by
      intro h₁ hrun₁
      obtain ⟨h₂, hgone, hrun₂⟩ := Exec.bind_eq_ok.mp hrun₁
      exact (ih hrun₂).trans (vRsMemFreeNetbuf_brk hgone)
    dsimp only at hrun
    split at hrun
    · obtain ⟨h₁, hfree, hrun⟩ := Exec.bind_eq_ok.mp hrun
      exact (hrest h₁ hrun).trans (callFreeMethod_brk hfree)
    · exact hrest h hrun

theorem vNetBufFree_brk (hrun : vNetBufFree pf h p = .ok h') : h'.brk = h.brk := by
  obtain ⟨nb, -, hrun⟩ := Exec.bind_eq_ok.mp hrun
  obtain ⟨chain, -, hrun⟩ := Exec.bind_eq_ok.mp hrun
  obtain ⟨n, -, hrun⟩ := Exec.bind_eq_ok.mp hrun
  obtain ⟨fully, -, hrun⟩ := Exec.bind_eq_ok.mp hrun
  have hrest : ∀ h₁, (if fully then freeChain pf h₁ chain else .ok h₁) = .ok h' →
      h'.brk = h₁.brk := by
    intro h₁ hrun₁
    split at hrun₁
    · exact freeChain_brk hrun₁
    · cases hrun₁
      rfl
  dsimp only at hrun
  split at hrun
  · exact (hrest _ hrun :)
  · split at hrun
    · obtain ⟨h₁, hfree, hrun⟩ := Exec.bind_eq_ok.mp hrun
      exact (hrest h₁ hrun).trans (callFreeMethod_brk hfree :)
    · exact (hrest _ hrun :)

theorem splitLoop_brk {eType : NetBufType} {fuel n : ℕ} {start : Option NbPtr} {ok : Bool}
    (hrun : splitLoop eType h fuel start n = .ok (ok, h')) : h.brk ≤ h'.brk := by
  rcases splitLoop_ends hrun with rfl | rfl | ⟨p, nb, k, -, -, rfl⟩
  · exact Nat.le_refl _
  · exact Nat.le_refl _
  · exact Nat.le_succ _

theorem setFirst_brk {first : NbPtr} {l : List NbPtr} (hrun : setFirst first h l = .ok h') :
    h'.brk = h.brk := by
  induction l generalizing h with
  | nil =>
    cases hrun
    rfl
  | cons p ps ih =>
    obtain ⟨nb, -, hrun⟩ := Exec.bind_eq_ok.mp hrun
    rw [ih hrun]
    split <;> rfl

theorem vNetBufAppend_brk (hrun : vNetBufAppend pf h p q = .ok h') : h'.brk = h.brk := by
  obtain ⟨left, -, hrun⟩ := Exec.bind_eq_ok.mp hrun
  obtain ⟨_, -, hrun⟩ := Exec.bind_eq_ok.mp hrun
  obtain ⟨chain, -, hrun⟩ := Exec.bind_eq_ok.mp hrun
  obtain ⟨lastPtr, -, hrun⟩ := Exec.bind_eq_ok.mp hrun
  obtain ⟨last, -, hrun⟩ := Exec.bind_eq_ok.mp hrun
  obtain ⟨right, -, hrun⟩ := Exec.bind_eq_ok.mp hrun
  obtain ⟨chain', -, hrun⟩ := Exec.bind_eq_ok.mp hrun
  obtain ⟨left', -, hrun⟩ := Exec.bind_eq_ok.mp hrun
  exact (setFirst_brk hrun :)

end Break

/-! ### Reachable states -/

/-- The state is reached from one without netbufs. -/
def Reached (pf : Platform) (s : NbState) : Prop :=
  ∃ h, h.Fresh ∧ (∀ p, h.netbufs p = none) ∧ Ran pf ⟨h, .empty⟩ s

theorem Reached.ran (hr : Reached pf s) (hran : Ran pf s s') : Reached pf s' := by
  obtain ⟨h, hf, hnone, hrun⟩ := hr
  exact ⟨h, hf, hnone, hrun.trans hran⟩

theorem Reached.inv (hr : Reached pf s) : s.Inv pf := by
  obtain ⟨h, hf, hnone, hrun⟩ := hr
  exact hrun.inv (inv_empty hf hnone)

/-- Buffers which were handed over had been allocated. -/
def GivenBelow (s : NbState) : Prop := ∀ b, (s.ledger.given b).isSome → b < s.heap.brk

theorem GivenBelow.step (hb : GivenBelow s) (hi : s.Inv pf) {op : NbOp}
    (hperm : Permitted pf s op) (hstep : s.step pf op = some s') : GivenBelow s' := by
  cases op with
  | new xPool eType pxBuf unSz pfnFree =>
    obtain ⟨out, hrun, rfl⟩ := Exec.toOption_map_eq_some hstep
    obtain ⟨hpool, hsize, -, hu⟩ := hperm
    simp only [pxNetBufNew, hpool, hsize, Exec.ok_bind, pvRsMemAllocNetbuf] at hrun
    split at hrun
    · cases hrun
      intro b hgiven
      change b < s.heap.brk + 1
      by_cases hbuf : b = pxBuf.block
      · obtain ⟨bs, hbs⟩ := Option.isSome_iff_exists.mp hu.allocated
        have hlt := hi.fresh.lt_of_block hbs
        omega
      · have hold : (s.ledger.given b).isSome := by
          have hg : (Function.update s.ledger.given pxBuf.block
            (some ⟨s.heap.brk, pxBuf, pfnFree⟩) b).isSome := hgiven
          rwa [Function.update_of_ne hbuf] at hg
        exact Nat.lt_succ_of_lt (hb b hold)
    · cases hrun
      exact hb
  | split pxNb eType unSz =>
    obtain ⟨⟨ok, h'⟩, hrun, rfl⟩ := Exec.toOption_map_eq_some hstep
    obtain ⟨nb, -, hrun⟩ := Exec.bind_eq_ok.mp hrun
    intro b hgiven
    refine Nat.lt_of_lt_of_le (hb b ?_) (splitLoop_brk hrun)
    dsimp only at hgiven
    split at hgiven <;> exact hgiven
  | append pxNbLeft pxNbRight =>
    obtain ⟨h', hrun, rfl⟩ := Exec.toOption_map_eq_some hstep
    intro b hgiven
    refine Nat.lt_of_lt_of_eq (hb b ?_) (vNetBufAppend_brk hrun).symm
    dsimp only at hgiven
    cases hc : s.ledger.chain pxNbLeft with
    | none => rwa [hc] at hgiven
    | some c =>
      rw [hc] at hgiven
      exact (Option.isSome_map ..).symm.trans hgiven
  | free pxNb =>
    obtain ⟨h', hrun, rfl⟩ := Exec.toOption_map_eq_some hstep
    exact fun b hgiven => Nat.lt_of_lt_of_eq (hb b hgiven) (vNetBufFree_brk hrun).symm
  | other h =>
    cases hstep
    exact fun b hgiven => Nat.lt_of_lt_of_le (hb b hgiven) hperm.brk

theorem Reached.givenBelow (hr : Reached pf s) : GivenBelow s := by
  obtain ⟨h, hf, hnone, ops, hops, hrun⟩ := hr
  refine (foldlM_invariant (I := fun s => s.Inv pf ∧ GivenBelow s) ?_
    ⟨inv_empty hf hnone, fun b hb => by cases hb⟩ hops hrun).2
  rintro t op t' ⟨hi, hb⟩ hperm hstep
  obtain ⟨u, hu, hinv⟩ := hi.step hperm
  have heq : u = t' := Option.some.inj (hu.symm.trans hstep)
  exact ⟨heq ▸ hinv, hb.step hi hperm hstep⟩

/-- Memory which is asked for, granted or not, has nothing to do with the netbufs. -/
theorem leaves_alloc (hf : s.heap.Fresh) (hb : GivenBelow s) (n : ℕ) :
    Leaves s (pvRsMemAlloc s.heap n).2 := by
  rw [pvRsMemAlloc]
  split
  · refine ⟨fun a ha => ?_, Nat.le_succ _, rfl, fun b hgiven => ⟨?_, rfl, fun _ hp => hp⟩⟩
    · have hlt : s.heap.brk < a := ha
      obtain ⟨hnb, hmem⟩ := hf a (Nat.le_of_lt hlt)
      refine ⟨hnb, ?_⟩
      exact (Function.update_of_ne (Nat.ne_of_gt hlt) _ s.heap.mem).trans hmem
    · have hne : b ≠ s.heap.brk := Nat.ne_of_lt (hb b hgiven)
      exact congrArg Option.isSome (Function.update_of_ne hne _ s.heap.mem)
  · exact ⟨hf, Nat.le_refl _, rfl, fun b _ => ⟨rfl, rfl, fun _ hp => hp⟩⟩

end RinaSense.Common
