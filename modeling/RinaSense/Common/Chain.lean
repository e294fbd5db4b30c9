import RinaSense.Common.Netbuf

/-!
# Chains with freed netbufs

What the loops over a chain do when they come to the netbufs which were freed already,
and what freeing a netbuf does to a chain in which another one is still in use.
-/

namespace RinaSense.Common

open Library.Memory

variable {pf : Platform}

/-- From `start` the chain leads over the freed netbufs `pre` to the netbuf `last`. -/
def FreedPath (h : Heap) : Option NbPtr → List NbPtr → NbPtr → Prop
  | start, [], last => start = some last
  | start, q :: qs, last =>
    start = some q ∧ ∃ nb, h.netbufs q = some nb ∧ nb.xFreed = true ∧
      FreedPath h nb.pxNext qs last

/-- Addresses which were never handed out hold nothing. -/
def Heap.Fresh (h : Heap) : Prop := ∀ a, h.brk ≤ a → h.netbufs a = none ∧ h.mem a = none

theorem Heap.Fresh.lt_of_netbuf {h : Heap} (hf : h.Fresh) {a : NbPtr} {nb : Netbuf}
    (ha : h.netbufs a = some nb) : a < h.brk := by
  by_contra hle
  have := (hf a (Nat.le_of_not_lt hle)).1
  rw [ha] at this
  cases this

theorem Heap.Fresh.lt_of_block {h : Heap} (hf : h.Fresh) {a : ℕ} {bs : Bytes}
    (ha : h.mem a = some bs) : a < h.brk := by
  by_contra hle
  have := (hf a (Nat.le_of_not_lt hle)).2
  rw [ha] at this
  cases this

theorem FreedPath.freed {h : Heap} {start : Option NbPtr} {pre : List NbPtr} {last : NbPtr}
    (hp : FreedPath h start pre last) : ∀ q ∈ pre, ∃ nb, h.netbufs q = some nb ∧
      nb.xFreed = true := by
  induction pre generalizing start with
  | nil => simp
  | cons q qs ih =>
    obtain ⟨-, nb, hq, hfreed, hrest⟩ := hp
    intro r hr
    rcases List.mem_cons.mp hr with rfl | hr
    · exact ⟨nb, hq, hfreed⟩
    · exact ih hrest r hr

/-- A live netbuf is not among the freed ones. -/
theorem FreedPath.not_mem {h : Heap} {start : Option NbPtr} {pre : List NbPtr} {last : NbPtr}
    (hp : FreedPath h start pre last) {q : NbPtr} {nb : Netbuf} (hq : h.netbufs q = some nb)
    (hlive : nb.xFreed = false) : q ∉ pre := by
  intro hmem
  obtain ⟨nb', hq', hfreed⟩ := hp.freed q hmem
  rw [hq] at hq'
  cases hq'
  rw [hlive] at hfreed
  cases hfreed

theorem FreedPath.congr {h h' : Heap} {start : Option NbPtr} {pre : List NbPtr} {last : NbPtr}
    (hp : FreedPath h start pre last) (hsame : ∀ q ∈ pre, h'.netbufs q = h.netbufs q) :
    FreedPath h' start pre last := by
  induction pre generalizing start with
  | nil => exact hp
  | cons q qs ih =>
    obtain ⟨hstart, nb, hq, hfreed, hrest⟩ := hp
    refine ⟨hstart, nb, ?_, hfreed, ih hrest fun r hr => hsame r (by simp [hr])⟩
    rw [hsame q (by simp)]
    exact hq

theorem splitLoop_freedPath {eType : NetBufType} {h : Heap} {start : Option NbPtr}
    {pre : List NbPtr} {last : NbPtr} (hp : FreedPath h start pre last) (fuel n : ℕ) :
    splitLoop eType h (pre.length + fuel) start n = splitLoop eType h fuel (some last) n := by
  induction pre generalizing start with
  | nil =>
    cases hp
    simp
  | cons q qs ih =>
    obtain ⟨rfl, nb, hq, hfreed, hrest⟩ := hp
    rw [List.length_cons, Nat.add_right_comm]
    simp only [splitLoop, Heap.netbuf_of_some hq, Exec.ok_bind, hfreed, if_true]
    exact ih hrest

theorem chainFrom_freedPath {h : Heap} {start : Option NbPtr} {pre : List NbPtr}
    {last : NbPtr} (hp : FreedPath h start pre last) {fuel : ℕ} {rest : List NbPtr}
    (hrest : chainFrom h fuel (some last) = .ok rest) :
    chainFrom h (pre.length + fuel) start = .ok (pre ++ rest) := by
  induction pre generalizing start with
  | nil =>
    cases hp
    simpa using hrest
  | cons q qs ih =>
    obtain ⟨rfl, nb, hq, -, hpath⟩ := hp
    rw [List.length_cons, Nat.add_right_comm]
    simp [chainFrom, hq, ih hpath, pure, Except.pure]

/-- Whether all netbufs are freed, as a test of the list. -/
theorem allFreed_eq {h : Heap} {l : List NbPtr}
    (hall : ∀ q ∈ l, ∃ nb, h.netbufs q = some nb) :
    allFreed h l = .ok (l.all fun q => (h.netbufs q).any (·.xFreed)) := by
  induction l with
  | nil => rfl
  | cons q qs ih =>
    obtain ⟨nb, hq⟩ := hall q (by simp)
    have hrest := ih fun r hr => hall r (by simp [hr])
    simp [allFreed, hq, hrest, pure, Except.pure]

/-- The number of netbufs which start in a buffer, as a count over the list. -/
theorem countBuffer_eq {h : Heap} {start : Option Ptr} {l : List NbPtr}
    (hall : ∀ q ∈ l, ∃ nb, h.netbufs q = some nb) :
    countBuffer h start l =
      .ok (l.countP fun q => (h.netbufs q).map (·.pxBufStart) = some start) := by
  induction l with
  | nil => rfl
  | cons q qs ih =>
    obtain ⟨nb, hq⟩ := hall q (by simp)
    have hrest := ih fun r hr => hall r (by simp [hr])
    by_cases hb : nb.pxBufStart = start
    · simp [countBuffer, hq, hrest, hb, Nat.add_comm, pure, Except.pure]
    · simp [countBuffer, hq, hrest, hb, pure, Except.pure]

theorem sizeSum_ok {h : Heap} {l : List NbPtr} (hall : ∀ q ∈ l, ∃ nb, h.netbufs q = some nb) :
    ∃ n, sizeSum h l = .ok n := by
  induction l with
  | nil => exact ⟨0, rfl⟩
  | cons q qs ih =>
    obtain ⟨nb, hq⟩ := hall q (by simp)
    obtain ⟨n, hn⟩ := ih fun r hr => hall r (by simp [hr])
    exact ⟨_, by simp [sizeSum, hq, hn, pure, Except.pure]; rfl⟩

theorem chainFrom_mem {h : Heap} {fuel : ℕ} {start : Option NbPtr} {l : List NbPtr}
    (hl : chainFrom h fuel start = .ok l) : ∀ q ∈ l, ∃ nb, h.netbufs q = some nb := by
  induction fuel generalizing start l with
  | zero =>
    cases start with
    | none =>
      cases hl
      simp
    | some p => cases hl
  | succ fuel ih =>
    cases start with
    | none =>
      cases hl
      simp
    | some p =>
      cases hp : h.netbufs p with
      | none => simp [chainFrom, Heap.netbuf, hp] at hl
      | some nb =>
        simp only [chainFrom, Heap.netbuf_of_some hp, Exec.ok_bind] at hl
        obtain ⟨rest, hrest, hl⟩ := Exec.bind_eq_ok.mp hl
        cases hl
        intro q hq
        rcases List.mem_cons.mp hq with rfl | hq
        · exact ⟨nb, hp⟩
        · exact ih hrest q hq

theorem chainFrom_head {h : Heap} {fuel : ℕ} {p : NbPtr} {l : List NbPtr}
    (hl : chainFrom h fuel (some p) = .ok l) : p ∈ l := by
  cases fuel with
  | zero => cases hl
  | succ fuel =>
    obtain ⟨nb, -, hl⟩ := Exec.bind_eq_ok.mp hl
    obtain ⟨rest, -, hl⟩ := Exec.bind_eq_ok.mp hl
    cases hl
    simp

/-- A chain depends on its own netbufs only. -/
theorem chainFrom_congr {h h' : Heap} {fuel fuel' : ℕ} {start : Option NbPtr} {l : List NbPtr}
    (hl : chainFrom h fuel start = .ok l) (hle : fuel ≤ fuel')
    (hsame : ∀ q ∈ l, h'.netbufs q = h.netbufs q) : chainFrom h' fuel' start = .ok l := by
  induction fuel generalizing start l fuel' with
  | zero =>
    cases start with
    | none =>
      cases hl
      cases fuel' <;> rfl
    | some p => cases hl
  | succ fuel ih =>
    obtain ⟨k, rfl⟩ := Nat.exists_eq_add_of_le hle
    cases start with
    | none =>
      cases hl
      rw [Nat.add_right_comm]
      rfl
    | some p =>
      cases hp : h.netbufs p with
      | none => simp [chainFrom, Heap.netbuf, hp] at hl
      | some nb =>
        simp only [chainFrom, Heap.netbuf_of_some hp, Exec.ok_bind] at hl
        obtain ⟨rest, hrest, hl⟩ := Exec.bind_eq_ok.mp hl
        cases hl
        have hp' : h'.netbufs p = some nb := (hsame p (by simp)).trans hp
        have hrest' := ih hrest (Nat.le_add_right fuel k) fun q hq => hsame q (by simp [hq])
        rw [Nat.add_right_comm]
        simp [chainFrom, hp', hrest', pure, Except.pure]

/-- A live netbuf with a new first netbuf. -/
def Netbuf.relink (first : NbPtr) (nb : Netbuf) : Netbuf :=
  if nb.xFreed then nb else { nb with pxFirst := first }

theorem Netbuf.relink_relink (first : NbPtr) (nb : Netbuf) :
    (nb.relink first).relink first = nb.relink first := by
  unfold Netbuf.relink
  by_cases hfreed : nb.xFreed = true
  · simp [hfreed]
  · simp [hfreed]

theorem setFirst_spec (first : NbPtr) {h : Heap} {l : List NbPtr}
    (hall : ∀ q ∈ l, ∃ nb, h.netbufs q = some nb) :
    ∃ nbs, setFirst first h l = .ok { h with netbufs := nbs } ∧
      ∀ q, nbs q = if q ∈ l then (h.netbufs q).map (Netbuf.relink first) else h.netbufs q := by
  induction l generalizing h with
  | nil => exact ⟨h.netbufs, rfl, by simp⟩
  | cons p ps ih =>
    obtain ⟨nb, hp⟩ := hall p (by simp)
    let h₁ := if nb.xFreed then h else h.setNetbuf p (some { nb with pxFirst := first })
    have hsame : ∀ q, q ≠ p → h₁.netbufs q = h.netbufs q := by
      intro q hq
      simp only [h₁]
      split_ifs
      · rfl
      · exact Heap.setNetbuf_of_ne h _ hq
    have hself : h₁.netbufs p = some (nb.relink first) := by
      simp only [h₁, Netbuf.relink]
      split_ifs
      · exact hp
      · exact Heap.setNetbuf_self _ _ _
    obtain ⟨nbs, hcode, hnbs⟩ := ih (h := h₁) fun q hq => by
      by_cases hqp : q = p
      · exact ⟨_, hqp ▸ hself⟩
      · rw [hsame q hqp]
        exact hall q (by simp [hq])
    refine ⟨nbs, ?_, fun q => ?_⟩
    · simp only [setFirst, Heap.netbuf_of_some hp, Exec.ok_bind]
      change setFirst first h₁ ps = _
      rw [hcode]
      simp only [h₁]
      split_ifs <;> rfl
    · rw [hnbs]
      by_cases hqp : q = p
      · subst hqp
        rw [hself, hp]
        simp [Netbuf.relink_relink]
      · simp [hsame q hqp, hqp]

end RinaSense.Common
