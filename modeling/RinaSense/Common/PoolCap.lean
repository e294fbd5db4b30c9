import RinaSense.Common.PoolRuns

/-!
# The cap of a resource pool

Which settings keep a pool below its cap, let it serve up to its cap and make every second release
an abort, each over all programs which use the pool. The cap is tested once for an increment, with
the resources of the freelist counted in, and a pool without a freelist forgets its resources.
-/

namespace RinaSense.Common

open Library.Memory Library.Runs

variable (pf : Platform)

/-- No run brings the pool above its cap. -/
def RespectsCap (a : PoolArgs) : Prop :=
  ∀ pp s, PoolReached pf pp a s → ∀ pool, s.heap.pools pp = some pool →
    pool.xActive.length + pool.pxFreelist.length ≤ a.uiMaxNumRes.toNat

/-- While fewer resources are in use than the cap allows, a request is served with memory
available. -/
def ServesUpToCap (a : PoolArgs) : Prop :=
  ∀ pp s, PoolReached pf pp a s → ∀ pool, s.heap.pools pp = some pool →
    pool.xActive.length < a.uiMaxNumRes.toNat → s.heap.mallocOk s.heap.calls = true →
      ∀ pcRequestor n, a.Fits (some pcRequestor) n →
        ∃ x h', pxRsrcVarAlloc pf s.heap (some pp) (some pcRequestor) n = .ok (some x, h')

/-- The resources of a pool lie in one of its lists, which the counters follow. What is out was
handed out once, and what came back is not released again. -/
structure Partitioned (pp : PoolPtr) (s : PoolState) : Prop where
  lists : ∀ pool, s.heap.pools pp = some pool → (pool.xActive ++ pool.pxFreelist).Nodup
  counters : ∀ pool, s.heap.pools pp = some pool →
    pool.xActive.length + pool.pxFreelist.length < 65536 →
      pool.uiNumInUse.toNat = pool.xActive.length ∧ pool.uiNumFree.toNat = pool.pxFreelist.length
  lent : s.lent.Nodup
  detected : ∀ x ∈ s.seen, x ∉ s.lent → vRsrcFree pf s.heap (some ⟨x, 0⟩) = .error .abort

def KeepsPartition (a : PoolArgs) : Prop := ∀ pp s, PoolReached pf pp a s → Partitioned pf pp s

variable {pf} {pp : PoolPtr} {a : PoolArgs} {h : Heap} {s s' : PoolState} {t t' : Shelf}

/-! ### Requests which are served -/

/-- A heap with nothing in it, which refuses no request. -/
def bareHeap : Heap where
  mem := fun _ => none
  netbufs := fun _ => none
  rsrcs := fun _ => none
  pools := fun _ => none
  brk := 0
  calls := 0
  mallocOk := fun _ => true
  junk := fun _ _ => 0

theorem bareHeap_without : bareHeap.Without pp := fun x rsrc hx => by cases hx

/-- A request for the size of the pool, or for some size. -/
def PoolArgs.request (a : PoolArgs) : PoolOp :=
  .varAlloc (some a.pcName) (if a.xRsrcSize = 0 then 1 else a.xRsrcSize)

theorem PoolArgs.request_fits (a : PoolArgs) :
    a.Fits (some a.pcName) (if a.xRsrcSize = 0 then 1 else a.xRsrcSize) := by
  refine ⟨rfl, ?_, ?_⟩
  · split <;> omega
  · split <;> omega

/-- Some program has nothing but the pool. -/
theorem PoolArgs.reached_bare (a : PoolArgs) (pf : Platform) (pp : PoolPtr) :
    ∃ h₀ free, PoolReached pf pp a ⟨h₀, [], []⟩ ∧ Shelved pf pp a ⟨h₀, [], []⟩ ⟨[], free, []⟩ ∧
      free.length = a.uiInitAlloc.toNat ∧ h₀.MemoryAvailable := by
  obtain ⟨added, h', pool, hinit, -, -, -⟩ := prviRsrcInitPool_available
    (show bareHeap.MemoryAvailable from fun _ => rfl) pp a.pcName a.xRsrcSize a.uiInitAlloc
    a.uiIncrement a.uiMaxNumRes
  have hnew : a.create bareHeap pp = .ok (some pp, h'.setPool pp pool) := by
    rw [PoolArgs.create_eq, hinit]
    rfl
  obtain ⟨free, hs, hlen, hmalloc⟩ := a.created pf bareHeap_without hnew
  refine ⟨_, free, ⟨bareHeap, _, [], bareHeap_without, hnew, rfl⟩, hs, hlen, fun n => ?_⟩
  rw [hmalloc]
  rfl

/-- One resource more is out. -/
theorem Shelved.serves (hs : Shelved pf pp a s t) (hv : pf.valgrind = false)
    (hm : s.heap.MemoryAvailable) (hadmits : a.Admits t)
    (hsome : t.free ≠ [] ∨ a.uiIncrement ≠ 0) :
    ∃ x s' t', s.step pf pp a.request = some s' ∧ Shelved pf pp a s' t' ∧
      s'.heap.MemoryAvailable ∧ t'.lent = x :: t.lent ∧ s'.seen = x :: s.seen ∧
      ((∃ y, t.free = y :: t'.free) ∨
        t.free = [] ∧ t'.free.length + 1 = a.uiIncrement.toNat) := by
  have hstep : ∀ {x : ℕ} {rest : List ℕ} {h' : Heap},
      pxRsrcVarAlloc pf s.heap (some pp) (some a.pcName)
        (if a.xRsrcSize = 0 then 1 else a.xRsrcSize) = .ok (some x, h') →
      Stocked pp a h' (x :: t.lent) rest →
      s.step pf pp a.request = some (s.lend (some x, h')) ∧
        Shelved pf pp a (s.lend (some x, h')) ⟨x :: t.lent, rest, x :: t.seen⟩ := by
    intro x rest h' hok hst
    refine ⟨?_, hst, fun _ => congrArg _ (hs.lent hv), fun _ => congrArg _ (hs.seen hv)⟩
    rw [PoolArgs.request, PoolState.step, hok]
    rfl
  rcases hs.stocked.admitted hv a.request_fits hadmits with
    ⟨x, rest, h', hfree, hok, hst, hmalloc⟩ |
    ⟨hfree, ⟨hinc, -⟩ | ⟨hno, -⟩ | ⟨x, rest, h', hlen, hok, hst, hmalloc⟩⟩
  · obtain ⟨hstep, hs'⟩ := hstep hok hst
    exact ⟨x, _, _, hstep, hs', fun n => by rw [PoolState.lend, hmalloc]; exact hm n, rfl, rfl,
      Or.inl ⟨x, hfree⟩⟩
  · exact absurd hinc (hsome.resolve_left fun hne => hne hfree)
  · rw [hm] at hno
    cases hno
  · obtain ⟨hstep, hs'⟩ := hstep hok hst
    exact ⟨x, _, _, hstep, hs', fun n => by rw [PoolState.lend, hmalloc]; exact hm n, rfl, rfl,
      Or.inr ⟨hfree, hlen⟩⟩

theorem Stocked.total (hs : Stocked pp a h t.lent t.free) {pool : RsrcPool}
    (hpool : h.pools pp = some pool) :
    pool.xActive.length + pool.pxFreelist.length = t.total := by
  obtain ⟨pool', hp, -, -, hactive, hfree⟩ := hs
  rw [hpool, Option.some.injEq] at hp
  subst hp
  rw [hactive, hfree, Shelf.total]

/-! ### The cap -/

/-- The pool is below its cap by a multiple of the increment. -/
def PoolArgs.Below (a : PoolArgs) (t : Shelf) : Prop :=
  t.total ≤ a.uiMaxNumRes.toNat ∧
    (a.uiIncrement = 0 ∨ a.uiIncrement.toNat ∣ a.uiMaxNumRes.toNat - t.total)

theorem PoolArgs.Below.move (hmax : a.uiMaxNumRes ≠ 0) (hb : a.Below t) (hmove : t.Move a t') :
    a.Below t' := by
  obtain ⟨hle, hdvd⟩ := hb
  have hfit : a.uiMaxNumRes.toNat < 65536 := a.uiMaxNumRes.toNat_lt
  cases hmove with
  | @takes x rest hfree hadmits =>
    have htotal : (Shelf.mk (x :: t.lent) rest (x :: t.seen)).total = t.total := by
      simp only [Shelf.total, hfree, List.length_cons]
      omega
    rw [PoolArgs.Below, htotal]
    exact ⟨hle, hdvd⟩
  | @grows x rest hfree hadmits hlen =>
    have hlt := hadmits.resolve_left hmax
    have htotal : t.total = t.lent.length := by rw [Shelf.total, hfree]; rfl
    have hroom : t.total < a.uiMaxNumRes.toNat := by
      rw [htotal] at hle ⊢
      rw [hfree, List.length_nil, Nat.mod_eq_of_lt (Nat.lt_of_le_of_lt hle hfit)] at hlt
      exact hlt
    have hinc : a.uiIncrement ≠ 0 := by
      rintro hzero
      rw [hzero] at hlen
      cases hlen
    have hdvd := hdvd.resolve_left hinc
    have hstep : a.uiIncrement.toNat ≤ a.uiMaxNumRes.toNat - t.total :=
      Nat.le_of_dvd (Nat.sub_pos_of_lt hroom) hdvd
    have htotal' : (Shelf.mk (x :: t.lent) rest (x :: t.seen)).total =
        t.total + a.uiIncrement.toNat := by
      simp only [← hlen, Shelf.total, hfree, List.length_cons, List.length_nil]
      omega
    rw [PoolArgs.Below, htotal']
    refine ⟨by omega, Or.inr ?_⟩
    rw [← Nat.sub_sub]
    exact Nat.dvd_sub hdvd (Nat.dvd_refl _)
  | @returns x hx hkeeps =>
    have htotal : (Shelf.mk (t.lent.erase x) (x :: t.free) t.seen).total = t.total := by
      have hpos := List.length_pos_of_mem hx
      simp only [Shelf.total, List.length_erase_of_mem hx, List.length_cons]
      omega
    rw [PoolArgs.Below, htotal]
    exact ⟨hle, hdvd⟩
  | @drops x hx hkeeps =>
    have htotal : (Shelf.mk (t.lent.erase x) t.free t.seen).total ≤ t.total :=
      Nat.add_le_add_right (List.length_erase_le) _
    refine ⟨Nat.le_trans htotal hle, ?_⟩
    rw [PoolArgs.Keeps, not_or] at hkeeps
    by_cases hzero : a.uiIncrement = 0
    · exact Or.inl hzero
    · have hone : a.uiIncrement.toNat = 1 := by
        have hne : a.uiIncrement.toNat ≠ 0 := fun h0 => hzero (UInt16.toNat_inj.mp h0)
        omega
      exact Or.inr (hone ▸ Nat.one_dvd _)

/-- Requests alone bring a pool above a cap which its increments do not meet. -/
theorem PoolReached.exceeds (hr : PoolReached pf pp a s) (hv : pf.valgrind = false)
    (hs : Shelved pf pp a s t) (hm : s.heap.MemoryAvailable)
    (hle : t.total ≤ a.uiMaxNumRes.toNat) (hinc : a.uiIncrement ≠ 0)
    (hmiss : ¬ a.uiIncrement.toNat ∣ a.uiMaxNumRes.toNat - t.total) :
    ∃ s' t', PoolReached pf pp a s' ∧ Shelved pf pp a s' t' ∧ a.uiMaxNumRes.toNat < t'.total := by
  have hfit : a.uiMaxNumRes.toNat < 65536 := a.uiMaxNumRes.toNat_lt
  -- The induction is on how many resources may still go out.
  obtain ⟨k, hk⟩ : ∃ k, a.uiMaxNumRes.toNat - t.lent.length = k := ⟨_, rfl⟩
  induction k generalizing s t with
  | zero =>
    refine absurd ?_ hmiss
    have htotal : a.uiMaxNumRes.toNat - t.total = 0 := by
      rw [Shelf.total]
      omega
    rw [htotal]
    exact Nat.dvd_zero _
  | succ k ih =>
    have hne : t.total ≠ a.uiMaxNumRes.toNat := by
      intro heq
      rw [heq, Nat.sub_self] at hmiss
      exact hmiss (Nat.dvd_zero _)
    have hadmits : a.Admits t := by
      right
      rw [Shelf.total] at hle hne
      rw [Nat.mod_eq_of_lt (by omega), Nat.mod_eq_of_lt (by omega)]
      omega
    obtain ⟨x, s', t', hstep, hs', hm', hlent, -, hcases⟩ := hs.serves hv hm hadmits (Or.inr hinc)
    have hlent' : t'.lent.length = t.lent.length + 1 := by rw [hlent, List.length_cons]
    have hk' : a.uiMaxNumRes.toNat - t'.lent.length = k := by omega
    have htotal : t'.total = t.total ∨ t'.total = t.total + a.uiIncrement.toNat := by
      rw [Shelf.total, Shelf.total, hlent']
      rcases hcases with ⟨y, hy⟩ | ⟨hnil, hlen⟩
      · rw [hy, List.length_cons]
        omega
      · rw [hnil, List.length_nil]
        omega
    by_cases hover : a.uiMaxNumRes.toNat < t'.total
    · exact ⟨s', t', hr.step hstep, hs', hover⟩
    · have hmiss' : ¬ a.uiIncrement.toNat ∣ a.uiMaxNumRes.toNat - t'.total := by
        rcases htotal with heq | heq
        · rwa [heq]
        · intro hdvd
          refine hmiss ?_
          have hsplit : a.uiMaxNumRes.toNat - t.total =
              a.uiMaxNumRes.toNat - t'.total + a.uiIncrement.toNat := by omega
          rw [hsplit]
          exact Nat.dvd_add hdvd (Nat.dvd_refl _)
      exact ih (hr.step hstep) hs' hm' (Nat.le_of_not_lt hover) hmiss' hk'

theorem Shelf.total_new {free : List ℕ} (hlen : free.length = a.uiInitAlloc.toNat) :
    (Shelf.mk [] free []).total = a.uiInitAlloc.toNat := by
  rw [Shelf.total, hlen, List.length_nil, Nat.zero_add]

theorem pxRsrcVarAlloc_valgrind (hv : pf.valgrind = true) (hmem : h.mallocOk h.calls = true)
    {pcRequestor : Option String} {n : ℕ} :
    pxRsrcVarAlloc pf h (some pp) pcRequestor n =
      .ok (some h.brk, { h.called.setBlock h.brk (some (h.stale h.brk n)) with
        brk := h.brk + 1 }) := by
  rw [pxRsrcVarAlloc, if_pos hv, pvRsMemAlloc, if_pos hmem]

/-- A pool stays below its cap exactly when it starts there and, outside Valgrind, comes to the
cap by whole increments. -/
theorem respectsCap_iff (hmax : a.uiMaxNumRes ≠ 0) :
    RespectsCap pf a ↔ a.uiInitAlloc.toNat ≤ a.uiMaxNumRes.toNat ∧
      (pf.valgrind = true ∨ a.uiIncrement = 0 ∨
        a.uiIncrement.toNat ∣ a.uiMaxNumRes.toNat - a.uiInitAlloc.toNat) := by
  constructor
  · intro hcap
    have hreach : ∀ s t, PoolReached pf 0 a s → Shelved pf 0 a s t →
        t.total ≤ a.uiMaxNumRes.toNat := by
      intro s t hr hst
      obtain ⟨pool, hpool, -⟩ := id hst.stocked
      rw [← hst.stocked.total hpool]
      exact hcap 0 s hr pool hpool
    obtain ⟨h₀, free, hr, hs, hlen, hm⟩ := a.reached_bare pf 0
    have hle := hreach _ _ hr hs
    refine ⟨Shelf.total_new hlen ▸ hle, ?_⟩
    by_contra hno
    simp only [not_or, Bool.not_eq_true] at hno
    obtain ⟨hv, hinc, hmiss⟩ := hno
    rw [← Shelf.total_new hlen] at hmiss
    obtain ⟨s', t', hr', hs', hexceeds⟩ := hr.exceeds hv hs hm hle hinc hmiss
    exact Nat.not_lt.mpr (hreach s' t' hr' hs') hexceeds
  · rintro ⟨hinit, hcond⟩ pp s hr pool hpool
    by_cases hv : pf.valgrind = true
    · obtain ⟨t, hs, hle⟩ := hr.invariant (I := fun t => t.total ≤ a.uiMaxNumRes.toNat)
        (fun free hlen => by rwa [Shelf.total_new hlen])
        fun t t' hfalse => absurd (hv.symm.trans hfalse) (by decide)
      rwa [hs.stocked.total hpool]
    · obtain ⟨t, hs, hb⟩ := hr.invariant (I := a.Below)
        (fun free hlen => by
          rw [PoolArgs.Below, Shelf.total_new hlen]
          exact ⟨hinit, hcond.resolve_left hv⟩)
        fun t t' _ hb hmove => hb.move hmax hmove
      rw [hs.stocked.total hpool]
      exact hb.1

/-- A pool of resources of four bytes. -/
def fourBytes (uiInitAlloc uiIncrement uiMaxNumRes : UInt16)
    (hsome : uiIncrement.toNat + uiInitAlloc.toNat ≠ 0) : PoolArgs where
  pcName := "items"
  xRsrcSize := 4
  uiInitAlloc := uiInitAlloc
  uiIncrement := uiIncrement
  uiMaxNumRes := uiMaxNumRes
  some_resource := hsome
  variable_size hzero := absurd hzero (Nat.succ_ne_zero 3)

/-- Two resources more, of which only one fits. -/
theorem cap_exceeded : ¬ RespectsCap ⟨false, false⟩ (fourBytes 2 2 3 (by decide)) := fun hcap =>
  absurd (hcap 0 _ ⟨bareHeap, _, [.alloc (some "a"), .alloc (some "b"), .alloc (some "c")],
    bareHeap_without, rfl, rfl⟩ _ rfl) (by decide)

theorem cap_met : RespectsCap ⟨false, false⟩ (fourBytes 2 2 4 (by decide)) :=
  (respectsCap_iff (by decide)).mpr ⟨by decide, Or.inr (Or.inr (by decide))⟩

/-! ### Service up to the cap -/

/-- What a pool without a freelist has in its list is there from its creation. -/
def PoolArgs.Fresh (a : PoolArgs) (t : Shelf) : Prop :=
  t.lent.length ≤ a.uiMaxNumRes.toNat ∧
    (t.free = [] ∨ t.lent = [] ∧ t.free.length = a.uiInitAlloc.toNat)

theorem PoolArgs.Fresh.move (hmax : a.uiMaxNumRes ≠ 0) (hdrops : ¬ a.Keeps) (hf : a.Fresh t)
    (hmove : t.Move a t') : a.Fresh t' := by
  obtain ⟨hle, hlists⟩ := hf
  have hfit : a.uiMaxNumRes.toNat < 65536 := a.uiMaxNumRes.toNat_lt
  rw [PoolArgs.Keeps, not_or] at hdrops
  cases hmove with
  | @takes x rest hfree hadmits =>
    obtain ⟨hlent, hlen⟩ := hlists.resolve_left (by rw [hfree]; exact List.cons_ne_nil x rest)
    have hcap : a.uiMaxNumRes.toNat ≠ 0 := fun h0 => hmax (UInt16.toNat_inj.mp h0)
    rw [hfree, List.length_cons] at hlen
    have hrest : rest.length = 0 := by omega
    refine ⟨?_, Or.inl (List.length_eq_zero_iff.mp hrest)⟩
    rw [hlent, List.length_cons, List.length_nil]
    omega
  | @grows x rest hfree hadmits hlen =>
    have hlt := hadmits.resolve_left hmax
    rw [hfree, List.length_nil] at hlt
    have hrest : rest.length = 0 := by omega
    refine ⟨?_, Or.inl (List.length_eq_zero_iff.mp hrest)⟩
    rw [List.length_cons]
    omega
  | returns hx hkeeps => exact absurd hkeeps (not_or.mpr hdrops)
  | @drops x hx =>
    refine ⟨Nat.le_trans List.length_erase_le hle, Or.inl (hlists.resolve_right ?_)⟩
    rintro ⟨hnil, -⟩
    rw [hnil] at hx
    cases hx

/-- A pool with a freelist comes to refuse requests with fewer resources in use than its cap. -/
theorem PoolReached.refuses (hr : PoolReached pf pp a s) (hv : pf.valgrind = false)
    (hs : Shelved pf pp a s t) (hm : s.heap.MemoryAvailable) (hkeeps : a.Keeps)
    (hinc : a.uiIncrement ≠ 0) (hmax : a.uiMaxNumRes ≠ 0)
    (hle : t.lent.length ≤ a.uiMaxNumRes.toNat)
    (hfree : t.free.length ≤ 65535 ∧ (t.lent = [] ∨ t.free.length < 65535)) :
    ∃ s' t', PoolReached pf pp a s' ∧ Shelved pf pp a s' t' ∧ s'.heap.MemoryAvailable ∧
      t'.lent.length < a.uiMaxNumRes.toNat ∧ ¬ a.Admits t' := by
  have hfit : a.uiMaxNumRes.toNat < 65536 := a.uiMaxNumRes.toNat_lt
  have hcap : a.uiMaxNumRes.toNat ≠ 0 := fun h0 => hmax (UInt16.toNat_inj.mp h0)
  obtain ⟨k, hk⟩ : ∃ k, a.uiMaxNumRes.toNat - t.lent.length = k := ⟨_, rfl⟩
  induction k generalizing s t with
  | zero =>
    -- Everything is out, and one resource comes back.
    obtain ⟨x, rest, hlent⟩ := List.exists_cons_of_length_pos (l := t.lent) (by omega)
    have hx : x ∈ t.lent := by rw [hlent]; exact List.mem_cons_self
    obtain ⟨h', hcode, hmalloc, hcases⟩ := hs.stocked.free_lent hv hx
    obtain ⟨-, hst⟩ := hcases.resolve_right fun hno => hno.1 hkeeps
    have hroom := hfree.2.resolve_left (List.ne_nil_of_mem hx)
    have hlen := List.length_erase_of_mem hx
    refine ⟨⟨h', s.lent.erase x, s.seen⟩, ⟨t.lent.erase x, x :: t.free, t.seen⟩,
      hr.step (show s.step pf pp (.free (some ⟨x, 0⟩)) = _ from ?_),
      ⟨hst, fun _ => ?_, hs.seen⟩, fun n => ?_, ?_, ?_⟩
    · rw [PoolState.step, hcode]
      rfl
    · rw [hs.lent hv]
    · rw [hmalloc]
      exact hm n
    · rw [hlen]
      omega
    · rintro (hzero | hlt)
      · exact hmax hzero
      · rw [hlen, List.length_cons, Nat.mod_eq_of_lt (by omega), Nat.mod_eq_of_lt (by omega)] at hlt
        omega
  | succ k ih =>
    by_cases hadmits : a.Admits t
    · obtain ⟨x, s', t', hstep, hs', hm', hlent, -, hcases⟩ := hs.serves hv hm hadmits (Or.inr hinc)
      have hlent' : t'.lent.length = t.lent.length + 1 := by rw [hlent, List.length_cons]
      have hfree' : t'.free.length < 65535 := by
        rcases hcases with ⟨y, hy⟩ | ⟨-, hlen⟩
        · rw [hy, List.length_cons] at hfree
          omega
        · have hlt := a.uiIncrement.toNat_lt
          omega
      exact ih (hr.step hstep) hs' hm' (by omega) ⟨Nat.le_of_lt hfree', Or.inr hfree'⟩ (by omega)
    · exact ⟨s, t, hr, hs, hm, by omega, hadmits⟩

theorem Stocked.lists {h : Heap} (hs : Stocked pp a h t.lent t.free) {pool : RsrcPool}
    (hpool : h.pools pp = some pool) : pool.xActive = t.lent ∧ pool.pxFreelist = t.free := by
  obtain ⟨pool', hp, -, -, hlists⟩ := hs
  rw [hpool, Option.some.injEq] at hp
  subst hp
  exact hlists

/-- A pool which can grow serves up to its cap exactly when it has no freelist and does not start
at its cap, or under Valgrind. -/
theorem servesUpToCap_iff (hinc : a.uiIncrement ≠ 0) (hmax : a.uiMaxNumRes ≠ 0) :
    ServesUpToCap pf a ↔ pf.valgrind = true ∨
      ¬ a.Keeps ∧ a.uiInitAlloc.toNat < a.uiMaxNumRes.toNat := by
  have hfit : a.uiMaxNumRes.toNat < 65536 := a.uiMaxNumRes.toNat_lt
  constructor
  · intro hserves
    by_contra hno
    simp only [not_or, Bool.not_eq_true] at hno
    obtain ⟨hv, hno⟩ := hno
    obtain ⟨h₀, free, hr, hs, hlen, hm⟩ := a.reached_bare pf 0
    have hinit := a.uiInitAlloc.toNat_lt
    -- In some state a request is refused below the cap.
    obtain ⟨s', t', hr', hs', hm', hlt, hrefuses⟩ : ∃ s' t', PoolReached pf 0 a s' ∧
        Shelved pf 0 a s' t' ∧ s'.heap.MemoryAvailable ∧
          t'.lent.length < a.uiMaxNumRes.toNat ∧ ¬ a.Admits t' := by
      by_cases hkeeps : a.Keeps
      · exact hr.refuses hv hs hm hkeeps hinc hmax (Nat.zero_le _)
          ⟨by simp only [hlen]; omega, Or.inl rfl⟩
      · have hge := Nat.le_of_not_lt fun hlt => hno ⟨hkeeps, hlt⟩
        refine ⟨_, _, hr, hs, hm, ?_, ?_⟩
        · have hcap : a.uiMaxNumRes.toNat ≠ 0 := fun h0 => hmax (UInt16.toNat_inj.mp h0)
          exact Nat.pos_of_ne_zero hcap
        · rintro (hzero | hlt)
          · exact hmax hzero
          · simp only [hlen, List.length_nil, Nat.zero_mod, Nat.mod_eq_of_lt hinit] at hlt
            omega
    obtain ⟨pool, hpool, -⟩ := id hs'.stocked
    obtain ⟨x, h', hok⟩ := hserves 0 s' hr' pool hpool
      (by rw [(hs'.stocked.lists hpool).1]; exact hlt) (hm' _) a.pcName _ a.request_fits
    rw [hs'.stocked.refused hv fun hboth => hrefuses hboth.2] at hok
    cases hok
  · rintro hcond pp s hr pool hpool hlt hmem pcRequestor n hfits
    cases hv : pf.valgrind with
    | true =>
      exact ⟨_, _, pxRsrcVarAlloc_valgrind hv hmem⟩
    | false =>
      obtain ⟨hdrops, hstart⟩ := hcond.resolve_left (by simp [hv])
      obtain ⟨t, hs, -, hlists⟩ := hr.invariant (I := a.Fresh)
        (fun free hlen => ⟨Nat.zero_le _, Or.inr ⟨rfl, hlen⟩⟩)
        fun t t' _ hf hmove => hf.move hmax hdrops hmove
      rw [(hs.stocked.lists hpool).1] at hlt
      have hadmits : a.Admits t := by
        right
        rcases hlists with hfree | ⟨hlent, hlen⟩
        · rw [hfree, Nat.mod_eq_of_lt (by omega)]
          exact hlt
        · rw [hlent, hlen, Nat.mod_eq_of_lt a.uiInitAlloc.toNat_lt, List.length_nil, Nat.zero_mod,
            Nat.zero_add]
          exact hstart
      rcases hs.stocked.admitted hv hfits hadmits with ⟨x, rest, h', -, hok, -⟩ |
        ⟨-, ⟨hzero, -⟩ | ⟨hno, -⟩ | ⟨x, rest, h', -, hok, -⟩⟩
      · exact ⟨x, h', hok⟩
      · exact absurd hzero hinc
      · rw [hmem] at hno
        cases hno
      · exact ⟨x, h', hok⟩

/-- Both resources are on the freelist, and nothing is handed out. -/
theorem free_refused : ¬ ServesUpToCap ⟨false, false⟩ (fourBytes 2 1 2 (by decide)) := by
  intro hserves
  obtain ⟨x, h', hok⟩ := hserves 0 _ ⟨bareHeap, _, [], bareHeap_without, rfl, rfl⟩ _ rfl
    (by decide) rfl "a" 4 ⟨rfl, by decide, Or.inr rfl⟩
  cases hok

theorem dynamic_serves : ServesUpToCap ⟨false, false⟩ (fourBytes 0 1 3 (by decide)) :=
  (servesUpToCap_iff (by decide) (by decide)).mpr (Or.inr ⟨by decide, by decide⟩)

/-! ### The two lists -/

/-- What was out is still in one of the lists. -/
def Shelf.Remembers (t : Shelf) : Prop := ∀ x ∈ t.seen, x ∈ t.lent ∨ x ∈ t.free

theorem Shelf.Remembers.move (hkeeps : a.Keeps) (hr : t.Remembers) (hmove : t.Move a t') :
    t'.Remembers := by
  cases hmove with
  | @takes x rest hfree hadmits =>
    intro y hy
    rcases List.mem_cons.mp hy with rfl | hy
    · exact Or.inl List.mem_cons_self
    · rcases hr y hy with hlent | hin
      · exact Or.inl (List.mem_cons_of_mem x hlent)
      · rw [hfree] at hin
        rcases List.mem_cons.mp hin with rfl | hin
        · exact Or.inl List.mem_cons_self
        · exact Or.inr hin
  | @grows x rest hfree hadmits hlen =>
    intro y hy
    rcases List.mem_cons.mp hy with rfl | hy
    · exact Or.inl List.mem_cons_self
    · rcases hr y hy with hlent | hin
      · exact Or.inl (List.mem_cons_of_mem x hlent)
      · rw [hfree] at hin
        cases hin
  | @returns x hx =>
    intro y hy
    by_cases hyx : y = x
    · exact Or.inr (hyx ▸ List.mem_cons_self)
    · rcases hr y hy with hlent | hin
      · exact Or.inl ((List.mem_erase_of_ne hyx).mpr hlent)
      · exact Or.inr (List.mem_cons_of_mem x hin)
  | drops hx hdrops => exact absurd hkeeps hdrops

/-- A state is partitioned when what came back is on the freelist. -/
theorem Shelved.partitioned (hs : Shelved pf pp a s t) (hv : pf.valgrind = false)
    (hr : t.Remembers) : Partitioned pf pp s := by
  obtain ⟨pool, hpool, -, hstock, hactive, hfree⟩ := id hs.stocked
  have hnat : ∀ k, k < 65536 → (UInt16.ofNat k).toNat = k := fun k hk =>
    UInt16.toNat_ofNat_of_lt' hk
  refine ⟨fun pool' hpool' => ?_, fun pool' hpool' hfew => ?_, ?_, fun x hx hout => ?_⟩
  · obtain rfl : pool' = pool := Option.some.inj (hpool'.symm.trans hpool)
    refine List.nodup_append.mpr ⟨hstock.active_nodup, hstock.free_nodup, ?_⟩
    rintro x hx y hy rfl
    obtain ⟨-, name, hxr⟩ := (hstock.active x).mp hx
    obtain ⟨-, name', hyr⟩ := (hstock.free x).mp hy
    rw [hxr] at hyr
    cases hyr
  · obtain rfl : pool' = pool := Option.some.inj (hpool'.symm.trans hpool)
    rw [hstock.uiNumInUse, hstock.uiNumFree]
    exact ⟨hnat _ (by omega), hnat _ (by omega)⟩
  · rw [hs.lent hv, ← hactive]
    exact hstock.active_nodup
  · rw [hs.lent hv] at hout
    rw [hs.seen hv] at hx
    exact hs.stocked.free_again hv ((hr x hx).resolve_left hout)

/-- Under Valgrind a second release goes to the heap. -/
theorem PoolReached.twice {h₀ : Heap} (hr : PoolReached pf pp a ⟨h₀, [], []⟩)
    (hv : pf.valgrind = true) (hm : h₀.MemoryAvailable) :
    ∃ s, PoolReached pf pp a s ∧ ¬ Partitioned pf pp s := by
  obtain ⟨h₁, hh₁⟩ : ∃ h₁, h₁ = { h₀.called.setBlock h₀.brk (some (h₀.stale h₀.brk 1)) with
    brk := h₀.brk + 1 } := ⟨_, rfl⟩
  have halloc : PoolState.step pf pp ⟨h₀, [], []⟩ (.varAlloc none 1) =
      some ⟨h₁, [h₀.brk], [h₀.brk]⟩ := by
    rw [PoolState.step, pxRsrcVarAlloc_valgrind hv (hm _), ← hh₁]
    rfl
  have hblock : (h₁.mem h₀.brk).isSome := by
    rw [hh₁]
    simp [Heap.setBlock]
  have hfree : PoolState.step pf pp ⟨h₁, [h₀.brk], [h₀.brk]⟩ (.free (some ⟨h₀.brk, 0⟩)) =
      some ⟨h₁.setBlock h₀.brk none, [], [h₀.brk]⟩ := by
    rw [PoolState.step, vRsrcFree, if_pos hv, vRsMemFree, if_pos ⟨rfl, hblock⟩]
    simp [Except.toOption]
  refine ⟨_, (hr.step halloc).step hfree, fun hparts => ?_⟩
  have hagain := hparts.detected h₀.brk List.mem_cons_self List.not_mem_nil
  rw [vRsrcFree, if_pos hv, vRsMemFree, if_neg (by simp [Heap.setBlock])] at hagain
  cases hagain

/-- A pool which lends a resource and gives it back to the heap does not see its second release. -/
theorem PoolReached.dropped {h₀ : Heap} {free : List ℕ} (hr : PoolReached pf pp a ⟨h₀, [], []⟩)
    (hs : Shelved pf pp a ⟨h₀, [], []⟩ ⟨[], free, []⟩) (hv : pf.valgrind = false)
    (hm : h₀.MemoryAvailable) (hdrops : ¬ a.Keeps) (hadmits : a.Admits ⟨[], free, []⟩)
    (hsome : free ≠ [] ∨ a.uiIncrement ≠ 0) :
    ∃ s, PoolReached pf pp a s ∧ ¬ Partitioned pf pp s := by
  obtain ⟨x, s₁, t₁, hstep, hs₁, -, hlent, hseen, -⟩ := hs.serves hv hm hadmits hsome
  obtain ⟨h₂, hcode, -, hcases⟩ :=
    hs₁.stocked.free_lent hv (by rw [hlent]; exact List.mem_cons_self)
  obtain ⟨-, hgone, hst₂⟩ := hcases.resolve_left fun hkeeps => hdrops hkeeps.1
  have hfree : s₁.step pf pp (.free (some ⟨x, 0⟩)) = some ⟨h₂, s₁.lent.erase x, s₁.seen⟩ := by
    rw [PoolState.step, hcode]
    rfl
  have hout : x ∉ s₁.lent.erase x := by
    rw [hs₁.lent hv, hlent, List.erase_cons_head]
    exact List.not_mem_nil
  refine ⟨_, (hr.step hstep).step hfree, fun hparts => ?_⟩
  have hagain := hparts.detected x (by rw [hseen]; exact List.mem_cons_self) hout
  rw [vRsrcFree_gone hv] at hagain
  · cases hagain
  · rintro ⟨rsrc, -, hrsrc⟩
    rw [hgone] at hrsrc
    cases hrsrc

/-- A pool which was created full lends nothing. -/
theorem Shelf.Move.not_full (hmax : a.uiMaxNumRes ≠ 0)
    (hfull : a.uiMaxNumRes.toNat ≤ a.uiInitAlloc.toNat) (hlent : t.lent = [])
    (hlen : t.free.length = a.uiInitAlloc.toNat) : ¬ t.Move a t' := by
  have hinit := a.uiInitAlloc.toNat_lt
  have hrefuses : ¬ a.Admits t := by
    rintro (hzero | hlt)
    · exact hmax hzero
    · rw [hlent, hlen, Nat.mod_eq_of_lt hinit, List.length_nil, Nat.zero_mod] at hlt
      omega
  intro hmove
  cases hmove with
  | takes hfree hadmits => exact hrefuses hadmits
  | grows hfree hadmits => exact hrefuses hadmits
  | returns hx =>
    rw [hlent] at hx
    cases hx
  | drops hx =>
    rw [hlent] at hx
    cases hx

/-- The lists of a pool are a partition, with every second release found out, exactly when the pool
keeps its resources or lends none, and not under Valgrind. -/
theorem keepsPartition_iff : KeepsPartition pf a ↔ pf.valgrind = false ∧
    (a.Keeps ∨ a.uiMaxNumRes ≠ 0 ∧ a.uiMaxNumRes.toNat ≤ a.uiInitAlloc.toNat) := by
  have hinit := a.uiInitAlloc.toNat_lt
  constructor
  · intro hparts
    obtain ⟨h₀, free, hr, hs, hlen, hm⟩ := a.reached_bare pf 0
    cases hv : pf.valgrind with
    | true =>
      obtain ⟨s, hr', hno⟩ := hr.twice hv hm
      exact absurd (hparts 0 s hr') hno
    | false =>
      refine ⟨rfl, ?_⟩
      by_contra hno
      rw [not_or, not_and_or, not_not, Nat.not_le] at hno
      obtain ⟨hdrops, hlends⟩ := hno
      have hadmits : a.Admits ⟨[], free, []⟩ := by
        refine hlends.imp id fun hlt => ?_
        simp only [hlen, List.length_nil, Nat.zero_mod, Nat.mod_eq_of_lt hinit, Nat.zero_add]
        exact hlt
      have hsome : free ≠ [] ∨ a.uiIncrement ≠ 0 := by
        by_contra hnone
        rw [not_or, not_not, not_not] at hnone
        refine a.some_resource ?_
        rw [hnone.2, ← hlen, hnone.1]
        rfl
      obtain ⟨s, hr', hno⟩ := hr.dropped hs hv hm hdrops hadmits hsome
      exact hno (hparts 0 s hr')
  · rintro ⟨hv, hcond⟩ pp s hr
    rcases hcond with hkeeps | ⟨hmax, hfull⟩
    · obtain ⟨t, hs, hrem⟩ := hr.invariant (I := Shelf.Remembers)
        (fun free _ x hx => by cases hx) fun t t' _ hrem hmove => hrem.move hkeeps hmove
      exact hs.partitioned hv hrem
    · -- Nothing is ever handed out.
      obtain ⟨t, hs, hlent, hseen, -⟩ := hr.invariant
        (I := fun t => t.lent = [] ∧ t.seen = [] ∧ t.free.length = a.uiInitAlloc.toNat)
        (fun free hlen => ⟨rfl, rfl, hlen⟩) fun t t' _ ⟨hlent, hseen, hlen⟩ hmove =>
          absurd hmove (Shelf.Move.not_full hmax hfull hlent hlen)
      refine hs.partitioned hv fun x hx => ?_
      rw [hseen] at hx
      cases hx

/-- The second release of a resource of a dynamic pool reads what was released. -/
theorem second_release : ¬ KeepsPartition ⟨false, false⟩ (fourBytes 0 1 0 (by decide)) := by
  intro hparts
  have hagain := (hparts 0 _ ⟨bareHeap, _, [.alloc (some "a"), .free (some ⟨0, 0⟩)],
    bareHeap_without, rfl, rfl⟩).detected 0 (by decide) (by decide)
  cases hagain

end RinaSense.Common
