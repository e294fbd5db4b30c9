import RinaSense.Flow.Request

/-!
# The names of RIB objects

Flow requests and other additions to the object table of a RIB, with calls between them which use
the stack. The name of a flow lies in the frame of the request which made it, so that the object
loses its name when a later call writes there.
-/

namespace RinaSense.Flow

open Common Efcp Rib Library.Memory Library.Runs Library.Slots

/-! ### Runs -/

/-- A flow request, an addition of a static object, or a call of any function which writes a text
into a buffer in its frame. -/
inductive NamesOp
  | flowRequest (xAppPortId : PortId) (pxFlowRequest : FlowAllocateHandle) (o : FlowOutcomes)
  | objectAdd (init : InitOutcome) (pvOwner : Option ℕ) (n : ℕ)
  | stackWrite (a : ℕ) (text : CString)

/-- A system with the names under which the objects in its table were added. -/
structure NamedObjects where
  system : FlowSystem
  added : Fin RIB_TABLE_SIZE → CString

def FlowSystem.objectAdd (s : FlowSystem) (init : InitOutcome) (pvOwner : Option ℕ) (n : ℕ) :
    FlowSystem :=
  { s with pxRib := (s.pxRib.xRibObjectAdd init pvOwner (.static n)).2 }

def FlowSystem.stackWrite (s : FlowSystem) (a : ℕ) (text : CString) : FlowSystem :=
  { s with pxRib := { s.pxRib with stack := Function.update s.pxRib.stack a text } }

/-- A row which gets an object gets the name which that has. -/
def recordNames (t t' : ObjectTable) (added : Fin RIB_TABLE_SIZE → CString) :
    Fin RIB_TABLE_SIZE → CString :=
  fun x => if (t.pxRibObjects x).isNone then ((t'.pxRibObjects x).map t'.name).getD (added x)
    else added x

/-- The system after a call which returns. -/
def NamedObjects.step (pf : Platform) (w : NamedObjects) (op : NamesOp) : Option NamedObjects :=
  let after := fun s : FlowSystem =>
    NamedObjects.mk s (recordNames w.system.pxRib s.pxRib w.added)
  match op with
  | .flowRequest port handle o =>
    (vFlowAllocatorFlowRequest pf w.system port handle o).toOption.map after
  | .objectAdd init pvOwner n => some (after (w.system.objectAdd init pvOwner n))
  | .stackWrite a text => some (after (w.system.stackWrite a text))

/-- Every object in the table is found under the name with which it was added, and under no other
name. -/
def NamesKept (w : NamedObjects) : Prop :=
  ∀ x p, w.system.pxRib.pxRibObjects x = some p →
    ∀ name, w.system.pxRib.pxRibObjectFind name = some p ↔ name = w.added x

/-- The objects in the table which have their name in the buffer have the text as their name. -/
def Rereads (t : ObjectTable) (a : ℕ) (text : CString) : Prop :=
  ∀ x p, t.pxRibObjects x = some p → (t.objects p).ucObjName = .stack a → t.name p = text

instance (t : ObjectTable) (a : ℕ) (text : CString) : Decidable (Rereads t a text) :=
  decidable_of_iff (∀ x, ∀ p ∈ t.pxRibObjects x,
    (t.objects p).ucObjName = .stack a → t.name p = text) Iff.rfl

/-- There is a row for another object. -/
def HasRow (t : ObjectTable) : Prop := ∃ x, t.pxRibObjects x = none

/-- No text is written over the name of an object, and an object which gets a row has a name of
its own. -/
def KeepsNames (w : NamedObjects) : NamesOp → Prop
  | .flowRequest port _ o =>
    (∃ addr, o.Reaches addr) →
      Rereads w.system.pxRib o.flowObj (flowKey CFG_LOCAL_ADDRESS port) ∧
        (HasRow w.system.pxRib →
          w.system.pxRib.pxRibObjectFind (flowKey CFG_LOCAL_ADDRESS port) = none)
  | .objectAdd _ _ n =>
    HasRow w.system.pxRib →
      ∀ q, w.system.pxRib.pxRibObjectFind (w.system.pxRib.name (.static n)) = some q →
        q = .static n
  | .stackWrite a text => Rereads w.system.pxRib a text

/-- The objects in the table which lie in the heap were allocated. -/
def Allocated (w : NamedObjects) : Prop :=
  ∀ x n, w.system.pxRib.pxRibObjects x = some (.heap n) → n < w.system.pxRib.brk

/-! ### Names and keys -/

variable {t t' : ObjectTable} {w w' : NamedObjects} {added : Fin RIB_TABLE_SIZE → CString}
  {x : Fin RIB_TABLE_SIZE} {p : RibObjPtr} {pf : Platform}

theorem namesKept_iff :
    NamesKept w ↔
      (∀ x p, w.system.pxRib.pxRibObjects x = some p → w.system.pxRib.name p = w.added x) ∧
        Found w.system.pxRib.name w.system.pxRib.pxRibObjects := by
  constructor
  · intro h
    have hname : ∀ x p, w.system.pxRib.pxRibObjects x = some p →
        w.system.pxRib.name p = w.added x :=
      fun x p hx => lookup_key ((h x p hx (w.added x)).mpr rfl)
    refine ⟨hname, fun x p hx => ?_⟩
    rw [hname x p hx]
    exact (h x p hx (w.added x)).mpr rfl
  · rintro ⟨hname, hfound⟩ x p hx name
    constructor
    · intro h
      rw [← hname x p hx]
      exact (lookup_key h).symm
    · rintro rfl
      rw [← hname x p hx]
      exact hfound x p hx

theorem recordNames_old (hx : t.pxRibObjects x = some p) :
    recordNames t t' added x = added x := by
  simp [recordNames, hx]

theorem recordNames_new (hx : t.pxRibObjects x = none)
    (h : t'.pxRibObjects = Function.update t.pxRibObjects x (some p)) :
    recordNames t t' added x = t'.name p := by
  simp [recordNames, hx, h]

/-- A call which leaves the rows alone must leave the names alone. -/
theorem namesKept_same (hw : NamesKept w)
    (hrows : t'.pxRibObjects = w.system.pxRib.pxRibObjects) {s : FlowSystem} (hs : s.pxRib = t') :
    NamesKept ⟨s, recordNames w.system.pxRib t' w.added⟩ ↔
      ∀ y q, w.system.pxRib.pxRibObjects y = some q → t'.name q = w.system.pxRib.name q := by
  obtain ⟨hname, hfound⟩ := namesKept_iff.mp hw
  rw [namesKept_iff]
  simp only [hs, hrows]
  constructor
  · rintro ⟨hname', -⟩ y q hy
    rw [hname' y q hy, recordNames_old hy, hname y q hy]
  · intro h
    refine ⟨fun y q hy => ?_, fun y q hy => ?_⟩
    · rw [h y q hy, recordNames_old hy, hname y q hy]
    · rw [lookup_congr h, h y q hy]
      exact hfound y q hy

theorem namesKept_unchanged (hw : NamesKept w) {s : FlowSystem}
    (hs : s.pxRib = w.system.pxRib) :
    NamesKept ⟨s, recordNames w.system.pxRib s.pxRib w.added⟩ := by
  rw [hs, namesKept_same hw rfl hs]
  exact fun _ _ _ => rfl

/-- A call which fills a row must leave the names alone, and the new object must have a name of
its own. -/
theorem namesKept_place (hw : NamesKept w) (hx : w.system.pxRib.pxRibObjects x = none)
    (hrows : t'.pxRibObjects = Function.update w.system.pxRib.pxRibObjects x (some p))
    {s : FlowSystem} (hs : s.pxRib = t') :
    NamesKept ⟨s, recordNames w.system.pxRib t' w.added⟩ ↔
      (∀ y q, w.system.pxRib.pxRibObjects y = some q → t'.name q = w.system.pxRib.name q) ∧
        ∀ q, w.system.pxRib.pxRibObjectFind (t'.name p) = some q → q = p := by
  obtain ⟨hname, hfound⟩ := namesKept_iff.mp hw
  have hne : ∀ y q, w.system.pxRib.pxRibObjects y = some q → y ≠ x := by
    rintro y q hy rfl
    rw [hx] at hy
    cases hy
  rw [namesKept_iff]
  simp only [hs, hrows]
  have hnames : (∀ y q, Function.update w.system.pxRib.pxRibObjects x (some p) y = some q →
      t'.name q = recordNames w.system.pxRib t' w.added y) ↔
        ∀ y q, w.system.pxRib.pxRibObjects y = some q → t'.name q = w.system.pxRib.name q := by
    constructor
    · intro h y q hy
      rw [h y q (by rwa [Function.update_of_ne (hne y q hy)]), recordNames_old hy, hname y q hy]
    · intro h y q hy
      by_cases hyx : y = x
      · subst hyx
        rw [Function.update_self] at hy
        cases hy
        exact (recordNames_new hx hrows).symm
      · rw [Function.update_of_ne hyx] at hy
        rw [h y q hy, recordNames_old hy, hname y q hy]
  rw [hnames]
  refine and_congr_right fun h => ?_
  have hfound' : Found t'.name w.system.pxRib.pxRibObjects := fun y q hy => by
    rw [lookup_congr h, h y q hy]
    exact hfound y q hy
  rw [found_update_iff hfound' hx, lookup_congr h]
  rfl

/-! ### Steps -/

theorem hasRow_iff : HasRow t ↔ firstFree t.pxRibObjects ≠ none := by
  rw [ne_eq, firstFree_eq_none, not_forall]
  simp only [HasRow, Option.not_isSome_iff_eq_none]

/-- A text is written into a buffer. -/
theorem rereads_iff (t' : ObjectTable) {a : ℕ} {text : CString}
    (hstack : t'.stack = Function.update t.stack a text)
    (hnames : ∀ x p, t.pxRibObjects x = some p →
      (t'.objects p).ucObjName = (t.objects p).ucObjName) :
    (∀ x p, t.pxRibObjects x = some p → t'.name p = t.name p) ↔ Rereads t a text := by
  refine forall₂_congr fun x p => forall_congr' fun hx => ?_
  unfold ObjectTable.name
  rw [hnames x p hx]
  cases (t.objects p).ucObjName with
  | literal s => exact iff_of_true rfl (fun h => nomatch h)
  | stack b =>
    simp only [ObjectTable.string, hstack, StrPtr.stack.injEq]
    by_cases hb : b = a
    · subst hb
      simp [eq_comm]
    · simp [hb]

theorem stackWrite_kept (hw : NamesKept w) (a : ℕ) (text : CString) :
    NamesKept ⟨w.system.stackWrite a text,
        recordNames w.system.pxRib (w.system.stackWrite a text).pxRib w.added⟩ ↔
      Rereads w.system.pxRib a text := by
  obtain ⟨t', ht'⟩ : ∃ t', (w.system.stackWrite a text).pxRib = t' := ⟨_, rfl⟩
  rw [ht', namesKept_same hw (by rw [← ht']; rfl) ht']
  exact rereads_iff t' (by rw [← ht']; rfl) fun x p _ => by rw [← ht']; rfl

theorem objectAdd_kept (hw : NamesKept w) (init : InitOutcome) (pvOwner : Option ℕ) (n : ℕ) :
    NamesKept ⟨w.system.objectAdd init pvOwner n,
        recordNames w.system.pxRib (w.system.objectAdd init pvOwner n).pxRib w.added⟩ ↔
      (HasRow w.system.pxRib →
        ∀ q, w.system.pxRib.pxRibObjectFind (w.system.pxRib.name (.static n)) = some q →
          q = .static n) := by
  obtain ⟨⟨status, t'⟩, hadd⟩ : ∃ c, w.system.pxRib.xRibObjectAdd init pvOwner (.static n) = c :=
    ⟨_, rfl⟩
  have hsystem : (w.system.objectAdd init pvOwner n).pxRib = t' := by
    rw [FlowSystem.objectAdd, hadd]
  rw [hsystem, hasRow_iff]
  rcases ObjectTable.xRibObjectAdd_cases hadd with ⟨hfull, -, rfl⟩ | ⟨x, hx, hrows, hn, -⟩
  · rw [namesKept_same hw rfl hsystem]
    exact iff_of_true (fun _ _ _ => rfl) fun h => absurd hfull h
  · rw [namesKept_place hw (firstFree_empty hx) hrows hsystem, hn.name]
    simp [hx]

/-- The object of a flow on its way into the table: its name is written over what the buffer
held, and no other object has its address. -/
theorem addFlowObject_kept (hw : NamesKept w) (ha : Allocated w) {s : FlowSystem}
    (hs : s.pxRib = w.system.pxRib) (port : PortId) (flowObj : ℕ) :
    NamesKept ⟨s.addFlowObject port flowObj,
        recordNames w.system.pxRib (s.addFlowObject port flowObj).pxRib w.added⟩ ↔
      Rereads w.system.pxRib flowObj (flowKey CFG_LOCAL_ADDRESS port) ∧
        (HasRow w.system.pxRib →
          w.system.pxRib.pxRibObjectFind (flowKey CFG_LOCAL_ADDRESS port) = none) := by
  obtain ⟨t₁, ht₁⟩ : ∃ t₁, newFlowObject w.system.pxRib flowObj
    (flowKey CFG_LOCAL_ADDRESS port) = t₁ := ⟨_, rfl⟩
  have hrows₁ : t₁.pxRibObjects = w.system.pxRib.pxRibObjects := by
    rw [← ht₁]
    rfl
  have hother : ∀ x p, w.system.pxRib.pxRibObjects x = some p →
      p ≠ .heap w.system.pxRib.brk := by
    rintro x p hx rfl
    exact absurd (ha x _ hx) (Nat.lt_irrefl _)
  have hnames₁ : ∀ x p, w.system.pxRib.pxRibObjects x = some p →
      (t₁.objects p).ucObjName = (w.system.pxRib.objects p).ucObjName := by
    intro x p hx
    rw [← ht₁, newFlowObject_of_ne (hother x p hx)]
  have hkey : t₁.name (.heap w.system.pxRib.brk) = flowKey CFG_LOCAL_ADDRESS port := by
    rw [← ht₁]
    simp [ObjectTable.name, newFlowObject, ObjectTable.string]
  have hrereads := rereads_iff t₁ (by rw [← ht₁]; rfl) hnames₁
  have hcases := addFlowObject_cases s port flowObj
  rw [hs, ht₁] at hcases
  rw [hasRow_iff, ← hrereads]
  rcases hcases with ⟨hfull, hsystem⟩ | ⟨x, hx, hrows, hn⟩
  · rw [hsystem, namesKept_same hw hrows₁ hsystem]
    exact (and_iff_left fun h => absurd hfull h).symm
  · rw [namesKept_place hw (firstFree_empty hx) hrows rfl, hn.name, hkey]
    refine and_congr_right fun _ => ?_
    simp only [hx, ne_eq, reduceCtorEq, not_false_eq_true, forall_const]
    constructor
    · intro h
      rw [Option.eq_none_iff_forall_ne_some]
      intro q hq
      obtain ⟨y, hy⟩ := lookup_mem hq
      exact hother y q hy (h q hq)
    · intro h q hq
      rw [h] at hq
      cases hq

theorem flowRequest_step {port : PortId} {handle : FlowAllocateHandle} {o : FlowOutcomes}
    (hst : w.step pf (.flowRequest port handle o) = some w') :
    ∃ s', vFlowAllocatorFlowRequest pf w.system port handle o = .ok s' ∧
      w' = ⟨s', recordNames w.system.pxRib s'.pxRib w.added⟩ := by
  simp only [NamedObjects.step] at hst
  cases hs : vFlowAllocatorFlowRequest pf w.system port handle o with
  | error t => simp [hs, Except.toOption] at hst
  | ok s' =>
    simp only [hs, Except.toOption, Option.map_some, Option.some.injEq] at hst
    exact ⟨s', rfl, hst.symm⟩

/-- A call keeps the names exactly when it meets the guard. -/
theorem names_step (hw : NamesKept w) (ha : Allocated w) {op : NamesOp}
    (hst : w.step pf op = some w') : NamesKept w' ↔ KeepsNames w op := by
  cases op with
  | stackWrite a text =>
    cases hst
    exact stackWrite_kept hw a text
  | objectAdd init pvOwner n =>
    cases hst
    exact objectAdd_kept hw init pvOwner n
  | flowRequest port handle o =>
    obtain ⟨s', hs', rfl⟩ := flowRequest_step hst
    rcases vFlowAllocatorFlowRequest_cases hs' with ⟨hinst, rfl⟩ | ⟨-, hnone, rfl⟩ |
      ⟨addr, xCepId, c, hreaches, -, rfl⟩
    · refine iff_of_true (namesKept_unchanged hw rfl) ?_
      rintro ⟨addr, hreaches⟩
      rw [hreaches.instance_] at hinst
      cases hinst
    · refine iff_of_true (namesKept_unchanged hw rfl) ?_
      rintro ⟨addr, hreaches⟩
      rw [hreaches.neighbor] at hnone
      cases hnone
    · rw [addFlowObject_kept hw ha (s := (w.system.addInstance port handle).connect port xCepId c)
        rfl]
      exact ⟨fun h _ => h, fun h => h ⟨addr, hreaches⟩⟩

theorem allocated_place (ha : ∀ y m, t.pxRibObjects y = some (.heap m) → m < t.brk)
    (hrows : t'.pxRibObjects = Function.update t.pxRibObjects x (some p))
    (hbrk : t.brk ≤ t'.brk) (hp : ∀ m, p = .heap m → m < t'.brk) :
    ∀ y m, t'.pxRibObjects y = some (.heap m) → m < t'.brk := by
  intro y m hy
  rw [hrows] at hy
  by_cases hyx : y = x
  · subst hyx
    rw [Function.update_self] at hy
    exact hp m (Option.some.inj hy)
  · rw [Function.update_of_ne hyx] at hy
    exact Nat.lt_of_lt_of_le (ha y m hy) hbrk

/-- An addition of an object which is static or was allocated. -/
theorem allocated_add (ha : ∀ y m, t.pxRibObjects y = some (.heap m) → m < t.brk)
    (hp : ∀ m, p = .heap m → m < t.brk) (init : InitOutcome) (pvOwner : Option ℕ) :
    ∀ y m, (t.xRibObjectAdd init pvOwner p).2.pxRibObjects y = some (.heap m) →
      m < (t.xRibObjectAdd init pvOwner p).2.brk := by
  obtain ⟨⟨status, t'⟩, hadd⟩ : ∃ c, t.xRibObjectAdd init pvOwner p = c := ⟨_, rfl⟩
  rw [hadd]
  rcases ObjectTable.xRibObjectAdd_cases hadd with ⟨-, -, rfl⟩ | ⟨x, -, hrows, hn, -⟩
  · exact ha
  · refine allocated_place ha hrows (Nat.le_of_eq hn.brk.symm) fun m hm => ?_
    rw [hn.brk]
    exact hp m hm

theorem allocated_step (ha : Allocated w) {op : NamesOp} (hst : w.step pf op = some w') :
    Allocated w' := by
  cases op with
  | stackWrite a text =>
    cases hst
    exact ha
  | objectAdd init pvOwner n =>
    cases hst
    refine allocated_add ha (fun m hm => ?_) init pvOwner
    cases hm
  | flowRequest port handle o =>
    obtain ⟨s', hs', rfl⟩ := flowRequest_step hst
    rcases vFlowAllocatorFlowRequest_cases hs' with ⟨-, rfl⟩ | ⟨-, -, rfl⟩ |
      ⟨addr, xCepId, c, -, -, rfl⟩
    · exact ha
    · exact ha
    · have hlater := Nat.le_succ w.system.pxRib.brk
      rcases addFlowObject_cases ((w.system.addInstance port handle).connect port xCepId c) port
        o.flowObj with ⟨-, hrib⟩ | ⟨x, -, hrows, hn⟩
      · intro y m hy
        rw [hrib] at hy ⊢
        exact Nat.lt_succ_of_lt (ha y m hy)
      · refine allocated_place ha hrows (hn.brk.symm ▸ hlater) fun m hm => ?_
        cases hm
        rw [hn.brk]
        exact Nat.lt_succ_self _

/-! ### Every run -/

/-- A system whose RIB has no objects yet. -/
def NamedObjects.init (s : FlowSystem) : NamedObjects := ⟨s, fun _ => .empty⟩

/-- In every sequence of flow requests, additions and other calls, from any system whose RIB has
no objects yet, the objects keep their names if and only if no call writes another text into the
buffer in which an object has its name, and no call puts an object into a row under the name of
another one. -/
theorem names_kept_iff {s : FlowSystem} {ops : List NamesOp}
    (hempty : ∀ x, s.pxRib.pxRibObjects x = none)
    (hrun : ops.foldlM (NamedObjects.step pf) (NamedObjects.init s) = some w) :
    Throughout (NamedObjects.step pf) NamesKept (NamedObjects.init s) ops ↔
      GuardedSteps (NamedObjects.step pf) KeepsNames (NamedObjects.init s) ops := by
  have hinit : Allocated (NamedObjects.init s) := fun x n hx => by
    rw [NamedObjects.init, hempty x] at hx
    cases hx
  have hkept : NamesKept (NamedObjects.init s) := fun x p hx => by
    rw [NamedObjects.init, hempty x] at hx
    cases hx
  exact throughout_iff (fun w op w' ha hst => allocated_step ha hst)
    (fun w op w' ha hw hst => names_step hw ha hst) hinit hkept hrun

/-- Flows wait for their connections on the ports 1 and 2. -/
def pendingSystem : FlowSystem where
  pxFA := 0
  xFA := ⟨[], fun _ => ⟨0, .eFAI_NONE, ⟨0, 0, [], 0⟩⟩, Nat.zero_le _⟩
  brk := 0
  xEfcpContainer := xEfcpContainerInit
  xFlowsList :=
    [⟨⟨1, .ePORT_STATE_PENDING⟩, CEP_ID_WRONG⟩, ⟨⟨2, .ePORT_STATE_PENDING⟩, CEP_ID_WRONG⟩]
  pxRib := initialTable .empty

def emptyHandle (xPortId : PortId) : FlowAllocateHandle := ⟨100, xPortId, [], 0⟩

/-- All goes well, and the name of the flow is at the address 0. -/
def allGranted : FlowOutcomes where
  pxFlow := true
  pxFlowAllocatorInstance := true
  pxNeighbor := .ok (some 2)
  connection := ⟨true, true, true⟩
  pxObjVal := .ok ()
  pxFlowRibObj := true
  flowObj := 0

/-- A flow and a static object, with a call between them which writes elsewhere. -/
theorem names_kept_flow_object :
    ∃ w, [NamesOp.flowRequest 1 (emptyHandle 1) allGranted, .stackWrite 1 (flowKey 1 2),
        .objectAdd ⟨.SUCCESS, none⟩ none 0].foldlM
        (NamedObjects.step ⟨true, false⟩) (NamedObjects.init pendingSystem) = some w ∧
      Throughout (NamedObjects.step ⟨true, false⟩) NamesKept (NamedObjects.init pendingSystem)
        [.flowRequest 1 (emptyHandle 1) allGranted, .stackWrite 1 (flowKey 1 2),
          .objectAdd ⟨.SUCCESS, none⟩ none 0] := by
  refine ⟨_, rfl, (names_kept_iff (fun _ => rfl) rfl).mpr
    ⟨fun _ => ⟨by decide, fun _ => rfl⟩, ?_, fun _ q hq => ?_, trivial⟩⟩
  · change Rereads _ _ _
    decide
  · cases hq

/-- A second request with its frame in the same place takes the name of the first flow. -/
theorem second_request_renames :
    ∃ w, [NamesOp.flowRequest 1 (emptyHandle 1) allGranted,
        .flowRequest 2 (emptyHandle 2) allGranted].foldlM
        (NamedObjects.step ⟨true, false⟩) (NamedObjects.init pendingSystem) = some w ∧
      w.system.pxRib.pxRibObjects 0 = some (.heap 0) ∧ w.added 0 = flowKey 1 1 ∧
      w.system.pxRib.pxRibObjectFind (flowKey 1 1) = none ∧ ¬ NamesKept w := by
  refine ⟨_, rfl, rfl, rfl, by decide, fun h => ?_⟩
  have hfound := (h 0 (.heap 0) rfl (flowKey 1 1)).mpr rfl
  revert hfound
  decide

end RinaSense.Flow
