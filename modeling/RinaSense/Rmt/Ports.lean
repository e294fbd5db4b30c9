import RinaSense.Common.RsList
import RinaSense.Efcp.Container
import RinaSense.Library.Loop
import RinaSense.Library.Runs

/-!
# The table of N-1 ports

The ports of the RMT stand in an embedded list, each behind an item of its own. A search walks
the items until it is back at the head, and a bind puts a new port into the list unless one
with its identifier is there.
-/

namespace RinaSense.Rmt

open Common Common.RsList Efcp Library.Loop Library.Runs

/-- The states of a port, `eFlowState_t`. -/
inductive FlowState
  | eN1_PORT_STATE_ENABLED
  | eN1_PORT_STATE_DISABLED
  | eN1_PORT_STATE_DO_NOT_DISABLE
  | eN1_PORT_STATE_DEALLOCATED
deriving DecidableEq, Repr

abbrev IpcpPtr := ℕ

/-- The structure `rmtN1Port_t` with the statistics in place. -/
structure N1Port extends RmtN1Port where
  pxN1Ipcp : Option IpcpPtr
  eState : FlowState
  uxBusy : Bool
  plen : UInt32
  dropPdus : UInt32
  errPdus : UInt32
  txPdus : UInt32
  txBytes : UInt32
deriving DecidableEq, Repr

/-- The list heads of the RMT. -/
def xAddressesHead : Addr := 0

def xPortsHead : Addr := 1

/-- Where the item of a port stands. -/
def xPortItem (pxPort : Addr) : Addr := pxPort + 1

/-- The memory of the RMT as far as its ports go. -/
structure PortTable where
  list : ListMem
  ports : Addr → Option N1Port
  /-- Where the next port is allocated. -/
  brk : Addr

namespace PortTable

variable (pf : Platform)

/-- The port which is allocated here is never used. -/
def xRmtInit (list : ListMem) (mem : Bool) : Option PortTable :=
  if mem then
    some {
      list := vRsListInit (vRsListInit list xAddressesHead) xPortsHead
      ports := fun _ => none
      brk := xPortsHead + 1 + 2 }
  else none

/-- A round of the search goes on to the next item. -/
def nextItem (s : PortTable) (pxListItem : Addr) : Exec (Option Addr) ⊕ Option Addr :=
  match pxRsListGetNext s.list pxListItem with
  | .error t => .inl (.error t)
  | .ok next => .inr next

def findRound (s : PortTable) (unPort : PortId) :
    Option Addr → Exec (Option Addr) ⊕ Option Addr
  | none => .inl (.ok none)
  | some pxListItem =>
    match s.list.pvOwner pxListItem with
    | none => s.nextItem pxListItem
    | some pxPort =>
      match s.ports pxPort with
      | none => .inl (.error .outOfBounds)
      | some port =>
        if port.unPort = unPort then .inl (.ok (some pxPort)) else s.nextItem pxListItem

/-- A search of a list of `nLength` items takes one round for each of them and one for its
end. -/
def prvRmtPortFind (s : PortTable) (unPort : PortId) : Exec (Option Addr) :=
  (rounds (s.findRound unPort) (unRsListLength s.list xPortsHead + 1)
    (pxRsListGetFirst s.list xPortsHead)).getD (.error .endless)

def newPort (unPort : PortId) (pxN1Ipcp : Option IpcpPtr) : N1Port where
  unPort := unPort
  pxN1Ipcp := pxN1Ipcp
  eState := .eN1_PORT_STATE_ENABLED
  uxBusy := false
  plen := 0
  dropPdus := 0
  errPdus := 0
  txPdus := 0
  txBytes := 0
  rxPdus := 0
  rxBytes := 0

def pxRmtN1PortCreate (s : PortTable) (unPort : PortId) (pxN1Ipcp : Option IpcpPtr)
    (mem : Bool) : Exec (Option Addr × PortTable) := do
  rsAssert pf (is_port_id_ok unPort)
  rsAssert pf pxN1Ipcp.isSome
  if mem = false then return (none, s)
  let pxTmp := s.brk
  return (some pxTmp, {
    list := vRsListInitItem s.list (xPortItem pxTmp) (some pxTmp)
    ports := Function.update s.ports pxTmp (some (newPort unPort pxN1Ipcp))
    brk := s.brk + 2 })

def xRmtN1PortBind (s : PortTable) (unPort : PortId) (pxN1Ipcp : Option IpcpPtr) (mem : Bool) :
    Exec (Bool × PortTable) := do
  rsAssert pf (is_port_id_ok unPort)
  rsAssert pf pxN1Ipcp.isSome
  match ← s.prvRmtPortFind unPort with
  | some _ => return (false, s)
  | none =>
    match ← s.pxRmtN1PortCreate pf unPort pxN1Ipcp mem with
    | (none, s) => return (false, s)
    | (some pxTmp, s) =>
      let list ← vRsListInsert s.list xPortsHead (xPortItem pxTmp)
      return (true, { s with list := list })

/-! ### The ports in the list -/

/-- The list consists of the items of these ports, which stand at these addresses. -/
structure Holds (s : PortTable) (order : List (N1Port × Addr)) : Prop where
  isList : IsList s.list xPortsHead (order.map fun b => xPortItem b.2)
  owner : ∀ b ∈ order, s.list.pvOwner (xPortItem b.2) = some b.2
  port : ∀ b ∈ order, s.ports b.2 = some b.1
  below : ∀ b ∈ order, b.2 < s.brk
  head : xPortsHead < s.brk

variable {pf} {s s' : PortTable} {order : List (N1Port × Addr)} {unPort : PortId}
  {pxN1Ipcp : Option IpcpPtr} {mem : Bool}

theorem holds_init {list : ListMem} {s : PortTable} (h : xRmtInit list mem = some s) :
    s.Holds [] := by
  cases mem with
  | false => cases h
  | true =>
    cases h
    exact ⟨vRsListInit_isList _ _, by simp, by simp, by simp, (by decide : 1 < 1 + 1 + 2)⟩

/-- From any item on the search sees the ports which are still to come. -/
theorem Holds.rounds_find (xs : List (N1Port × Addr)) {ys : List (N1Port × Addr)}
    (h : s.Holds (xs ++ ys)) (unPort : PortId) :
    rounds (s.findRound unPort) (ys.length + 1) ((ys.map fun b => xPortItem b.2).head?) =
      some (.ok ((ys.find? fun b => b.1.unPort = unPort).map fun b => b.2)) := by
  induction ys generalizing xs with
  | nil => rfl
  | cons b ys ih =>
    have howner := h.owner b (by simp)
    have hport := h.port b (by simp)
    rw [List.map_cons, List.head?_cons, List.length_cons]
    by_cases hb : b.1.unPort = unPort
    · have hfound : s.findRound unPort (some (xPortItem b.2)) = .inl (.ok (some b.2)) := by
        simp only [findRound, howner, hport, hb, if_true]
      rw [rounds_done hfound, List.find?_cons_of_pos (by simpa using hb)]
      rfl
    · have hsplit : IsList s.list xPortsHead ((xs.map fun b => xPortItem b.2) ++
          xPortItem b.2 :: ys.map fun b => xPortItem b.2) := by
        simpa using h.isList
      have hnext := pxRsListGetNext_isList hsplit
      have hround : s.findRound unPort (some (xPortItem b.2)) =
          .inr ((ys.map fun b => xPortItem b.2).head?) := by
        simp only [findRound, howner, hport, hb, if_false, nextItem, hnext]
      have hrest : s.Holds ((xs ++ [b]) ++ ys) := by simpa using h
      rw [rounds_next hround, ih (xs ++ [b]) hrest, List.find?_cons_of_neg (by simpa using hb)]

/-- The search returns the first port of the list with the identifier. -/
theorem Holds.find (h : s.Holds order) (unPort : PortId) :
    s.prvRmtPortFind unPort =
      .ok ((order.find? fun b => b.1.unPort = unPort).map fun b => b.2) := by
  have hrounds := Holds.rounds_find [] h unPort
  rw [prvRmtPortFind, pxRsListGetFirst_isList h.isList, unRsListLength, h.isList.length,
    List.length_map, hrounds]
  rfl

theorem insert_owner {m m' : ListMem} {list item : Addr} (h : vRsListInsert m list item = .ok m') :
    m'.pvOwner = m.pvOwner := by
  obtain ⟨first, -, h⟩ := Exec.bind_eq_ok.mp h
  obtain ⟨links, -, h⟩ := Exec.bind_eq_ok.mp h
  cases h
  rfl

theorem map_insertAfterFirst {α β : Type*} (f : α → β) (x : α) (l : List α) :
    (insertAfterFirst x l).map f = insertAfterFirst (f x) (l.map f) := by
  cases l <;> rfl

theorem xPortItem_inj {p q : Addr} : xPortItem p = xPortItem q ↔ p = q := Nat.succ_inj

/-- The item of the next port is not in the list. -/
theorem Holds.item_not_mem (h : s.Holds order) :
    xPortItem s.brk ∉ xPortsHead :: order.map fun b => xPortItem b.2 := by
  intro hmem
  rcases List.mem_cons.mp hmem with heq | hmem
  · have hzero : s.brk = 0 := Nat.succ.inj heq
    have hhead := h.head
    rw [hzero] at hhead
    cases hhead
  · obtain ⟨b, hb, heq⟩ := List.mem_map.mp hmem
    exact Nat.ne_of_lt (h.below b hb) (xPortItem_inj.mp heq)

/-- A port in place is not touched by one which is allocated behind it. -/
theorem Holds.created (h : s.Holds order) (unPort : PortId) (pxN1Ipcp : Option IpcpPtr) :
    Holds ⟨vRsListInitItem s.list (xPortItem s.brk) (some s.brk),
      Function.update s.ports s.brk (some (newPort unPort pxN1Ipcp)), s.brk + 2⟩ order where
  isList := h.isList.initItem h.item_not_mem _
  owner b hb := by
    have hne : xPortItem b.2 ≠ xPortItem s.brk := fun heq =>
      Nat.ne_of_lt (h.below b hb) (xPortItem_inj.mp heq)
    simp only [vRsListInitItem, Function.update_of_ne hne]
    exact h.owner b hb
  port b hb := by
    simp only [Function.update_of_ne (Nat.ne_of_lt (h.below b hb))]
    exact h.port b hb
  below b hb := Nat.lt_add_right 2 (h.below b hb)
  head := Nat.lt_add_right 2 h.head

/-- A valid port which is not in the table is put behind the first one. -/
theorem Holds.bind_new (h : s.Holds order) (hok : is_port_id_ok unPort = true)
    (hipcp : pxN1Ipcp.isSome = true)
    (hnone : order.find? (fun b => b.1.unPort = unPort) = none) :
    ∃ s', s.xRmtN1PortBind pf unPort pxN1Ipcp true = .ok (true, s') ∧
      s'.Holds (insertAfterFirst (newPort unPort pxN1Ipcp, s.brk) order) := by
  have hcreated := h.created unPort pxN1Ipcp
  have howner : (vRsListInitItem s.list (xPortItem s.brk) (some s.brk)).pvOwner
      (xPortItem s.brk) = some s.brk := by
    simp [vRsListInitItem]
  obtain ⟨m', hinsert, hlist⟩ := vRsListInsert_isList hcreated.isList h.item_not_mem
    (by simp [howner])
  have hkept := insert_owner hinsert
  have hmem : ∀ b ∈ insertAfterFirst (newPort unPort pxN1Ipcp, s.brk) order,
      b = (newPort unPort pxN1Ipcp, s.brk) ∨ b ∈ order := fun b hb =>
    List.mem_cons.mp ((insertAfterFirst_perm _ _).mem_iff.mp hb)
  refine ⟨⟨m', Function.update s.ports s.brk (some (newPort unPort pxN1Ipcp)), s.brk + 2⟩, ?_, ?_⟩
  · simp only [xRmtN1PortBind, pxRmtN1PortCreate, hok, hipcp, rsAssert_true, Exec.ok_bind, h.find,
      hnone, Option.map_none, hinsert, Bool.true_eq_false, if_false, pure, Except.pure]
  · constructor
    · rw [map_insertAfterFirst]
      exact hlist
    · intro b hb
      rw [hkept]
      rcases hmem b hb with rfl | hb
      · exact howner
      · exact hcreated.owner b hb
    · intro b hb
      rcases hmem b hb with rfl | hb
      · exact Function.update_self ..
      · exact hcreated.port b hb
    · intro b hb
      rcases hmem b hb with rfl | hb
      · exact Nat.lt_add_of_pos_right (by decide)
      · exact hcreated.below b hb
    · exact hcreated.head

/-- A valid port is refused when it is in the table or there is no memory for it. -/
theorem Holds.bind_refused (h : s.Holds order) (hok : is_port_id_ok unPort = true)
    (hipcp : pxN1Ipcp.isSome = true)
    (hno : (order.find? fun b => b.1.unPort = unPort).isSome = true ∨ mem = false) :
    s.xRmtN1PortBind pf unPort pxN1Ipcp mem = .ok (false, s) := by
  simp only [xRmtN1PortBind, hok, hipcp, rsAssert_true, Exec.ok_bind, h.find]
  cases hfind : order.find? fun b => b.1.unPort = unPort with
  | some b => rfl
  | none =>
    have hmem : mem = false := by simpa [hfind] using hno
    simp only [Option.map_none, pxRmtN1PortCreate, hok, hipcp, hmem, rsAssert_true, Exec.ok_bind,
      if_true, pure, Except.pure]

/-! ### Sequences of binds -/

/-- Where no key occurs twice, the order does not matter for a search. -/
theorem find?_of_perm {α β : Type*} [DecidableEq β] (f : α → β) {l l' : List α} (h : l.Perm l')
    (hnodup : (l.map f).Nodup) {k : β} :
    l.find? (fun a => f a = k) = l'.find? fun a => f a = k := by
  induction h with
  | nil => rfl
  | cons a _ ih =>
    by_cases ha : f a = k
    · simp [ha]
    · simpa [ha] using ih (List.nodup_cons.mp hnodup).2
  | swap a b l =>
    by_cases ha : f a = k
    · have hb : f b ≠ k := by
        rintro rfl
        simp [ha] at hnodup
      simp [ha, hb]
    · by_cases hb : f b = k
      · simp [ha, hb]
      · simp [ha, hb]
  | trans h₁ _ ih₁ ih₂ => rw [ih₁ hnodup, ih₂ ((h₁.map f).nodup_iff.mp hnodup)]

/-- A call, with the answer to its request for memory. -/
structure BindOp where
  unPort : PortId
  pxN1Ipcp : Option IpcpPtr
  mem : Bool
deriving DecidableEq, Repr

/-- The port and the IPCP are there. -/
def BindOp.Valid (op : BindOp) : Prop :=
  is_port_id_ok op.unPort = true ∧ op.pxN1Ipcp.isSome = true

instance (op : BindOp) : Decidable op.Valid := inferInstanceAs (Decidable (_ ∧ _))

/-- A bind which succeeded, with the entry which it allocated. -/
structure Binding where
  unPort : PortId
  pxN1Ipcp : Option IpcpPtr
  entry : Addr
deriving DecidableEq, Repr

/-- A table, with the binds which succeeded so far in their order. -/
structure Binds where
  table : PortTable
  bound : List Binding

variable (pf)

def Binds.step (t : Binds) (op : BindOp) : Option Binds :=
  (t.table.xRmtN1PortBind pf op.unPort op.pxN1Ipcp op.mem).toOption.map fun out =>
    ⟨out.2, if out.1 then t.bound ++ [⟨op.unPort, op.pxN1Ipcp, t.table.brk⟩] else t.bound⟩

/-- The first bind of a port which succeeded. -/
def Binds.firstBind (t : Binds) (unPort : PortId) : Option Binding :=
  t.bound.find? fun b => b.unPort = unPort

/-- No two entries have one port, the search finds for every port what was bound first, and a
bind which fails changes nothing. -/
structure Binds.Sound (t : Binds) : Prop where
  entries : ∃ order, t.table.Holds order ∧ (order.map fun b => b.1.unPort).Nodup
  found : ∀ unPort, t.table.prvRmtPortFind unPort =
    .ok ((t.firstBind unPort).map fun b => b.entry)
  contents : ∀ unPort, ∀ b ∈ t.firstBind unPort,
    t.table.ports b.entry = some (newPort unPort b.pxN1Ipcp)
  refused : ∀ op : BindOp, op.Valid → ∀ table,
    t.table.xRmtN1PortBind pf op.unPort op.pxN1Ipcp op.mem = .ok (false, table) → table = t.table

variable {pf} {t t' : Binds} {op : BindOp}

def Binding.toEntry (b : Binding) : N1Port × Addr := (newPort b.unPort b.pxN1Ipcp, b.entry)

/-- The list holds what was bound, each port once. -/
structure Binds.Inv (t : Binds) (order : List (N1Port × Addr)) : Prop where
  holds : t.table.Holds order
  perm : order.Perm (t.bound.map Binding.toEntry)
  nodup : (t.bound.map fun b => b.unPort).Nodup

theorem Binds.Inv.nodup_order (h : t.Inv order) : (order.map fun b => b.1.unPort).Nodup := by
  rw [(h.perm.map _).nodup_iff, List.map_map]
  exact h.nodup

/-- The list has the ports in another order, but every port only once. -/
theorem Binds.Inv.find_order (h : t.Inv order) (unPort : PortId) :
    order.find? (fun b => b.1.unPort = unPort) = (t.firstBind unPort).map Binding.toEntry := by
  rw [find?_of_perm (fun b : N1Port × Addr => b.1.unPort) h.perm h.nodup_order, List.find?_map]
  rfl

theorem Binds.Inv.find (h : t.Inv order) (unPort : PortId) :
    t.table.prvRmtPortFind unPort = .ok ((t.firstBind unPort).map fun b => b.entry) := by
  rw [h.holds.find, h.find_order, Option.map_map]
  rfl

/-- What a valid call does: it binds a new port, or it fails and leaves the table. -/
theorem Binds.Inv.bind_cases (h : t.Inv order) (hop : op.Valid) :
    (∃ table order', t.table.xRmtN1PortBind pf op.unPort op.pxN1Ipcp op.mem = .ok (true, table) ∧
        Binds.Inv ⟨table, t.bound ++ [⟨op.unPort, op.pxN1Ipcp, t.table.brk⟩]⟩ order') ∨
      t.table.xRmtN1PortBind pf op.unPort op.pxN1Ipcp op.mem = .ok (false, t.table) := by
  obtain ⟨hok, hipcp⟩ := hop
  by_cases hno : (order.find? fun b => b.1.unPort = op.unPort).isSome = true ∨ op.mem = false
  · exact Or.inr (h.holds.bind_refused hok hipcp hno)
  · have hnone : order.find? (fun b => b.1.unPort = op.unPort) = none := by
      simpa using fun hs => hno (Or.inl hs)
    have hmem : op.mem = true := by simpa using fun hm => hno (Or.inr hm)
    obtain ⟨table, hbind, hholds⟩ := h.holds.bind_new hok hipcp hnone
    rw [hmem]
    refine Or.inl ⟨table, _, hbind, hholds, ?_, ?_⟩
    · refine (insertAfterFirst_perm _ _).trans ?_
      rw [List.map_append]
      exact (h.perm.cons _).trans (List.perm_append_singleton _ _).symm
    · rw [h.find_order, Option.map_eq_none_iff] at hnone
      rw [List.map_append, List.nodup_append]
      refine ⟨h.nodup, by simp, ?_⟩
      intro port hport port' hport' heq
      obtain ⟨b, hb, rfl⟩ := List.mem_map.mp hport
      have hnew : port' = op.unPort := by simpa using hport'
      have hne := List.find?_eq_none.mp hnone b hb
      exact hne (by simpa using heq.trans hnew)

theorem Binds.Inv.step (h : t.Inv order) (hop : op.Valid) :
    ∃ t' order', t.step pf op = some t' ∧ t'.Inv order' := by
  rcases h.bind_cases hop with ⟨table, order', hbind, hinv⟩ | hbind
  · exact ⟨_, order', by rw [Binds.step, hbind]; rfl, hinv⟩
  · exact ⟨t, order, by rw [Binds.step, hbind]; rfl, h⟩

theorem Binds.Inv.sound (h : t.Inv order) : t.Sound pf where
  entries := ⟨order, h.holds, h.nodup_order⟩
  found := h.find
  contents unPort b hb := by
    have hport : b.unPort = unPort := by simpa using List.find?_some hb
    subst hport
    have hmem : b.toEntry ∈ order :=
      h.perm.mem_iff.mpr (List.mem_map_of_mem (List.mem_of_find?_eq_some hb))
    exact h.holds.port _ hmem
  refused op hop table hfail := by
    rcases h.bind_cases hop with ⟨table', order', hbind, -⟩ | hbind
    · rw [hbind] at hfail
      cases hfail
    · rw [hbind] at hfail
      cases hfail
      rfl

/-- Whatever valid ports are bound to a new RMT, and whichever requests for memory are refused,
every call comes back and the table is sound. -/
theorem binds_sound {list : ListMem} {granted : Bool} {table : PortTable}
    (hinit : xRmtInit list granted = some table) {ops : List BindOp} (hops : ∀ op ∈ ops, op.Valid) :
    ∃ t, ops.foldlM (Binds.step pf) ⟨table, []⟩ = some t ∧ t.Sound pf := by
  have hstart : Binds.Inv ⟨table, []⟩ [] := ⟨holds_init hinit, List.Perm.refl _, List.nodup_nil⟩
  have hguard : GuardedSteps (Binds.step pf) (fun _ op => op.Valid) ⟨table, []⟩ ops :=
    guardedSteps_iff_forall.mpr fun js op hjs _ _ => hops op (hjs.subset (by simp))
  have hstep : ∀ t op, (∃ order, Binds.Inv t order) → op.Valid →
      ∃ t', t.step pf op = some t' ∧ ∃ order', t'.Inv order' := by
    rintro t op ⟨order, hinv⟩ hop
    obtain ⟨t', order', ht', hinv'⟩ := hinv.step hop
    exact ⟨t', ht', order', hinv'⟩
  obtain ⟨t, hrun, order, hinv⟩ := foldlM_returns hstep ⟨[], hstart⟩ hguard
  exact ⟨t, hrun, hinv.sound⟩

/-- List memory in which nothing is linked. -/
def blankList : ListMem :=
  ⟨⟨fun _ => none, fun _ => none⟩, fun _ => none, fun _ => none, fun _ => 0⟩

/-- A port is bound, another one is refused memory at first, and both are bound once more. -/
def exampleBinds : List BindOp :=
  [⟨7, some 1, true⟩, ⟨8, some 1, false⟩, ⟨8, some 2, true⟩, ⟨7, some 2, true⟩, ⟨8, some 1, true⟩]

theorem binds_sound_refused : ∃ table t, xRmtInit blankList true = some table ∧
    exampleBinds.foldlM (Binds.step ⟨false, false⟩) ⟨table, []⟩ = some t ∧
    t.Sound ⟨false, false⟩ := by
  have hinit : xRmtInit blankList true = some _ := rfl
  have hops : ∀ op ∈ exampleBinds, op.Valid := by decide
  obtain ⟨t, ht⟩ := binds_sound hinit hops
  exact ⟨_, t, hinit, ht⟩

end PortTable

end RinaSense.Rmt
