import RinaSense.Common.Platform
import RinaSense.Library.Ring

/-!
# Embedded lists

The list macros of `common/list.h` on the links embedded in the listed structures. A
list head, its head item and the link of that item share one address. The owner of
the head item is null, which is how a traversal knows that it is back at the head.
-/

namespace RinaSense.Common.RsList

open Library.Circular

/-- Address of a list head or of a list item. -/
abbrev Addr := ℕ

/-- The memory which list heads and list items occupy. -/
structure ListMem where
  xLink : Links Addr
  pvCont : Addr → Option Addr
  pvOwner : Addr → Option Addr
  nLength : Addr → ℕ

def vRsListInitItem (m : ListMem) (item : Addr) (owner : Option Addr) : ListMem :=
  { m with
    xLink := m.xLink.initHead item
    pvOwner := Function.update m.pvOwner item owner }

def vRsListInit (m : ListMem) (list : Addr) : ListMem :=
  let m := vRsListInitItem m list none
  { m with nLength := Function.update m.nLength list 0 }

/-- The bookkeeping which both insertions do after `listADD`. -/
private def linked (m : ListMem) (links : Links Addr) (list item : Addr) : ListMem :=
  { m with
    xLink := links
    nLength := Function.update m.nLength list (m.nLength list + 1)
    pvCont := Function.update m.pvCont item (some list) }

def vRsListInsert (m : ListMem) (list item : Addr) : Exec ListMem := do
  let first ← deref (m.xLink.next list)
  let links ← deref (m.xLink.add first item)
  return linked m links list item

def vRsListInsertEnd (m : ListMem) (list item : Addr) : Exec ListMem := do
  let last ← deref (m.xLink.prev list)
  let links ← deref (m.xLink.add last item)
  return linked m links list item

def vRsListRemove (m : ListMem) (item : Addr) : Exec ListMem := do
  let list ← deref (m.pvCont item)
  return { m with
    nLength := Function.update m.nLength list (m.nLength list - 1)
    xLink := m.xLink.remove item }

def unRsListLength (m : ListMem) (list : Addr) : ℕ := m.nLength list

def pxRsListGetFirst (m : ListMem) (list : Addr) : Option Addr :=
  if m.nLength list = 0 then none else m.xLink.next list

def pxRsListGetHeadOwner (m : ListMem) (list : Addr) : Exec (Option Addr) :=
  if m.nLength list = 0 then .ok none
  else do
    let first ← deref (m.xLink.next list)
    return m.pvOwner first

def pxRsListGetNext (m : ListMem) (item : Addr) : Exec (Option Addr) := do
  let next ← deref (m.xLink.next item)
  return if (m.pvOwner next).isSome then some next else none

/-- The list at a head, as the sequence of its items. -/
structure IsList (m : ListMem) (list : Addr) (items : List Addr) : Prop where
  ring : IsRing m.xLink list items
  length : m.nLength list = items.length
  cont : ∀ i ∈ items, m.pvCont i = some list
  owner : ∀ i ∈ items, m.pvOwner i ≠ none
  head : m.pvOwner list = none

/-- Where `vRsListInsert` puts an item: behind the first one. -/
def insertAfterFirst {α : Type*} (x : α) : List α → List α
  | [] => [x]
  | y :: ys => y :: x :: ys

@[simp] theorem insertAfterFirst_length {α : Type*} (x : α) (l : List α) :
    (insertAfterFirst x l).length = l.length + 1 := by
  cases l <;> rfl

theorem insertAfterFirst_perm {α : Type*} (x : α) (l : List α) :
    (insertAfterFirst x l).Perm (x :: l) := by
  cases l with
  | nil => exact List.Perm.refl [x]
  | cons y ys => exact List.Perm.swap x y ys

/-- Only a list of at most one item is extended at its end. -/
theorem insertAfterFirst_eq_append {α : Type*} {x : α} {l : List α} (hx : x ∉ l) :
    insertAfterFirst x l = l ++ [x] ↔ l.length ≤ 1 := by
  cases l with
  | nil => simp [insertAfterFirst]
  | cons y ys =>
    cases ys with
    | nil => simp [insertAfterFirst]
    | cons z zs =>
      have hz : x ≠ z := by rintro rfl; simp at hx
      simp [insertAfterFirst, hz]

theorem vRsListInit_isList (m : ListMem) (list : Addr) : IsList (vRsListInit m list) list [] where
  ring := isRing_initHead m.xLink list
  length := by simp [vRsListInit]
  cont := by simp
  owner := by simp
  head := by simp [vRsListInit, vRsListInitItem]

/-- A new item with an owner stays outside a list while it is initialised. -/
theorem IsList.initItem {m : ListMem} {list item : Addr} {items : List Addr}
    (h : IsList m list items) (hitem : item ∉ list :: items) (owner : Option Addr) :
    IsList (vRsListInitItem m item owner) list items := by
  have hlist : list ≠ item := fun hc => hitem (by simp [hc])
  have hmem : ∀ i ∈ items, i ≠ item := fun i hi hc => hitem (by simp [← hc, hi])
  refine ⟨⟨h.ring.nodup, isChain_congr ?_ ?_ h.ring.chain⟩, h.length, h.cont, ?_, ?_⟩
  · intro u hu
    have hu' : u ∈ list :: items := by
      rw [List.dropLast_concat] at hu
      exact hu
    have : u ≠ item := fun hc => hitem (hc ▸ hu')
    simp [vRsListInitItem, Links.initHead, Links.setNext, Links.setPrev, this]
  · intro v hv
    have : v ≠ item := by
      rintro rfl
      exact hitem (by simpa [or_comm] using hv)
    simp [vRsListInitItem, Links.initHead, Links.setNext, Links.setPrev, this]
  · intro i hi
    simp only [vRsListInitItem, Function.update_of_ne (hmem i hi)]
    exact h.owner i hi
  · simp only [vRsListInitItem, Function.update_of_ne hlist]
    exact h.head

private theorem isList_linked {m : ListMem} {list item : Addr} {links : Links Addr}
    (xs ys : List Addr) (h : IsList m list (xs ++ ys))
    (howner : m.pvOwner item ≠ none) (r : IsRing links list (xs ++ item :: ys)) :
    IsList (linked m links list item) list (xs ++ item :: ys) where
  ring := r
  length := by
    have hlen := h.length
    simp only [List.length_append] at hlen
    simp [linked, hlen, Nat.add_assoc]
  cont := by
    intro i hi
    by_cases hc : i = item
    · simp [linked, hc]
    · have hmem : i ∈ xs ++ ys := by
        simp only [List.mem_append, List.mem_cons] at hi ⊢
        tauto
      simp [linked, hc, h.cont i hmem]
  owner := by
    intro i hi
    by_cases hc : i = item
    · exact hc ▸ howner
    · have hmem : i ∈ xs ++ ys := by
        simp only [List.mem_append, List.mem_cons] at hi ⊢
        tauto
      exact h.owner i hmem
  head := h.head

/-- `vRsListInsert` puts the item behind the first item of the list. -/
theorem vRsListInsert_isList {m : ListMem} {list item : Addr} {items : List Addr}
    (h : IsList m list items) (hitem : item ∉ list :: items) (howner : m.pvOwner item ≠ none) :
    ∃ m', vRsListInsert m list item = .ok m' ∧
      IsList m' list (insertAfterFirst item items) := by
  have hfirst := h.ring.next_head
  cases items with
  | nil =>
    have hlast : [list].getLast? = some list := rfl
    obtain ⟨links, hadd, r⟩ := IsRing.add [] [] h.ring hlast hitem
    refine ⟨linked m links list item, ?_, isList_linked [] [] h howner r⟩
    simp only [List.head?_nil, Option.getD_none] at hfirst
    simp [vRsListInsert, hfirst, hadd, pure, Except.pure]
  | cons y ys =>
    have hlast : [list, y].getLast? = some y := rfl
    obtain ⟨links, hadd, r⟩ := IsRing.add [y] ys h.ring hlast hitem
    refine ⟨linked m links list item, ?_, isList_linked [y] ys h howner r⟩
    simp only [List.head?_cons, Option.getD_some] at hfirst
    simp [vRsListInsert, hfirst, hadd, pure, Except.pure]

/-- `vRsListInsertEnd` puts the item behind the last item of the list. -/
theorem vRsListInsertEnd_isList {m : ListMem} {list item : Addr} {items : List Addr}
    (h : IsList m list items) (hitem : item ∉ list :: items) (howner : m.pvOwner item ≠ none) :
    ∃ m', vRsListInsertEnd m list item = .ok m' ∧ IsList m' list (items ++ [item]) := by
  have hlist : items ++ [] = items := List.append_nil items
  obtain ⟨links, hadd, r⟩ := IsRing.add items [] (hlist.symm ▸ h.ring)
    List.getLast?_cons (by simpa using hitem)
  refine ⟨linked m links list item, ?_, isList_linked items [] (hlist.symm ▸ h) howner r⟩
  simp [vRsListInsertEnd, h.ring.prev_head, hadd, pure, Except.pure]

/-- `vRsListRemove` deletes the item from the list it is in. -/
theorem vRsListRemove_isList {m : ListMem} {list item : Addr} {xs ys : List Addr}
    (h : IsList m list (xs ++ item :: ys)) :
    ∃ m', vRsListRemove m item = .ok m' ∧ IsList m' list (xs ++ ys) := by
  have hcont := h.cont item (by simp)
  refine ⟨_, by rw [vRsListRemove, hcont, deref_some, Exec.ok_bind]; rfl, ?_⟩
  have hmem : ∀ i ∈ xs ++ ys, i ∈ xs ++ item :: ys := by
    intro i hi
    simp only [List.mem_append, List.mem_cons] at hi ⊢
    tauto
  refine ⟨h.ring.remove, ?_, fun i hi => h.cont i (hmem i hi),
    fun i hi => h.owner i (hmem i hi), h.head⟩
  have hlen := h.length
  simp only [List.length_append, List.length_cons] at hlen
  simp [hlen]

/-- The items keep their owners. -/
theorem vRsListInsertEnd_owner {m m' : ListMem} {list item : Addr}
    (h : vRsListInsertEnd m list item = .ok m') : m'.pvOwner = m.pvOwner := by
  obtain ⟨last, -, h⟩ := Exec.bind_eq_ok.mp h
  obtain ⟨links, -, h⟩ := Exec.bind_eq_ok.mp h
  cases h
  rfl

theorem vRsListRemove_owner {m m' : ListMem} {item : Addr} (h : vRsListRemove m item = .ok m') :
    m'.pvOwner = m.pvOwner := by
  obtain ⟨list, -, h⟩ := Exec.bind_eq_ok.mp h
  cases h
  rfl

theorem pxRsListGetHeadOwner_isList {m : ListMem} {list : Addr} {items : List Addr}
    (h : IsList m list items) :
    pxRsListGetHeadOwner m list = .ok (items.head?.bind m.pvOwner) := by
  have hfirst := h.ring.next_head
  cases items with
  | nil => simp [pxRsListGetHeadOwner, h.length]
  | cons y ys =>
    simp only [List.head?_cons, Option.getD_some] at hfirst
    simp [pxRsListGetHeadOwner, h.length, hfirst, pure, Except.pure]

theorem pxRsListGetFirst_isList {m : ListMem} {list : Addr} {items : List Addr}
    (h : IsList m list items) : pxRsListGetFirst m list = items.head? := by
  have hfirst := h.ring.next_head
  cases items with
  | nil => simp [pxRsListGetFirst, h.length]
  | cons y ys =>
    simp only [List.head?_cons, Option.getD_some] at hfirst
    simp [pxRsListGetFirst, h.length, hfirst]

/-- A traversal goes from an item to the one behind it and stops at the last one. -/
theorem pxRsListGetNext_isList {m : ListMem} {list item : Addr} {xs ys : List Addr}
    (h : IsList m list (xs ++ item :: ys)) : pxRsListGetNext m item = .ok ys.head? := by
  have hc := h.ring.chain
  cases ys with
  | nil =>
    have hadj : Adj m.xLink item list := by
      rw [List.isChain_append] at hc
      exact hc.2.2 item (by simp [List.getLast?_cons]) list rfl
    simp [pxRsListGetNext, hadj.1, h.head, pure, Except.pure]
  | cons y ys =>
    have hsplit : list :: (xs ++ item :: y :: ys) ++ [list] =
        (list :: (xs ++ [item])) ++ (y :: (ys ++ [list])) := by simp
    have hadj : Adj m.xLink item y := by
      rw [hsplit, List.isChain_append] at hc
      exact hc.2.2 item (by simp [List.getLast?_cons]) y rfl
    have howner : (m.pvOwner y).isSome := by
      rw [Option.isSome_iff_ne_none]
      exact h.owner y (by simp)
    simp [pxRsListGetNext, hadj.1, howner, pure, Except.pure]

end RinaSense.Common.RsList
