import RinaSense.Common.RsList
import RinaSense.Library.Runs

/-!
# Lists in one memory

Any number of lists whose heads and items share one memory, while items are put into them and
taken out. A macro writes to the items around the place where it works, which are all of one
list, so that every other list is as before.
-/

namespace RinaSense.Common.RsList

open Library.Circular Library.Runs

/-! ### Membership -/

/-- The loop of `xRsListIsContainedWithin`. -/
def containedLoop (m : ListMem) (pxItem : Addr) : ℕ → Option Addr → Exec Bool
  | _, none => .ok false
  | 0, some _ => .error .endless
  | fuel + 1, some pItem =>
    if pItem = pxItem then .ok true
    else do
      let pNext ← pxRsListGetNext m pItem
      containedLoop m pxItem fuel pNext

def xRsListIsContainedWithin (m : ListMem) (pxList pxItem : Addr) : Exec Bool :=
  containedLoop m pxItem (unRsListLength m pxList) (pxRsListGetFirst m pxList)

/-- The items which a traversal passes. -/
def traverseFrom (m : ListMem) : ℕ → Option Addr → Exec (List Addr)
  | _, none => .ok []
  | 0, some _ => .error .endless
  | fuel + 1, some pItem => do
    let pNext ← pxRsListGetNext m pItem
    let rest ← traverseFrom m fuel pNext
    return pItem :: rest

def pxRsListGetLast (m : ListMem) (list : Addr) : Option Addr :=
  if m.nLength list = 0 then none else m.xLink.prev list

def traverse (m : ListMem) (pxList : Addr) : Exec (List Addr) :=
  traverseFrom m (unRsListLength m pxList) (pxRsListGetFirst m pxList)

variable {m m' : ListMem} {list item : Addr} {items xs ys : List Addr}

theorem containedLoop_isList (h : IsList m list (xs ++ ys)) :
    containedLoop m item ys.length ys.head? = .ok (decide (item ∈ ys)) := by
  induction ys generalizing xs with
  | nil => rfl
  | cons y ys ih =>
    rw [List.length_cons, List.head?_cons, containedLoop]
    by_cases hy : y = item
    · simp [hy]
    · have hrest : IsList m list ((xs ++ [y]) ++ ys) := by rwa [List.append_assoc]
      rw [if_neg hy, pxRsListGetNext_isList h, Exec.ok_bind, ih hrest]
      simp [Ne.symm hy]

theorem xRsListIsContainedWithin_isList (h : IsList m list items) (item : Addr) :
    xRsListIsContainedWithin m list item = .ok (decide (item ∈ items)) := by
  have hlen : unRsListLength m list = items.length := h.length
  have h' : IsList m list ([] ++ items) := h
  rw [xRsListIsContainedWithin, hlen, pxRsListGetFirst_isList h, containedLoop_isList h']

theorem traverseFrom_isList (h : IsList m list (xs ++ ys)) :
    traverseFrom m ys.length ys.head? = .ok ys := by
  induction ys generalizing xs with
  | nil => rfl
  | cons y ys ih =>
    have hrest : IsList m list ((xs ++ [y]) ++ ys) := by rwa [List.append_assoc]
    rw [List.length_cons, List.head?_cons, traverseFrom, pxRsListGetNext_isList h, Exec.ok_bind,
      ih hrest]
    rfl

theorem traverse_isList (h : IsList m list items) : traverse m list = .ok items := by
  have hlen : unRsListLength m list = items.length := h.length
  have h' : IsList m list ([] ++ items) := h
  rw [traverse, hlen, pxRsListGetFirst_isList h, traverseFrom_isList h']

theorem pxRsListGetLast_isList (h : IsList m list items) :
    pxRsListGetLast m list = items.getLast? := by
  have hlast := h.ring.prev_head
  cases hget : items.getLast? with
  | none =>
    rw [List.getLast?_eq_none_iff] at hget
    simp [pxRsListGetLast, h.length, hget]
  | some last =>
    have hne : items ≠ [] := by
      rintro rfl
      simp at hget
    simp [pxRsListGetLast, h.length, hne, hlast, hget]

/-! ### What a macro leaves as it is -/

/-- The two memories agree on a list head or an item. -/
structure AgreeAt (m m' : ListMem) (a : Addr) : Prop where
  next : m'.xLink.next a = m.xLink.next a
  prev : m'.xLink.prev a = m.xLink.prev a
  pvCont : m'.pvCont a = m.pvCont a
  pvOwner : m'.pvOwner a = m.pvOwner a
  nLength : m'.nLength a = m.nLength a

theorem IsList.congr (h : IsList m list items) (hsame : ∀ a ∈ list :: items, AgreeAt m m' a) :
    IsList m' list items := by
  have hmem : ∀ u ∈ list :: items ++ [list], u ∈ list :: items := by
    intro u hu
    simpa [or_comm] using hu
  have hitem : ∀ i ∈ items, i ∈ list :: items := fun i hi => List.mem_cons_of_mem list hi
  refine ⟨⟨h.ring.nodup, isChain_congr (fun u hu => ?_) (fun v hv => ?_) h.ring.chain⟩, ?_,
    fun i hi => ?_, fun i hi => ?_, ?_⟩
  · exact (hsame u (hmem u (List.dropLast_subset _ hu))).next
  · exact (hsame v (hmem v (List.mem_of_mem_tail hv))).prev
  · rw [(hsame list List.mem_cons_self).nLength, h.length]
  · rw [(hsame i (hitem i hi)).pvCont, h.cont i hi]
  · rw [(hsame i (hitem i hi)).pvOwner]
    exact h.owner i hi
  · rw [(hsame list List.mem_cons_self).pvOwner, h.head]

/-- The items next to an item of a list, or to its head, are of the list. -/
theorem IsList.neighbour (h : IsList m list items) {a : Addr} (ha : a ∈ list :: items) :
    (∀ n ∈ m.xLink.next a, n ∈ list :: items) ∧ ∀ p ∈ m.xLink.prev a, p ∈ list :: items := by
  obtain ⟨xs, ys, hsplit⟩ := List.append_of_mem ha
  have hchain := h.ring.chain
  have hall : ∀ u ∈ list :: items ++ [list], u ∈ list :: items := by
    intro u hu
    simpa [or_comm] using hu
  refine ⟨fun n hn => ?_, fun p hp => ?_⟩
  · obtain ⟨b, rest, hb⟩ : ∃ b rest, ys ++ [list] = b :: rest := by
      cases ys with
      | nil => exact ⟨list, [], rfl⟩
      | cons y ys => exact ⟨y, ys ++ [list], rfl⟩
    have hcyc : list :: items ++ [list] = xs ++ a :: b :: rest := by
      rw [hsplit, List.append_assoc, List.cons_append, hb]
    rw [hcyc, List.isChain_append] at hchain
    have hadj : Adj m.xLink a b := (List.isChain_cons_cons.mp hchain.2.1).1
    rw [hadj.1, Option.mem_some_iff] at hn
    subst hn
    exact hall b (by rw [hcyc]; simp)
  · cases hxs : xs.getLast? with
    | some c =>
      have hcyc : list :: items ++ [list] = xs ++ a :: (ys ++ [list]) := by
        rw [hsplit, List.append_assoc, List.cons_append]
      rw [hcyc, List.isChain_append] at hchain
      have hadj : Adj m.xLink c a := hchain.2.2 c hxs a rfl
      rw [hadj.2, Option.mem_some_iff] at hp
      subst hp
      exact hall c (by rw [hcyc]; exact List.mem_append_left _ (List.mem_of_getLast? hxs))
    | none =>
      rw [List.getLast?_eq_none_iff] at hxs
      subst hxs
      obtain ⟨rfl, -⟩ := List.cons.inj hsplit
      have hlast := h.ring.prev_head
      rw [hlast, Option.mem_some_iff] at hp
      subst hp
      cases hget : items.getLast? with
      | none => exact List.mem_cons_self
      | some c => exact List.mem_cons_of_mem _ (List.mem_of_getLast? hget)

theorem vRsListInitItem_agree {owner : Option Addr} {a : Addr} (ha : a ≠ item) :
    AgreeAt m (vRsListInitItem m item owner) a := by
  refine ⟨?_, ?_, rfl, ?_, rfl⟩
  · simp [vRsListInitItem, Links.initHead, Links.setNext, Links.setPrev, ha]
  · simp [vRsListInitItem, Links.initHead, Links.setNext, Links.setPrev, ha]
  · simp [vRsListInitItem, ha]

theorem vRsListInit_agree {a : Addr} (ha : a ≠ list) : AgreeAt m (vRsListInit m list) a := by
  have hitem : AgreeAt m (vRsListInitItem m list none) a := vRsListInitItem_agree ha
  refine ⟨hitem.next, hitem.prev, hitem.pvCont, hitem.pvOwner, ?_⟩
  simp [vRsListInit, vRsListInitItem, ha]

/-- An item linked in behind another one of a list, or behind its head. -/
theorem IsList.add_agree (h : IsList m list items) {p a : Addr} {links : Links Addr}
    (hp : p ∈ list :: items) (hadd : m.xLink.add p item = some links) (hitem : a ≠ item)
    (ha : a ∉ list :: items) :
    AgreeAt m { m with
      xLink := links
      nLength := Function.update m.nLength list (m.nLength list + 1)
      pvCont := Function.update m.pvCont item (some list) } a := by
  have hframe := Links.add_frame hadd hitem
  have hlist : a ≠ list := fun hc => ha (hc ▸ List.mem_cons_self)
  refine ⟨hframe.1 fun hc => ha (hc ▸ hp), hframe.2 fun hn => ha ((h.neighbour hp).1 a hn),
    Function.update_of_ne hitem _ _, rfl, Function.update_of_ne hlist _ _⟩

theorem vRsListInsert_agree (h : IsList m list items) (hrun : vRsListInsert m list item = .ok m')
    {a : Addr} (hitem : a ≠ item) (ha : a ∉ list :: items) : AgreeAt m m' a := by
  obtain ⟨first, hfirst, hrun⟩ := Exec.bind_eq_ok.mp hrun
  obtain ⟨links, hadd, hrun⟩ := Exec.bind_eq_ok.mp hrun
  cases hrun
  have hmem : first ∈ list :: items :=
    (h.neighbour List.mem_cons_self).1 first (deref_eq_ok.mp hfirst)
  exact h.add_agree hmem (deref_eq_ok.mp hadd) hitem ha

theorem vRsListInsertEnd_agree (h : IsList m list items)
    (hrun : vRsListInsertEnd m list item = .ok m') {a : Addr} (hitem : a ≠ item)
    (ha : a ∉ list :: items) : AgreeAt m m' a := by
  obtain ⟨last, hlast, hrun⟩ := Exec.bind_eq_ok.mp hrun
  obtain ⟨links, hadd, hrun⟩ := Exec.bind_eq_ok.mp hrun
  cases hrun
  have hmem : last ∈ list :: items :=
    (h.neighbour List.mem_cons_self).2 last (deref_eq_ok.mp hlast)
  exact h.add_agree hmem (deref_eq_ok.mp hadd) hitem ha

theorem vRsListRemove_agree (h : IsList m list items) (hitem : item ∈ items)
    (hrun : vRsListRemove m item = .ok m') {a : Addr} (ha : a ∉ list :: items) :
    AgreeAt m m' a := by
  obtain ⟨cont, hcont, hrun⟩ := Exec.bind_eq_ok.mp hrun
  cases hrun
  have hmem := List.mem_cons_of_mem list hitem
  have hne : a ≠ item := fun hc => ha (hc ▸ hmem)
  have hframe := Links.remove_frame (L := m.xLink) hne
  have hnear := h.neighbour hmem
  refine ⟨hframe.1 fun hp => ha (hnear.2 a hp), hframe.2 fun hn => ha (hnear.1 a hn), rfl, rfl, ?_⟩
  rw [h.cont item hitem, deref_some] at hcont
  cases hcont
  have hlist : a ≠ list := fun hc => ha (hc ▸ List.mem_cons_self)
  exact Function.update_of_ne hlist _ _

theorem vRsListInsert_owner (hrun : vRsListInsert m list item = .ok m') :
    m'.pvOwner = m.pvOwner := by
  obtain ⟨first, -, hrun⟩ := Exec.bind_eq_ok.mp hrun
  obtain ⟨links, -, hrun⟩ := Exec.bind_eq_ok.mp hrun
  cases hrun
  rfl

/-! ### Runs of macros -/

/-- A use of a list macro. -/
inductive Op
  | initItem (item : Addr) (owner : Option Addr)
  | insert (list item : Addr)
  | insertEnd (list item : Addr)
  | remove (item : Addr)
deriving DecidableEq, Repr

def step (m : ListMem) : Op → Exec ListMem
  | .initItem item owner => .ok (vRsListInitItem m item owner)
  | .insert list item => vRsListInsert m list item
  | .insertEnd list item => vRsListInsertEnd m list item
  | .remove item => vRsListRemove m item

/-- The items of each list, and the owner which each item outside was given. -/
structure Contents where
  items : Addr → List Addr
  owner : Addr → Option Addr

def Contents.step (c : Contents) : Op → Contents
  | .initItem item owner => { c with owner := Function.update c.owner item owner }
  | .insert list item =>
    { c with items := Function.update c.items list (insertAfterFirst item (c.items list)) }
  | .insertEnd list item =>
    { c with items := Function.update c.items list (c.items list ++ [item]) }
  | .remove item => { c with items := fun list => (c.items list).erase item }

/-- Not the head of a list, and in none. -/
def Contents.Outside (heads : List Addr) (c : Contents) (item : Addr) : Prop :=
  item ∉ heads ∧ ∀ list ∈ heads, item ∉ c.items list

/-- What the callers keep to: an item goes into one list at a time, with an owner, and only
an item of a list is taken out. -/
def Contents.Allows (heads : List Addr) (c : Contents) : Op → Prop
  | .initItem item _ => c.Outside heads item
  | .insert list item => list ∈ heads ∧ c.Outside heads item ∧ c.owner item ≠ none
  | .insertEnd list item => list ∈ heads ∧ c.Outside heads item ∧ c.owner item ≠ none
  | .remove item => ∃ list ∈ heads, item ∈ c.items list

instance (heads : List Addr) (c : Contents) : ∀ op, Decidable (c.Allows heads op)
  | .initItem item _ => inferInstanceAs (Decidable (item ∉ heads ∧ ∀ l ∈ heads, item ∉ c.items l))
  | .insert list item =>
    inferInstanceAs (Decidable (list ∈ heads ∧ (item ∉ heads ∧ ∀ l ∈ heads, item ∉ c.items l) ∧
      c.owner item ≠ none))
  | .insertEnd list item =>
    inferInstanceAs (Decidable (list ∈ heads ∧ (item ∉ heads ∧ ∀ l ∈ heads, item ∉ c.items l) ∧
      c.owner item ≠ none))
  | .remove item => inferInstanceAs (Decidable (∃ list ∈ heads, item ∈ c.items list))

/-- The lists at the heads have these items, and share none. -/
structure Lists (m : ListMem) (heads : List Addr) (c : Contents) : Prop where
  isList : ∀ list ∈ heads, IsList m list (c.items list)
  apart : ∀ l ∈ heads, ∀ l' ∈ heads, l ≠ l' →
    List.Disjoint (l :: c.items l) (l' :: c.items l')
  owner : ∀ a, a ∉ heads → m.pvOwner a = c.owner a

section

variable {heads : List Addr} {c c' : Contents}

theorem Contents.Outside.notMem (h : c.Outside heads item) (hlist : list ∈ heads) :
    item ∉ list :: c.items list := by
  intro hc
  rcases List.mem_cons.mp hc with rfl | hin
  · exact h.1 hlist
  · exact h.2 list hlist hin

theorem Lists.notMem (h : Lists m heads c) {l l' : Addr} (hl : l ∈ heads) (hl' : l' ∈ heads)
    (hne : l ≠ l') {a : Addr} (ha : a ∈ l' :: c.items l') : a ∉ l :: c.items l :=
  fun hc => h.apart l hl l' hl' hne hc ha

/-- One list changes; what comes into it was outside. -/
theorem Lists.change (h : Lists m heads c) (hlist : list ∈ heads)
    (hnew : IsList m' list (c'.items list))
    (hfrom : ∀ a ∈ c'.items list, a ∈ c.items list ∨ c.Outside heads a)
    (hrest : ∀ l ∈ heads, l ≠ list → c'.items l = c.items l)
    (hagree : ∀ l ∈ heads, l ≠ list → ∀ a ∈ l :: c.items l, AgreeAt m m' a)
    (howner : m'.pvOwner = m.pvOwner) (hc : c'.owner = c.owner) : Lists m' heads c' := by
  have hapart : ∀ l ∈ heads, l ≠ list →
      List.Disjoint (list :: c'.items list) (l :: c'.items l) := by
    intro l hl hne a ha hal
    rw [hrest l hl hne] at hal
    have hnot := h.notMem hlist hl hne.symm hal
    rcases List.mem_cons.mp ha with rfl | hin
    · exact hnot List.mem_cons_self
    · rcases hfrom a hin with hold | hout
      · exact hnot (List.mem_cons_of_mem list hold)
      · rcases List.mem_cons.mp hal with rfl | hal
        · exact hout.1 hl
        · exact hout.2 l hl hal
  refine ⟨fun l hl => ?_, fun l hl l' hl' hne => ?_, fun a ha => ?_⟩
  · by_cases hc : l = list
    · exact hc ▸ hnew
    · rw [hrest l hl hc]
      exact (h.isList l hl).congr (hagree l hl hc)
  · by_cases hc : l = list
    · subst hc
      exact hapart l' hl' hne.symm
    · by_cases hc' : l' = list
      · subst hc'
        exact fun a ha ha' => hapart l hl hc ha' ha
      · rw [hrest l hl hc, hrest l' hl' hc']
        exact h.apart l hl l' hl' hne
  · rw [howner, hc]
    exact h.owner a ha

theorem isList_foldl_init (m : ListMem) (heads : List Addr) :
    (∀ list ∈ heads, IsList (heads.foldl vRsListInit m) list []) ∧
      ∀ a, a ∉ heads → (heads.foldl vRsListInit m).pvOwner a = m.pvOwner a := by
  induction heads using List.reverseRecOn with
  | nil => exact ⟨fun list hlist => absurd hlist (by simp), fun a _ => rfl⟩
  | append_singleton heads last ih =>
    rw [List.foldl_append, List.foldl_cons, List.foldl_nil]
    refine ⟨fun list hlist => ?_, fun a ha => ?_⟩
    · by_cases hc : list = last
      · rw [hc]
        exact vRsListInit_isList (heads.foldl vRsListInit m) last
      · have hin : list ∈ heads := by simpa [hc] using hlist
        refine (ih.1 list hin).congr fun a ha => vRsListInit_agree ?_
        rwa [List.mem_singleton.mp ha]
    · simp only [List.mem_append, List.mem_singleton, not_or] at ha
      rw [(vRsListInit_agree ha.2).pvOwner, ih.2 a ha.1]

/-- The contents after the heads are initialised, and nothing else. -/
def Contents.start (m : ListMem) : Contents := ⟨fun _ => [], m.pvOwner⟩

theorem Lists.start (m : ListMem) (heads : List Addr) :
    Lists (heads.foldl vRsListInit m) heads (Contents.start m) where
  isList := (isList_foldl_init m heads).1
  apart := by
    intro l _ l' _ hne
    simpa [Contents.start] using hne.symm
  owner := (isList_foldl_init m heads).2

/-- An item from outside goes into a list. -/
theorem Lists.put (h : Lists m heads c) (hlist : list ∈ heads) (hout : c.Outside heads item)
    (hnew : IsList m' list items) (hperm : items.Perm (item :: c.items list))
    (hagree : ∀ a, a ≠ item → a ∉ list :: c.items list → AgreeAt m m' a)
    (howner : m'.pvOwner = m.pvOwner) :
    Lists m' heads { c with items := Function.update c.items list items } := by
  refine h.change hlist ?_ (fun a ha => ?_) (fun l _ hne => ?_) (fun l hl hne a ha => ?_) howner rfl
  · simpa using hnew
  · simp only [Function.update_self, hperm.mem_iff, List.mem_cons] at ha
    rcases ha with rfl | ha
    · exact Or.inr hout
    · exact Or.inl ha
  · simp [hne]
  · exact hagree a (fun hc => hout.notMem hl (hc ▸ ha)) (h.notMem hlist hl hne.symm ha)

/-- An allowed macro returns, and does to the lists what it does to their contents. -/
theorem Lists.step (h : Lists m heads c) {op : Op} (hop : c.Allows heads op) :
    ∃ m', RsList.step m op = .ok m' ∧ Lists m' heads (c.step op) := by
  cases op with
  | initItem item owner =>
    refine ⟨_, rfl, fun l hl => (h.isList l hl).initItem (hop.notMem hl) owner, h.apart,
      fun a ha => ?_⟩
    simp only [vRsListInitItem, Contents.step, Function.update_apply, h.owner a ha]
  | insert list item =>
    obtain ⟨hlist, hout, howner⟩ := hop
    rw [← h.owner item hout.1] at howner
    have hl := h.isList list hlist
    obtain ⟨m', hrun, hnew⟩ := vRsListInsert_isList hl (hout.notMem hlist) howner
    exact ⟨m', hrun, h.put hlist hout hnew (insertAfterFirst_perm item _)
      (fun a => vRsListInsert_agree hl hrun) (vRsListInsert_owner hrun)⟩
  | insertEnd list item =>
    obtain ⟨hlist, hout, howner⟩ := hop
    rw [← h.owner item hout.1] at howner
    have hl := h.isList list hlist
    obtain ⟨m', hrun, hnew⟩ := vRsListInsertEnd_isList hl (hout.notMem hlist) howner
    exact ⟨m', hrun, h.put hlist hout hnew List.perm_append_comm
      (fun a => vRsListInsertEnd_agree hl hrun) (vRsListInsertEnd_owner hrun)⟩
  | remove item =>
    obtain ⟨list, hlist, hin⟩ := hop
    have hl := h.isList list hlist
    obtain ⟨xs, ys, -, hsplit, herase⟩ := List.exists_erase_eq hin
    obtain ⟨m', hrun, hnew⟩ := vRsListRemove_isList (hsplit ▸ hl)
    rw [← herase] at hnew
    refine ⟨m', hrun, h.change hlist hnew (fun a ha => Or.inl (List.mem_of_mem_erase ha))
      (fun l hmem hne => List.erase_of_not_mem fun hc => ?_) (fun l hmem hne a ha => ?_)
      (vRsListRemove_owner hrun) rfl⟩
    · exact h.notMem hmem hlist hne (List.mem_cons_of_mem list hin) (List.mem_cons_of_mem l hc)
    · exact vRsListRemove_agree hl hin hrun (h.notMem hlist hmem hne.symm ha)

theorem Lists.owner_of_mem (h : Lists m heads c) (hlist : list ∈ heads)
    (hitem : item ∈ c.items list) : m.pvOwner item = c.owner item := by
  refine h.owner item fun hhead => ?_
  have hl := h.isList list hlist
  by_cases hc : item = list
  · exact (List.nodup_cons.mp hl.ring.nodup).1 (hc ▸ hitem)
  · exact h.notMem hlist hhead (Ne.symm hc) List.mem_cons_self (List.mem_cons_of_mem list hitem)

/-- The list at a head reads as these items with these owners. -/
structure Reads (m : ListMem) (list : Addr) (items : List Addr) (owner : Addr → Option Addr) :
    Prop where
  length : unRsListLength m list = items.length
  first : pxRsListGetFirst m list = items.head?
  last : pxRsListGetLast m list = items.getLast?
  headOwner : pxRsListGetHeadOwner m list = .ok (items.head?.bind owner)
  traversal : traverse m list = .ok items
  contained : ∀ item, xRsListIsContainedWithin m list item = .ok (decide (item ∈ items))

theorem Lists.reads (h : Lists m heads c) (hlist : list ∈ heads) :
    Reads m list (c.items list) c.owner := by
  have hl := h.isList list hlist
  refine ⟨hl.length, pxRsListGetFirst_isList hl, pxRsListGetLast_isList hl, ?_, traverse_isList hl,
    xRsListIsContainedWithin_isList hl⟩
  rw [pxRsListGetHeadOwner_isList hl]
  cases hfirst : (c.items list).head? with
  | none => rfl
  | some first => rw [Option.bind_some, Option.bind_some,
      h.owner_of_mem hlist (List.mem_of_head? hfirst)]

theorem Lists.run (h : Lists m heads c) {ops : List Op}
    (hops : Guarded Contents.step (Contents.Allows heads) c ops) :
    ∃ m', ops.foldlM RsList.step m = .ok m' ∧ Lists m' heads (ops.foldl Contents.step c) := by
  induction ops generalizing m c with
  | nil => exact ⟨m, rfl, h⟩
  | cons op ops ih =>
    obtain ⟨m₁, hstep, h₁⟩ := h.step hops.1
    obtain ⟨m', hrun, h'⟩ := ih h₁ hops.2
    exact ⟨m', by rw [List.foldlM_cons, hstep, Exec.ok_bind, hrun], h'⟩

/-- Lists in one memory do not disturb each other: whatever allowed macros are used on
them in whatever order, each reads as its own items. -/
theorem lists_share_memory (m : ListMem) (heads : List Addr) (ops : List Op)
    (hops : Guarded Contents.step (Contents.Allows heads) (Contents.start m) ops) :
    ∃ m', ops.foldlM RsList.step (heads.foldl vRsListInit m) = .ok m' ∧
      ∀ list ∈ heads,
        Reads m' list ((ops.foldl Contents.step (Contents.start m)).items list)
          (ops.foldl Contents.step (Contents.start m)).owner := by
  obtain ⟨m', hrun, h⟩ := (Lists.start m heads).run hops
  exact ⟨m', hrun, fun list hlist => h.reads hlist⟩

end

/-- A memory before any list is made in it. -/
def blankMem : ListMem :=
  ⟨⟨fun _ => none, fun _ => none⟩, fun _ => none, fun _ => none, fun _ => 0⟩

/-- Items go to two lists, and one of them from the first list to the second. -/
def moveOps : List Op :=
  [.initItem 20 (some 120), .initItem 30 (some 130), .initItem 40 (some 140), .insertEnd 0 20,
    .insertEnd 10 30, .insert 0 40, .remove 20, .insertEnd 10 20]

theorem lists_share_memory_two :
    ∃ m', moveOps.foldlM RsList.step ([0, 10].foldl vRsListInit blankMem) = .ok m' ∧
      Reads m' 0 [40] (moveOps.foldl Contents.step (Contents.start blankMem)).owner ∧
      Reads m' 10 [30, 20] (moveOps.foldl Contents.step (Contents.start blankMem)).owner := by
  obtain ⟨m', hrun, h⟩ := lists_share_memory blankMem [0, 10] moveOps (by decide)
  exact ⟨m', hrun, h 0 (by decide), h 10 (by decide)⟩

end RinaSense.Common.RsList
