import RinaSense.Common.ArrayList

/-!
# Items of array lists

The array of a list begins with its items, and it has the bytes which its capacity and the size of
an item give as a `size_t`.
-/

namespace RinaSense.Common.ArrayLists

open Library.Memory Library.Arrays

/-- The bytes of the array. -/
def ArrayList.allocated (pxLst : ArrayList) : ℕ := (pxLst.unMaxItemCount * pxLst.unItemSz).toNat

/-- The list which a resize makes. -/
def ArrayList.moved (pxLst : ArrayList) (pvArray : Option Ptr) : ArrayList :=
  { pxLst with pvArray := pvArray, unMaxItemCount := pxLst.unMaxItemCount * 2 }

/-- The bytes which a resize asks for. -/
def ArrayList.newSize (pxLst : ArrayList) : ℕ :=
  (pxLst.unMaxItemCount * 2 * pxLst.unItemSz).toNat

/-- One more item fits into so many bytes and into the count. -/
def ArrayList.RoomIn (pxLst : ArrayList) (size : ℕ) : Prop :=
  pxLst.unFreeIdx.toNat + 1 < 2 ^ 64 ∧
    (pxLst.unFreeIdx.toNat + 1) * pxLst.unItemSz.toNat ≤ size

/-- The block at `a` has so many bytes and begins with `bs`. -/
def Begins (h : Heap) (a : ℕ) (bs : Bytes) (size : ℕ) : Prop :=
  ∃ rest, h.mem a = some (bs ++ rest) ∧ (bs ++ rest).length = size

/-- The list has its items at the front of its array. -/
structure Holds (pf : Platform) (pxLst : ArrayList) (h : Heap) (xs : List Bytes) : Prop where
  unFreeIdx : pxLst.unFreeIdx.toNat = xs.length
  fit : Fit pxLst.unItemSz.toNat xs
  supplied : Supplied h pxLst.xPool
  array : ∃ a, pxLst.pvArray = some ⟨a, 0⟩ ∧ a < h.brk ∧
    Begins h a xs.flatten pxLst.allocated ∧ LentBy pf h pxLst.xPool a

/-- What a caller sees of the list: the count and the bytes of the items. -/
structure Contains (pxLst : ArrayList) (h : Heap) (xs : List Bytes) : Prop where
  count : (unArrayListCount pxLst).toNat = xs.length
  items : h.read pxLst.pvArray 0 xs.flatten.length = .ok xs.flatten

variable {pf : Platform} {pxLst : ArrayList} {h : Heap} {xs : List Bytes}

/-! ### Blocks -/

section Block

variable {a size : ℕ} {bs : Bytes}

theorem Begins.le (hb : Begins h a bs size) : bs.length ≤ size := by
  obtain ⟨rest, -, hlen⟩ := hb
  rw [← hlen, List.length_append]
  exact Nat.le_add_right _ _

theorem Begins.read (hb : Begins h a bs size) : h.read (some ⟨a, 0⟩) 0 bs.length = .ok bs := by
  obtain ⟨rest, hblk, -⟩ := hb
  rw [Heap.read_of_block hblk (by simp)]
  simp

/-- Bytes are written behind the ones which are there. -/
theorem Begins.append (hb : Begins h a bs size) {x : Bytes} (hroom : bs.length + x.length ≤ size) :
    ∃ blk, h.write (some ⟨a, 0⟩) bs.length x = .ok (h.setBlock a (some blk)) ∧
      Begins (h.setBlock a (some blk)) a (bs ++ x) size := by
  obtain ⟨rest, hblk, hlen⟩ := hb
  rw [List.length_append] at hlen
  have hfits : x.length ≤ rest.length := by omega
  rw [← List.take_append_drop x.length rest] at hblk
  refine ⟨_, Heap.write_middle hblk (Nat.zero_add _) (List.length_take_of_le hfits).symm,
    rest.drop x.length, ?_, ?_⟩
  · rw [Heap.setBlock_self, List.append_assoc]
  · simp only [List.length_append, List.length_drop]
    omega

theorem Begins.append_outOfBounds (hb : Begins h a bs size) (off : ℕ) {x : Bytes}
    (hx : size < off + x.length) : h.write (some ⟨a, 0⟩) off x = .error .outOfBounds := by
  obtain ⟨rest, hblk, rfl⟩ := hb
  exact Heap.write_outOfBounds hblk (by rw [Nat.zero_add]; exact Nat.not_le.mpr hx)

end Block

/-! ### Sizes -/

theorem toNat_mul_of_le {m k size : UInt64} (h : m.toNat * k.toNat ≤ size.toNat) :
    (m * k).toNat = m.toNat * k.toNat := by
  rw [UInt64.toNat_mul, Nat.mod_eq_of_lt (Nat.lt_of_le_of_lt h size.toNat_lt)]

theorem Holds.contains (hl : Holds pf pxLst h xs) : Contains pxLst h xs := by
  obtain ⟨a, hp, -, hblk, -⟩ := hl.array
  exact ⟨hl.unFreeIdx, by rw [hp, hblk.read]⟩

theorem Holds.length_flatten (hl : Holds pf pxLst h xs) :
    xs.flatten.length = pxLst.unFreeIdx.toNat * pxLst.unItemSz.toNat := by
  rw [hl.fit.length_flatten, hl.unFreeIdx]

theorem Holds.le_allocated (hl : Holds pf pxLst h xs) :
    pxLst.unFreeIdx.toNat * pxLst.unItemSz.toNat ≤ pxLst.allocated := by
  obtain ⟨a, -, -, hblk, -⟩ := hl.array
  rw [← hl.length_flatten]
  exact hblk.le

/-- Where the next item goes. -/
theorem Holds.freeOffset (hl : Holds pf pxLst h xs) :
    (pxLst.unFreeIdx * pxLst.unItemSz).toNat = xs.flatten.length := by
  rw [hl.length_flatten]
  exact toNat_mul_of_le hl.le_allocated

/-- The array of a full list has the bytes of its items and no more. -/
theorem Holds.full_allocated (hl : Holds pf pxLst h xs)
    (hfull : pxLst.unFreeIdx = pxLst.unMaxItemCount) :
    pxLst.allocated = xs.flatten.length := by
  rw [← hl.freeOffset, hfull]
  rfl

/-! ### The constructor -/

theorem xArrayListInit_holds {h' : Heap} {unItemSz unInitialMaxItemCount : UInt64}
    {xVarPool : Option PoolPtr} (hs : Supplied h xVarPool)
    (hinit : xArrayListInit pf h unItemSz unInitialMaxItemCount xVarPool = .ok (some pxLst, h')) :
    Holds pf pxLst h' [] ∧ pxLst.unItemSz = unItemSz := by
  obtain ⟨⟨pvArray, h₁⟩, hnew, hret⟩ := Exec.bind_eq_ok.mp hinit
  cases pvArray with
  | none => cases hret
  | some a =>
    cases hret
    have hr : ¬ Refuses pf h xVarPool (unItemSz * unInitialMaxItemCount).toNat := by
      intro hr
      obtain ⟨_, hcode, -⟩ := newArray_refused hr
      cases hnew.symm.trans hcode
    have hm : h.mallocOk h.calls = true := by
      refine eq_true_of_ne_false fun hm => ?_
      cases hnew.symm.trans (newArray_abort hs hr hm)
    obtain ⟨h₂, hcode, hgives, hs', hlent⟩ := newArray_gives hs hr hm
    cases hnew.symm.trans hcode
    obtain ⟨bs, hbs, hmem⟩ := hgives.mem
    refine ⟨⟨rfl, fit_nil, hs', h.brk, rfl, ?_, ⟨bs, ?_, ?_⟩, hlent⟩, rfl⟩
    · rw [hgives.brk]
      exact Nat.lt_succ_self _
    · rw [hmem]
      exact Function.update_self ..
    · rw [List.flatten_nil, List.nil_append, hbs, ArrayList.allocated, UInt64.mul_comm]

/-! ### Growing -/

/-- The array of a list of a pool stays when the pool turns the request down. -/
theorem Holds.resize_refused (hl : Holds pf pxLst h xs) {pp : PoolPtr}
    (hpool : pxLst.xPool = some pp) (hr : Refuses pf h (some pp) pxLst.newSize) :
    ∃ h', pxLst.resize pf h = .ok (ERR_OOM, pxLst, h') ∧ Holds pf pxLst h' xs := by
  obtain ⟨h', hnew, hsame⟩ := newArray_refused (n := pxLst.unMaxItemCount * 2 * pxLst.unItemSz) hr
  refine ⟨h', ?_, hl.unFreeIdx, hl.fit, fun pp hpp => ?_, ?_⟩
  · rw [ArrayList.resize]
    simp only [hpool, hnew, Exec.ok_bind, ERR_SET_eq]
    rfl
  · rw [hsame.pools]
    exact hl.supplied pp hpp
  · obtain ⟨a, hp, hbelow, ⟨rest, hblk, hlen⟩, hlent⟩ := hl.array
    refine ⟨a, hp, by rwa [hsame.brk], ⟨rest, by rw [hsame.mem, hblk], hlen⟩, ?_⟩
    intro pp hpp hv
    rw [hsame.rsrcs]
    exact hlent pp hpp hv

/-- The array of a list of the heap is lost when there is no larger one. -/
theorem Holds.resize_lost (hl : Holds pf pxLst h xs) (hpool : pxLst.xPool = none)
    (hno : h.mallocOk h.calls = false ∨ pxLst.newSize = 0) :
    ∃ h', pxLst.resize pf h = .ok (ERR_OOM, { pxLst with pvArray := none }, h') := by
  obtain ⟨a, hp, -, ⟨rest, hblk, -⟩, -⟩ := hl.array
  have hcode : ∃ h', pvRsMemRealloc h pxLst.pvArray pxLst.newSize = .ok (none, h') := by
    rw [hp, pvRsMemRealloc]
    simp only [if_true, hblk, inBounds_some, Exec.ok_bind]
    by_cases hzero : pxLst.newSize = 0
    · rw [if_pos hzero]
      exact ⟨_, rfl⟩
    · rw [if_neg hzero, pvRsMemAlloc_refused (hno.resolve_right hzero)]
      exact ⟨_, rfl⟩
  obtain ⟨h', hcode⟩ := hcode
  refine ⟨h', ?_⟩
  rw [ArrayList.newSize] at hcode
  rw [ArrayList.resize]
  simp only [hpool, hcode, Exec.ok_bind, ERR_SET_eq]
  rfl

/-- A pool which gets no memory aborts. -/
theorem Holds.resize_abort (hl : Holds pf pxLst h xs) {pp : PoolPtr}
    (hpool : pxLst.xPool = some pp) (hr : ¬ Refuses pf h (some pp) pxLst.newSize)
    (hm : h.mallocOk h.calls = false) : pxLst.resize pf h = .error .abort := by
  have hs : Supplied h (some pp) := hpool ▸ hl.supplied
  have hnew := newArray_abort (n := pxLst.unMaxItemCount * 2 * pxLst.unItemSz) hs hr hm
  rw [ArrayList.resize]
  simp only [hpool, hnew, Exec.error_bind]

/-- `realloc` keeps the front of the array. -/
theorem Holds.resize_heap (hl : Holds pf pxLst h xs) (hpool : pxLst.xPool = none)
    (hm : h.mallocOk h.calls = true) (hpos : 0 < pxLst.newSize) :
    ∃ h', pxLst.resize pf h = .ok (SUCCESS, pxLst.moved (some ⟨h.brk, 0⟩), h') ∧
      Begins h' h.brk (xs.flatten.take pxLst.newSize) pxLst.newSize ∧ h'.brk = h.brk + 1 := by
  obtain ⟨a, hp, hbelow, ⟨rest, hblk, -⟩, -⟩ := hl.array
  obtain ⟨h₁, halloc, hgives, -⟩ := pvRsMemAlloc_gives hm pxLst.newSize
  have hlen : (h.resized h.brk (xs.flatten ++ rest) pxLst.newSize).length = pxLst.newSize := by
    simp only [Heap.resized, List.length_append, List.length_take, List.length_drop,
      Heap.stale_length]
    omega
  have hbytes : h.resized h.brk (xs.flatten ++ rest) pxLst.newSize =
      xs.flatten.take pxLst.newSize ++ (rest.take (pxLst.newSize - xs.flatten.length) ++
        (h.stale h.brk pxLst.newSize).drop (xs.flatten ++ rest).length) := by
    rw [Heap.resized, List.take_append, List.append_assoc]
  obtain ⟨h₂, hh₂⟩ : ∃ h₂, h₂ = (h₁.setBlock h.brk
    (some (h.resized h.brk (xs.flatten ++ rest) pxLst.newSize))).setBlock a none := ⟨_, rfl⟩
  have hcode : pvRsMemRealloc h pxLst.pvArray (pxLst.unMaxItemCount * 2 * pxLst.unItemSz).toNat =
      .ok (some ⟨h.brk, 0⟩, h₂) := by
    change pvRsMemRealloc h pxLst.pvArray pxLst.newSize = _
    rw [hp, pvRsMemRealloc]
    simp only [if_true, hblk, inBounds_some, Exec.ok_bind, if_neg (Nat.ne_of_gt hpos), halloc, hh₂]
    rfl
  refine ⟨h₂, ?_, ⟨_, ?_, hbytes ▸ hlen⟩, by rw [hh₂]; exact hgives.brk⟩
  · rw [ArrayList.resize]
    simp only [hpool, hcode, Exec.ok_bind, ArrayList.moved]
    rfl
  · rw [← hbytes, hh₂]
    simp [Heap.setBlock, Function.update_of_ne (Nat.ne_of_gt hbelow)]

/-- A larger array of the heap has the items. -/
theorem Holds.resize_heap_holds (hl : Holds pf pxLst h xs) (hpool : pxLst.xPool = none) {h' : Heap}
    (hblk : Begins h' h.brk (xs.flatten.take pxLst.newSize) pxLst.newSize)
    (hbrk : h'.brk = h.brk + 1) (hroom : xs.flatten.length ≤ pxLst.newSize) :
    Holds pf (pxLst.moved (some ⟨h.brk, 0⟩)) h' xs where
  unFreeIdx := hl.unFreeIdx
  fit := hl.fit
  supplied pp hpp := absurd (hpool.symm.trans hpp) (by simp)
  array := by
    rw [List.take_of_length_le hroom] at hblk
    refine ⟨h.brk, rfl, ?_, hblk, fun pp hpp => absurd (hpool.symm.trans hpp) (by simp)⟩
    rw [hbrk]
    exact Nat.lt_succ_self _

/-- A pool gives a new array, to which the bytes of the old one are copied. -/
theorem Holds.resize_pool (hl : Holds pf pxLst h xs) {pp : PoolPtr}
    (hpool : pxLst.xPool = some pp) (hfull : pxLst.unFreeIdx = pxLst.unMaxItemCount)
    (hr : ¬ Refuses pf h (some pp) pxLst.newSize) (hm : h.mallocOk h.calls = true) :
    if xs.flatten.length ≤ pxLst.newSize then
      ∃ h', pxLst.resize pf h = .ok (SUCCESS, pxLst.moved (some ⟨h.brk, 0⟩), h') ∧
        Holds pf (pxLst.moved (some ⟨h.brk, 0⟩)) h' xs
    else pxLst.resize pf h = .error .outOfBounds := by
  obtain ⟨a, hp, hbelow, hblk, hlent⟩ := hl.array
  have hs : Supplied h (some pp) := hpool ▸ hl.supplied
  obtain ⟨h₁, hnew, hgives, hs₁, hlent₁⟩ :=
    newArray_gives (n := pxLst.unMaxItemCount * 2 * pxLst.unItemSz) hs hr hm
  obtain ⟨bs, hbs, hmem⟩ := hgives.mem
  have hne : a ≠ h.brk := Nat.ne_of_lt hbelow
  have hnewblk : Begins h₁ h.brk [] pxLst.newSize :=
    ⟨bs, by rw [hmem]; exact Function.update_self .., hbs⟩
  have holdblk : Begins h₁ a xs.flatten pxLst.allocated := by
    obtain ⟨rest, hblk, hlen⟩ := hblk
    exact ⟨rest, by rw [hmem, Function.update_of_ne hne, hblk], hlen⟩
  have hread : h₁.read pxLst.pvArray 0 (pxLst.unMaxItemCount * pxLst.unItemSz).toNat =
      .ok xs.flatten := by
    change h₁.read pxLst.pvArray 0 pxLst.allocated = _
    rw [hl.full_allocated hfull, hp, holdblk.read]
  split_ifs with hroom
  · obtain ⟨blk, hwrite, hnewblk'⟩ := hnewblk.append (x := xs.flatten) (by simpa using hroom)
    rw [List.length_nil] at hwrite
    obtain ⟨h₂, hh₂⟩ : ∃ h₂, h₂ = h₁.setBlock h.brk (some blk) := ⟨_, rfl⟩
    rw [← hh₂] at hwrite hnewblk'
    have hlent₂ : Lent pf h₂ pp a := by
      intro hv
      rw [hh₂]
      obtain ⟨name, hrsrc⟩ := hlent pp hpool hv
      exact ⟨name, (hgives.rsrcs a hne).trans hrsrc⟩
    have hmem₂ : (h₂.mem a).isSome := by
      obtain ⟨rest, holdblk, -⟩ := holdblk
      rw [hh₂]
      change (Function.update h₁.mem h.brk (some blk) a).isSome = true
      rw [Function.update_of_ne hne, holdblk]
      rfl
    obtain ⟨h₃, hfree, htakes, hs₃⟩ := vRsrcFree_array (hh₂ ▸ hs₁) hlent₂ hmem₂
    refine ⟨h₃, ?_, hl.unFreeIdx, hl.fit, hpool.symm ▸ hs₃, h.brk, rfl, ?_, ?_, ?_⟩
    · rw [ArrayList.resize]
      rw [hp] at hread
      simp only [hpool, hnew, Exec.ok_bind, hp, hread, hwrite, hfree, ArrayList.moved]
      rfl
    · rw [htakes.brk, hh₂]
      exact hgives.brk ▸ Nat.lt_succ_self _
    · obtain ⟨rest, hblk, hlen⟩ := hnewblk'
      exact ⟨rest, by rw [htakes.mem, Function.update_of_ne hne.symm, hblk]; rfl, hlen⟩
    · intro pq hpq hv
      rw [htakes.rsrcs _ hne.symm, hh₂]
      exact hlent₁ pq (hpool.symm.trans hpq) hv
  · have hwrite := hnewblk.append_outOfBounds 0 (x := xs.flatten) (by omega)
    rw [ArrayList.resize]
    simp only [hpool, hnew, Exec.ok_bind, hread, hwrite, Exec.error_bind]

/-! ### Adding -/

/-- The item which is added. -/
def ArrayList.item (pxLst : ArrayList) (pvItem : ItemBuf pxLst.unItemSz.toNat) : Bytes :=
  pvItem.val.take pxLst.unItemSz.toNat

theorem ArrayList.item_length (pxLst : ArrayList) (pvItem : ItemBuf pxLst.unItemSz.toNat) :
    (pxLst.item pvItem).length = pxLst.unItemSz.toNat :=
  List.length_take_of_le pvItem.property

theorem memcpyFrom_item (pvItem : ItemBuf pxLst.unItemSz.toNat) :
    memcpyFrom pvItem.val pxLst.unItemSz.toNat = .ok (pxLst.item pvItem) := by
  rw [memcpyFrom, if_pos pvItem.property, inBounds_some]
  rfl

/-- A store is the write of the item, and one more in the count. -/
theorem store_of_write {pvItem : ItemBuf pxLst.unItemSz.toNat} {h' : Heap}
    (hwrite : h.write pxLst.pvArray (pxLst.unFreeIdx * pxLst.unItemSz).toNat
      (pxLst.item pvItem) = .ok h') :
    pxLst.store h pvItem =
      .ok (SUCCESS, { pxLst with unFreeIdx := pxLst.unFreeIdx + 1 }, h') := by
  rw [ArrayList.store, memcpyFrom_item, Exec.ok_bind, hwrite]
  rfl

theorem store_of_error {pvItem : ItemBuf pxLst.unItemSz.toNat} {t : Trap}
    (hwrite : h.write pxLst.pvArray (pxLst.unFreeIdx * pxLst.unItemSz).toNat
      (pxLst.item pvItem) = .error t) : pxLst.store h pvItem = .error t := by
  rw [ArrayList.store, memcpyFrom_item, Exec.ok_bind, hwrite]
  rfl

/-- An item for which there is room goes behind the others. -/
theorem Holds.store_ok (hl : Holds pf pxLst h xs) (hroom : pxLst.RoomIn pxLst.allocated)
    (pvItem : ItemBuf pxLst.unItemSz.toNat) :
    ∃ h', pxLst.store h pvItem = .ok (SUCCESS, { pxLst with unFreeIdx := pxLst.unFreeIdx + 1 }, h') ∧
      Holds pf { pxLst with unFreeIdx := pxLst.unFreeIdx + 1 } h' (xs ++ [pxLst.item pvItem]) := by
  obtain ⟨hcount, hbytes⟩ := hroom
  obtain ⟨a, hp, hbelow, hblk, hlent⟩ := hl.array
  have hfits : xs.flatten.length + (pxLst.item pvItem).length ≤ pxLst.allocated := by
    rw [hl.length_flatten, pxLst.item_length, ← Nat.succ_mul]
    exact hbytes
  obtain ⟨blk, hwrite, hblk'⟩ := hblk.append hfits
  rw [← hl.freeOffset, ← hp] at hwrite
  refine ⟨h.setBlock a (some blk), store_of_write hwrite, ?_,
    hl.fit.concat (pxLst.item_length pvItem), hl.supplied, a, hp, hbelow, ?_, hlent⟩
  · change (pxLst.unFreeIdx + 1).toNat = _
    rw [UInt64.toNat_add, List.length_append, ← hl.unFreeIdx]
    exact Nat.mod_eq_of_lt hcount
  · rw [List.flatten_append, List.flatten_cons, List.flatten_nil, List.append_nil]
    exact hblk'

/-- An item for which there is no room is written outside of the array, or the count starts
anew. -/
theorem Holds.store_fails (hl : Holds pf pxLst h xs) (hroom : ¬ pxLst.RoomIn pxLst.allocated)
    (pvItem : ItemBuf pxLst.unItemSz.toNat) :
    pxLst.store h pvItem = .error .outOfBounds ∨
      ∃ pxLst' h', pxLst.store h pvItem = .ok (SUCCESS, pxLst', h') ∧ pxLst'.unFreeIdx = 0 := by
  obtain ⟨a, hp, -, hblk, -⟩ := hl.array
  by_cases hbytes : xs.flatten.length + (pxLst.item pvItem).length ≤ pxLst.allocated
  · obtain ⟨blk, hwrite, -⟩ := hblk.append hbytes
    rw [hl.length_flatten, pxLst.item_length, ← Nat.succ_mul] at hbytes
    have hcount : ¬ pxLst.unFreeIdx.toNat + 1 < 2 ^ 64 := fun hcount => hroom ⟨hcount, hbytes⟩
    rw [← hl.freeOffset, ← hp] at hwrite
    refine Or.inr ⟨_, _, store_of_write hwrite, UInt64.toNat_inj.mp ?_⟩
    have hlt := pxLst.unFreeIdx.toNat_lt
    change (pxLst.unFreeIdx + 1).toNat = 0
    rw [UInt64.toNat_add]
    change (pxLst.unFreeIdx.toNat + 1) % 2 ^ 64 = 0
    omega
  · have hwrite := hblk.append_outOfBounds _ (Nat.not_le.mp hbytes)
    rw [← hl.freeOffset, ← hp] at hwrite
    exact Or.inl (store_of_error hwrite)

/-- One more item can be added, or is refused by the pool of the list. -/
def CanAdd (pf : Platform) (pxLst : ArrayList) (h : Heap) : Prop :=
  if pxLst.unFreeIdx = pxLst.unMaxItemCount then
    match pxLst.xPool with
    | none => h.mallocOk h.calls = true ∧ 0 < pxLst.newSize ∧ pxLst.RoomIn pxLst.newSize
    | some pp => Refuses pf h (some pp) pxLst.newSize ∨
        h.mallocOk h.calls = true ∧ pxLst.RoomIn pxLst.newSize
  else pxLst.RoomIn pxLst.allocated

theorem add_of_not_full (hfull : pxLst.unFreeIdx ≠ pxLst.unMaxItemCount) (pvItem : Bytes) :
    xArrayListAdd pf pxLst h pvItem = pxLst.store h pvItem := by
  rw [xArrayListAdd, if_neg hfull]

theorem add_of_resized (hfull : pxLst.unFreeIdx = pxLst.unMaxItemCount) {pxLst' : ArrayList}
    {h' : Heap} (hresize : pxLst.resize pf h = .ok (SUCCESS, pxLst', h')) (pvItem : Bytes) :
    xArrayListAdd pf pxLst h pvItem = pxLst'.store h' pvItem := by
  rw [xArrayListAdd, if_pos hfull, hresize]
  rfl

theorem add_of_refused (hfull : pxLst.unFreeIdx = pxLst.unMaxItemCount) {pxLst' : ArrayList}
    {h' : Heap} (hresize : pxLst.resize pf h = .ok (ERR_OOM, pxLst', h')) (pvItem : Bytes) :
    xArrayListAdd pf pxLst h pvItem = .ok (ERR_OOM, pxLst', h') := by
  rw [xArrayListAdd, if_pos hfull, hresize]
  rfl

theorem add_of_error (hfull : pxLst.unFreeIdx = pxLst.unMaxItemCount) {t : Trap}
    (hresize : pxLst.resize pf h = .error t) (pvItem : Bytes) :
    xArrayListAdd pf pxLst h pvItem = .error t := by
  rw [xArrayListAdd, if_pos hfull, hresize]
  rfl

/-- An add is refused and leaves the list as it is, or the item is the last one. -/
theorem Holds.add (hl : Holds pf pxLst h xs) (hcan : CanAdd pf pxLst h)
    (pvItem : ItemBuf pxLst.unItemSz.toNat) :
    (∃ h', xArrayListAdd pf pxLst h pvItem = .ok (ERR_OOM, pxLst, h') ∧ Holds pf pxLst h' xs) ∨
      ∃ pxLst' h', xArrayListAdd pf pxLst h pvItem = .ok (SUCCESS, pxLst', h') ∧
        Holds pf pxLst' h' (xs ++ [pxLst.item pvItem]) ∧ pxLst'.unItemSz = pxLst.unItemSz := by
  unfold CanAdd at hcan
  split_ifs at hcan with hfull
  · -- a list which has moved has room for the item
    have hmoved : ∀ h₁, pxLst.resize pf h = .ok (SUCCESS, pxLst.moved (some ⟨h.brk, 0⟩), h₁) →
        Holds pf (pxLst.moved (some ⟨h.brk, 0⟩)) h₁ xs → pxLst.RoomIn pxLst.newSize →
        ∃ pxLst' h', xArrayListAdd pf pxLst h pvItem = .ok (SUCCESS, pxLst', h') ∧
          Holds pf pxLst' h' (xs ++ [pxLst.item pvItem]) ∧ pxLst'.unItemSz = pxLst.unItemSz := by
      intro h₁ hresize hl₁ hroom
      obtain ⟨h', hstore, hl'⟩ := hl₁.store_ok hroom pvItem
      exact ⟨_, h', (add_of_resized hfull hresize pvItem).trans hstore, hl', rfl⟩
    have hle : pxLst.RoomIn pxLst.newSize → xs.flatten.length ≤ pxLst.newSize := by
      rintro ⟨-, hbytes⟩
      rw [hl.length_flatten]
      exact Nat.le_trans (Nat.mul_le_mul_right _ (Nat.le_succ _)) hbytes
    rcases Option.eq_none_or_eq_some pxLst.xPool with hpool | ⟨pp, hpool⟩
    · simp only [hpool] at hcan
      obtain ⟨hm, hpos, hroom⟩ := hcan
      obtain ⟨h₁, hresize, hblk, hbrk⟩ := hl.resize_heap hpool hm hpos
      exact Or.inr (hmoved h₁ hresize (hl.resize_heap_holds hpool hblk hbrk (hle hroom)) hroom)
    · simp only [hpool] at hcan
      by_cases hr : Refuses pf h (some pp) pxLst.newSize
      · obtain ⟨h', hresize, hl'⟩ := hl.resize_refused hpool hr
        exact Or.inl ⟨h', add_of_refused hfull hresize pvItem, hl'⟩
      · obtain ⟨hm, hroom⟩ := hcan.resolve_left hr
        have hpooled := hl.resize_pool hpool hfull hr hm
        rw [if_pos (hle hroom)] at hpooled
        obtain ⟨h₁, hresize, hl₁⟩ := hpooled
        exact Or.inr (hmoved h₁ hresize hl₁ hroom)
  · obtain ⟨h', hstore, hl'⟩ := hl.store_ok hcan pvItem
    exact Or.inr ⟨_, h', (add_of_not_full hfull pvItem).trans hstore, hl', rfl⟩

/-- What becomes of an add otherwise: it does not come back, the list has lost its array, or its
count starts anew. -/
theorem Holds.add_fails (hl : Holds pf pxLst h xs) (hno : ¬ CanAdd pf pxLst h)
    (pvItem : ItemBuf pxLst.unItemSz.toNat) :
    (∃ t, xArrayListAdd pf pxLst h pvItem = .error t) ∨
      (∃ h', xArrayListAdd pf pxLst h pvItem = .ok (ERR_OOM, { pxLst with pvArray := none }, h')) ∨
      ∃ pxLst' h', xArrayListAdd pf pxLst h pvItem = .ok (SUCCESS, pxLst', h') ∧
        pxLst'.unFreeIdx = 0 := by
  unfold CanAdd at hno
  split_ifs at hno with hfull
  · have hmoved : ∀ h₁, pxLst.resize pf h = .ok (SUCCESS, pxLst.moved (some ⟨h.brk, 0⟩), h₁) →
        Holds pf (pxLst.moved (some ⟨h.brk, 0⟩)) h₁ xs → ¬ pxLst.RoomIn pxLst.newSize →
        xArrayListAdd pf pxLst h pvItem = .error .outOfBounds ∨
          ∃ pxLst' h', xArrayListAdd pf pxLst h pvItem = .ok (SUCCESS, pxLst', h') ∧
            pxLst'.unFreeIdx = 0 := by
      intro h₁ hresize hl₁ hroom
      rw [add_of_resized hfull hresize]
      exact hl₁.store_fails hroom pvItem
    rcases Option.eq_none_or_eq_some pxLst.xPool with hpool | ⟨pp, hpool⟩
    · simp only [hpool, not_and_or, Nat.not_lt, Nat.le_zero] at hno
      rw [← or_assoc, Bool.not_eq_true] at hno
      rcases em (h.mallocOk h.calls = false ∨ pxLst.newSize = 0) with hlost | hgot
      · obtain ⟨h', hresize⟩ := hl.resize_lost hpool hlost
        exact Or.inr (Or.inl ⟨h', add_of_refused hfull hresize pvItem⟩)
      · have hroom := hno.resolve_left hgot
        obtain ⟨hm, hpos⟩ := not_or.mp hgot
        obtain ⟨h₁, hresize, hblk, hbrk⟩ :=
          hl.resize_heap hpool (Bool.not_eq_false _ ▸ hm) (Nat.pos_of_ne_zero hpos)
        by_cases hle : xs.flatten.length ≤ pxLst.newSize
        · exact (hmoved h₁ hresize (hl.resize_heap_holds hpool hblk hbrk hle) hroom).imp
            (fun herr => ⟨_, herr⟩) Or.inr
        · have hwrite := hblk.append_outOfBounds xs.flatten.length (x := pxLst.item pvItem)
            (Nat.lt_of_lt_of_le (Nat.not_le.mp hle) (Nat.le_add_right _ _))
          rw [← hl.freeOffset] at hwrite
          have hstore : (pxLst.moved (some ⟨h.brk, 0⟩)).store h₁ pvItem = .error .outOfBounds :=
            store_of_error hwrite
          exact Or.inl ⟨_, (add_of_resized hfull hresize pvItem).trans hstore⟩
    · simp only [hpool, not_or] at hno
      obtain ⟨hr, hno⟩ := hno
      cases hm : h.mallocOk h.calls with
      | false => exact Or.inl ⟨_, add_of_error hfull (hl.resize_abort hpool hr hm) pvItem⟩
      | true =>
        have hroom : ¬ pxLst.RoomIn pxLst.newSize := fun hroom => hno ⟨hm, hroom⟩
        have hpooled := hl.resize_pool hpool hfull hr hm
        split_ifs at hpooled with hle
        · obtain ⟨h₁, hresize, hl₁⟩ := hpooled
          exact (hmoved h₁ hresize hl₁ hroom).imp (fun herr => ⟨_, herr⟩) Or.inr
        · exact Or.inl ⟨_, add_of_error hfull hpooled pvItem⟩
  · rw [add_of_not_full hfull]
    exact (hl.store_fails hno pvItem).imp (fun herr => ⟨_, herr⟩) Or.inr

/-! ### Finding and removing -/

theorem count_pos (hne : pxLst.unFreeIdx ≠ 0) : 0 < pxLst.unFreeIdx.toNat :=
  Nat.pos_of_ne_zero fun hzero => hne (UInt64.toNat_inj.mp hzero)

theorem pred_toNat (hne : pxLst.unFreeIdx ≠ 0) :
    (pxLst.unFreeIdx - 1).toNat = pxLst.unFreeIdx.toNat - 1 := by
  have hle : (1 : UInt64) ≤ pxLst.unFreeIdx := UInt64.le_iff_toNat_le.mpr (count_pos hne)
  rw [UInt64.toNat_sub_of_le _ _ hle]
  rfl

theorem Holds.past_iff (hl : Holds pf pxLst h xs) (hne : pxLst.unFreeIdx ≠ 0) (unIdx : UInt64) :
    pxLst.unFreeIdx - 1 < unIdx ↔ xs.length ≤ unIdx.toNat := by
  have hpos := count_pos hne
  rw [UInt64.lt_iff_toNat_lt, pred_toNat hne, ← hl.unFreeIdx]
  omega

/-- With no items, every index is taken for one of an item. -/
theorem not_past_of_empty (hzero : pxLst.unFreeIdx = 0) (unIdx : UInt64) :
    ¬ pxLst.unFreeIdx - 1 < unIdx := by
  rw [hzero, UInt64.lt_iff_toNat_lt]
  have hlt := unIdx.toNat_lt
  change ¬ 2 ^ 64 - 1 < unIdx.toNat
  omega

/-- An item is found where its index leads, and nothing past the last one. -/
theorem Holds.get (hl : Holds pf pxLst h xs) (hne : pxLst.unFreeIdx ≠ 0) (unIdx : UInt64) :
    (xs.length ≤ unIdx.toNat ∧ pvArrayListGet pxLst unIdx = .ok none) ∨
      ∃ x p, xs[unIdx.toNat]? = some x ∧ pvArrayListGet pxLst unIdx = .ok (some p) ∧
        h.read (some p) 0 pxLst.unItemSz.toNat = .ok x := by
  by_cases hpast : pxLst.unFreeIdx - 1 < unIdx
  · exact Or.inl ⟨(hl.past_iff hne unIdx).mp hpast, if_pos hpast⟩
  · have hidx : unIdx.toNat < xs.length :=
      Nat.not_le.mp fun hle => hpast ((hl.past_iff hne unIdx).mpr hle)
    obtain ⟨a, hp, -, ⟨rest, hblk, hlen⟩, -⟩ := hl.array
    have hslot : (unIdx.toNat + 1) * pxLst.unItemSz.toNat ≤ (xs.flatten ++ rest).length := by
      rw [List.length_append]
      exact Nat.le_trans (hl.fit.le_length hidx) (Nat.le_add_right _ _)
    have hoff : (unIdx * pxLst.unItemSz).toNat = unIdx.toNat * pxLst.unItemSz.toNat :=
      toNat_mul_of_le (Nat.le_trans (Nat.mul_le_mul_right _ (Nat.le_succ _)) (hlen ▸ hslot))
    refine Or.inr ⟨xs[unIdx.toNat], ⟨a, unIdx.toNat * pxLst.unItemSz.toNat⟩,
      List.getElem?_eq_getElem hidx, ?_, ?_⟩
    · rw [pvArrayListGet, if_neg hpast, hp, hoff, deref_some, Exec.ok_bind]
      simp only [Ptr.add, Nat.zero_add]
      rfl
    · rw [Nat.succ_mul] at hslot
      rw [Heap.read_of_block hblk (by simpa using hslot), Nat.add_zero, hl.fit.slot rest hidx]

theorem get_empty (hzero : pxLst.unFreeIdx = 0) (unIdx : UInt64) :
    pvArrayListGet pxLst unIdx ≠ .ok none := by
  rw [pvArrayListGet, if_neg (not_past_of_empty hzero unIdx)]
  cases pxLst.pvArray with
  | none => simp
  | some p => simp [pure, Except.pure]

/-- The list without an item, when its array begins with the others. -/
theorem Holds.erased (hl : Holds pf pxLst h xs) (hne : pxLst.unFreeIdx ≠ 0) {i : ℕ}
    (hi : i < xs.length) {a : ℕ} (hp : pxLst.pvArray = some ⟨a, 0⟩) {h' : Heap}
    (hrsrcs : h'.rsrcs = h.rsrcs) (hpools : h'.pools = h.pools) (hbrk : h'.brk = h.brk)
    (hblk : Begins h' a (xs.eraseIdx i).flatten pxLst.allocated) :
    Holds pf { pxLst with unFreeIdx := pxLst.unFreeIdx - 1 } h' (xs.eraseIdx i) where
  unFreeIdx := by
    rw [List.length_eraseIdx_of_lt hi, ← hl.unFreeIdx]
    exact pred_toNat hne
  fit := hl.fit.eraseIdx i
  supplied pp hpp := by
    rw [hpools]
    exact hl.supplied pp hpp
  array := by
    obtain ⟨b, hb, hbelow, -, hlent⟩ := hl.array
    cases hp.symm.trans hb
    refine ⟨a, hp, hbrk.symm ▸ hbelow, hblk, fun pp hpp hv => ?_⟩
    rw [hrsrcs]
    exact hlent pp hpp hv

/-- The last item is not moved. -/
theorem eraseIdx_last {i : ℕ} (hi : i + 1 = xs.length) (rest : Bytes) :
    xs.flatten ++ rest = (xs.eraseIdx i).flatten ++ ((xs.drop i).flatten ++ rest) := by
  rw [List.eraseIdx_eq_take_drop_succ, List.drop_of_length_le (Nat.le_of_eq hi.symm),
    List.append_nil, ← List.append_assoc, ← List.flatten_append, List.take_append_drop]

/-- Where the items behind one begin, and how many bytes are moved from there. -/
theorem Holds.moveOffsets (hl : Holds pf pxLst h xs) {unIdx : UInt64}
    (hidx : unIdx.toNat + 1 < xs.length) :
    ((unIdx + 1) * pxLst.unItemSz).toNat = (unIdx.toNat + 1) * pxLst.unItemSz.toNat ∧
      (unIdx * pxLst.unItemSz).toNat = unIdx.toNat * pxLst.unItemSz.toNat ∧
      (pxLst.unFreeIdx * pxLst.unItemSz).toNat = xs.length * pxLst.unItemSz.toNat := by
  have hall := hl.le_allocated
  have hcount := hl.unFreeIdx
  have hsucc : (unIdx + 1).toNat = unIdx.toNat + 1 := by
    have hlt := pxLst.unFreeIdx.toNat_lt
    rw [UInt64.toNat_add]
    exact Nat.mod_eq_of_lt (by change unIdx.toNat + 1 < 2 ^ 64; omega)
  have hsrc : (unIdx.toNat + 1) * pxLst.unItemSz.toNat ≤ pxLst.allocated :=
    Nat.le_trans (Nat.mul_le_mul_right _ (by omega)) hall
  have hdst : unIdx.toNat * pxLst.unItemSz.toNat ≤ pxLst.allocated :=
    Nat.le_trans (Nat.mul_le_mul_right _ (Nat.le_succ _)) hsrc
  refine ⟨?_, toNat_mul_of_le hdst, ?_⟩
  · rw [← hsucc] at hsrc ⊢
    exact toNat_mul_of_le hsrc
  · rw [toNat_mul_of_le hall, hcount]

/-- The items behind one are moved over it, and with them as many bytes as there are items. -/
theorem Holds.shift (hl : Holds pf pxLst h xs) (hne : pxLst.unFreeIdx ≠ 0) {unIdx : UInt64}
    (hidx : unIdx.toNat + 1 < xs.length)
    (hfits : (unIdx.toNat + 1 + xs.length) * pxLst.unItemSz.toNat ≤ pxLst.allocated) :
    ∃ bs h', h.read pxLst.pvArray ((unIdx + 1) * pxLst.unItemSz).toNat
        (pxLst.unFreeIdx * pxLst.unItemSz).toNat = .ok bs ∧
      h.write pxLst.pvArray (unIdx * pxLst.unItemSz).toNat bs = .ok h' ∧
      Holds pf { pxLst with unFreeIdx := pxLst.unFreeIdx - 1 } h' (xs.eraseIdx unIdx.toNat) := by
  obtain ⟨hsrc, hdst, hsize⟩ := hl.moveOffsets hidx
  obtain ⟨a, hp, -, ⟨rest, hblk, hlen⟩, -⟩ := hl.array
  rw [Nat.add_mul, ← hlen] at hfits
  have hin : unIdx.toNat < xs.length := Nat.lt_of_succ_lt hidx
  obtain ⟨rest', hmoved⟩ := hl.fit.moved rest hin
  obtain ⟨bs, hbs⟩ : ∃ bs, bs = ((xs.flatten ++ rest).drop
    ((unIdx.toNat + 1) * pxLst.unItemSz.toNat)).take (xs.length * pxLst.unItemSz.toNat) := ⟨_, rfl⟩
  have hread := Heap.read_of_block (p := ⟨a, 0⟩) hblk (by rw [Nat.zero_add]; exact hfits)
  rw [Nat.zero_add, ← hbs] at hread
  rw [← hbs] at hmoved
  have hlenbs : bs.length = xs.length * pxLst.unItemSz.toNat := by
    rw [hbs, List.length_take, List.length_drop]
    omega
  have hroom : unIdx.toNat * pxLst.unItemSz.toNat + bs.length ≤ (xs.flatten ++ rest).length := by
    have hstep := Nat.mul_le_mul_right pxLst.unItemSz.toNat (Nat.le_succ unIdx.toNat)
    rw [hlenbs]
    exact Nat.le_trans (Nat.add_le_add_right hstep _) hfits
  have hwrite := @Heap.write_of_block h ⟨a, 0⟩ _ bs _ hblk (by rw [Nat.zero_add]; exact hroom)
  rw [Nat.zero_add] at hwrite
  refine ⟨bs, h.setBlock a (some (splice (xs.flatten ++ rest)
    (unIdx.toNat * pxLst.unItemSz.toNat) bs)), by rw [hsrc, hsize, hp, hread],
    by rw [hdst, hp, hwrite], hl.erased hne hin hp rfl rfl rfl ⟨rest' ++
      (xs.flatten ++ rest).drop (unIdx.toNat * pxLst.unItemSz.toNat + bs.length), ?_, ?_⟩⟩
  · rw [Heap.setBlock_self, splice, hmoved, List.append_assoc]
  · rw [← List.append_assoc, ← hmoved]
    exact (splice_length hroom).trans hlen

/-- A removal takes the item out when what it moves is inside the array. -/
theorem Holds.remove (hl : Holds pf pxLst h xs) (hne : pxLst.unFreeIdx ≠ 0) {unIdx : UInt64}
    (hmoves : unIdx.toNat + 1 < xs.length →
      (unIdx.toNat + 1 + xs.length) * pxLst.unItemSz.toNat ≤ pxLst.allocated) :
    ∃ pxLst' h', vArrayListRemove pxLst h unIdx = .ok (pxLst', h') ∧
      Holds pf pxLst' h' (xs.eraseIdx unIdx.toNat) ∧ pxLst'.unItemSz = pxLst.unItemSz := by
  have hcount := hl.unFreeIdx
  have hpred := pred_toNat hne
  rw [vArrayListRemove]
  split_ifs with hpast hlast
  · rw [List.eraseIdx_of_length_le ((hl.past_iff hne unIdx).mp hpast)]
    exact ⟨pxLst, h, rfl, hl, rfl⟩
  · obtain ⟨a, hp, -, ⟨rest, hblk, hlen⟩, -⟩ := hl.array
    have hidx : unIdx.toNat + 1 = xs.length := by
      have hpos := count_pos hne
      rw [hlast]
      omega
    have hsplit := eraseIdx_last hidx rest
    refine ⟨_, h, rfl, hl.erased hne (Nat.lt_of_succ_le (Nat.le_of_eq hidx)) hp rfl rfl rfl ?_, rfl⟩
    exact ⟨_, hsplit ▸ hblk, hsplit ▸ hlen⟩
  · have hidx : unIdx.toNat + 1 < xs.length := by
      have hle := mt (hl.past_iff hne unIdx).mpr hpast
      have hneq : unIdx.toNat ≠ (pxLst.unFreeIdx - 1).toNat := fun heq =>
        hlast (UInt64.toNat_inj.mp heq)
      omega
    obtain ⟨bs, h', hread, hwrite, hl'⟩ := hl.shift hne hidx (hmoves hidx)
    refine ⟨_, h', ?_, hl', rfl⟩
    rw [hread, Exec.ok_bind, hwrite]
    rfl

/-- A removal which moves bytes from outside of the array does not come back. -/
theorem Holds.remove_outOfBounds (hl : Holds pf pxLst h xs) {unIdx : UInt64}
    (hidx : unIdx.toNat + 1 < xs.length)
    (hmoves : pxLst.allocated < (unIdx.toNat + 1 + xs.length) * pxLst.unItemSz.toNat) :
    vArrayListRemove pxLst h unIdx = .error .outOfBounds := by
  have hne : pxLst.unFreeIdx ≠ 0 := by
    intro hzero
    have hcount := hl.unFreeIdx
    rw [hzero] at hcount
    exact absurd hidx (hcount ▸ Nat.not_lt_zero _)
  have hpred := pred_toNat hne
  have hcount := hl.unFreeIdx
  have hpast : ¬ pxLst.unFreeIdx - 1 < unIdx := by
    rw [hl.past_iff hne]
    omega
  have hlast : unIdx ≠ pxLst.unFreeIdx - 1 := by
    intro heq
    rw [heq] at hidx
    omega
  obtain ⟨hsrc, -, hsize⟩ := hl.moveOffsets hidx
  obtain ⟨a, hp, -, ⟨rest, hblk, hlen⟩, -⟩ := hl.array
  rw [Nat.add_mul, ← hlen] at hmoves
  have hread := Heap.read_outOfBounds (p := ⟨a, 0⟩) hblk
    (by rw [Nat.zero_add]; exact Nat.not_le.mpr hmoves)
  rw [vArrayListRemove, if_neg hpast, if_neg hlast, hsrc, hsize, hp, hread]
  rfl

/-- A removal from an empty list leaves the largest count there is, if it comes back. -/
theorem remove_empty (hzero : pxLst.unFreeIdx = 0) {unIdx : UInt64} {pxLst' : ArrayList} {h' : Heap}
    (hremove : vArrayListRemove pxLst h unIdx = .ok (pxLst', h')) : pxLst'.unFreeIdx = 0 - 1 := by
  rw [vArrayListRemove, if_neg (not_past_of_empty hzero unIdx)] at hremove
  split_ifs at hremove
  · cases hremove
    rw [hzero]
  · obtain ⟨bs, -, hremove⟩ := Exec.bind_eq_ok.mp hremove
    obtain ⟨h₁, -, hremove⟩ := Exec.bind_eq_ok.mp hremove
    cases hremove
    rw [hzero]

end RinaSense.Common.ArrayLists
