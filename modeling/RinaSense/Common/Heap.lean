import RinaSense.Common.Platform
import RinaSense.Library.Memory

/-!
# The heap

Byte blocks obtained from `malloc` together with the netbuf structures and the
resource pools, each at an address of its own. Which requests `malloc` refuses and
what its blocks contain at first is fixed from outside.
-/

namespace RinaSense.Common

open Library.Memory

/-- The netbuf kinds of `eNetBufType_t`. -/
inductive NetBufType
  | NB_UNKNOWN
  | NB_ETH_HDR
  | NB_ETH_DATA
  | NB_RINA_ARP
  | NB_RINA_PCI
  | NB_RINA_DATA
deriving DecidableEq, Repr

/-- The release functions which a netbuf can carry. -/
inductive FreeMethod
  | vNetBufFreeNormal
  | vNetBufFreePool
  | vNetBufFreeButDont
deriving DecidableEq, Repr

abbrev NbPtr := ℕ

abbrev PoolPtr := ℕ

structure Netbuf where
  pxNext : Option NbPtr
  pxFirst : NbPtr
  eType : NetBufType
  unSz : ℕ
  pxBuf : Option Ptr
  pxBufStart : Option Ptr
  xFreed : Bool
  freemethod : Option FreeMethod
  xPool : Option PoolPtr
deriving DecidableEq, Repr

/-- The header `struct rsrc` in front of the payload of a resource. -/
structure Rsrc where
  pxPool : PoolPtr
  pcResName : Option String
  /-- The flag is `RESFREE_MAGIC`, which marks a resource on a freelist. -/
  xOnFreelist : Bool
deriving DecidableEq, Repr

/-- A resource pool; freelist and active list hold payload addresses. -/
structure RsrcPool where
  pcName : String
  ulTotalAllocs : ℕ
  uxSizeEach : ℕ
  uiIncrement : UInt16
  uiFreeOnFree : Bool
  uiMaxNumRes : UInt16
  uiNumInUse : UInt16
  uiNumFree : UInt16
  uiLowWater : UInt16
  uiHiWater : UInt16
  pxFreelist : List ℕ
  xActive : List ℕ
deriving DecidableEq, Repr

structure Heap where
  mem : Mem
  netbufs : NbPtr → Option Netbuf
  rsrcs : ℕ → Option Rsrc
  pools : PoolPtr → Option RsrcPool
  /-- The first address which was never handed out. -/
  brk : ℕ
  /-- The number of requests made so far. -/
  calls : ℕ
  mallocOk : ℕ → Bool
  junk : ℕ → ℕ → UInt8

/-- No request to `malloc` is refused. -/
def Heap.MemoryAvailable (h : Heap) : Prop := ∀ n, h.mallocOk n = true

def Heap.called (h : Heap) : Heap := { h with calls := h.calls + 1 }

/-- The heap after `n` requests which changed nothing else. -/
def Heap.afterCalls (h : Heap) (n : ℕ) : Heap := { h with calls := h.calls + n }

def Heap.setBlock (h : Heap) (a : ℕ) (bs : Option Bytes) : Heap :=
  { h with mem := Function.update h.mem a bs }

def Heap.setNetbuf (h : Heap) (p : NbPtr) (nb : Option Netbuf) : Heap :=
  { h with netbufs := Function.update h.netbufs p nb }

def Heap.setRsrc (h : Heap) (a : ℕ) (r : Option Rsrc) : Heap :=
  { h with rsrcs := Function.update h.rsrcs a r }

def Heap.setPool (h : Heap) (p : PoolPtr) (pool : RsrcPool) : Heap :=
  { h with pools := Function.update h.pools p (some pool) }

/-- Bytes left over in a block from earlier uses of its memory. -/
def Heap.stale (h : Heap) (a n : ℕ) : Bytes := (List.range n).map (h.junk a)

@[simp] theorem Heap.stale_length (h : Heap) (a n : ℕ) : (h.stale a n).length = n := by
  simp [Heap.stale]

/-- A block of `n` bytes whose contents are left over from earlier uses. -/
def pvRsMemAlloc (h : Heap) (n : ℕ) : Option ℕ × Heap :=
  if h.mallocOk h.calls then
    (some h.brk,
      { h.called.setBlock h.brk (some (h.stale h.brk n)) with
        brk := h.brk + 1 })
  else (none, h.called)

/-- A netbuf structure from `malloc`, which its caller fills in. -/
def pvRsMemAllocNetbuf (h : Heap) (nb : Netbuf) : Option NbPtr × Heap :=
  if h.mallocOk h.calls then
    (some h.brk, { h.called.setNetbuf h.brk (some nb) with brk := h.brk + 1 })
  else (none, h.called)

/-- Releasing a block which is not allocated is undefined. -/
def vRsMemFree (h : Heap) (p : Option Ptr) : Exec Heap :=
  match p with
  | none => .ok h
  | some p =>
    if p.off = 0 ∧ (h.mem p.block).isSome then .ok (h.setBlock p.block none)
    else .error .outOfBounds

/-- Releasing a netbuf structure. -/
def vRsMemFreeNetbuf (h : Heap) (p : NbPtr) : Exec Heap :=
  if (h.netbufs p).isSome then .ok (h.setNetbuf p none) else .error .outOfBounds

def Heap.netbuf (h : Heap) (p : NbPtr) : Exec Netbuf := inBounds (h.netbufs p)

def Heap.read (h : Heap) (p : Option Ptr) (off n : ℕ) : Exec Bytes := do
  let p ← deref p
  inBounds (load h.mem (p.add off) n)

def Heap.write (h : Heap) (p : Option Ptr) (off : ℕ) (bs : Bytes) : Exec Heap := do
  let p ← deref p
  let mem ← inBounds (store h.mem (p.add off) bs)
  return { h with mem := mem }

/-- The memory which a pointer to an item of `n` bytes leads to. -/
abbrev ItemBuf (n : ℕ) := { pxItem : Bytes // n ≤ pxItem.length }

/-- The bytes which `memcpy` reads from a buffer of the caller. -/
def memcpyFrom (pxItem : Bytes) (n : ℕ) : Exec Bytes :=
  inBounds (if n ≤ pxItem.length then some (pxItem.take n) else none)

/-- The buffer with the bytes which `memcpy` writes to its front. -/
def memcpyTo (pxItem bs : Bytes) : Exec Bytes :=
  inBounds (if bs.length ≤ pxItem.length then some (splice pxItem 0 bs) else none)

/-- The bytes of a block which is resized. -/
def Heap.resized (h : Heap) (a : ℕ) (bs : Bytes) (n : ℕ) : Bytes :=
  bs.take n ++ (h.stale a n).drop bs.length

/-- The block moves to its new place. When there is none it stays, and when nothing is to be left
of it, it is released. -/
def pvRsMemRealloc (h : Heap) (p : Option Ptr) (n : ℕ) : Exec (Option Ptr × Heap) :=
  match p with
  | none =>
    let (a, h) := pvRsMemAlloc h n
    .ok (a.map fun a => ⟨a, 0⟩, h)
  | some p => do
    let bs ← inBounds (if p.off = 0 then h.mem p.block else none)
    if n = 0 then return (none, h.setBlock p.block none)
    match pvRsMemAlloc h n with
    | (none, h) => return (none, h)
    | (some a, h') =>
      return (some ⟨a, 0⟩, (h'.setBlock a (some (h.resized a bs n))).setBlock p.block none)

@[simp] theorem Heap.afterCalls_zero (h : Heap) : h.afterCalls 0 = h := rfl

@[simp] theorem Heap.called_afterCalls (h : Heap) (n : ℕ) :
    (h.afterCalls n).called = h.afterCalls (n + 1) := rfl

@[simp] theorem Heap.afterCalls_called (h : Heap) (n : ℕ) :
    h.called.afterCalls n = h.afterCalls (n + 1) := by
  simp only [Heap.called, Heap.afterCalls, Nat.add_assoc, Nat.add_comm 1 n]

@[simp] theorem Heap.afterCalls_afterCalls (h : Heap) (m n : ℕ) :
    (h.afterCalls m).afterCalls n = h.afterCalls (m + n) := by
  simp only [Heap.afterCalls, Nat.add_assoc]

theorem Heap.MemoryAvailable.afterCalls {h : Heap} (hm : h.MemoryAvailable) (n : ℕ) :
    (h.afterCalls n).MemoryAvailable := hm

@[simp] theorem Heap.netbuf_of_some {h : Heap} {p : NbPtr} {nb : Netbuf}
    (hp : h.netbufs p = some nb) : h.netbuf p = .ok nb := by
  simp [Heap.netbuf, hp]

@[simp] theorem Heap.setNetbuf_self (h : Heap) (p : NbPtr) (nb : Option Netbuf) :
    (h.setNetbuf p nb).netbufs p = nb := by
  simp [Heap.setNetbuf]

theorem Heap.setNetbuf_of_ne (h : Heap) {p q : NbPtr} (nb : Option Netbuf) (hpq : q ≠ p) :
    (h.setNetbuf p nb).netbufs q = h.netbufs q := by
  simp [Heap.setNetbuf, hpq]

@[simp] theorem Heap.setNetbuf_mem (h : Heap) (p : NbPtr) (nb : Option Netbuf) :
    (h.setNetbuf p nb).mem = h.mem := rfl

@[simp] theorem Heap.setBlock_netbufs (h : Heap) (a : ℕ) (bs : Option Bytes) :
    (h.setBlock a bs).netbufs = h.netbufs := rfl

@[simp] theorem Heap.setBlock_self (h : Heap) (a : ℕ) (bs : Option Bytes) :
    (h.setBlock a bs).mem a = bs := by
  simp [Heap.setBlock]

theorem Heap.read_of_block {h : Heap} {p : Ptr} {b : Bytes} {off n : ℕ}
    (hb : h.mem p.block = some b) (hn : p.off + off + n ≤ b.length) :
    h.read (some p) off n = .ok ((b.drop (p.off + off)).take n) := by
  have hload := load_eq_some (m := h.mem) (p := p.add off) (n := n) hb hn
  simp [Heap.read, hload]

theorem Heap.read_outOfBounds {h : Heap} {p : Ptr} {b : Bytes} {off n : ℕ}
    (hb : h.mem p.block = some b) (hn : ¬ p.off + off + n ≤ b.length) :
    h.read (some p) off n = .error .outOfBounds := by
  have hload : load h.mem (p.add off) n = none := by simp [load, hb, hn]
  simp [Heap.read, hload]

/-- A write inside a block. -/
theorem Heap.write_of_block {h : Heap} {p : Ptr} {b bs : Bytes} {off : ℕ}
    (hb : h.mem p.block = some b) (hbs : p.off + off + bs.length ≤ b.length) :
    h.write (some p) off bs = .ok (h.setBlock p.block (some (splice b (p.off + off) bs))) := by
  have hstore := store_eq_some (p := p.add off) hb hbs
  simp only [Heap.write, deref_some, Exec.ok_bind, hstore, inBounds_some]
  rfl

theorem Heap.write_outOfBounds {h : Heap} {p : Ptr} {b bs : Bytes} {off : ℕ}
    (hb : h.mem p.block = some b) (hbs : ¬ p.off + off + bs.length ≤ b.length) :
    h.write (some p) off bs = .error .outOfBounds := by
  have hstore : store h.mem (p.add off) bs = none := by simp [store, hb, hbs]
  simp [Heap.write, hstore]

theorem Heap.write_middle {h : Heap} {a : ℕ} {pre old post bs : Bytes} {o off : ℕ}
    (hblk : h.mem a = some (pre ++ (old ++ post))) (ho : o + off = pre.length)
    (hlen : bs.length = old.length) :
    h.write (some ⟨a, o⟩) off bs = .ok (h.setBlock a (some (pre ++ (bs ++ post)))) := by
  have hfits : o + off + bs.length ≤ (pre ++ (old ++ post)).length := by
    simp only [List.length_append]
    omega
  rw [Heap.write_of_block (p := ⟨a, o⟩) hblk hfits, ho, splice_middle hlen]

end RinaSense.Common
