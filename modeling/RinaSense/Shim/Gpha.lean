import RinaSense.Common.Heap
import RinaSense.Library.Buffer

/-!
# Protocol and hardware addresses

The address objects of `common/rina_gpha.c`. A protocol address is a byte string which
may be filled up with zero bytes. An address object belongs to one owner, so it is a
value here, and its allocations are requests to `malloc` which can be refused.
-/

namespace RinaSense.Shim

open Common Library.Memory Library.Filler

/-- The six bytes of an Ethernet address. -/
structure MACAddress where
  ucBytes : Bytes
  length_eq : ucBytes.length = 6
deriving DecidableEq

/-- The number of bytes of a `MACAddress_t`. -/
def macLength : ℕ := 6

@[simp] theorem MACAddress.ucBytes_length (m : MACAddress) : m.ucBytes.length = 6 :=
  m.length_eq

inductive GHAType
  | MAC_ADDR_802_3
deriving DecidableEq, Repr

structure GHA where
  xType : GHAType
  xAddress : MACAddress
deriving DecidableEq

/-- The length of a protocol address is the length of its bytes. -/
structure GPA where
  pucAddress : Bytes
deriving DecidableEq, Repr

def GPA.uxLength (pxGpa : GPA) : ℕ := pxGpa.pucAddress.length

/-- The part of an address in front of its filler, by which addresses are compared. -/
def GPA.key (pxGpa : GPA) : Bytes := cut 0 pxGpa.pucAddress

/-- A request to `malloc` for an object which the model treats as a value. -/
def requestMemory (h : Heap) : Bool × Heap := (h.mallocOk h.calls, h.called)

/-- A bounded read of a buffer. -/
def readBuf (b : Bytes) (o n : ℕ) : Exec Bytes := inBounds (slice b o n)

/-- A bounded write to a buffer. -/
def writeBuf (b : Bytes) (o : ℕ) (bs : Bytes) : Exec Bytes := inBounds (patch b o bs)

/-- A write right behind the bytes `xs` which a buffer starts with. -/
theorem writeBuf_next (b xs ys : Bytes) {o : ℕ} (ho : o = xs.length)
    (h : o + ys.length ≤ b.length) :
    writeBuf (splice b 0 xs) o ys = .ok (splice b 0 (xs ++ ys)) := by
  subst ho
  have hxs : 0 + xs.length ≤ b.length := by omega
  have hjoin := splice_splice ys hxs
  rw [Nat.zero_add] at hjoin
  rw [writeBuf, patch_eq_some (by rwa [splice_length hxs]), hjoin]
  rfl

theorem writeBuf_outOfBounds {b bs : Bytes} {o : ℕ} (h : ¬ o + bs.length ≤ b.length) :
    writeBuf b o bs = .error .outOfBounds := by
  rw [writeBuf, patch_eq_none h]
  rfl

def xIsGPAOK (pxGpa : GPA) : Bool := pxGpa.uxLength != 0

def xIsGHAOK (pxGha : GHA) : Bool := pxGha.xType == .MAC_ADDR_802_3

/-- The `uxLength` bytes from position `o` of the buffer `pucAddress`. The new buffer is
cleared before its allocation is checked. -/
def pxCreateGPA (h : Heap) (pucAddress : Bytes) (o uxLength : ℕ) :
    Exec (Option GPA × Heap) :=
  if uxLength = 0 then .ok (none, h)
  else
    match requestMemory h with
    | (false, h) => .ok (none, h)
    | (true, h) =>
      match requestMemory h with
      | (false, _) => .error .nullPointer
      | (true, h) => do
        let bs ← readBuf pucAddress o uxLength
        return (some ⟨bs⟩, h)

/-- Success, the address and the heap. -/
def xGPAShrink (h : Heap) (pxGpa : GPA) (ucFiller : UInt8) : Bool × GPA × Heap :=
  if !xIsGPAOK pxGpa then (false, pxGpa, h)
  else if ucFiller ∈ pxGpa.pucAddress then
    match requestMemory h with
    | (false, h) => (false, pxGpa, h)
    | (true, h) => (true, ⟨cut ucFiller pxGpa.pucAddress⟩, h)
  else (true, pxGpa, h)

def xGPAGrow (h : Heap) (pxGpa : GPA) (uxLength : ℕ) (ucFiller : UInt8) : Bool × GPA × Heap :=
  if !xIsGPAOK pxGpa then (false, pxGpa, h)
  else if uxLength = 0 ∨ uxLength < pxGpa.uxLength then (false, pxGpa, h)
  else if pxGpa.uxLength = uxLength then (true, pxGpa, h)
  else
    match requestMemory h with
    | (false, h) => (false, pxGpa, h)
    | (true, h) => (true, ⟨pad ucFiller uxLength pxGpa.pucAddress⟩, h)

/-- The backward scan for the last byte which is not filler leaves an address which
consists of filler only. -/
def pxDupGPA (h : Heap) (pxSourcePa : GPA) (nDoShrink : Bool) (ucFiller : UInt8) :
    Exec (Option GPA × Heap) :=
  if !xIsGPAOK pxSourcePa then .ok (none, h)
  else
    match requestMemory h with
    | (false, h) => .ok (none, h)
    | (true, h) => do
      let bs ← if nDoShrink then
          inBounds (if strip ucFiller pxSourcePa.pucAddress = [] then none
            else some (strip ucFiller pxSourcePa.pucAddress))
        else .ok pxSourcePa.pucAddress
      match requestMemory h with
      | (false, h) => return (none, h)
      | (true, h) => return (some ⟨bs⟩, h)

/-- The hardware address at position `o` of a buffer. -/
def readMAC (b : Bytes) (o : ℕ) : Exec MACAddress :=
  inBounds (match hs : slice b o macLength with
    | none => none
    | some bs => some ⟨bs, slice_length hs⟩)

def pxCreateGHA (h : Heap) (xType : GHAType) (b : Bytes) (o : ℕ) :
    Exec (Option GHA × Heap) :=
  if xType ≠ .MAC_ADDR_802_3 then .ok (none, h)
  else
    match requestMemory h with
    | (false, h) => .ok (none, h)
    | (true, h) => do
      let mac ← readMAC b o
      return (some ⟨xType, mac⟩, h)

def pxDupGHA (h : Heap) (pxSourceHa : GHA) : Option GHA × Heap :=
  if !xIsGHAOK pxSourceHa then (none, h)
  else
    match requestMemory h with
    | (false, h) => (none, h)
    | (true, h) => (some pxSourceHa, h)

/-- The length of an address without its filler. -/
def prvGetActualAddressLength (pxPa : GPA) : ℕ := pxPa.key.length

/-- The loop of the source stops at the first zero byte. -/
def xGPACmp (gpa1 gpa2 : GPA) : Bool :=
  xIsGPAOK gpa1 && xIsGPAOK gpa2 &&
    (let n1 := prvGetActualAddressLength gpa1
     let n2 := prvGetActualAddressLength gpa2
     n1 == n2 && gpa1.pucAddress.take n1 == gpa2.pucAddress.take n1)

/-- Whether the address could be copied to a string. -/
def xGPAAddressToString (h : Heap) (pxGpa : GPA) : Bool × Heap :=
  if !xIsGPAOK pxGpa then (false, h) else requestMemory h

/-! ### With memory available -/

theorem requestMemory_available {h : Heap} (hm : h.MemoryAvailable) :
    requestMemory h = (true, h.afterCalls 1) := by
  rw [requestMemory, hm]
  rfl

theorem xIsGPAOK_iff (g : GPA) : xIsGPAOK g = true ↔ g.pucAddress ≠ [] := by
  simp [xIsGPAOK, GPA.uxLength]

theorem pxCreateGPA_available {h : Heap} (hm : h.MemoryAvailable) {b bs : Bytes} {o n : ℕ}
    (hn : n ≠ 0) (hs : slice b o n = some bs) :
    pxCreateGPA h b o n = .ok (some ⟨bs⟩, h.afterCalls 2) := by
  simp [pxCreateGPA, hn, requestMemory_available hm,
    requestMemory_available (hm.afterCalls 1), readBuf, hs, pure, Except.pure]

theorem xGPAShrink_available {h : Heap} (hm : h.MemoryAvailable) {g : GPA}
    (hg : g.pucAddress ≠ []) (f : UInt8) :
    ∃ k, xGPAShrink h g f = (true, ⟨cut f g.pucAddress⟩, h.afterCalls k) := by
  have hok := (xIsGPAOK_iff g).mpr hg
  by_cases hf : f ∈ g.pucAddress
  · exact ⟨1, by simp [xGPAShrink, hok, hf, requestMemory_available hm]⟩
  · exact ⟨0, by simp [xGPAShrink, hok, hf, cut_of_not_mem]⟩

theorem xGPAGrow_available {h : Heap} (hm : h.MemoryAvailable) {g : GPA} {n : ℕ}
    (hg : g.pucAddress ≠ []) (hn : g.uxLength ≤ n) (f : UInt8) :
    ∃ k, xGPAGrow h g n f = (true, ⟨pad f n g.pucAddress⟩, h.afterCalls k) := by
  have hok := (xIsGPAOK_iff g).mpr hg
  have hpos : g.uxLength ≠ 0 := by simpa [GPA.uxLength] using hg
  have hbad : ¬ (n = 0 ∨ n < g.uxLength) := by omega
  by_cases hsame : g.uxLength = n
  · refine ⟨0, ?_⟩
    rw [xGPAGrow, hok, if_neg (by simp), if_neg hbad, if_pos hsame, ← hsame, pad, GPA.uxLength,
      Nat.sub_self, List.replicate_zero, List.append_nil]
    rfl
  · refine ⟨1, ?_⟩
    rw [xGPAGrow, hok, if_neg (by simp), if_neg hbad, if_neg hsame, requestMemory_available hm]

theorem pxDupGPA_available {h : Heap} (hm : h.MemoryAvailable) {g : GPA}
    (hg : g.pucAddress ≠ []) (f : UInt8) :
    pxDupGPA h g false f = .ok (some g, h.afterCalls 2) := by
  have hok := (xIsGPAOK_iff g).mpr hg
  simp [pxDupGPA, hok, requestMemory_available hm, requestMemory_available (hm.afterCalls 1),
    pure, Except.pure]

theorem pxDupGPA_shrink_available {h : Heap} (hm : h.MemoryAvailable) {g : GPA} {f : UInt8}
    (hs : strip f g.pucAddress ≠ []) :
    pxDupGPA h g true f = .ok (some ⟨strip f g.pucAddress⟩, h.afterCalls 2) := by
  have hg : g.pucAddress ≠ [] := by
    intro hnil
    exact hs (by simp [hnil, strip])
  have hok := (xIsGPAOK_iff g).mpr hg
  simp [pxDupGPA, hok, hs, requestMemory_available hm,
    requestMemory_available (hm.afterCalls 1), pure, Except.pure]

theorem readMAC_eq {b : Bytes} {o : ℕ} {m : MACAddress} (hs : slice b o 6 = some m.ucBytes) :
    readMAC b o = .ok m := by
  unfold readMAC
  split
  · rename_i hnone
    rw [macLength, hs] at hnone
    cases hnone
  · rename_i bs hsome
    rw [macLength, hs, Option.some.injEq] at hsome
    subst hsome
    rfl

theorem pxCreateGHA_available {h : Heap} (hm : h.MemoryAvailable) {b : Bytes} {o : ℕ}
    {m : MACAddress} (hs : slice b o 6 = some m.ucBytes) :
    pxCreateGHA h .MAC_ADDR_802_3 b o = .ok (some ⟨.MAC_ADDR_802_3, m⟩, h.afterCalls 1) := by
  simp [pxCreateGHA, requestMemory_available hm, readMAC_eq hs, pure, Except.pure]

theorem xIsGHAOK_all (g : GHA) : xIsGHAOK g = true := by
  simp [xIsGHAOK]

theorem pxDupGHA_available {h : Heap} (hm : h.MemoryAvailable) (g : GHA) :
    pxDupGHA h g = (some g, h.afterCalls 1) := by
  simp [pxDupGHA, xIsGHAOK_all, requestMemory_available hm]

theorem xGPAAddressToString_available {h : Heap} (hm : h.MemoryAvailable) {g : GPA}
    (hg : g.pucAddress ≠ []) : xGPAAddressToString h g = (true, h.afterCalls 1) := by
  have hok := (xIsGPAOK_iff g).mpr hg
  simp [xGPAAddressToString, hok, requestMemory_available hm]

end RinaSense.Shim
