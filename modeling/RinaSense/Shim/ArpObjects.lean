import RinaSense.Library.Owned
import RinaSense.Library.Tracking
import RinaSense.Shim.ArpBounds

/-!
# The address objects of an extraction

The extraction with its address objects in memory of their own, where the other modules have
them as values. The value model is tracked step by step. When the extraction fails, its
objects have to be released, and the structure with the pointers to them is on the stack.
-/

namespace RinaSense.Shim

open Common Library.Memory Library.Filler Library.Owned Library.Tracking

/-- What stands at an address: a `gha_t`, a `gpa_t` or the bytes to which one points. -/
inductive AddrObject
  | gha (pxGha : GHA)
  | gpa (uxLength : ℕ) (pucAddress : Option ℕ)
  | bytes (bs : Bytes)
deriving DecidableEq

/-- The address objects, and the heap which answers the requests for them. -/
structure AddrHeap where
  heap : Heap
  objs : ℕ → Option AddrObject

/-- The members which an extraction assigns. A member without a value was not assigned yet. -/
structure ARPPacketPointers where
  pxSpa : Option (Option ℕ)
  pxSha : Option (Option ℕ)
  pxTpa : Option (Option ℕ)
  pxTha : Option (Option ℕ)
deriving DecidableEq, Repr

namespace AddrHeap

/-- An object from `malloc`, which its caller fills in. -/
def pvRsMemAlloc (s : AddrHeap) (o : AddrObject) : Option ℕ × AddrHeap :=
  if s.heap.mallocOk s.heap.calls then
    (some s.heap.brk, ⟨{ s.heap.called with brk := s.heap.brk + 1 },
      Function.update s.objs s.heap.brk (some o)⟩)
  else (none, ⟨s.heap.called, s.objs⟩)

def set (s : AddrHeap) (p : ℕ) (o : AddrObject) : AddrHeap :=
  { s with objs := Function.update s.objs p (some o) }

/-- Releasing what is not there is undefined. -/
def vRsMemFree (s : AddrHeap) (p : ℕ) : Exec AddrHeap :=
  if (s.objs p).isSome then .ok { s with objs := Function.update s.objs p none }
  else .error .outOfBounds

/-- The members of a `gpa_t`. -/
def gpa (s : AddrHeap) (p : ℕ) : Exec (ℕ × Option ℕ) :=
  match s.objs p with
  | some (.gpa uxLength pucAddress) => .ok (uxLength, pucAddress)
  | some (.gha _) => .error .outOfBounds
  | some (.bytes _) => .error .outOfBounds
  | none => .error .outOfBounds

/-- The first `n` bytes at an address. -/
def bytes (s : AddrHeap) (a n : ℕ) : Exec Bytes :=
  match s.objs a with
  | some (.bytes bs) => readBuf bs 0 n
  | some (.gha _) => .error .outOfBounds
  | some (.gpa _ _) => .error .outOfBounds
  | none => .error .outOfBounds

def xIsGPAOK (uxLength : ℕ) (pucAddress : Option ℕ) : Bool :=
  pucAddress.isSome && uxLength != 0

/-- The bytes are cleared before their allocation is checked. -/
def pucCreateAddress (s : AddrHeap) (uxLength : ℕ) : Exec (ℕ × AddrHeap) :=
  match s.pvRsMemAlloc (.bytes (List.replicate uxLength 0)) with
  | (none, _) => .error .nullPointer
  | (some a, s) => .ok (a, s)

def pxCreateGPA (s : AddrHeap) (pucAddress : Bytes) (o uxLength : ℕ) :
    Exec (Option ℕ × AddrHeap) :=
  if uxLength = 0 then .ok (none, s)
  else
    match s.pvRsMemAlloc (.gpa uxLength none) with
    | (none, s) => .ok (none, s)
    | (some pxGPA, s) => do
      let (a, s) ← s.pucCreateAddress (uxLength + 1)
      let s := s.set pxGPA (.gpa uxLength (some a))
      let bs ← readBuf pucAddress o uxLength
      return (some pxGPA, s.set a (.bytes (bs ++ [0])))

def xGPAShrink (s : AddrHeap) (pxGpa : ℕ) (ucFiller : UInt8) : Exec (Bool × AddrHeap) := do
  let (uxLength, pucAddress) ← s.gpa pxGpa
  if !xIsGPAOK uxLength pucAddress then return (false, s)
  let pucAddress ← deref pucAddress
  let bs ← s.bytes pucAddress uxLength
  if ucFiller ∈ bs then
    match s.pvRsMemAlloc (.bytes (cut ucFiller bs)) with
    | (none, s) => return (false, s)
    | (some pucNewAddress, s) => do
      let s ← s.vRsMemFree pucAddress
      return (true, s.set pxGpa (.gpa (cut ucFiller bs).length (some pucNewAddress)))
  else return (true, s)

def pxCreateGHA (s : AddrHeap) (xType : GHAType) (b : Bytes) (o : ℕ) :
    Exec (Option ℕ × AddrHeap) :=
  if xType ≠ .MAC_ADDR_802_3 then .ok (none, s)
  else
    match s.pvRsMemAlloc (.bytes []) with
    | (none, s) => .ok (none, s)
    | (some pxGha, s) => do
      let mac ← readMAC b o
      return (some pxGha, s.set pxGha (.gha ⟨xType, mac⟩))

/-- An address without bytes counts as destroyed already. -/
def vGPADestroy (s : AddrHeap) (pxGpa : ℕ) : Exec AddrHeap := do
  let (uxLength, pucAddress) ← s.gpa pxGpa
  if !xIsGPAOK uxLength pucAddress then return s
  let pucAddress ← deref pucAddress
  let s ← s.vRsMemFree pucAddress
  (s.set pxGpa (.gpa 0 none)).vRsMemFree pxGpa

def vGHADestroy (s : AddrHeap) (pxGha : ℕ) : Exec AddrHeap :=
  match s.objs pxGha with
  | some (.gha g) => if !xIsGHAOK g then .ok s else s.vRsMemFree pxGha
  | some (.gpa _ _) => .error .outOfBounds
  | some (.bytes _) => .error .outOfBounds
  | none => .error .outOfBounds

/-- Destroying what a member points to, unless that is nothing. -/
def destroyMember (s : AddrHeap) (destroy : AddrHeap → ℕ → Exec AddrHeap)
    (member : Option (Option ℕ)) : Exec AddrHeap := do
  match ← initialised member with
  | none => return s
  | some p => destroy s p

def prvARPFreeRequestData (s : AddrHeap) (pxARPData : ARPPacketPointers) : Exec AddrHeap := do
  let s ← s.destroyMember vGPADestroy pxARPData.pxSpa
  let s ← s.destroyMember vGHADestroy pxARPData.pxSha
  let s ← s.destroyMember vGPADestroy pxARPData.pxTpa
  s.destroyMember vGHADestroy pxARPData.pxTha

/-- The end of an extraction which fails. -/
def extractFail (s : AddrHeap) (pxARPData : ARPPacketPointers) :
    Exec (Bool × ARPPacketPointers × AddrHeap) := do
  let s ← s.prvARPFreeRequestData pxARPData
  return (false, pxARPData, s)

def prvARPExtractRequestData (pf : Platform) (s : AddrHeap) (pkt : Bytes) :
    Exec (Bool × ARPPacketPointers × AddrHeap) := do
  let hdr ← readHeader pkt
  rsAssert pf (hdr.usHType == RsHtoNS ARP_HARDWARE_TYPE_ETHERNET)
  rsAssert pf (hdr.ucHALength.toNat == macLength)
  let nPlen := hdr.ucPALength.toNat
  let ptrs := prvARPSetupRequestData hdr
  let (pxSha, s) ← s.pxCreateGHA .MAC_ADDR_802_3 pkt ptrs.ucSha
  match pxSha with
  | none => s.extractFail ⟨none, some none, none, none⟩
  | some sha => do
    let (pxSpa, s) ← s.pxCreateGPA pkt ptrs.ucSpa nPlen
    match pxSpa with
    | none => s.extractFail ⟨some none, some (some sha), none, none⟩
    | some spa => do
      let (pxTha, s) ← s.pxCreateGHA .MAC_ADDR_802_3 pkt ptrs.ucTha
      match pxTha with
      | none => s.extractFail ⟨some (some spa), some (some sha), none, some none⟩
      | some tha => do
        let (shrunk, s) ← s.xGPAShrink spa 0x00
        if !shrunk then s.extractFail ⟨some (some spa), some (some sha), none, some (some tha)⟩
        else do
          let (pxTpa, s) ← s.pxCreateGPA pkt ptrs.ucTpa nPlen
          match pxTpa with
          | none => s.extractFail ⟨some (some spa), some (some sha), some none, some (some tha)⟩
          | some tpa => do
            let pxARPData : ARPPacketPointers :=
              ⟨some (some spa), some (some sha), some (some tpa), some (some tha)⟩
            let (shrunk, s) ← s.xGPAShrink tpa 0x00
            if !shrunk then s.extractFail pxARPData else return (true, pxARPData, s)

end AddrHeap

/-- Nothing stands at addresses which were never handed out. -/
def AddrHeap.Fresh (s : AddrHeap) : Prop := ∀ a, s.heap.brk ≤ a → s.objs a = none

/-- Objects beside the values of a heap which was asked for as much memory. The extraction owns
those of the list, the others were there before. -/
structure Beside (f : ℕ → Option AddrObject) (h : Heap) (s : AddrHeap)
    (l : List (ℕ × AddrObject)) : Prop where
  calls : s.heap.calls = h.calls
  mallocOk : s.heap.mallocOk = h.mallocOk
  fresh : s.Fresh
  owns : Owns f s.objs l

/-- A `gpa_t` with its bytes, behind which its block may go on. -/
def gpaCells (p : ℕ) (g : GPA) (a : ℕ) (rest : Bytes) : List (ℕ × AddrObject) :=
  [(p, .gpa g.uxLength (some a)), (a, .bytes (g.pucAddress ++ rest))]

section Steps

variable {f : ℕ → Option AddrObject} {h : Heap} {s : AddrHeap} {l l' : List (ℕ × AddrObject)}
  {p a n : ℕ} {o o' : AddrObject} {g : GPA} {rest : Bytes}

theorem Beside.perm (hb : Beside f h s l) (hp : l.Perm l') : Beside f h s l' :=
  ⟨hb.calls, hb.mallocOk, hb.fresh, hb.owns.perm hp⟩

theorem Beside.granted (hb : Beside f h s l) :
    s.heap.mallocOk s.heap.calls = true ↔ Granted h 0 := by
  rw [hb.mallocOk, hb.calls]
  exact Iff.rfl

theorem Beside.alloc (hb : Beside f h s l) (hg : Granted h 0) (o : AddrObject) :
    ∃ p s', s.pvRsMemAlloc o = (some p, s') ∧ Beside f (h.afterCalls 1) s' ((p, o) :: l) := by
  refine ⟨s.heap.brk, _, if_pos (hb.granted.mpr hg), congrArg Nat.succ hb.calls, hb.mallocOk,
    fun a ha => ?_, ?_⟩
  · have hne : a ≠ s.heap.brk := Nat.ne_of_gt ha
    exact (Function.update_of_ne hne _ _).trans (hb.fresh a (Nat.le_of_succ_le ha))
  · exact hb.owns.fill (hb.fresh _ (Nat.le_refl _)) o

theorem Beside.allocRefused (hb : Beside f h s l) (hg : ¬ Granted h 0) (o : AddrObject) :
    ∃ s', s.pvRsMemAlloc o = (none, s') ∧ Beside f (h.afterCalls 1) s' l :=
  ⟨_, if_neg fun hs => hg (hb.granted.mp hs), congrArg Nat.succ hb.calls, hb.mallocOk, hb.fresh,
    hb.owns⟩

theorem Beside.set (hb : Beside f h s ((p, o) :: l)) (o' : AddrObject) :
    Beside f h (s.set p o') ((p, o') :: l) := by
  refine ⟨hb.calls, hb.mallocOk, fun a ha => ?_, hb.owns.change o'⟩
  have hne : a ≠ p := by
    rintro rfl
    have hcell := hb.owns.cell
    rw [hb.fresh a ha] at hcell
    cases hcell
  exact (Function.update_of_ne hne _ _).trans (hb.fresh a ha)

theorem Beside.free (hb : Beside f h s ((p, o) :: l)) :
    ∃ s', s.vRsMemFree p = .ok s' ∧ Beside f h s' l := by
  have hcell := hb.owns.cell
  refine ⟨_, if_pos (by rw [hcell]; rfl), hb.calls, hb.mallocOk,
    fun a ha => ?_, hb.owns.release⟩
  by_cases hap : a = p
  · subst hap
    exact Function.update_self _ _ _
  · exact (Function.update_of_ne hap _ _).trans (hb.fresh a ha)

/-- The values and the objects of a step which creates a protocol address. -/
def TracksGPA (f : ℕ → Option AddrObject) (l : List (ℕ × AddrObject)) (bs : Bytes) :
    Option GPA × Heap → Option ℕ × AddrHeap → Prop
  | (none, h), (none, s) => Beside f h s l
  | (some g, h), (some p, s) =>
    g = ⟨bs⟩ ∧ bs ≠ [] ∧ ∃ a rest, Beside f h s (gpaCells p g a rest ++ l)
  | (none, _), (some _, _) => False
  | (some _, _), (none, _) => False

/-- The values and the objects of a step which creates a hardware address. -/
def TracksGHA (f : ℕ → Option AddrObject) (l : List (ℕ × AddrObject)) :
    Option GHA × Heap → Option ℕ × AddrHeap → Prop
  | (none, h), (none, s) => Beside f h s l
  | (some g, h), (some p, s) => Beside f h s ((p, .gha g) :: l)
  | (none, _), (some _, _) => False
  | (some _, _), (none, _) => False

theorem Beside.pxCreateGHA (hb : Beside f h s l) (b : Bytes) (k : ℕ) :
    Tracks (TracksGHA f l) (Shim.pxCreateGHA h .MAC_ADDR_802_3 b k)
      (s.pxCreateGHA .MAC_ADDR_802_3 b k) := by
  rw [AddrHeap.pxCreateGHA, Shim.pxCreateGHA, if_neg (not_not_intro rfl),
    if_neg (not_not_intro rfl)]
  by_cases hg : Granted h 0
  · obtain ⟨p, s', halloc, hb'⟩ := hb.alloc hg (.bytes [])
    have hreq := hg.firstRequest
    rw [halloc, hreq]
    apply (tracks_refl (readMAC b k)).bind
    rintro mac _ rfl
    exact hb'.set _
  · obtain ⟨s', halloc, hb'⟩ := hb.allocRefused hg (.bytes [])
    have hreq := firstRequest_refused hg
    rw [halloc, hreq]
    exact hb'

theorem Beside.pxCreateGPA (hb : Beside f h s l) (b : Bytes) (k n : ℕ) :
    Tracks (TracksGPA f l ((b.drop k).take n)) (Shim.pxCreateGPA h b k n)
      (s.pxCreateGPA b k n) := by
  by_cases hn : n = 0
  · rw [Shim.pxCreateGPA, if_pos hn, AddrHeap.pxCreateGPA, if_pos hn]
    exact hb
  · rw [Shim.pxCreateGPA, if_neg hn, AddrHeap.pxCreateGPA, if_neg hn]
    by_cases hg : Granted h 0
    · obtain ⟨p, s₁, halloc, hb₁⟩ := hb.alloc hg (.gpa n none)
      have hreq := hg.firstRequest
      rw [halloc, hreq]
      by_cases hg' : Granted (h.afterCalls 1) 0
      · obtain ⟨a, s₂, halloc', hb₂⟩ := hb₁.alloc hg' (.bytes (List.replicate (n + 1) 0))
        have hreq' : requestMemory (h.afterCalls 1) = (true, (h.afterCalls 1).afterCalls 1) :=
          Prod.ext hg' rfl
        have hcreate : s₁.pucCreateAddress (n + 1) = .ok (a, s₂) := by
          rw [AddrHeap.pucCreateAddress, halloc']
        have hb₃ := (hb₂.perm (List.Perm.swap _ _ _)).set (.gpa n (some a))
        simp only [hreq', hcreate, Exec.ok_bind]
        by_cases hin : k + n ≤ b.length
        · have hread : readBuf b k n = .ok ((b.drop k).take n) := by
            rw [readBuf, slice, if_pos hin]
            rfl
          have hlen : ((b.drop k).take n).length = n := by
            rw [List.length_take, List.length_drop]
            omega
          have hb₄ := (hb₃.perm (List.Perm.swap _ _ _)).set (.bytes ((b.drop k).take n ++ [0]))
          rw [hread]
          refine ⟨rfl, ne_nil_of_length hlen hn, a, [0], ?_⟩
          have hcells : gpaCells p ⟨(b.drop k).take n⟩ a [0] ++ l = (p, .gpa n (some a)) ::
              (a, .bytes ((b.drop k).take n ++ [0])) :: l := by
            rw [gpaCells, GPA.uxLength, hlen]
            rfl
          rw [hcells]
          exact hb₄.perm (List.Perm.swap _ _ _)
        · have hread : readBuf b k n = .error .outOfBounds := by
            rw [readBuf, slice, if_neg hin]
            rfl
          rw [hread]
          exact Eq.refl Trap.outOfBounds
      · obtain ⟨s₂, halloc', -⟩ := hb₁.allocRefused hg' (.bytes (List.replicate (n + 1) 0))
        have hreq' : requestMemory (h.afterCalls 1) = (false, (h.afterCalls 1).afterCalls 1) :=
          Prod.ext (eq_false_of_ne_true hg') rfl
        have hcreate : s₁.pucCreateAddress (n + 1) = .error .nullPointer := by
          rw [AddrHeap.pucCreateAddress, halloc']
        simp only [hreq', hcreate]
        exact Eq.refl Trap.nullPointer
    · obtain ⟨s', halloc, hb'⟩ := hb.allocRefused hg (.gpa n none)
      have hreq := firstRequest_refused hg
      rw [halloc, hreq]
      exact hb'

/-- A shrunk address keeps its structure and has its bytes elsewhere, unless nothing was to be
cut off. -/
theorem Beside.xGPAShrink (hb : Beside f h s (gpaCells p g a rest ++ l)) (hok : g.pucAddress ≠ []) :
    ∃ s' a' rest', s.xGPAShrink p 0 = .ok ((Shim.xGPAShrink h g 0).1, s') ∧
      Beside f (Shim.xGPAShrink h g 0).2.2 s'
        (gpaCells p (Shim.xGPAShrink h g 0).2.1 a' rest' ++ l) := by
  have hgpa : s.gpa p = .ok (g.uxLength, some a) := by
    rw [AddrHeap.gpa, hb.owns.cell]
  have hbytes : s.bytes a g.uxLength = .ok g.pucAddress := by
    rw [AddrHeap.bytes, (hb.perm (List.Perm.swap _ _ _)).owns.cell]
    have hs : slice (g.pucAddress ++ rest) 0 g.uxLength = some g.pucAddress :=
      slice_middle [] g.pucAddress rest rfl rfl
    simp only [readBuf, hs, inBounds_some]
  have hlen : (g.uxLength != 0) = true := (xIsGPAOK_iff g).mpr hok
  have hok' : AddrHeap.xIsGPAOK g.uxLength (some a) = true := hlen
  have hval : Shim.xIsGPAOK g = true := hlen
  simp only [AddrHeap.xGPAShrink, hgpa, Exec.ok_bind, hok', Bool.not_true, Bool.false_eq_true,
    if_false, deref_some, hbytes, Shim.xGPAShrink, hval]
  by_cases hz : 0 ∈ g.pucAddress
  · simp only [if_pos hz]
    by_cases hg : Granted h 0
    · obtain ⟨a', s₁, halloc, hb₁⟩ := hb.alloc hg (.bytes (cut 0 g.pucAddress))
      have hreq := hg.firstRequest
      have hperm : ((a', AddrObject.bytes (cut 0 g.pucAddress)) :: (gpaCells p g a rest ++ l)).Perm
          ((a, .bytes (g.pucAddress ++ rest)) :: (p, .gpa g.uxLength (some a)) ::
            (a', .bytes (cut 0 g.pucAddress)) :: l) := by
        exact (List.reverse_perm [(a', AddrObject.bytes (cut 0 g.pucAddress)),
          (p, .gpa g.uxLength (some a)), (a, .bytes (g.pucAddress ++ rest))]).symm.append_right l
      obtain ⟨s₂, hfree, hb₂⟩ := (hb₁.perm hperm).free
      refine ⟨s₂.set p (.gpa (cut 0 g.pucAddress).length (some a')), a', [], ?_, ?_⟩
      · rw [halloc, hreq]
        simp only [hfree, Exec.ok_bind]
        rfl
      · rw [hreq]
        simp only [gpaCells, List.append_nil]
        exact hb₂.set _
    · obtain ⟨s₁, halloc, hb₁⟩ := hb.allocRefused hg (.bytes (cut 0 g.pucAddress))
      have hreq := firstRequest_refused hg
      rw [halloc, hreq]
      exact ⟨s₁, a, rest, rfl, hb₁⟩
  · simp only [if_neg hz]
    exact ⟨s, a, rest, rfl, hb⟩

/-- What is left of a `gpa_t` which is to be destroyed. -/
def leaked (p : ℕ) (g : GPA) (a : ℕ) (rest : Bytes) : List (ℕ × AddrObject) :=
  if g.pucAddress = [] then gpaCells p g a rest else []

theorem Beside.vGPADestroy (hb : Beside f h s (gpaCells p g a rest ++ l)) :
    ∃ s', s.destroyMember AddrHeap.vGPADestroy (some (some p)) = .ok s' ∧
      Beside f h s' (l ++ leaked p g a rest) := by
  have hgpa : s.gpa p = .ok (g.uxLength, some a) := by
    rw [AddrHeap.gpa, hb.owns.cell]
  have hmember : s.destroyMember AddrHeap.vGPADestroy (some (some p)) = s.vGPADestroy p := rfl
  rw [hmember, AddrHeap.vGPADestroy, hgpa, Exec.ok_bind, leaked]
  by_cases hnil : g.pucAddress = []
  · have hok : AddrHeap.xIsGPAOK g.uxLength (some a) = false := by
      rw [GPA.uxLength, hnil]
      rfl
    rw [if_pos hnil]
    refine ⟨s, ?_, hb.perm List.perm_append_comm⟩
    simp [hok, pure, Except.pure]
  · have hok : AddrHeap.xIsGPAOK g.uxLength (some a) = true :=
      (xIsGPAOK_iff g).mpr hnil
    obtain ⟨s₁, hfree, hb₁⟩ := (hb.perm (List.Perm.swap _ _ _)).free
    obtain ⟨s₂, hfree', hb₂⟩ := (hb₁.set (.gpa 0 none)).free
    rw [if_neg hnil, List.append_nil]
    refine ⟨s₂, ?_, hb₂⟩
    simp [hok, hfree, hfree']

theorem Beside.vGHADestroy {m : GHA} (hb : Beside f h s ((p, .gha m) :: l)) :
    ∃ s', s.destroyMember AddrHeap.vGHADestroy (some (some p)) = .ok s' ∧ Beside f h s' l := by
  obtain ⟨s', hfree, hb'⟩ := hb.free
  refine ⟨s', ?_, hb'⟩
  have hmember : s.destroyMember AddrHeap.vGHADestroy (some (some p)) = s.vGHADestroy p := rfl
  rw [hmember, AddrHeap.vGHADestroy, hb.owns.cell]
  simp only [xIsGHAOK_all, Bool.not_true, Bool.false_eq_true, if_false, hfree]

/-- The objects of an extraction which comes to the target's protocol address. -/
def frontCells (p : ℕ) (g : GPA) (a : ℕ) (rest : Bytes) (sha tha : ℕ) (ms mt : GHA) :
    List (ℕ × AddrObject) :=
  gpaCells p g a rest ++ [(tha, .gha mt), (sha, .gha ms)]

/-- The common clean-up gives back all objects but a protocol address without bytes. -/
theorem Beside.cleanup_front {sha tha : ℕ} {ms mt : GHA}
    (hb : Beside f h s (frontCells p g a rest sha tha ms mt)) : ∃ s',
    s.extractFail ⟨some (some p), some (some sha), some none, some (some tha)⟩ =
      .ok (false, ⟨some (some p), some (some sha), some none, some (some tha)⟩, s') ∧
    Beside f h s' (leaked p g a rest) := by
  obtain ⟨s₁, h₁, hb₁⟩ := hb.vGPADestroy
  obtain ⟨s₂, h₂, hb₂⟩ := (hb₁.perm (List.Perm.swap _ _ _)).vGHADestroy
  obtain ⟨s₃, h₃, hb₃⟩ := hb₂.vGHADestroy
  refine ⟨s₃, ?_, hb₃⟩
  have hnone : s₂.destroyMember AddrHeap.vGPADestroy (some none) = .ok s₂ := rfl
  simp only [AddrHeap.extractFail, AddrHeap.prvARPFreeRequestData, h₁, h₂, hnone, h₃,
    Exec.ok_bind]
  rfl

theorem Beside.cleanup_all {q at' sha tha : ℕ} {gt : GPA} {rt : Bytes} {ms mt : GHA}
    (hb : Beside f h s (gpaCells q gt at' rt ++ frontCells p g a rest sha tha ms mt))
    (hgt : gt.pucAddress ≠ []) : ∃ s',
    s.extractFail ⟨some (some p), some (some sha), some (some q), some (some tha)⟩ =
      .ok (false, ⟨some (some p), some (some sha), some (some q), some (some tha)⟩, s') ∧
    Beside f h s' (leaked p g a rest) := by
  obtain ⟨s₁, h₁, hb₁⟩ := (hb.perm (List.perm_append_comm_assoc _ _ _)).vGPADestroy
  have hmid : ((gpaCells q gt at' rt ++ [(tha, AddrObject.gha mt)]) ++
      (sha, AddrObject.gha ms) :: leaked p g a rest).Perm _ := List.perm_middle
  simp only [List.append_assoc, List.cons_append, List.nil_append] at hmid hb₁
  obtain ⟨s₂, h₂, hb₂⟩ := (hb₁.perm hmid).vGHADestroy
  obtain ⟨s₃, h₃, hb₃⟩ := hb₂.vGPADestroy
  rw [leaked.eq_def q, if_neg hgt, List.append_nil] at hb₃
  obtain ⟨s₄, h₄, hb₄⟩ := hb₃.vGHADestroy
  refine ⟨s₄, ?_, hb₄⟩
  simp only [AddrHeap.extractFail, AddrHeap.prvARPFreeRequestData, h₁, h₂, h₃, h₄, Exec.ok_bind]
  rfl

theorem destroyMember_unassigned (s : AddrHeap) :
    s.destroyMember AddrHeap.vGPADestroy none = .error .uninitialised := rfl

/-- Before there is an object for the target's protocol address, the clean-up reads a pointer
which was not assigned. -/
theorem Beside.unassigned_gha {sha : ℕ} {m : GHA} (hb : Beside f h s ((sha, .gha m) :: l))
    (tha : Option (Option ℕ)) :
    s.extractFail ⟨some none, some (some sha), none, tha⟩ = .error .uninitialised := by
  obtain ⟨s₁, h₁, -⟩ := hb.vGHADestroy
  have hnone : s.destroyMember AddrHeap.vGPADestroy (some none) = .ok s := rfl
  simp only [AddrHeap.extractFail, AddrHeap.prvARPFreeRequestData, hnone, h₁,
    destroyMember_unassigned, Exec.ok_bind, Exec.error_bind]

theorem Beside.unassigned_gpa {sha : ℕ} {m : GHA}
    (hb : Beside f h s (gpaCells p g a rest ++ (sha, .gha m) :: l)) (tha : Option (Option ℕ)) :
    s.extractFail ⟨some (some p), some (some sha), none, tha⟩ = .error .uninitialised := by
  obtain ⟨s₁, h₁, hb₁⟩ := hb.vGPADestroy
  rw [List.cons_append] at hb₁
  obtain ⟨s₂, h₂, -⟩ := hb₁.vGHADestroy
  simp only [AddrHeap.extractFail, AddrHeap.prvARPFreeRequestData, h₁, h₂,
    destroyMember_unassigned, Exec.ok_bind, Exec.error_bind]

end Steps

/-- The values and the objects of an extraction. When it fails it owns no object any more unless
the sender's protocol address `spa` has no bytes left. -/
def TracksExtraction (f : ℕ → Option AddrObject) (spa : Bytes) :
    Option ARPPacketData × Heap → Bool × ARPPacketPointers × AddrHeap → Prop
  | (none, h), (false, _, s) => ∃ l, Beside f h s l ∧ (l = [] ↔ spa ≠ [])
  | (some d, h), (true, o, s) => ∃ p a rest q at' rt sha tha,
    o = ⟨some (some p), some (some sha), some (some q), some (some tha)⟩ ∧
      Beside f h s (gpaCells q d.pxTpa at' rt ++
        frontCells p d.pxSpa a rest sha tha d.pxSha d.pxTha)
  | (none, _), (true, _, _) => False
  | (some _, _), (false, _, _) => False

theorem leaked_eq_nil {p a : ℕ} {g : GPA} {rest : Bytes} :
    leaked p g a rest = [] ↔ g.pucAddress ≠ [] := by
  unfold leaked
  split
  · rename_i hnil
    exact iff_of_false (by simp [gpaCells]) (not_not_intro hnil)
  · rename_i hne
    exact iff_of_true rfl hne

variable {pf : Platform} {s : AddrHeap} {pkt : Bytes} {hdr : ARPStaticHeader}

/-- The part of the extraction with the target's protocol address. -/
def AddrHeap.extractTarget (s : AddrHeap) (pkt : Bytes) (n p sha tha : ℕ) :
    Exec (Bool × ARPPacketPointers × AddrHeap) := do
  let (pxTpa, s) ← s.pxCreateGPA pkt (20 + n) n
  match pxTpa with
  | none => s.extractFail ⟨some (some p), some (some sha), some none, some (some tha)⟩
  | some tpa => do
    let pxARPData : ARPPacketPointers :=
      ⟨some (some p), some (some sha), some (some tpa), some (some tha)⟩
    let (shrunk, s) ← s.xGPAShrink tpa 0x00
    if !shrunk then s.extractFail pxARPData else return (true, pxARPData, s)

theorem PassesChecks.extractObjects_eq (hp : PassesChecks pkt hdr) {n : ℕ}
    (hn : n = hdr.ucPALength.toNat) : s.prvARPExtractRequestData pf pkt = (do
      let (pxSha, s) ← s.pxCreateGHA .MAC_ADDR_802_3 pkt 8
      match pxSha with
      | none => s.extractFail ⟨none, some none, none, none⟩
      | some sha => do
        let (pxSpa, s) ← s.pxCreateGPA pkt 14 n
        match pxSpa with
        | none => s.extractFail ⟨some none, some (some sha), none, none⟩
        | some spa => do
          let (pxTha, s) ← s.pxCreateGHA .MAC_ADDR_802_3 pkt (14 + n)
          match pxTha with
          | none => s.extractFail ⟨some (some spa), some (some sha), none, some none⟩
          | some tha => do
            let (shrunk, s) ← s.xGPAShrink spa 0x00
            if !shrunk then
              s.extractFail ⟨some (some spa), some (some sha), none, some (some tha)⟩
            else s.extractTarget pkt n spa sha tha) := by
  have hty : (hdr.usHType == RsHtoNS ARP_HARDWARE_TYPE_ETHERNET) = true :=
    beq_iff_eq.mpr hp.hardware
  have hha : (hdr.ucHALength.toNat == macLength) = true := beq_iff_eq.mpr hp.hardwareLength
  simp only [AddrHeap.prvARPExtractRequestData, AddrHeap.extractTarget, hp.header, Exec.ok_bind,
    hty, hha, rsAssert_true, hp.setup, hn]

theorem extractTarget_tracks {f : ℕ → Option AddrObject} {h : Heap} {g : GPA} {p a sha tha : ℕ}
    {rest : Bytes} {ms mt : GHA} (hp : PassesChecks pkt hdr) {n : ℕ}
    (hn : n = hdr.ucPALength.toNat) (hb : Beside f h s (frontCells p g a rest sha tha ms mt)) :
    Tracks (TracksExtraction f g.pucAddress) (extractTarget h pkt hdr g ms mt)
      (s.extractTarget pkt n p sha tha) := by
  rw [extractTarget, AddrHeap.extractTarget, hp.setup, ← hn]
  apply (hb.pxCreateGPA pkt (20 + n) n).bind
  rintro ⟨pxTpa, h₁⟩ ⟨tpa, s₁⟩ htpa
  rcases pxTpa with _ | gt
  · rcases tpa with _ | q
    · obtain ⟨s₂, hfail, hb₂⟩ := Beside.cleanup_front htpa
      simp only [hfail]
      exact ⟨_, hb₂, leaked_eq_nil⟩
    · exact False.elim htpa
  rcases tpa with _ | q
  · exact False.elim htpa
  · obtain ⟨hgt, hne, at', rt, hb₁⟩ := htpa
    subst hgt
    obtain ⟨s₂, at₂, rt₂, hshrink, hb₂⟩ := Beside.xGPAShrink hb₁ hne
    simp only [hshrink, Exec.ok_bind]
    rcases xGPAShrink_cases h₁ (g := ⟨(pkt.drop (20 + n)).take n⟩) hne with
      ⟨-, -, hval⟩ | ⟨-, hval⟩
    · rw [hval] at hb₂ ⊢
      obtain ⟨s₃, hfail, hb₃⟩ := hb₂.cleanup_all hne
      simp only [Bool.not_false, if_true, hfail]
      exact ⟨_, hb₃, leaked_eq_nil⟩
    · rw [hval] at hb₂ ⊢
      exact ⟨p, a, rest, q, at₂, rt₂, sha, tha, rfl, hb₂⟩

variable (pf) in
/-- An extraction with its objects does what the extraction with values does. -/
theorem extract_tracks (hf : s.Fresh) (hp : PassesChecks pkt hdr) :
    Tracks (TracksExtraction s.objs (cut 0 (spaBytes pkt hdr.ucPALength.toNat)))
      (prvARPExtractRequestData pf s.heap pkt) (s.prvARPExtractRequestData pf pkt) := by
  obtain ⟨n, hn⟩ : ∃ n, n = hdr.ucPALength.toNat := ⟨_, rfl⟩
  rw [hp.extract_eq hn, hp.extractObjects_eq hn, ← hn]
  have hb : Beside s.objs s.heap s [] := ⟨rfl, rfl, hf, owns_nil _⟩
  apply (hb.pxCreateGHA pkt 8).bind
  rintro ⟨pxSha, h₁⟩ ⟨sha, s₁⟩ hsha
  match pxSha, sha, hsha with
  | none, none, _ => exact Eq.refl Trap.uninitialised
  | some ms, some sha, hb₁ =>
    apply (Beside.pxCreateGPA hb₁ pkt 14 n).bind
    rintro ⟨pxSpa, h₂⟩ ⟨spa, s₂⟩ hspa
    match pxSpa, spa, hspa with
    | none, none, hb₂ =>
      have hfail := Beside.unassigned_gha hb₂ none
      simp only [hfail]
      exact Eq.refl Trap.uninitialised
    | some g, some p, ⟨hg, hne, a, rest, hb₂⟩ =>
      apply (Beside.pxCreateGHA hb₂ pkt (14 + n)).bind
      rintro ⟨pxTha, h₃⟩ ⟨tha, s₃⟩ htha
      match pxTha, tha, htha with
      | none, none, hb₃ =>
        have hfail := Beside.unassigned_gpa hb₃ (some none)
        simp only [hfail]
        exact Eq.refl Trap.uninitialised
      | some mt, some tha, hb₃ =>
        have hgne : g.pucAddress ≠ [] := by
          rw [hg]
          exact hne
        obtain ⟨s₄, a', rest', hshrink, hb₄⟩ :=
          (Beside.perm hb₃ List.perm_middle.symm).xGPAShrink hgne
        simp only [initialised_some, Exec.ok_bind, hshrink]
        rcases xGPAShrink_cases h₃ hgne with ⟨-, -, hval⟩ | ⟨-, hval⟩
        · rw [hval] at hb₄ ⊢
          have hfail := (hb₄.perm (List.Perm.append_left _
            (List.Perm.swap _ _ _))).unassigned_gpa (some (some tha))
          simp only [Bool.not_false, if_true, hfail]
          exact Eq.refl Trap.uninitialised
        · rw [hval] at hb₄ ⊢
          have htracks := extractTarget_tracks hp hn hb₄
          have hspa : cut 0 g.pucAddress = cut 0 (spaBytes pkt n) := by rw [hg]; rfl
          rw [← hspa]
          exact htracks

/-- An extraction which fails gives back every object it made and nothing else, and reads no
pointer which was not assigned. -/
def CleansUp (pf : Platform) (s : AddrHeap) (pkt : Bytes) : Prop :=
  ∃ ok o s', s.prvARPExtractRequestData pf pkt = .ok (ok, o, s') ∧ (ok = false → s'.objs = s.objs)

/-- The clean-up is right exactly if the extraction comes to the target's protocol address and
that succeeds, or is refused while the sender's protocol address has bytes left. -/
theorem cleansUp_iff (hf : s.Fresh) (hp : PassesChecks pkt hdr) :
    CleansUp pf s pkt ↔ Extracts s.heap pkt hdr.ucPALength.toNat ∨
      RefusesTarget s.heap pkt hdr.ucPALength.toNat ∧
        (spaBytes pkt hdr.ucPALength.toNat).head? ≠ some 0 := by
  have htracks := extract_tracks pf hf hp
  rcases extract_outcome pf s.heap hp rfl with ⟨he, d, hval, -⟩ | ⟨he, href, h', hval⟩ |
    ⟨he, href, t, hval, -⟩
  · obtain ⟨⟨ok, o, s'⟩, hobj, hrel⟩ := htracks.of_ok hval
    have hok : ok = true := by
      cases ok with
      | true => rfl
      | false => exact hrel.elim
    exact iff_of_true ⟨ok, o, s', hobj, fun hfalse => by rw [hok] at hfalse; cases hfalse⟩
      (Or.inl he)
  · obtain ⟨⟨ok, o, s'⟩, hobj, hrel⟩ := htracks.of_ok hval
    have hok : ok = false := by
      cases ok with
      | true => exact hrel.elim
      | false => rfl
    subst hok
    obtain ⟨l, hb, hl⟩ := hrel
    have hkept : s'.objs = s.objs ↔ (spaBytes pkt hdr.ucPALength.toNat).head? ≠ some 0 := by
      have hne : spaBytes pkt hdr.ucPALength.toNat ≠ [] :=
        ne_nil_of_length (spaBytes_length href.spa.2.2) href.nonempty
      rw [hb.owns.eq_iff, hl, ne_eq, cut_eq_nil_iff]
      cases hspa : spaBytes pkt hdr.ucPALength.toNat with
      | nil => exact absurd hspa hne
      | cons b bs => simp
    constructor
    · rintro ⟨ok, o', s'', hobj', hclean⟩
      rw [hobj] at hobj'
      cases hobj'
      exact Or.inr ⟨href, hkept.mp (hclean rfl)⟩
    · rintro (he' | ⟨-, hhead⟩)
      · exact absurd he' he
      · exact ⟨false, o, s', hobj, fun _ => hkept.mpr hhead⟩
  · have hobj := htracks.of_error hval
    refine iff_of_false ?_ ?_
    · rintro ⟨ok, o, s', hobj', -⟩
      rw [hobj] at hobj'
      cases hobj'
    · rintro (he' | ⟨href', -⟩)
      · exact he he'
      · exact href href'

/-- Objects in a heap which refuses the `n`-th request. -/
def refusingHeap (n : ℕ) : AddrHeap :=
  ⟨{ exampleArpHeap with calls := 0, mallocOk := fun i => i != n }, fun _ => none⟩

/-- A request whose target address is refused memory after everything before it succeeded. -/
theorem cleansUp_refused : CleansUp ⟨false, false⟩ (refusingHeap 4) exampleRequest :=
  (cleansUp_iff (fun _ _ => rfl) exampleRequest_passes).mpr
    (Or.inr ⟨⟨⟨by decide, by decide, by decide, by decide, by decide⟩, Or.inl (by decide)⟩,
      by decide⟩)

/-- When the first hardware address is refused memory, the clean-up reads the pointer to a
protocol address which was not assigned. -/
theorem not_cleansUp_first : PassesChecks exampleRequest (arpHeader ARP_REQUEST 1) ∧
    ¬ CleansUp ⟨false, false⟩ (refusingHeap 0) exampleRequest := by
  refine ⟨exampleRequest_passes, ?_⟩
  rintro ⟨ok, o, s', hrun, -⟩
  have heval : (refusingHeap 0).prvARPExtractRequestData ⟨false, false⟩ exampleRequest =
      .error .uninitialised := rfl
  rw [heval] at hrun
  cases hrun

end RinaSense.Shim
