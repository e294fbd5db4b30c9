import RinaSense.Common.Chain
import RinaSense.Common.Name

/-!
# Building names

The constructors of `common/rina_name.c`. Each puts the four strings somewhere else and
records in `unPostLn` how much memory lies behind the structure, which tells
`pcNameToString` whether it can copy the strings in one piece.
-/

namespace RinaSense.Common

open Library.Memory

/-- `sizeof(rname_t)`. -/
def sizeofName : ℕ := 48

/-- A name with the block which is released with it. -/
structure OwnedName extends Name where
  pxFree : Option Ptr
deriving DecidableEq, Repr

/-- A structure after `bzero`. -/
def OwnedName.zero : OwnedName := ⟨⟨0, none, none, none, none⟩, none⟩

def OwnedName.at (unPostLn : ℕ) (pcProcessName pcProcessInstance pcEntityName
    pcEntityInstance pxFree : Option Ptr) : OwnedName :=
  ⟨⟨unPostLn, pcProcessName, pcProcessInstance, pcEntityName, pcEntityInstance⟩, pxFree⟩

/-! ### Copying parts -/

/-- One of the copy loops, with the position behind the copied terminator. -/
def copyPart (h : Heap) (px : Ptr) (pc : CString) : Exec (Ptr × Heap) := do
  let h ← h.write (some px) 0 pc.terminated
  return (px.add (pc.length + 1), h)

/-- The parts lie outside the block which they are copied into, and a missing part is a
string constant, so that they are given by their contents. -/
def prvNameCopyAssignParts (h : Heap) (pxDst : OwnedName) (pxData : Ptr)
    (pcProcessName pcProcessInstance pcEntityName pcEntityInstance : CString) :
    Exec (OwnedName × Heap) := do
  let (px, h) ← copyPart h pxData pcProcessName
  let (px', h) ← copyPart h px pcProcessInstance
  let (px'', h) ← copyPart h px' pcEntityName
  let (_, h) ← copyPart h px'' pcEntityInstance
  return (.at pxDst.unPostLn (some pxData) (some px) (some px') (some px'') pxDst.pxFree, h)

def pxNameNewFromParts (h : Heap)
    (pcProcessName pcProcessInstance pcEntityName pcEntityInstance : Option Ptr) :
    Exec (Option OwnedName × Heap) := do
  let processName ← h.string pcProcessName
  let processInstance ← h.string pcProcessInstance
  let entityName ← h.string pcEntityName
  let entityInstance ← h.string pcEntityInstance
  let len := processName.length + processInstance.length + entityName.length +
    entityInstance.length
  match pvRsMemAlloc h (sizeofName + len + 4) with
  | (none, h) => return (none, h)
  | (some pxDst, h) => do
    let (nm, h) ← prvNameCopyAssignParts h (.at len none none none none (some ⟨pxDst, 0⟩))
      ⟨pxDst, sizeofName⟩ processName processInstance entityName entityInstance
    return (some nm, h)

def vNameAssignFromPartsStatic
    (pcProcessName pcProcessInstance pcEntityName pcEntityInstance : Option Ptr) : OwnedName :=
  .at 0 pcProcessName pcProcessInstance pcEntityName pcEntityInstance none

/-- The part, or the empty string where it is missing. -/
def Heap.stringOr (h : Heap) : Option Ptr → Exec CString
  | none => .ok CString.empty
  | some p => h.string (some p)

/-- What a part adds to the length, where a missing part counts one. -/
def lengthOr (p : Option Ptr) (s : CString) : ℕ := if p.isSome then s.length else 1

/-- Whether the name could be assigned. -/
def xNameAssignFromPartsDup (h : Heap) (pxDst : OwnedName)
    (pcProcessName pcProcessInstance pcEntityName pcEntityInstance : Option Ptr) :
    Exec (Bool × OwnedName × Heap) := do
  let processName ← h.stringOr pcProcessName
  let processInstance ← h.stringOr pcProcessInstance
  let entityName ← h.stringOr pcEntityName
  let entityInstance ← h.stringOr pcEntityInstance
  let len := lengthOr pcProcessName processName + lengthOr pcProcessInstance processInstance +
    lengthOr pcEntityName entityName + lengthOr pcEntityInstance entityInstance
  match pvRsMemAlloc h (len + 4 + 1) with
  | (none, h) => return (false, { pxDst with pxFree := none }, h)
  | (some pxFree, h) => do
    let (nm, h) ← prvNameCopyAssignParts h { pxDst with pxFree := some ⟨pxFree, 0⟩ }
      ⟨pxFree, 0⟩ processName processInstance entityName entityInstance
    return (true, { nm with unPostLn := 0 }, h)

/-- The process instance of the source is copied twice, and its entity instance is not. -/
def xNameAssignDup (h : Heap) (pxDst : OwnedName) (pxSrc : Name) :
    Exec (Bool × OwnedName × Heap) :=
  xNameAssignFromPartsDup h pxDst pxSrc.pcProcessName pxSrc.pcProcessInstance pxSrc.pcEntityName
    pxSrc.pcProcessInstance

/-- The copy of the pointers crosses the same parts. -/
def vNameAssignStatic (pxSrc : Name) : OwnedName :=
  vNameAssignFromPartsStatic pxSrc.pcProcessName pxSrc.pcProcessInstance pxSrc.pcEntityName
    pxSrc.pcProcessInstance

/-! ### Breaking down a string -/

/-- The scan for a delimiter or the terminator, with the byte which stops it. -/
def scanPart (h : Heap) (c : Ptr) : Exec (Ptr × UInt8) := do
  let b ← inBounds (h.mem c.block)
  let n ← inBounds ((b.drop c.off).findIdx? fun x => x = CFG_DELIMITER ∨ x = 0)
  let x ← inBounds b[c.off + n]?
  return (c.add n, x)

/-- The name with the parts of the string, whose delimiters become terminators. A string
with fewer than two delimiters is bad. -/
def prvBreakdownNameString (h : Heap) (pxDst : OwnedName) (pxStr : Ptr) :
    Exec (Bool × OwnedName × Heap) := do
  let pxDst := { pxDst with pcProcessName := some pxStr }
  let (c, x) ← scanPart h pxStr
  if x = 0 then return (false, pxDst, h)
  else
    let h ← h.write (some c) 0 [0]
    let pxDst := { pxDst with pcProcessInstance := some (c.add 1) }
    let (c', x) ← scanPart h (c.add 1)
    if x = 0 then return (false, pxDst, h)
    else
      let h ← h.write (some c') 0 [0]
      let pxDst := { pxDst with pcEntityName := some (c'.add 1) }
      let (c'', x) ← scanPart h (c'.add 1)
      if x = CFG_DELIMITER then
        let h ← h.write (some c'') 0 [0]
        return (true, { pxDst with pcEntityInstance := some (c''.add 1) }, h)
      else return (true, { pxDst with pcEntityInstance := some c'' }, h)

def pxNameNewFromString (h : Heap) (pcNmStr : Option Ptr) :
    Exec (Option OwnedName × Heap) := do
  let s ← h.string pcNmStr
  match pvRsMemAlloc h (sizeofName + s.length + 1) with
  | (none, h) => return (none, h)
  | (some pxDst, h) => do
    let h ← h.write (some ⟨pxDst, 0⟩) sizeofName s.terminated
    let (good, nm, h) ← prvBreakdownNameString h
      (.at s.length none none none none (some ⟨pxDst, 0⟩)) ⟨pxDst, sizeofName⟩
    if good then return (some nm, h)
    else do
      let h ← vRsMemFree h (some ⟨pxDst, 0⟩)
      return (none, h)

/-- Whether the name could be assigned. For a bad string the name is wiped before its
block is released, so that the block is lost. -/
def xNameAssignFromString (h : Heap) (pxDst : OwnedName) (pxNmStr : Option Ptr) :
    Exec (Bool × OwnedName × Heap) := do
  let s ← h.string pxNmStr
  match pvRsMemAlloc h (s.length + 1) with
  | (none, h) => return (false, { pxDst with pxFree := none }, h)
  | (some pxFree, h) => do
    let h ← h.write (some ⟨pxFree, 0⟩) 0 s.terminated
    let (good, nm, h) ← prvBreakdownNameString h
      { pxDst with unPostLn := 0, pxFree := some ⟨pxFree, 0⟩ } ⟨pxFree, 0⟩
    if good then return (true, nm, h)
    else do
      let h ← vRsMemFree h OwnedName.zero.pxFree
      return (false, .zero, h)

/-- The ways to build a name. -/
inductive NameBuild
  | pxNameNewFromParts
      (pcProcessName pcProcessInstance pcEntityName pcEntityInstance : Option Ptr)
  | xNameAssignFromPartsDup (pxDst : OwnedName)
      (pcProcessName pcProcessInstance pcEntityName pcEntityInstance : Option Ptr)
  | vNameAssignFromPartsStatic
      (pcProcessName pcProcessInstance pcEntityName pcEntityInstance : Option Ptr)
  | pxNameNewFromString (pcNmStr : Option Ptr)
  | xNameAssignFromString (pxDst : OwnedName) (pxNmStr : Option Ptr)

/-- The name which an assignment leaves, if it succeeds. -/
def assignedName : Bool × OwnedName × Heap → Option OwnedName × Heap
  | (good, nm, h) => (if good then some nm else none, h)

def NameBuild.run (h : Heap) : NameBuild → Exec (Option OwnedName × Heap)
  | .pxNameNewFromParts p₁ p₂ p₃ p₄ => Common.pxNameNewFromParts h p₁ p₂ p₃ p₄
  | .xNameAssignFromPartsDup nm p₁ p₂ p₃ p₄ =>
    assignedName <$> Common.xNameAssignFromPartsDup h nm p₁ p₂ p₃ p₄
  | .vNameAssignFromPartsStatic p₁ p₂ p₃ p₄ =>
    .ok (some (Common.vNameAssignFromPartsStatic p₁ p₂ p₃ p₄), h)
  | .pxNameNewFromString p => Common.pxNameNewFromString h p
  | .xNameAssignFromString nm p => assignedName <$> Common.xNameAssignFromString h nm p

/-! ### Strings which lie one behind the other -/

variable {h : Heap} {a : ℕ} {pre post : Bytes}

def laidOut (strings : List CString) : Bytes := strings.flatMap CString.terminated

/-- The addresses of strings which lie in the block from the offset on. -/
def partsAt (a : ℕ) : ℕ → List CString → List (Option Ptr)
  | _, [] => []
  | o, s :: strings => some ⟨a, o⟩ :: partsAt a (o + (s.length + 1)) strings

theorem laidOut_length (strings : List CString) :
    (laidOut strings).length = characters strings + strings.length := by
  induction strings with
  | nil => rfl
  | cons s strings ih =>
    rw [laidOut, List.flatMap_cons, List.length_append, CString.terminated_length, ← laidOut, ih,
      characters, List.length_cons]
    omega

theorem string_at {s : CString} (hblk : h.mem a = some (pre ++ (s.terminated ++ post))) :
    h.string (some ⟨a, pre.length⟩) = .ok s := by
  have hs := cstring_drop (b := pre ++ (s.terminated ++ post)) rfl rfl
  rw [Heap.string, deref_some, Exec.ok_bind, hblk, inBounds_some, Exec.ok_bind, hs]
  rfl

theorem reads_partsAt {strings : List CString}
    (hblk : h.mem a = some (pre ++ (laidOut strings ++ post))) :
    Reads h (partsAt a pre.length strings) strings := by
  induction strings generalizing pre with
  | nil => exact .nil
  | cons s strings ih =>
    have hfirst : pre ++ (laidOut (s :: strings) ++ post) =
        pre ++ (s.terminated ++ (laidOut strings ++ post)) := by simp [laidOut]
    have hrest : pre ++ (s.terminated ++ (laidOut strings ++ post)) =
        (pre ++ s.terminated) ++ (laidOut strings ++ post) := (List.append_assoc _ _ _).symm
    have hnext : (pre ++ s.terminated).length = pre.length + (s.length + 1) := by simp
    rw [hfirst] at hblk
    have htail := ih (hblk.trans (congrArg some hrest))
    rw [hnext] at htail
    exact .cons (string_at hblk) htail

/-- Nothing lies behind the strings. -/
theorem reads_partsAt_last {strings : List CString}
    (hblk : h.mem a = some (pre ++ laidOut strings)) :
    Reads h (partsAt a pre.length strings) strings := by
  rw [← List.append_nil (laidOut strings)] at hblk
  exact reads_partsAt hblk

@[simp] theorem Heap.setBlock_setBlock (h : Heap) (a : ℕ) (x y : Option Bytes) :
    (h.setBlock a x).setBlock a y = h.setBlock a y := by
  simp [Heap.setBlock]

theorem copyPart_eq (pre room : Bytes) {s : CString} (hblk : h.mem a = some (pre ++ room))
    (hroom : s.length + 1 ≤ room.length) :
    ∃ rest, copyPart h ⟨a, pre.length⟩ s = .ok (⟨a, (pre ++ s.terminated).length⟩,
        h.setBlock a (some ((pre ++ s.terminated) ++ rest))) ∧
      room.length = s.length + 1 + rest.length := by
  have hsplit : room = room.take (s.length + 1) ++ room.drop (s.length + 1) :=
    (List.take_append_drop _ _).symm
  have htaken : s.terminated.length = (room.take (s.length + 1)).length := by
    rw [CString.terminated_length, List.length_take]
    omega
  rw [hsplit] at hblk
  refine ⟨room.drop (s.length + 1), ?_, by rw [List.length_drop]; omega⟩
  rw [copyPart, Heap.write_middle hblk (Nat.add_zero _) htaken]
  simp [Ptr.add, pure, Except.pure]

/-- The parts lie one behind the other. -/
theorem prvNameCopyAssignParts_eq {room : Bytes} (nm : OwnedName) {s₁ s₂ s₃ s₄ : CString}
    (hblk : h.mem a = some (pre ++ room))
    (hroom : (laidOut [s₁, s₂, s₃, s₄]).length ≤ room.length) :
    ∃ (nm' : OwnedName) (post : Bytes), prvNameCopyAssignParts h nm ⟨a, pre.length⟩ s₁ s₂ s₃ s₄ =
        .ok (nm', h.setBlock a (some (pre ++ (laidOut [s₁, s₂, s₃, s₄] ++ post)))) ∧
      nm'.strings = partsAt a pre.length [s₁, s₂, s₃, s₄] ∧ nm'.unPostLn = nm.unPostLn := by
  rw [laidOut_length] at hroom
  simp only [characters, List.length_cons, List.length_nil] at hroom
  rcases copyPart_eq pre room (s := s₁) hblk (by omega) with ⟨room₁, h₁, hlen₁⟩
  rcases copyPart_eq (pre ++ s₁.terminated) room₁ (s := s₂) (Heap.setBlock_self h a _)
    (by omega) with ⟨room₂, h₂, hlen₂⟩
  rcases copyPart_eq (pre ++ s₁.terminated ++ s₂.terminated) room₂ (s := s₃)
    (Heap.setBlock_self h a _) (by omega) with ⟨room₃, h₃, hlen₃⟩
  rcases copyPart_eq (pre ++ s₁.terminated ++ s₂.terminated ++ s₃.terminated) room₃ (s := s₄)
    (Heap.setBlock_self h a _) (by omega) with ⟨room₄, h₄, -⟩
  rw [Heap.setBlock_setBlock] at h₂ h₃ h₄
  have hrun : prvNameCopyAssignParts h nm ⟨a, pre.length⟩ s₁ s₂ s₃ s₄ = .ok
      (.at nm.unPostLn (some ⟨a, pre.length⟩) (some ⟨a, (pre ++ s₁.terminated).length⟩)
        (some ⟨a, (pre ++ s₁.terminated ++ s₂.terminated).length⟩)
        (some ⟨a, (pre ++ s₁.terminated ++ s₂.terminated ++ s₃.terminated).length⟩) nm.pxFree,
        h.setBlock a (some (pre ++ s₁.terminated ++ s₂.terminated ++ s₃.terminated ++
          s₄.terminated ++ room₄))) := by
    rw [prvNameCopyAssignParts, h₁, Exec.ok_bind]
    simp only [h₂, h₃, h₄, Exec.ok_bind]
    rfl
  have hjoin : pre ++ s₁.terminated ++ s₂.terminated ++ s₃.terminated ++ s₄.terminated ++ room₄ =
      pre ++ (laidOut [s₁, s₂, s₃, s₄] ++ room₄) := by simp [laidOut]
  rw [hjoin] at hrun
  refine ⟨_, room₄, hrun, ?_, rfl⟩
  simp [OwnedName.at, Name.strings, partsAt, Nat.add_assoc]

/-! ### Delimiters -/

/-- The scan stops behind a part without delimiters. -/
theorem scanPart_eq {s : CString} {x : UInt8} (hs : CFG_DELIMITER ∉ s.bytes)
    (hx : x = CFG_DELIMITER ∨ x = 0) (hblk : h.mem a = some (pre ++ (s.bytes ++ x :: post))) :
    scanPart h ⟨a, pre.length⟩ = .ok (⟨a, pre.length + s.length⟩, x) := by
  have hnone : s.bytes.findIdx? (fun x => decide (x = CFG_DELIMITER ∨ x = 0)) = none := by
    rw [List.findIdx?_eq_none_iff]
    intro y hy
    refine decide_eq_false ?_
    rintro (rfl | rfl)
    · exact hs hy
    · exact s.noZero hy
  have hfind : (s.bytes ++ x :: post).findIdx?
      (fun x => decide (x = CFG_DELIMITER ∨ x = 0)) = some s.length := by
    rw [List.findIdx?_append, hnone, List.findIdx?_cons, if_pos (decide_eq_true hx)]
    simp [CString.length]
  have hat : (pre ++ (s.bytes ++ x :: post))[pre.length + s.length]? = some x := by
    rw [List.getElem?_append_right (Nat.le_add_right _ _), Nat.add_sub_cancel_left, CString.length,
      List.getElem?_append_right (Nat.le_refl _), Nat.sub_self]
    rfl
  rw [scanPart, hblk]
  simp only [inBounds_some, Exec.ok_bind, List.drop_left, hfind, hat]
  rfl

/-- The byte behind a part becomes its terminator. -/
theorem Heap.write_terminator {s : CString} {x : UInt8}
    (hblk : h.mem a = some (pre ++ (s.bytes ++ x :: post))) :
    h.write (some ⟨a, pre.length + s.length⟩) 0 [0] =
      .ok (h.setBlock a (some ((pre ++ s.terminated) ++ post))) := by
  have hsplit : pre ++ (s.bytes ++ x :: post) = (pre ++ s.bytes) ++ ([x] ++ post) := by simp
  rw [hsplit] at hblk
  have hone : ([0] : Bytes).length = [x].length := rfl
  rw [Heap.write_middle hblk (by simp [CString.length]) hone]
  simp [CString.terminated]

/-- The next part begins behind the terminator. -/
theorem add_terminator (a : ℕ) (pre : Bytes) (s : CString) :
    Ptr.add ⟨a, pre.length + s.length⟩ 1 = ⟨a, (pre ++ s.terminated).length⟩ := by
  simp [Ptr.add, Nat.add_assoc]

/-- The last part ends at a delimiter, or at the terminator, where the missing part lies. -/
theorem prvBreakdownNameString_eq (nm : OwnedName) {s₁ s₂ s₃ : CString} {x : UInt8}
    (h₁ : CFG_DELIMITER ∉ s₁.bytes) (h₂ : CFG_DELIMITER ∉ s₂.bytes)
    (h₃ : CFG_DELIMITER ∉ s₃.bytes) (hx : x = CFG_DELIMITER ∨ x = 0)
    (hblk : h.mem a = some (pre ++ (s₁.bytes ++ CFG_DELIMITER :: (s₂.bytes ++
      CFG_DELIMITER :: (s₃.bytes ++ x :: post))))) :
    ∃ nm' : OwnedName, prvBreakdownNameString h nm ⟨a, pre.length⟩ =
        .ok (true, nm', h.setBlock a (some (pre ++ (laidOut [s₁, s₂, s₃] ++ post)))) ∧
      nm'.strings = partsAt a pre.length [s₁, s₂, s₃] ++
        [some ⟨a, pre.length + (laidOut [s₁, s₂, s₃]).length - if x = 0 then 1 else 0⟩] ∧
      nm'.unPostLn = nm.unPostLn := by
  have hscan₁ := scanPart_eq h₁ (.inl rfl) hblk
  have hwrite₁ := Heap.write_terminator hblk
  have hblk₂ := Heap.setBlock_self h a (some (pre ++ s₁.terminated ++ (s₂.bytes ++
    CFG_DELIMITER :: (s₃.bytes ++ x :: post))))
  have hscan₂ := scanPart_eq h₂ (.inl rfl) hblk₂
  have hwrite₂ := Heap.write_terminator hblk₂
  have hblk₃ := Heap.setBlock_self h a (some (pre ++ s₁.terminated ++ s₂.terminated ++
    (s₃.bytes ++ x :: post)))
  have hscan₃ := scanPart_eq h₃ hx hblk₃
  have hwrite₃ := Heap.write_terminator hblk₃
  rw [Heap.setBlock_setBlock] at hwrite₂ hwrite₃
  have hlen : (laidOut [s₁, s₂, s₃]).length =
      s₁.length + 1 + (s₂.length + 1) + (s₃.length + 1) := by
    rw [laidOut_length]
    simp only [characters, List.length_cons, List.length_nil]
    omega
  have hnonzero : CFG_DELIMITER ≠ 0 := by decide
  have hjoin : pre ++ s₁.terminated ++ s₂.terminated ++ s₃.terminated ++ post =
      pre ++ (laidOut [s₁, s₂, s₃] ++ post) := by simp [laidOut]
  rcases hx with rfl | rfl
  · have hend : (pre ++ s₁.terminated ++ s₂.terminated ++ s₃.terminated).length =
        pre.length + (laidOut [s₁, s₂, s₃]).length := by
      simp only [List.length_append, CString.terminated_length, hlen]
      omega
    refine ⟨.at nm.unPostLn (some ⟨a, pre.length⟩) (some ⟨a, (pre ++ s₁.terminated).length⟩)
      (some ⟨a, (pre ++ s₁.terminated ++ s₂.terminated).length⟩)
      (some ⟨a, pre.length + (laidOut [s₁, s₂, s₃]).length⟩) nm.pxFree, ?_, ?_, rfl⟩
    · rw [hjoin] at hwrite₃
      simp only [prvBreakdownNameString, hscan₁, hwrite₁, add_terminator, hscan₂, hwrite₂,
        hscan₃, hwrite₃, hend, Exec.ok_bind, if_neg hnonzero, if_pos]
      rfl
    · simp [OwnedName.at, Name.strings, partsAt, Nat.add_assoc, hnonzero]
  · have hmissing : (pre ++ s₁.terminated ++ s₂.terminated).length + s₃.length =
        pre.length + (laidOut [s₁, s₂, s₃]).length - 1 := by
      simp only [List.length_append, CString.terminated_length, hlen]
      omega
    have hwhole : pre ++ s₁.terminated ++ s₂.terminated ++ (s₃.bytes ++ 0 :: post) =
        pre ++ (laidOut [s₁, s₂, s₃] ++ post) := by
      rw [← hjoin]
      simp [CString.terminated]
    refine ⟨.at nm.unPostLn (some ⟨a, pre.length⟩) (some ⟨a, (pre ++ s₁.terminated).length⟩)
      (some ⟨a, (pre ++ s₁.terminated ++ s₂.terminated).length⟩)
      (some ⟨a, pre.length + (laidOut [s₁, s₂, s₃]).length - 1⟩) nm.pxFree, ?_, ?_, rfl⟩
    · rw [hwhole] at hwrite₂ hscan₃
      simp only [prvBreakdownNameString, hscan₁, hwrite₁, add_terminator, hscan₂, hwrite₂,
        hscan₃, hmissing, Exec.ok_bind, if_neg hnonzero, if_neg hnonzero.symm]
      rfl
    · simp [OwnedName.at, Name.strings, partsAt, Nat.add_assoc]

/-! ### What the constructors leave -/

/-- The heap with one more block. -/
structure Built (h h' : Heap) (b : Bytes) : Prop where
  brk : h'.brk = h.brk + 1
  calls : h'.calls = h.calls + 1
  netbufs : h'.netbufs = h.netbufs
  mallocOk : h'.mallocOk = h.mallocOk
  mem : h'.mem = Function.update h.mem h.brk (some b)

theorem pvRsMemAlloc_built (hm : h.mallocOk h.calls = true) (n : ℕ) :
    ∃ h', pvRsMemAlloc h n = (some h.brk, h') ∧ Built h h' (h.stale h.brk n) :=
  ⟨{ h.called.setBlock h.brk (some (h.stale h.brk n)) with brk := h.brk + 1 },
    if_pos hm, rfl, rfl, rfl, rfl, rfl⟩

variable {h' : Heap} {b : Bytes}

theorem Built.setBlock (hb : Built h h' b) (b' : Bytes) :
    Built h (h'.setBlock h.brk (some b')) b' where
  brk := hb.brk
  calls := hb.calls
  netbufs := hb.netbufs
  mallocOk := hb.mallocOk
  mem := by rw [Heap.setBlock, hb.mem, Function.update_idem]

theorem Built.self (hb : Built h h' b) : h'.mem h.brk = some b := by
  rw [hb.mem, Function.update_self]

theorem Built.available (hb : Built h h' b) (hm : h.MemoryAvailable) : h'.MemoryAvailable :=
  fun n => (congrFun hb.mallocOk n).trans (hm n)

theorem Built.next (hb : Built h h' b) (hf : h.Fresh) : h'.mem h'.brk = none := by
  rw [hb.brk, hb.mem, Function.update_of_ne (Nat.succ_ne_self _)]
  exact (hf _ (Nat.le_succ _)).2

/-- The name has the strings one behind the other in the new block. -/
def LaidOut (h h' : Heap) (nm : Name) (strings : List CString) : Prop :=
  ∃ pre post, Built h h' (pre ++ (laidOut strings ++ post)) ∧
    nm.strings = partsAt h.brk pre.length strings

theorem LaidOut.reads {nm : Name} {strings : List CString} (hl : LaidOut h h' nm strings) :
    Reads h' nm.strings strings := by
  rcases hl with ⟨pre, post, hb, hparts⟩
  rw [hparts]
  exact reads_partsAt hb.self

theorem copyAssign_laidOut (pre : Bytes) {room : Bytes} (nm : OwnedName) {s₁ s₂ s₃ s₄ : CString}
    (hb : Built h h' (pre ++ room)) (hroom : (laidOut [s₁, s₂, s₃, s₄]).length ≤ room.length) :
    ∃ (nm' : OwnedName) (h'' : Heap),
      prvNameCopyAssignParts h' nm ⟨h.brk, pre.length⟩ s₁ s₂ s₃ s₄ = .ok (nm', h'') ∧
      LaidOut h h'' nm'.toName [s₁, s₂, s₃, s₄] ∧ nm'.unPostLn = nm.unPostLn := by
  rcases prvNameCopyAssignParts_eq nm hb.self hroom with ⟨nm', post, hrun, hparts, hpost⟩
  exact ⟨nm', _, hrun, ⟨pre, post, hb.setBlock _, hparts⟩, hpost⟩

theorem stale_split (h : Heap) (a m n : ℕ) :
    ∃ pre room, h.stale a (m + n) = pre ++ room ∧ pre.length = m ∧ room.length = n := by
  refine ⟨(h.stale a (m + n)).take m, (h.stale a (m + n)).drop m,
    (List.take_append_drop _ _).symm, ?_, ?_⟩
  · rw [List.length_take, Heap.stale_length]
    omega
  · rw [List.length_drop, Heap.stale_length]
    omega

variable {p₁ p₂ p₃ p₄ : Option Ptr} {s₁ s₂ s₃ s₄ : CString}

theorem pxNameNewFromParts_eq (hm : h.MemoryAvailable)
    (hr : Reads h [p₁, p₂, p₃, p₄] [s₁, s₂, s₃, s₄]) :
    ∃ (nm : OwnedName) (h' : Heap), pxNameNewFromParts h p₁ p₂ p₃ p₄ = .ok (some nm, h') ∧
      LaidOut h h' nm.toName [s₁, s₂, s₃, s₄] ∧
      nm.unPostLn = characters [s₁, s₂, s₃, s₄] := by
  simp only [Reads, List.forall₂_cons, List.forall₂_nil_left_iff, and_true] at hr
  rcases hr with ⟨hs₁, hs₂, hs₃, hs₄⟩
  rcases pvRsMemAlloc_built (hm _) (sizeofName +
    (s₁.length + s₂.length + s₃.length + s₄.length + 4)) with ⟨h₁, halloc, hb⟩
  rcases stale_split h h.brk sizeofName
    (s₁.length + s₂.length + s₃.length + s₄.length + 4) with ⟨pre, room, hsplit, hpre, hroom⟩
  have hlen : (laidOut [s₁, s₂, s₃, s₄]).length =
      s₁.length + s₂.length + s₃.length + s₄.length + 4 := by
    rw [laidOut_length]
    simp only [characters, List.length_cons, List.length_nil]
    omega
  rw [hsplit] at hb
  rcases copyAssign_laidOut pre (.at (s₁.length + s₂.length + s₃.length + s₄.length) none none
    none none (some ⟨h.brk, 0⟩)) hb (hlen.trans_le hroom.ge) with ⟨nm, h₂, hcopy, hl, hpost⟩
  rw [hpre] at hcopy
  refine ⟨nm, h₂, ?_, hl, hpost.trans ?_⟩
  · rw [← Nat.add_assoc] at halloc
    simp only [pxNameNewFromParts, hs₁, hs₂, hs₃, hs₄, Exec.ok_bind, halloc, hcopy]
    rfl
  · simp only [OwnedName.at, characters]
    omega

theorem xNameAssignFromPartsDup_eq (nm : OwnedName) (hm : h.mallocOk h.calls = true)
    (hs₁ : h.stringOr p₁ = .ok s₁) (hs₂ : h.stringOr p₂ = .ok s₂)
    (hs₃ : h.stringOr p₃ = .ok s₃) (hs₄ : h.stringOr p₄ = .ok s₄) :
    ∃ (nm' : OwnedName) (h' : Heap),
      xNameAssignFromPartsDup h nm p₁ p₂ p₃ p₄ = .ok (true, nm', h') ∧
      LaidOut h h' nm'.toName [s₁, s₂, s₃, s₄] ∧ nm'.unPostLn = 0 := by
  have hlong : ∀ {p : Option Ptr} {s : CString}, h.stringOr p = .ok s →
      s.length ≤ lengthOr p s := by
    intro p s hs
    cases p with
    | none =>
      cases hs
      exact Nat.zero_le _
    | some p => exact Nat.le_refl _
  have hlong₁ := hlong hs₁
  have hlong₂ := hlong hs₂
  have hlong₃ := hlong hs₃
  have hlong₄ := hlong hs₄
  rcases pvRsMemAlloc_built hm (lengthOr p₁ s₁ + lengthOr p₂ s₂ + lengthOr p₃ s₃ +
    lengthOr p₄ s₄ + 4 + 1) with ⟨h₁, halloc, hb⟩
  have hroom : (laidOut [s₁, s₂, s₃, s₄]).length ≤ (h.stale h.brk (lengthOr p₁ s₁ +
      lengthOr p₂ s₂ + lengthOr p₃ s₃ + lengthOr p₄ s₄ + 4 + 1)).length := by
    rw [laidOut_length, Heap.stale_length]
    simp only [characters, List.length_cons, List.length_nil]
    omega
  rcases copyAssign_laidOut [] { nm with pxFree := some ⟨h.brk, 0⟩ } hb hroom with
    ⟨nm', h₂, hcopy, ⟨pre, post, hb₂, hparts⟩, -⟩
  refine ⟨{ nm' with unPostLn := 0 }, h₂, ?_, ⟨pre, post, hb₂, hparts⟩, rfl⟩
  rw [List.length_nil] at hcopy
  simp only [xNameAssignFromPartsDup, hs₁, hs₂, hs₃, hs₄, Exec.ok_bind, halloc, hcopy]
  rfl

/-- Four strings, with empty ones for those which are missing. -/
def filled (strings : List CString) : List CString :=
  strings ++ List.replicate (4 - strings.length) CString.empty

/-- The name which a delimited string in the new block is broken down into. -/
def BrokenDown (h h' : Heap) (nm : Name) (pre : Bytes) (strings : List CString) : Prop :=
  Built h h' (pre ++ laidOut strings) ∧ Reads h' nm.strings (filled strings) ∧
    nm.pcProcessName = some ⟨h.brk, pre.length⟩

theorem breakdown_four (nm : OwnedName) (h₁ : CFG_DELIMITER ∉ s₁.bytes)
    (h₂ : CFG_DELIMITER ∉ s₂.bytes) (h₃ : CFG_DELIMITER ∉ s₃.bytes)
    (hb : Built h h' (pre ++ joined [s₁, s₂, s₃, s₄])) :
    ∃ (nm' : OwnedName) (h'' : Heap),
      prvBreakdownNameString h' nm ⟨h.brk, pre.length⟩ = .ok (true, nm', h'') ∧
      BrokenDown h h'' nm'.toName pre [s₁, s₂, s₃, s₄] ∧ nm'.unPostLn = nm.unPostLn := by
  rcases prvBreakdownNameString_eq nm h₁ h₂ h₃ (.inl rfl) hb.self with
    ⟨nm', hrun, hparts, hpost⟩
  have hwhole : laidOut [s₁, s₂, s₃] ++ joined [s₄] = laidOut [s₁, s₂, s₃, s₄] := by
    simp [laidOut, joined, CString.terminated]
  have hlast : partsAt h.brk pre.length [s₁, s₂, s₃] ++
      [some ⟨h.brk, pre.length + (laidOut [s₁, s₂, s₃]).length⟩] =
      partsAt h.brk pre.length [s₁, s₂, s₃, s₄] := by
    simp [partsAt, laidOut, Nat.add_assoc]
  rw [if_neg (by decide : CFG_DELIMITER ≠ 0), Nat.sub_zero, hlast] at hparts
  rw [hwhole] at hrun
  have hb' := hb.setBlock (pre ++ laidOut [s₁, s₂, s₃, s₄])
  refine ⟨nm', _, hrun, ⟨hb', ?_, ?_⟩, hpost⟩
  · rw [hparts]
    exact reads_partsAt_last hb'.self
  · exact (List.cons.inj hparts).1

theorem breakdown_three (nm : OwnedName) (h₁ : CFG_DELIMITER ∉ s₁.bytes)
    (h₂ : CFG_DELIMITER ∉ s₂.bytes) (h₃ : CFG_DELIMITER ∉ s₃.bytes)
    (hb : Built h h' (pre ++ joined [s₁, s₂, s₃])) :
    ∃ (nm' : OwnedName) (h'' : Heap),
      prvBreakdownNameString h' nm ⟨h.brk, pre.length⟩ = .ok (true, nm', h'') ∧
      BrokenDown h h'' nm'.toName pre [s₁, s₂, s₃] ∧ nm'.unPostLn = nm.unPostLn := by
  rcases prvBreakdownNameString_eq nm h₁ h₂ h₃ (.inr rfl) hb.self with
    ⟨nm', hrun, hparts, hpost⟩
  rw [List.append_nil] at hrun
  rw [if_pos rfl] at hparts
  have hb' := hb.setBlock (pre ++ laidOut [s₁, s₂, s₃])
  have hend : pre ++ laidOut [s₁, s₂, s₃] =
      (pre ++ s₁.terminated ++ s₂.terminated ++ s₃.bytes) ++ (CString.empty.terminated ++ []) := by
    simp [laidOut, CString.terminated, CString.empty]
  have hmissing : pre.length + (laidOut [s₁, s₂, s₃]).length - 1 =
      (pre ++ s₁.terminated ++ s₂.terminated ++ s₃.bytes).length := by
    rw [laidOut_length]
    simp only [characters, CString.length, List.length_append, CString.terminated_length,
      List.length_cons, List.length_nil]
    omega
  refine ⟨nm', _, hrun, ⟨hb', ?_, ?_⟩, hpost⟩
  · rw [hparts, hmissing]
    have hempty := hb'.self.trans (congrArg some hend)
    exact List.rel_append (reads_partsAt_last hb'.self) (.cons (string_at hempty) .nil)
  · exact (List.cons.inj hparts).1

theorem breakdown_built (nm : OwnedName) {strings : List CString}
    (hn : strings.length = 4 ∨ strings.length = 3)
    (hd : ∀ s ∈ strings.take 3, CFG_DELIMITER ∉ s.bytes)
    (hb : Built h h' (pre ++ joined strings)) :
    ∃ (nm' : OwnedName) (h'' : Heap),
      prvBreakdownNameString h' nm ⟨h.brk, pre.length⟩ = .ok (true, nm', h'') ∧
      BrokenDown h h'' nm'.toName pre strings ∧ nm'.unPostLn = nm.unPostLn := by
  rcases hn with hn | hn
  · rcases List.length_eq_four.mp hn with ⟨s₁, s₂, s₃, s₄, rfl⟩
    exact breakdown_four nm (hd _ (by simp)) (hd _ (by simp)) (hd _ (by simp)) hb
  · rcases List.length_eq_three.mp hn with ⟨s₁, s₂, s₃, rfl⟩
    exact breakdown_three nm (hd _ (by simp)) (hd _ (by simp)) (hd _ (by simp)) hb

variable {strings : List CString} {p : Option Ptr} {t : CString}

/-- The string which was copied into a new block. -/
theorem Built.copied (hb : Built h h' (h.stale h.brk (pre.length + (t.length + 1))))
    {room : Bytes} (hsplit : h.stale h.brk (pre.length + (t.length + 1)) = pre ++ room)
    (hroom : room.length = t.length + 1) (ht : t.terminated = joined strings) :
    ∃ h'', h'.write (some ⟨h.brk, 0⟩) pre.length t.terminated = .ok h'' ∧
      Built h h'' (pre ++ joined strings) := by
  have hblk := hb.self
  rw [hsplit, ← List.append_nil room] at hblk
  refine ⟨_, Heap.write_middle hblk (Nat.zero_add _) ?_, ?_⟩
  · rw [CString.terminated_length, hroom]
  · rw [ht, List.append_nil]
    exact hb.setBlock _

theorem pxNameNewFromString_eq (hm : h.mallocOk h.calls = true) (hp : h.string p = .ok t)
    (ht : t.terminated = joined strings) (hn : strings.length = 4 ∨ strings.length = 3)
    (hd : ∀ s ∈ strings.take 3, CFG_DELIMITER ∉ s.bytes) :
    ∃ (nm : OwnedName) (h' : Heap) (pre : Bytes),
      pxNameNewFromString h p = .ok (some nm, h') ∧ BrokenDown h h' nm.toName pre strings ∧
      nm.unPostLn = t.length := by
  rcases stale_split h h.brk sizeofName (t.length + 1) with ⟨pre, room, hsplit, hpre, hroom⟩
  rcases pvRsMemAlloc_built hm (sizeofName + (t.length + 1)) with ⟨h₁, halloc, hb⟩
  rw [← hpre] at hb hsplit
  rcases hb.copied hsplit hroom ht with ⟨h₂, hwrite, hb₂⟩
  rcases breakdown_built (.at t.length none none none none (some ⟨h.brk, 0⟩)) hn hd hb₂ with
    ⟨nm, h₃, hbreak, hdown, hpost⟩
  refine ⟨nm, h₃, pre, ?_, hdown, hpost⟩
  rw [hpre] at hwrite hbreak
  rw [← Nat.add_assoc] at halloc
  simp only [pxNameNewFromString, hp, Exec.ok_bind, halloc, hwrite, hbreak]
  rfl

theorem xNameAssignFromString_eq (nm : OwnedName) (hm : h.mallocOk h.calls = true)
    (hp : h.string p = .ok t) (ht : t.terminated = joined strings)
    (hn : strings.length = 4 ∨ strings.length = 3)
    (hd : ∀ s ∈ strings.take 3, CFG_DELIMITER ∉ s.bytes) :
    ∃ (nm' : OwnedName) (h' : Heap),
      xNameAssignFromString h nm p = .ok (true, nm', h') ∧
      BrokenDown h h' nm'.toName [] strings ∧ nm'.unPostLn = 0 := by
  rcases pvRsMemAlloc_built hm (t.length + 1) with ⟨h₁, halloc, hb⟩
  have hzero : ([] : Bytes).length + (t.length + 1) = t.length + 1 := Nat.zero_add _
  rw [← hzero] at hb
  have hsplit : h.stale h.brk (([] : Bytes).length + (t.length + 1)) =
      [] ++ h.stale h.brk (([] : Bytes).length + (t.length + 1)) := rfl
  rcases hb.copied hsplit (by simp) ht with ⟨h₂, hwrite, hb₂⟩
  rcases breakdown_built { nm with unPostLn := 0, pxFree := some ⟨h.brk, 0⟩ } hn hd hb₂ with
    ⟨nm', h₃, hbreak, hdown, hpost⟩
  refine ⟨nm', h₃, ?_, hdown, hpost⟩
  rw [List.length_nil] at hwrite hbreak
  simp only [xNameAssignFromString, hp, Exec.ok_bind, halloc, hwrite, hbreak]
  rfl

/-! ### Strings which are not names -/

/-- A string is without delimiters, or it goes on behind its first one. -/
theorem delimiter_cases (s : CString) :
    CFG_DELIMITER ∉ s.bytes ∨ ∃ s₁ s₂ : CString, CFG_DELIMITER ∉ s₁.bytes ∧
      s.bytes = s₁.bytes ++ CFG_DELIMITER :: s₂.bytes := by
  by_cases hd : CFG_DELIMITER ∈ s.bytes
  · rcases List.eq_append_cons_of_mem hd with ⟨xs, ys, hsplit, hfirst⟩
    refine .inr ⟨⟨xs, fun h0 => s.noZero ?_⟩, ⟨ys, fun h0 => s.noZero ?_⟩, hfirst, hsplit⟩
    · rw [hsplit]
      exact List.mem_append_left _ h0
    · rw [hsplit]
      exact List.mem_append_right _ (List.mem_cons_of_mem _ h0)
  · exact .inl hd

theorem Heap.setBlock_same {b : Bytes} (hblk : h.mem a = some b) : h.setBlock a (some b) = h := by
  rw [Heap.setBlock, ← hblk, Function.update_eq_self]

theorem count_delimiter_split {s s₁ s₂ : CString} (h₁ : CFG_DELIMITER ∉ s₁.bytes)
    (hsplit : s.bytes = s₁.bytes ++ CFG_DELIMITER :: s₂.bytes) :
    s.bytes.count CFG_DELIMITER = s₂.bytes.count CFG_DELIMITER + 1 := by
  rw [hsplit, List.count_append, List.count_eq_zero.mpr h₁, List.count_cons_self, Nat.zero_add]

/-- A string is a name exactly when it has two delimiters. -/
theorem prvBreakdownNameString_total (pre : Bytes) (nm : OwnedName) {s : CString}
    (hblk : h.mem a = some (pre ++ s.terminated)) :
    ∃ (good : Bool) (nm' : OwnedName) (b' : Bytes),
      prvBreakdownNameString h nm ⟨a, pre.length⟩ = .ok (good, nm', h.setBlock a (some b')) ∧
      (good = true ↔ 2 ≤ s.bytes.count CFG_DELIMITER) := by
  rcases delimiter_cases s with h₁ | ⟨s₁, t, h₁, hs⟩
  · have hscan := scanPart_eq h₁ (.inr rfl) hblk
    refine ⟨false, { nm with pcProcessName := some ⟨a, pre.length⟩ }, pre ++ s.terminated,
      ?_, ?_⟩
    · rw [Heap.setBlock_same hblk]
      simp only [prvBreakdownNameString, hscan, Exec.ok_bind, if_pos]
      rfl
    · rw [List.count_eq_zero.mpr h₁]
      simp
  · have hcount := count_delimiter_split h₁ hs
    rcases delimiter_cases t with h₂ | ⟨s₂, u, h₂, ht⟩
    · have hone : pre ++ s.terminated =
          pre ++ (s₁.bytes ++ CFG_DELIMITER :: (t.bytes ++ 0 :: [])) := by
        simp [CString.terminated, hs]
      rw [hone] at hblk
      have hblk₂ := Heap.setBlock_self h a (some (pre ++ s₁.terminated ++ (t.bytes ++ 0 :: [])))
      have hscan₁ := scanPart_eq h₁ (.inl rfl) hblk
      have hwrite₁ := Heap.write_terminator hblk
      have hscan₂ := scanPart_eq h₂ (.inr rfl) hblk₂
      refine ⟨false, { nm with
        pcProcessName := some ⟨a, pre.length⟩
        pcProcessInstance := some ⟨a, (pre ++ s₁.terminated).length⟩ },
        pre ++ s₁.terminated ++ (t.bytes ++ 0 :: []), ?_, ?_⟩
      · simp only [prvBreakdownNameString, hscan₁, hwrite₁, add_terminator, hscan₂, Exec.ok_bind,
          if_neg (by decide : CFG_DELIMITER ≠ 0), if_pos]
        rfl
      · rw [hcount, List.count_eq_zero.mpr h₂]
        simp
    · have hcount' := count_delimiter_split h₂ ht
      have htwo : 2 ≤ s.bytes.count CFG_DELIMITER := by omega
      rcases delimiter_cases u with h₃ | ⟨s₃, v, h₃, hu⟩
      · have hall : pre ++ s.terminated = pre ++ (s₁.bytes ++ CFG_DELIMITER :: (s₂.bytes ++
            CFG_DELIMITER :: (u.bytes ++ 0 :: []))) := by
          simp [CString.terminated, hs, ht]
        rw [hall] at hblk
        rcases prvBreakdownNameString_eq nm h₁ h₂ h₃ (.inr rfl) hblk with ⟨nm', hrun, -, -⟩
        exact ⟨true, nm', _, hrun, iff_of_true rfl htwo⟩
      · have hall : pre ++ s.terminated = pre ++ (s₁.bytes ++ CFG_DELIMITER :: (s₂.bytes ++
            CFG_DELIMITER :: (s₃.bytes ++ CFG_DELIMITER :: v.terminated))) := by
          simp [CString.terminated, hs, ht, hu]
        rw [hall] at hblk
        rcases prvBreakdownNameString_eq nm h₁ h₂ h₃ (.inl rfl) hblk with ⟨nm', hrun, -, -⟩
        exact ⟨true, nm', _, hrun, iff_of_true rfl htwo⟩

/-- A later heap, in which strings and new addresses are as before. -/
structure Later (h h' : Heap) : Prop where
  calls : h'.calls = h.calls + 1
  mallocOk : h'.mallocOk = h.mallocOk
  fresh : h'.Fresh
  string : ∀ p s, h.string p = .ok s → h'.string p = .ok s

theorem Heap.Fresh.later_called (hf : h.Fresh) : Later h h.called :=
  ⟨rfl, rfl, hf, fun _ _ hs => hs⟩

theorem Built.later (hb : Built h h' b) (hf : h.Fresh) : Later h h' where
  calls := hb.calls
  mallocOk := hb.mallocOk
  fresh a ha := by
    rw [hb.brk] at ha
    have hne : a ≠ h.brk := Nat.ne_of_gt ha
    rw [hb.netbufs, hb.mem, Function.update_of_ne hne]
    exact hf a (Nat.le_of_succ_le ha)
  string p s hs := by
    have hr : Reads h [p] [s] := .cons hs .nil
    cases hr.update (hf h.brk (Nat.le_refl _)).2 hb.mem with
    | cons hs' _ => exact hs'

/-- Four parts are assigned exactly when there is memory for them. -/
theorem xNameAssignFromPartsDup_total (nm : OwnedName) (hf : h.Fresh)
    (hs₁ : h.stringOr p₁ = .ok s₁) (hs₂ : h.stringOr p₂ = .ok s₂)
    (hs₃ : h.stringOr p₃ = .ok s₃) (hs₄ : h.stringOr p₄ = .ok s₄) :
    ∃ (nm' : OwnedName) (h' : Heap),
      xNameAssignFromPartsDup h nm p₁ p₂ p₃ p₄ = .ok (h.mallocOk h.calls, nm', h') ∧
      Later h h' ∧
      if h.mallocOk h.calls then Reads h' nm'.strings [s₁, s₂, s₃, s₄]
      else nm' = { nm with pxFree := none } := by
  cases hm : h.mallocOk h.calls with
  | false =>
    refine ⟨{ nm with pxFree := none }, h.called, ?_, hf.later_called, rfl⟩
    simp only [xNameAssignFromPartsDup, hs₁, hs₂, hs₃, hs₄, Exec.ok_bind, pvRsMemAlloc, hm]
    rfl
  | true =>
    rcases xNameAssignFromPartsDup_eq nm hm hs₁ hs₂ hs₃ hs₄ with ⟨nm', h₁, hrun, hl, -⟩
    have hreads := hl.reads
    rcases hl with ⟨pre, post, hb, -⟩
    exact ⟨nm', h₁, hrun, hb.later hf, hreads⟩

/-- A string which was copied into a new block is broken down there. -/
theorem Built.breakdown (nm : OwnedName) {s : CString} {room : Bytes}
    (hb : Built h h' (h.stale h.brk (pre.length + (s.length + 1))))
    (hsplit : h.stale h.brk (pre.length + (s.length + 1)) = pre ++ room)
    (hroom : room.length = s.length + 1) :
    ∃ h₂ good nm' h₃ b, h'.write (some ⟨h.brk, 0⟩) pre.length s.terminated = .ok h₂ ∧
      prvBreakdownNameString h₂ nm ⟨h.brk, pre.length⟩ = .ok (good, nm', h₃) ∧ Built h h₃ b ∧
      (good = true ↔ 2 ≤ s.bytes.count CFG_DELIMITER) := by
  have hone : s.terminated = joined [s] := rfl
  rcases hb.copied hsplit hroom hone with ⟨h₂, hwrite, hb₂⟩
  rcases prvBreakdownNameString_total pre nm hb₂.self with ⟨good, nm', b, hbreak, hgood⟩
  exact ⟨h₂, good, nm', _, b, hwrite, hbreak, hb₂.setBlock b, hgood⟩

/-- A string is assigned exactly when there is memory for it and it has two delimiters. -/
theorem xNameAssignFromString_total (nm : OwnedName) (hf : h.Fresh) {p : Option Ptr}
    {s : CString} (hp : h.string p = .ok s) :
    ∃ (good : Bool) (nm' : OwnedName) (h' : Heap),
      xNameAssignFromString h nm p = .ok (good, nm', h') ∧ Later h h' ∧
      (good = true ↔ h.mallocOk h.calls = true ∧ 2 ≤ s.bytes.count CFG_DELIMITER) := by
  cases hm : h.mallocOk h.calls with
  | false =>
    refine ⟨false, { nm with pxFree := none }, h.called, ?_, hf.later_called, by simp⟩
    simp only [xNameAssignFromString, hp, Exec.ok_bind, pvRsMemAlloc, hm]
    rfl
  | true =>
    rcases pvRsMemAlloc_built hm (s.length + 1) with ⟨h₁, halloc, hb⟩
    have hzero : ([] : Bytes).length + (s.length + 1) = s.length + 1 := Nat.zero_add _
    rw [← hzero] at hb
    rcases hb.breakdown { nm with unPostLn := 0, pxFree := some ⟨h.brk, 0⟩ }
      (List.nil_append _).symm (by simp) with ⟨h₂, good, nm', h₃, b, hwrite, hbreak, hb₃, hgood⟩
    have hrun : xNameAssignFromString h nm p = .ok (good, if good then nm' else .zero, h₃) := by
      rw [List.length_nil] at hwrite hbreak
      simp only [xNameAssignFromString, hp, Exec.ok_bind, halloc, hwrite, hbreak]
      cases good <;> rfl
    refine ⟨good, _, _, hrun, hb₃.later hf, ?_⟩
    rw [hgood]
    exact (and_iff_right rfl).symm

/-! ### The two printers -/

theorem vNameToStringBuf_reads {nm : Name} (hr : Reads h nm.strings strings) {pcBuf : Bytes}
    (hb : characters strings + 4 ≤ pcBuf.length) :
    vNameToStringBuf h nm pcBuf pcBuf.length = .ok (splice pcBuf 0 (joined strings)) := by
  have hcount : strings.length = 4 := hr.length_eq.symm
  cases strings with
  | nil => cases hcount
  | cons s strings =>
    have hlen := joined_length s strings
    rw [List.length_cons] at hcount
    exact printStrings_joined hr (by omega) (by omega)

/-- What is left in a buffer behind the terminator does not matter. -/
theorem cstring_splice_joined (s : CString) (pcBuf : Bytes) :
    cstring (splice pcBuf 0 (joined (s :: strings))) = cstring (joined (s :: strings)) := by
  rcases joined_terminated s strings with ⟨t, ht⟩
  have hfront : splice pcBuf 0 t.terminated =
      t.bytes ++ 0 :: pcBuf.drop (0 + t.terminated.length) := by
    simp [splice, CString.terminated]
  rw [ht, cstring_terminated, hfront]
  exact cstring_append t _

/-- The loop of `pcNameToString` over the copied bytes. -/
theorem delimited_laidOut (s : CString) (strings : List CString) {n : ℕ}
    (hn : (laidOut (s :: strings)).length = n + 1) :
    ((laidOut (s :: strings)).take n).map (fun c => if c = 0 then CFG_DELIMITER else c) ++
      (laidOut (s :: strings)).drop n = joined (s :: strings) := by
  have hkept : ∀ s : CString,
      s.bytes.map (fun c => if c = 0 then CFG_DELIMITER else c) = s.bytes := by
    intro s
    have hsame : ∀ c ∈ s.bytes, (if c = 0 then CFG_DELIMITER else c) = c := by
      intro c hc
      refine if_neg ?_
      rintro rfl
      exact s.noZero hc
    rw [List.map_congr_left hsame, List.map_id']
  induction strings generalizing s n with
  | nil =>
    have hone : laidOut [s] = s.bytes ++ [0] := by simp [laidOut, CString.terminated]
    rw [hone, List.length_append, List.length_singleton, Nat.add_right_cancel_iff] at hn
    rw [hone, ← hn, List.take_left, List.drop_left, hkept]
    rfl
  | cons t strings ih =>
    have hsplit : laidOut (s :: t :: strings) = s.bytes ++ 0 :: laidOut (t :: strings) := by
      simp [laidOut, CString.terminated]
    obtain ⟨m, hm⟩ : ∃ m, (laidOut (t :: strings)).length = m + 1 := by
      rw [laidOut_length, List.length_cons]
      exact ⟨_, rfl⟩
    have hpos : n = s.bytes.length + (m + 1) := by
      rw [hsplit, List.length_append, List.length_cons, hm] at hn
      omega
    rw [hsplit, hpos, List.take_length_add_append, List.drop_length_add_append,
      List.take_succ_cons, List.drop_succ_cons, List.map_append, List.map_cons, hkept,
      List.append_assoc, List.cons_append, ih t hm, if_pos rfl]
    rfl

/-- The copy of `n` characters and a terminator from the first string on. -/
theorem pcNameToString_behind {nm : Name} {n o : ℕ} (hn : nm.unPostLn = n) (hpos : n ≠ 0)
    (hfirst : nm.pcProcessName = some ⟨a, o⟩) {b : Bytes} (hblk : h.mem a = some b)
    (hlen : o + (n + 1) ≤ b.length) (hm : h.MemoryAvailable) (hbrk : h.mem h.brk = none) :
    ∃ h', pcNameToString h nm = .ok (some h.brk, h') ∧
      h'.mem h.brk = some ((((b.drop o).take (n + 1)).take n).map
        (fun c => if c = 0 then CFG_DELIMITER else c) ++ ((b.drop o).take (n + 1)).drop n) := by
  rcases pvRsMemAlloc_built (hm _) (n + 1) with ⟨h₁, halloc, hb⟩
  have hne : a ≠ h.brk := by
    rintro rfl
    rw [hbrk] at hblk
    cases hblk
  have hkept : h₁.mem a = some b := by
    rw [hb.mem, Function.update_of_ne hne, hblk]
  have hread : h₁.read (some ⟨a, o⟩) 0 (n + 1) = .ok ((b.drop o).take (n + 1)) :=
    Heap.read_of_block hkept hlen
  subst hn
  refine ⟨_, ?_, Heap.setBlock_self h₁ _ _⟩
  rw [pcNameToString, if_neg hpos, hfirst]
  simp only [halloc, hread, Exec.ok_bind]
  rfl

/-- `pcNameToString` returns the four strings, or the three with some end, with delimiters
between them, and `vNameToStringBuf` prints the same into a buffer which is large enough. -/
def PrintsAs (h : Heap) (nm : Name) (strings : List CString) : Prop :=
  ∃ px h' text, pcNameToString h nm = .ok (some px, h') ∧ h'.mem px = some text ∧
    (strings.length = 4 → text = joined strings) ∧
    ∀ pcBuf : Bytes, characters strings + 4 ≤ pcBuf.length →
      ∃ pcBuf', vNameToStringBuf h nm pcBuf pcBuf.length = .ok pcBuf' ∧
        cstring pcBuf' = cstring text

theorem characters_append (strings others : List CString) :
    characters (strings ++ others) = characters strings + characters others := by
  induction strings with
  | nil => exact (Nat.zero_add _).symm
  | cons s strings ih => rw [List.cons_append, characters, characters, ih, Nat.add_assoc]

theorem characters_filled (strings : List CString) :
    characters (filled strings) = characters strings := by
  have hzero : ∀ n, characters (List.replicate n CString.empty) = 0 := by
    intro n
    induction n with
    | zero => rfl
    | succ n ih => rw [List.replicate_succ, characters, ih]; rfl
  rw [filled, characters_append, hzero, Nat.add_zero]

theorem filled_four (hn : strings.length = 4) : filled strings = strings := by
  simp [filled, hn]

theorem cstring_vNameToStringBuf {nm : Name} (hr : Reads h nm.strings (filled strings))
    (pcBuf : Bytes) (hb : characters strings + 4 ≤ pcBuf.length) :
    ∃ pcBuf', vNameToStringBuf h nm pcBuf pcBuf.length = .ok pcBuf' ∧
      cstring pcBuf' = cstring (joined (filled strings)) := by
  rw [← characters_filled] at hb
  refine ⟨_, vNameToStringBuf_reads hr hb, ?_⟩
  cases hf : filled strings with
  | nil =>
    rw [hf] at hr
    cases hr
  | cons s rest => exact cstring_splice_joined s pcBuf

/-- A name whose strings were not allocated behind it. -/
theorem printsAs_apart {nm : Name} (hn : nm.unPostLn = 0)
    (hr : Reads h nm.strings (filled strings)) (hm : h.MemoryAvailable)
    (hbrk : h.mem h.brk = none) : PrintsAs h nm strings := by
  rcases pcNameToString_parts hn hr (hm _) hbrk with ⟨h', hrun, -, htext⟩
  exact ⟨_, h', _, hrun, htext, fun hfour => by rw [filled_four hfour],
    fun pcBuf hb => cstring_vNameToStringBuf hr pcBuf hb⟩

/-- Only the characters and one byte are copied, so that three delimiters are missing. -/
theorem not_printsAs_short {nm : Name} (hl : LaidOut h h' nm strings)
    (hn : nm.unPostLn = characters strings) (hpos : characters strings ≠ 0)
    (hfour : strings.length = 4) (hm : h'.MemoryAvailable) (hbrk : h'.mem h'.brk = none) :
    ¬ PrintsAs h' nm strings := by
  rintro ⟨px, h'', text, hrun, htext, hjoined, -⟩
  rcases hl with ⟨pre, post, hb, hparts⟩
  have hlen := laidOut_length strings
  have hfirst : nm.pcProcessName = some ⟨h.brk, pre.length⟩ := by
    rcases List.length_eq_four.mp hfour with ⟨s₁, s₂, s₃, s₄, rfl⟩
    exact (List.cons.inj hparts).1
  have hfits : pre.length + (characters strings + 1) ≤
      (pre ++ (laidOut strings ++ post)).length := by
    simp only [List.length_append]
    omega
  rcases pcNameToString_behind hn hpos hfirst hb.self hfits hm hbrk with ⟨h₂, hrun₂, htext₂⟩
  cases hrun.symm.trans hrun₂
  cases htext.symm.trans htext₂
  have hsize := congrArg List.length (hjoined hfour)
  have hwhole : (joined strings).length = characters strings + 4 := by
    rcases List.length_eq_four.mp hfour with ⟨s₁, s₂, s₃, s₄, rfl⟩
    exact joined_length _ _
  simp only [List.length_append, List.length_map, List.length_take, List.length_drop] at hsize
  omega

/-- A copy of the whole string behind the structure. -/
theorem pcNameToString_brokenDown {nm : Name} {n : ℕ} (hdown : BrokenDown h h' nm pre strings)
    (hn : nm.unPostLn = n) (hlen : (joined strings).length = n + 1) (hpos : n ≠ 0)
    (hm : h'.MemoryAvailable) (hbrk : h'.mem h'.brk = none) :
    ∃ h'', pcNameToString h' nm = .ok (some h'.brk, h'') ∧
      h''.mem h'.brk = some (joined strings) := by
  rcases hdown with ⟨hb, -, hfirst⟩
  cases strings with
  | nil => cases hlen
  | cons s strings =>
    have hsize : (laidOut (s :: strings)).length = n + 1 := by
      rw [← hlen, laidOut_length, joined_length, List.length_cons, Nat.add_assoc]
    have hfits : pre.length + (n + 1) ≤ (pre ++ laidOut (s :: strings)).length := by
      rw [List.length_append, hsize]
    rcases pcNameToString_behind hn hpos hfirst hb.self hfits hm hbrk with ⟨h'', hrun, htext⟩
    refine ⟨h'', hrun, htext.trans ?_⟩
    rw [List.drop_left, ← hsize, List.take_length, delimited_laidOut s strings hsize]

/-- A missing part adds a delimiter. -/
theorem cstring_filled_ne (hthree : strings.length = 3) :
    cstring (joined (filled strings)) ≠ cstring (joined strings) := by
  intro hsame
  rcases List.length_eq_three.mp hthree with ⟨s₁, s₂, s₃, rfl⟩
  rcases joined_terminated s₁ [s₂, s₃] with ⟨t, ht⟩
  rcases joined_terminated s₁ [s₂, s₃, CString.empty] with ⟨u, hu⟩
  have hfill : filled [s₁, s₂, s₃] = [s₁, s₂, s₃, CString.empty] := rfl
  rw [hfill, ht, hu, cstring_terminated, cstring_terminated] at hsame
  have hlt := congrArg List.length ht
  have hlu := congrArg List.length hu
  rw [joined_length, CString.terminated_length] at hlt hlu
  rw [Option.some.inj hsame] at hlu
  simp only [characters, CString.empty, CString.length, List.length_cons,
    List.length_nil] at hlt hlu
  omega

theorem printsAs_behind_iff {nm : Name} {n : ℕ} (hdown : BrokenDown h h' nm pre strings)
    (hn : nm.unPostLn = n) (hlen : (joined strings).length = n + 1)
    (hcount : strings.length = 4 ∨ strings.length = 3) (hm : h'.MemoryAvailable)
    (hbrk : h'.mem h'.brk = none) : PrintsAs h' nm strings ↔ strings.length = 4 := by
  have hpos : n ≠ 0 := by
    cases strings with
    | nil => rcases hcount with hcount | hcount <;> cases hcount
    | cons s strings =>
      rw [joined_length] at hlen
      rw [List.length_cons] at hcount
      omega
  rcases pcNameToString_brokenDown hdown hn hlen hpos hm hbrk with ⟨h₂, hrun₂, htext₂⟩
  have hr := hdown.2.1
  constructor
  · rintro ⟨px, h'', text, hrun, htext, -, hagree⟩
    refine hcount.resolve_right fun hthree => ?_
    cases hrun.symm.trans hrun₂
    cases htext.symm.trans htext₂
    rcases hagree (List.replicate (characters strings + 4) 0) (by simp) with
      ⟨pcBuf', hprint, hsame⟩
    rcases cstring_vNameToStringBuf hr (List.replicate (characters strings + 4) 0)
      (by simp) with ⟨pcBuf'', hprint', hfull⟩
    cases hprint.symm.trans hprint'
    exact cstring_filled_ne hthree (hfull.symm.trans hsame)
  · intro hfour
    refine ⟨_, h₂, _, hrun₂, htext₂, fun _ => rfl, fun pcBuf hb => ?_⟩
    have hprint := cstring_vNameToStringBuf hr pcBuf hb
    rwa [filled_four hfour] at hprint

/-! ### Printing for each constructor -/

/-- The constructor builds a name which prints as the strings. -/
def NameBuild.Prints (h : Heap) (build : NameBuild) (strings : List CString) : Prop :=
  ∃ (nm : OwnedName) (h' : Heap), build.run h = .ok (some nm, h') ∧
    PrintsAs h' nm.toName strings

/-- The constructor is given the four strings, one by one or with delimiters between them,
or the first three with delimiters between them. -/
def NameBuild.Given (h : Heap) (strings : List CString) : NameBuild → Prop
  | .pxNameNewFromParts p₁ p₂ p₃ p₄ => Reads h [p₁, p₂, p₃, p₄] strings
  | .xNameAssignFromPartsDup _ p₁ p₂ p₃ p₄ =>
    List.Forall₂ (fun p s => h.stringOr p = .ok s) [p₁, p₂, p₃, p₄] strings
  | .vNameAssignFromPartsStatic p₁ p₂ p₃ p₄ => Reads h [p₁, p₂, p₃, p₄] strings
  | .pxNameNewFromString p | .xNameAssignFromString _ p =>
    ∃ t, h.string p = .ok t ∧ t.terminated = joined strings ∧
      (strings.length = 4 ∨ strings.length = 3)

/-- Behind the structure lie as many bytes as are printed, or none. -/
def NameBuild.LengthFits (strings : List CString) : NameBuild → Prop
  | .pxNameNewFromParts .. => ∀ s ∈ strings, s.bytes = []
  | .pxNameNewFromString _ => strings.length = 4
  | _ => True

theorem characters_eq_zero : characters strings = 0 ↔ ∀ s ∈ strings, s.bytes = [] := by
  induction strings with
  | nil => simp [characters]
  | cons s strings ih =>
    rw [characters, Nat.add_eq_zero_iff, ih, List.forall_mem_cons, CString.length,
      List.length_eq_zero_iff]

theorem newFromParts_prints_iff (hm : h.MemoryAvailable) (hf : h.Fresh)
    (hr : Reads h [p₁, p₂, p₃, p₄] [s₁, s₂, s₃, s₄]) :
    (NameBuild.pxNameNewFromParts p₁ p₂ p₃ p₄).Prints h [s₁, s₂, s₃, s₄] ↔
      ∀ s ∈ [s₁, s₂, s₃, s₄], s.bytes = [] := by
  rcases pxNameNewFromParts_eq hm hr with ⟨nm, h₁, hrun, hl, hpost⟩
  have hreads := hl.reads
  have ⟨_, _, hb, _⟩ := hl
  rw [← characters_eq_zero]
  constructor
  · rintro ⟨nm', h₂, hrun', hprints⟩
    cases hrun'.symm.trans hrun
    by_contra hpos
    exact not_printsAs_short hl hpost hpos rfl (hb.available hm) (hb.next hf) hprints
  · intro hzero
    exact ⟨nm, h₁, hrun, printsAs_apart (hpost.trans hzero) hreads (hb.available hm) (hb.next hf)⟩

theorem newFromString_prints_iff (hm : h.MemoryAvailable) (hf : h.Fresh)
    (hp : h.string p = .ok t) (ht : t.terminated = joined strings)
    (hn : strings.length = 4 ∨ strings.length = 3)
    (hd : ∀ s ∈ strings, CFG_DELIMITER ∉ s.bytes) :
    (NameBuild.pxNameNewFromString p).Prints h strings ↔ strings.length = 4 := by
  rcases pxNameNewFromString_eq (hm _) hp ht hn fun s hs => hd s (List.mem_of_mem_take hs) with
    ⟨nm, h₁, pre, hrun, hdown, hpost⟩
  have hb := hdown.1
  have hlen : (joined strings).length = t.length + 1 := by rw [← ht, CString.terminated_length]
  have hiff := printsAs_behind_iff hdown hpost hlen hn (hb.available hm) (hb.next hf)
  rw [← hiff]
  constructor
  · rintro ⟨nm', h₂, hrun', hprints⟩
    cases hrun'.symm.trans hrun
    exact hprints
  · exact fun hprints => ⟨nm, h₁, hrun, hprints⟩

/-- A name which is built from four strings without delimiters, or from three in one string,
prints as these in both ways exactly when the recorded length fits them. -/
theorem built_prints_iff {build : NameBuild} (hm : h.MemoryAvailable) (hf : h.Fresh)
    (hg : build.Given h strings) (hd : ∀ s ∈ strings, CFG_DELIMITER ∉ s.bytes) :
    build.Prints h strings ↔ build.LengthFits strings := by
  cases build with
  | pxNameNewFromParts p₁ p₂ p₃ p₄ =>
    rcases List.length_eq_four.mp hg.length_eq.symm with ⟨s₁, s₂, s₃, s₄, rfl⟩
    exact newFromParts_prints_iff hm hf hg
  | xNameAssignFromPartsDup nm p₁ p₂ p₃ p₄ =>
    rcases List.length_eq_four.mp hg.length_eq.symm with ⟨s₁, s₂, s₃, s₄, rfl⟩
    simp only [NameBuild.Given, List.forall₂_cons, List.forall₂_nil_left_iff, and_true] at hg
    rcases hg with ⟨hs₁, hs₂, hs₃, hs₄⟩
    rcases xNameAssignFromPartsDup_eq nm (hm _) hs₁ hs₂ hs₃ hs₄ with ⟨nm', h₁, hrun, hl, hpost⟩
    have hreads := hl.reads
    rcases hl with ⟨pre, post, hb, -⟩
    refine iff_of_true ⟨nm', h₁, ?_, ?_⟩ trivial
    · rw [NameBuild.run, hrun]
      rfl
    · exact printsAs_apart hpost hreads (hb.available hm) (hb.next hf)
  | vNameAssignFromPartsStatic p₁ p₂ p₃ p₄ =>
    rcases List.length_eq_four.mp hg.length_eq.symm with ⟨s₁, s₂, s₃, s₄, rfl⟩
    exact iff_of_true ⟨_, h, rfl, printsAs_apart rfl hg hm (hf _ (Nat.le_refl _)).2⟩ trivial
  | pxNameNewFromString p =>
    rcases hg with ⟨t, hp, ht, hn⟩
    exact newFromString_prints_iff hm hf hp ht hn hd
  | xNameAssignFromString nm p =>
    rcases hg with ⟨t, hp, ht, hn⟩
    rcases xNameAssignFromString_eq nm (hm _) hp ht hn
      fun s hs => hd s (List.mem_of_mem_take hs) with ⟨nm', h₁, hrun, hdown, hpost⟩
    have hb := hdown.1
    refine iff_of_true ⟨nm', h₁, ?_, ?_⟩ trivial
    · rw [NameBuild.run, hrun]
      rfl
    · exact printsAs_apart hpost hdown.2.1 (hb.available hm) (hb.next hf)

/-- The strings `e1` to `e4`. -/
def exampleParts : List CString :=
  [⟨[101, 49], by decide⟩, ⟨[101, 50], by decide⟩, ⟨[101, 51], by decide⟩,
    ⟨[101, 52], by decide⟩]

/-- A heap whose only block holds the example's strings. -/
def partsHeap : Heap where
  mem := Function.update (fun _ => none) 0 (some (laidOut exampleParts))
  netbufs _ := none
  rsrcs _ := none
  pools _ := none
  brk := 1
  calls := 0
  mallocOk _ := true
  junk _ _ := 0

theorem partsHeap_fresh : partsHeap.Fresh := by
  intro a ha
  have hne : a ≠ 0 := Nat.ne_of_gt ha
  simp [partsHeap, hne]

theorem partsHeap_reads :
    Reads partsHeap [some ⟨0, 0⟩, some ⟨0, 3⟩, some ⟨0, 6⟩, some ⟨0, 9⟩] exampleParts := by
  have hblk : partsHeap.mem 0 = some ([] ++ (laidOut exampleParts ++ [])) := by
    rw [List.nil_append, List.append_nil]
    rfl
  exact reads_partsAt hblk

theorem exampleParts_delimiterFree : ∀ s ∈ exampleParts, CFG_DELIMITER ∉ s.bytes := by
  decide

/-- `pcNameToString` returns `e1/e2/e3` for the name made from these parts. -/
theorem parts_printed_short :
    ¬ (NameBuild.pxNameNewFromParts (some ⟨0, 0⟩) (some ⟨0, 3⟩) (some ⟨0, 6⟩)
      (some ⟨0, 9⟩)).Prints partsHeap exampleParts := by
  intro hprints
  have hempty := (newFromParts_prints_iff (fun _ => rfl) partsHeap_fresh partsHeap_reads).mp
    hprints
  exact absurd hempty (by decide)

theorem built_prints_parts :
    (NameBuild.vNameAssignFromPartsStatic (some ⟨0, 0⟩) (some ⟨0, 3⟩) (some ⟨0, 6⟩)
      (some ⟨0, 9⟩)).Prints partsHeap exampleParts :=
  Iff.mpr (built_prints_iff (fun _ => rfl) partsHeap_fresh partsHeap_reads
    exampleParts_delimiterFree) trivial

end RinaSense.Common
