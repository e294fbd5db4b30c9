import RinaSense.Common.Rsrc

/-!
# Netbuf chains

The chains of `common/netbuf.c`. A netbuf which was freed stays in its chain, without
contents, until the whole chain is free. The loops follow the `pxNext` pointers; the
number of addresses ever handed out bounds a chain which ends.
-/

namespace RinaSense.Common

open Library.Memory

variable (pf : Platform)

def pxNetBufNew (h : Heap) (xPool : Option PoolPtr) (eType : NetBufType)
    (pxBuf : Option Ptr) (unSz : ℕ) (pfnFree : Option FreeMethod) :
    Exec (Option NbPtr × Heap) := do
  rsAssert pf xPool.isSome
  rsAssert pf (unSz != 0)
  return pvRsMemAllocNetbuf h
    { pxNext := none
      pxFirst := h.brk
      eType := eType
      unSz := unSz
      pxBuf := pxBuf
      pxBufStart := pxBuf
      xFreed := false
      freemethod := pfnFree
      xPool := xPool }

/-- The first netbuf from `p` on which is not freed. -/
def firstLive (h : Heap) : ℕ → Option NbPtr → Exec (Option NbPtr)
  | _, none => .ok none
  | 0, some _ => .error .endless
  | fuel + 1, some p => do
    let nb ← h.netbuf p
    if nb.xFreed then firstLive h fuel nb.pxNext else return some p

/-- The addresses of a chain from `p` on, freed netbufs included. -/
def chainFrom (h : Heap) : ℕ → Option NbPtr → Exec (List NbPtr)
  | _, none => .ok []
  | 0, some _ => .error .endless
  | fuel + 1, some p => do
    let nb ← h.netbuf p
    let rest ← chainFrom h fuel nb.pxNext
    return p :: rest

/-- The loop of `xNetBufSplit`, which ends at the netbuf that holds the cut. -/
def splitLoop (eType : NetBufType) (h : Heap) : ℕ → Option NbPtr → ℕ → Exec (Bool × Heap)
  | _, none, _ => .ok (false, h)
  | 0, some _, _ => .error .endless
  | fuel + 1, some p, unSz => do
    let nb ← h.netbuf p
    if nb.xFreed then splitLoop eType h fuel nb.pxNext unSz
    else if nb.unSz < unSz then splitLoop eType h fuel nb.pxNext (unSz - nb.unSz)
    else if nb.unSz = unSz then return (true, h)
    else
      match pvRsMemAllocNetbuf h
        { nb with
          eType := eType
          pxBuf := nb.pxBuf.map (·.add unSz)
          unSz := nb.unSz - unSz
          xFreed := false } with
      | (none, h) => return (false, h)
      | (some pxNewBuf, h) =>
        return (true, h.setNetbuf p (some { nb with unSz := unSz, pxNext := some pxNewBuf }))

/-- Ensures a cut after `unSz` bytes; `false` stands for the error codes. -/
def xNetBufSplit (h : Heap) (pxNb : NbPtr) (eType : NetBufType) (unSz : ℕ) :
    Exec (Bool × Heap) := do
  let nb ← h.netbuf pxNb
  splitLoop eType h h.brk (some nb.pxFirst) unSz

def callFreeMethod (h : Heap) (p : NbPtr) (nb : Netbuf) : Exec Heap :=
  match nb.freemethod with
  | none => .ok h
  | some .vNetBufFreeButDont => .ok h
  | some .vNetBufFreeNormal => do
    let h ← vRsMemFree h nb.pxBufStart
    return h.setNetbuf p (some { nb with pxBufStart := none })
  | some .vNetBufFreePool => do
    let h ← vRsrcFree pf h nb.pxBufStart
    return h.setNetbuf p (some { nb with pxBufStart := none })

/-- The last loop of `vNetBufFree`, which releases the buffers and the structures. -/
def freeChain (h : Heap) : List NbPtr → Exec Heap
  | [] => .ok h
  | p :: ps => do
    let nb ← h.netbuf p
    let h ← if nb.pxBufStart.isSome then callFreeMethod pf h p nb else .ok h
    let h ← vRsMemFreeNetbuf h p
    freeChain h ps

/-- Whether every netbuf of a list of addresses is marked as freed. -/
def allFreed (h : Heap) : List NbPtr → Exec Bool
  | [] => .ok true
  | p :: ps => do
    let nb ← h.netbuf p
    let rest ← allFreed h ps
    return nb.xFreed && rest

/-- How many netbufs of a list of addresses start in the same buffer. -/
def countBuffer (h : Heap) (start : Option Ptr) : List NbPtr → Exec ℕ
  | [] => .ok 0
  | p :: ps => do
    let nb ← h.netbuf p
    let rest ← countBuffer h start ps
    return (if nb.pxBufStart = start then 1 else 0) + rest

def vNetBufFree (h : Heap) (pxNb : NbPtr) : Exec Heap := do
  let nb ← h.netbuf pxNb
  let nb := { nb with xFreed := true, unSz := 0, pxBuf := none }
  let h := h.setNetbuf pxNb (some nb)
  let chain ← chainFrom h h.brk (some nb.pxFirst)
  let unCnt ← countBuffer h nb.pxBufStart chain
  let xFullyFreed ← allFreed h chain
  let h ← if 2 ≤ unCnt then .ok (h.setNetbuf pxNb (some { nb with pxBufStart := none }))
    else if unCnt = 0 then callFreeMethod pf h pxNb nb
    else .ok h
  if xFullyFreed then freeChain pf h chain else return h

/-- The loop of `vNetBufFreeAll`, which reads the next address before it frees a netbuf. -/
def freeAllLoop (h : Heap) : ℕ → Option NbPtr → Exec Heap
  | _, none => .ok h
  | 0, some _ => .error .endless
  | fuel + 1, some p => do
    let nb ← h.netbuf p
    let h ← vNetBufFree pf h p
    freeAllLoop h fuel nb.pxNext

def vNetBufFreeAll (h : Heap) (pxNb : NbPtr) : Exec Heap := do
  let nb ← h.netbuf pxNb
  freeAllLoop pf h h.brk (some nb.pxFirst)

/-- The sum of the sizes of the live netbufs of a list of addresses. -/
def sizeSum (h : Heap) : List NbPtr → Exec ℕ
  | [] => .ok 0
  | p :: ps => do
    let nb ← h.netbuf p
    let rest ← sizeSum h ps
    return (if nb.xFreed then 0 else nb.unSz) + rest

def unNetBufTotalSize (h : Heap) (pxNb : NbPtr) : Exec ℕ := do
  let nb ← h.netbuf pxNb
  let chain ← chainFrom h h.brk (some nb.pxFirst)
  sizeSum h chain

/-- Live netbufs of a list of addresses get a new first netbuf. -/
def setFirst (first : NbPtr) (h : Heap) : List NbPtr → Exec Heap
  | [] => .ok h
  | p :: ps => do
    let nb ← h.netbuf p
    setFirst first
      (if nb.xFreed then h else h.setNetbuf p (some { nb with pxFirst := first })) ps

def vNetBufAppend (h : Heap) (pxNbLeft pxNbRight : NbPtr) : Exec Heap := do
  let left ← h.netbuf pxNbLeft
  rsAssert pf (!left.xFreed)
  let leftChain ← chainFrom h h.brk (some left.pxFirst)
  let pxNbLeftLast ← deref leftChain.getLast?
  let last ← h.netbuf pxNbLeftLast
  let right ← h.netbuf pxNbRight
  let h := h.setNetbuf pxNbLeftLast (some { last with pxNext := some right.pxFirst })
  let rightChain ← chainFrom h h.brk (some pxNbRight)
  let left ← h.netbuf pxNbLeft
  setFirst left.pxFirst h rightChain

def pxNetBufNext (h : Heap) (pxNb : NbPtr) : Exec (Option NbPtr) := do
  let nb ← h.netbuf pxNb
  rsAssert pf (!nb.xFreed)
  firstLive h h.brk nb.pxNext

def eNetBufType (h : Heap) (pxNb : NbPtr) : Exec NetBufType := do
  let nb ← h.netbuf pxNb
  rsAssert pf (!nb.xFreed)
  return nb.eType

def unNetBufSize (h : Heap) (pxNb : NbPtr) : Exec ℕ := do
  let nb ← h.netbuf pxNb
  rsAssert pf (!nb.xFreed)
  return nb.unSz

def pvNetBufPtr (h : Heap) (pxNb : NbPtr) : Exec (Option Ptr) := do
  let nb ← h.netbuf pxNb
  rsAssert pf (!nb.xFreed)
  return nb.pxBuf

end RinaSense.Common
