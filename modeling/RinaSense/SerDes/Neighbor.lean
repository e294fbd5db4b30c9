import RinaSense.SerDes.Message

/-!
# Serialising neighbors

A neighbor has four optional strings, an address and the names of the DIFs which it
supports. The names go through callbacks: the encoder writes one field for each, and the
decoder collects them in an array list and packs all strings behind the structure. A list
of neighbors is a message whose only field is repeated.
-/

namespace RinaSense.SerDes

open Common Library.Memory

def ENROLLMENT_MSG_SIZE : ℕ := 1500

/-- The size of the four arrays in `NeighborMessage.pb.h`. -/
def sizeNeighborString : ℕ := 20

structure NeighborMessage where
  pcApName : Option CString
  pcApInstance : Option CString
  pcAeName : Option CString
  pcAeInstance : Option CString
  ullAddress : UInt64
  pcSupportingDifs : List CString
deriving DecidableEq

/-- The fields of `rina_messages_neighbor_t` in front of its callback. -/
structure PbNeighbor where
  apname : PbString
  apinstance : PbString
  aename : PbString
  aeinstance : PbString
  has_address : Bool
  address : UInt64
deriving DecidableEq, Repr

def PbNeighbor.init_zero : PbNeighbor where
  apname := ⟨false, zeros sizeNeighborString⟩
  apinstance := ⟨false, zeros sizeNeighborString⟩
  aename := ⟨false, zeros sizeNeighborString⟩
  aeinstance := ⟨false, zeros sizeNeighborString⟩
  has_address := false
  address := 0

/-! ### Encoding -/

/-- The macro `_SERDES_FIELD_COPY`: an absent string leaves the field. -/
def serdesFieldCopy (field : PbString) : Option CString → PbString
  | none => field
  | some y => ⟨true, strncpy sizeNeighborString y⟩

/-- `xSerDesNeighborEncode` has the same copies. None of them is for the address. -/
def pxSerDesNeighborEncodePrepare (pxMsg : NeighborMessage) (pxRinaMsg : PbNeighbor) :
    PbNeighbor :=
  { pxRinaMsg with
    aeinstance := serdesFieldCopy pxRinaMsg.aeinstance pxMsg.pcAeInstance
    aename := serdesFieldCopy pxRinaMsg.aename pxMsg.pcAeName
    apinstance := serdesFieldCopy pxRinaMsg.apinstance pxMsg.pcApInstance
    apname := serdesFieldCopy pxRinaMsg.apname pxMsg.pcApName }

def prvSerDesNeighborEncodeCb : List CString → PbOstream → Option PbOstream
  | [], stream => some stream
  | pcSupDif :: difs, stream => do
    let stream ← pb_encode_tag_for_field stream 2 6
    let stream ← pb_encode_string stream pcSupDif.bytes
    prvSerDesNeighborEncodeCb difs stream

/-- `pb_encode` on `rina_messages_neighbor_t_fields`. -/
def encodeNeighbor (message : PbNeighbor) (difs : List CString) (stream : PbOstream) :
    Option PbOstream := do
  let stream ← encode_string_field 1 message.apname stream
  let stream ← encode_string_field 2 message.apinstance stream
  let stream ← encode_string_field 3 message.aename stream
  let stream ← encode_string_field 4 message.aeinstance stream
  let stream ← encode_uint64_field 5 message.has_address message.address stream
  prvSerDesNeighborEncodeCb difs stream

/-- All neighbors are copied into the same structure. -/
def prvSerDesNeighborListEncodeCb :
    List NeighborMessage → PbNeighbor → PbOstream → Option PbOstream
  | [], _, stream => some stream
  | pxCurNeighborMsg :: pxNeighbors, pxNbMsg, stream => do
    let pxNbMsg := pxSerDesNeighborEncodePrepare pxCurNeighborMsg pxNbMsg
    let stream ← pb_encode_tag_for_field stream 2 1
    let stream ← pb_encode_submessage (encodeNeighbor pxNbMsg pxCurNeighborMsg.pcSupportingDifs)
      stream
    prvSerDesNeighborListEncodeCb pxNeighbors pxNbMsg stream

/-! ### The memory of the serialiser -/

/-- What an object from the heap contains where the decoder does not write. -/
structure Residue where
  pcAeInstance : Option ℕ
  ullAddress : UInt64
  bytes : ℕ → UInt8

/-- Which of the requests for memory are met, in the order in which they are made. -/
structure SerDesPools where
  encPool : Bool
  decPool : ℕ → Bool
  residue : ℕ → Residue

variable (pf : Platform) (pools : SerDesPools)

/-- Without memory a pool aborts; the heap, which takes its place under Valgrind, returns a
null pointer. -/
def outOfMemory {α : Type} : PbExec α := .error (if pf.valgrind then none else some .abort)

/-- A request to the decoding pool. -/
def pxRsrcVarAlloc (calls : ℕ) : PbExec ℕ :=
  if pools.decPool calls then .ok (calls + 1) else outOfMemory pf

def xSerDesNeighborEncode (pxMessage : NeighborMessage) : Exec (Option Bytes) :=
  let message := pxSerDesNeighborEncodePrepare pxMessage .init_zero
  if pools.encPool then
    .ok ((encodeNeighbor message pxMessage.pcSupportingDifs
      (pb_ostream_from_buffer ENROLLMENT_MSG_SIZE)).map (·.buffer))
  else status (outOfMemory pf)

def pxSerDesNeighborListEncode (pxNeighbors : List NeighborMessage) : Exec (Option Bytes) :=
  if pools.encPool then
    .ok ((prvSerDesNeighborListEncodeCb pxNeighbors .init_zero
      (pb_ostream_from_buffer ENROLLMENT_MSG_SIZE)).map (·.buffer))
  else status (outOfMemory pf)

/-- The items in use and the number of those that fit. -/
structure Arraylist (α : Type) where
  pvArray : List α
  unMaxItemCount : ℕ

/-- The decoder asks for room for ten items. -/
def Arraylist.init (α : Type) : Arraylist α := ⟨[], 10⟩

/-- A full array is replaced by one of twice its size. -/
def xArrayListAdd {α : Type} (pxLst : Arraylist α) (pvItem : α) (calls : ℕ) :
    PbExec (Arraylist α × ℕ) :=
  if pxLst.pvArray.length = pxLst.unMaxItemCount then do
    let calls ← pxRsrcVarAlloc pf pools calls
    return (⟨pxLst.pvArray ++ [pvItem], pxLst.unMaxItemCount * 2⟩, calls)
  else return (⟨pxLst.pvArray ++ [pvItem], pxLst.unMaxItemCount⟩, calls)

/-! ### Decoding the fields -/

/-- The structure with the state of its callback. -/
structure NeighborDecode where
  message : PbNeighbor
  xSupDifLst : Arraylist Bytes
  calls : ℕ

/-- All bytes are read at once, so the loop has one round, or none for an empty name. -/
def prvSerDesNeighborDecodeCb (stream : Bytes) (pxState : NeighborDecode) :
    PbExec (Bytes × NeighborDecode) :=
  if stream = [] then return ([], pxState)
  else do
    let calls ← pxRsrcVarAlloc pf pools pxState.calls
    let (xSupDifLst, calls) ← xArrayListAdd pf pools pxState.xSupDifLst (stream ++ [0]) calls
    return ([], { pxState with xSupDifLst := xSupDifLst, calls := calls })

def NeighborDecode.update (f : PbNeighbor → PbNeighbor) (d : NeighborDecode) : NeighborDecode :=
  { d with message := f d.message }

/-- `rina_messages_neighbor_t_fields`. -/
def neighborFields : ℕ → Option (FieldDecoder NeighborDecode)
  | 1 => some (decode_string_field (·.message.apname)
      fun field => NeighborDecode.update fun m => { m with apname := field })
  | 2 => some (decode_string_field (·.message.apinstance)
      fun field => NeighborDecode.update fun m => { m with apinstance := field })
  | 3 => some (decode_string_field (·.message.aename)
      fun field => NeighborDecode.update fun m => { m with aename := field })
  | 4 => some (decode_string_field (·.message.aeinstance)
      fun field => NeighborDecode.update fun m => { m with aeinstance := field })
  | 5 => some (decode_uint64_field
      fun value => NeighborDecode.update fun m => { m with has_address := true, address := value })
  | 6 => some (decode_callback_field (prvSerDesNeighborDecodeCb pf pools))
  | _ => none

/-- `pb_decode` on `rina_messages_neighbor_t_fields`; it sets the fields to their defaults. -/
def decodeNeighbor (stream : Bytes) (calls : ℕ) : PbExec NeighborDecode :=
  pb_decode (neighborFields pf pools) stream ⟨.init_zero, .init Bytes, calls⟩

/-! ### Packing -/

def sizeofNeighborMessage : ℕ := 48

def sizeofPointer : ℕ := 8

/-- An object with the position of the next string in it. -/
structure Pk where
  pvBase : Bytes
  pvNext : ℕ
  unMaxSz : ℕ
deriving DecidableEq, Repr

def vPkInit (pvBase : Bytes) (unOffset unMaxSz : ℕ) : Pk := ⟨pvBase, unOffset, unMaxSz⟩

def vPkWrite (pxPk : Pk) (pvData : Bytes) : Exec Pk :=
  if pf.ndebug = false ∧ pxPk.unMaxSz < pxPk.pvNext + pvData.length then .error .abort
  else do
    let pvBase ← copyTo pxPk.pvBase pxPk.pvNext pvData
    return { pxPk with pvBase := pvBase, pvNext := pxPk.pvNext + pvData.length }

/-- The terminator is written without the check. -/
def vPkWriteStr (pxPk : Pk) (pcData : CString) : Exec Pk := do
  let pxPk ← vPkWrite pf pxPk pcData.bytes
  let pvBase ← copyTo pxPk.pvBase pxPk.pvNext [0]
  return { pxPk with pvBase := pvBase, pvNext := pxPk.pvNext + 1 }

/-- A decoded neighbor; its strings are offsets into the object which begins with it. -/
structure DecodedNeighbor where
  pcApName : Option ℕ
  pcApInstance : Option ℕ
  pcAeName : Option ℕ
  pcAeInstance : Option ℕ
  ullAddress : UInt64
  pcSupportingDifs : List ℕ
  object : Bytes
deriving DecidableEq, Repr

/-- A new object of `unSz` bytes: the pool clears it, the heap does not. -/
def newObject (residue : Residue) (unSz : ℕ) : DecodedNeighbor where
  pcApName := none
  pcApInstance := none
  pcAeName := none
  pcAeInstance := if pf.valgrind then residue.pcAeInstance else none
  ullAddress := if pf.valgrind then residue.ullAddress else 0
  pcSupportingDifs := []
  object := if pf.valgrind then (List.range unSz).map residue.bytes else zeros unSz

/-- The size of an array with a string in it. -/
def strlenField (field : PbString) : Exec ℕ :=
  if field.has then do
    let s ← inBounds (cstring field.chars)
    return s.length + 1
  else return 0

def strlenDifs : List Bytes → Exec ℕ
  | [] => return 0
  | pcSupDif :: difs => do
    let s ← inBounds (cstring pcSupDif)
    let unSz ← strlenDifs difs
    return s.length + 1 + unSz

def prvSerDesGetNeighborAllocSize (message : PbNeighbor) (xSupDifLst : List Bytes) :
    Exec ℕ := do
  let apname ← strlenField message.apname
  let apinstance ← strlenField message.apinstance
  let aename ← strlenField message.aename
  let aeinstance ← strlenField message.aeinstance
  let difs ← strlenDifs xSupDifLst
  return apname + apinstance + aename + aeinstance + difs + sizeofPointer * xSupDifLst.length

/-- The pointer of a field and its string; `old` is what the pointer is otherwise. -/
def packField (old : Option ℕ) (pk : Pk) (field : PbString) : Exec (Option ℕ × Pk) :=
  if field.has then do
    let s ← inBounds (cstring field.chars)
    let pk' ← vPkWriteStr pf pk s
    return (some pk.pvNext, pk')
  else return (old, pk)

def packDifs (pk : Pk) : List Bytes → Exec (List ℕ × Pk)
  | [] => return ([], pk)
  | pcSupDif :: difs => do
    let s ← inBounds (cstring pcSupDif)
    let pk' ← vPkWriteStr pf pk s
    let (offsets, pk') ← packDifs pk' difs
    return (pk.pvNext :: offsets, pk')

/-- The instance of the application entity has no pointer of its own when it is absent. -/
def prvSerDesRinaNeighborToNeighborMessage (pxMsg : DecodedNeighbor) (pxRinaMessage : PbNeighbor)
    (xSupDifLst : List Bytes) (unMaxSz : ℕ) : Exec DecodedNeighbor := do
  let unOffset := sizeofNeighborMessage + xSupDifLst.length * sizeofPointer
  let pk := vPkInit pxMsg.object unOffset unMaxSz
  let (pcApName, pk) ← packField pf none pk pxRinaMessage.apname
  let (pcApInstance, pk) ← packField pf none pk pxRinaMessage.apinstance
  let (pcAeName, pk) ← packField pf none pk pxRinaMessage.aename
  let (pcAeInstance, pk) ← packField pf pxMsg.pcAeInstance pk pxRinaMessage.aeinstance
  let (pcSupportingDifs, pk) ← packDifs pf pk xSupDifLst
  return {
    pcApName := pcApName
    pcApInstance := pcApInstance
    pcAeName := pcAeName
    pcAeInstance := pcAeInstance
    ullAddress :=
      if pxRinaMessage.has_address then pxRinaMessage.address else pxMsg.ullAddress
    pcSupportingDifs := pcSupportingDifs
    object := pk.pvBase }

/-! ### Decoding -/

/-- The object for a message whose fields are decoded. -/
def neighborObject (d : NeighborDecode) : PbExec (DecodedNeighbor × ℕ) := do
  let unAlloc ← traps (prvSerDesGetNeighborAllocSize d.message d.xSupDifLst.pvArray)
  let unSz := sizeofNeighborMessage + unAlloc
  let calls ← pxRsrcVarAlloc pf pools d.calls
  let pxMsg ← traps (prvSerDesRinaNeighborToNeighborMessage pf
    (newObject pf (pools.residue d.calls) unSz) d.message d.xSupDifLst.pvArray unSz)
  return (pxMsg, calls)

def pxSerDesNeighborDecode (pucBuffer : Bytes) : Exec (Option DecodedNeighbor) := status do
  let calls ← pxRsrcVarAlloc pf pools 0
  let d ← decodeNeighbor pf pools pucBuffer calls
  let (pxMsg, _) ← neighborObject pf pools d
  return pxMsg

structure NeighborListDecode where
  xNbLst : Arraylist DecodedNeighbor
  calls : ℕ

/-- A message is read to the end of the stream, so the loop has one round, or none for an
empty message. -/
def prvSerDesNeighborListDecodeCb (stream : Bytes) (pxListState : NeighborListDecode) :
    PbExec (Bytes × NeighborListDecode) := do
  let calls ← pxRsrcVarAlloc pf pools pxListState.calls
  if stream = [] then return ([], { pxListState with calls := calls })
  else
    let d ← decodeNeighbor pf pools stream calls
    let (pxNbMsg, calls) ← neighborObject pf pools d
    let (xNbLst, calls) ← xArrayListAdd pf pools pxListState.xNbLst pxNbMsg calls
    return ([], ⟨xNbLst, calls⟩)

/-- `rina_messages_neighbors_t_fields`. -/
def neighborsFields : ℕ → Option (FieldDecoder NeighborListDecode)
  | 1 => some (decode_callback_field (prvSerDesNeighborListDecodeCb pf pools))
  | _ => none

/-- The list is filled in even if there is no object for it. -/
def pxSerDesNeighborListDecode (pucBuffer : Bytes) : Exec (Option (List DecodedNeighbor)) :=
  status do
    let calls ← pxRsrcVarAlloc pf pools 0
    let d ← pb_decode (neighborsFields pf pools) pucBuffer ⟨.init DecodedNeighbor, calls⟩
    if pools.decPool d.calls then return d.xNbLst.pvArray
    else .error (some (if pf.valgrind then .nullPointer else .abort))

end RinaSense.SerDes
