import Mathlib.Data.Int.Notation
import RinaSense.SerDes.Nanopb

/-!
# Serialising CDAP messages

The encoder copies a message into the fixed arrays of the protobuf structure; the decoder
copies the arrays into one pool object behind the message, at offsets which it adds up
from the array sizes. The protobuf library is given from outside.
-/

namespace RinaSense.SerDes

open Common Library.Memory

inductive OpCode
  | M_CONNECT
  | M_CONNECT_R
  | M_RELEASE
  | M_RELEASE_R
  | M_CREATE
  | M_CREATE_R
  | M_DELETE
  | M_DELETE_R
  | M_READ
  | M_READ_R
  | M_CANCELREAD
  | M_CANCELREAD_R
  | M_WRITE
  | M_WRITE_R
  | M_START
  | M_START_R
  | M_STOP
  | M_STOP_R
deriving DecidableEq, Repr

/-! ### The message -/

structure Rname where
  pcProcessName : Option CString
  pcProcessInstance : Option CString
  pcEntityName : Option CString
  pcEntityInstance : Option CString
deriving DecidableEq

structure AuthPolicy where
  pcName : Option CString
  pcVersion : Option CString
deriving DecidableEq

/-- A message to be encoded; absent pointers are null. -/
structure MessageCdap where
  eOpCode : OpCode
  xDestinationInfo : Rname
  xSourceInfo : Rname
  version : ℤ
  xAuthPolicy : AuthPolicy
  nInvokeID : ℤ
  pcObjClass : Option CString
  pcObjName : Option CString
  objInst : ℤ
  pxObjValue : Option Bytes
  result : ℤ
  pcResultReason : Option CString
deriving DecidableEq

/-! ### The protobuf structure -/

/-- The sizes of the arrays in `CDAP.pb.h`. -/
def sizeObjClass : ℕ := 40

def sizeObjName : ℕ := 40

def sizeResultReason : ℕ := 20

def sizeNamePart : ℕ := 20

def sizeAuthName : ℕ := 40

def sizeVersions : ℕ := 40

def sizeByteval : ℕ := 512

def sizeofSerObjectValue : ℕ := 16

structure PbInt where
  has : Bool
  val : ℤ
deriving DecidableEq, Repr

structure PbAuthPolicy where
  has : Bool
  has_name : Bool
  name : Bytes
  versions_count : ℕ
  versions : Bytes
deriving DecidableEq, Repr

structure PbObjVal where
  has : Bool
  has_byteval : Bool
  size : ℕ
  bytes : Bytes
deriving DecidableEq, Repr

/-- The fields of `rina_messages_CDAPMessage` which are ever set. -/
structure PbMessage where
  opCode : OpCode
  invokeID : PbInt
  objClass : PbString
  objName : PbString
  objInst : PbInt
  objValue : PbObjVal
  result : PbInt
  authPolicy : PbAuthPolicy
  destAEInst : PbString
  destAEName : PbString
  destApInst : PbString
  destApName : PbString
  srcAEInst : PbString
  srcAEName : PbString
  srcApInst : PbString
  srcApName : PbString
  resultReason : PbString
  version : PbInt
deriving DecidableEq, Repr

def zeros (n : ℕ) : Bytes := List.replicate n 0

/-- The macro `_COPY`, for an array of `n` bytes. -/
def copyField (n : ℕ) : Option CString → PbString
  | none => ⟨false, zeros n⟩
  | some s => ⟨true, strncpy n s⟩

/-- A copy which must stay inside its array. -/
def copyTo (b : Bytes) (o : ℕ) (bs : Bytes) : Exec Bytes :=
  if o + bs.length ≤ b.length then .ok (splice b o bs) else .error .outOfBounds

def strcpy (b : Bytes) (o : ℕ) (s : CString) : Exec Bytes := copyTo b o s.terminated

def fillAuthPolicy (auth : AuthPolicy) : Exec PbAuthPolicy :=
  match auth.pcName with
  | none => .ok ⟨false, false, zeros sizeAuthName, 0, zeros sizeVersions⟩
  | some pcName => do
    let name ← strcpy (zeros sizeAuthName) 0 pcName
    let pcVersion ← deref auth.pcVersion
    return ⟨true, true, name, 1, strncpy sizeVersions pcVersion⟩

def fillObjValue : Option Bytes → Exec PbObjVal
  | none => .ok ⟨false, false, 0, zeros sizeByteval⟩
  | some value => do
    let bytes ← copyTo (zeros sizeByteval) 0 value
    return ⟨true, true, value.length, bytes⟩

/-- A number which is left out when it is -1. -/
def optionalInt (n : ℤ) : PbInt := if n ≠ -1 then ⟨true, n⟩ else ⟨false, 0⟩

/-- The structure with the policy and the value already filled in. -/
def fillRest (msg : MessageCdap) (authPolicy : PbAuthPolicy) (objValue : PbObjVal) :
    PbMessage where
  opCode := msg.eOpCode
  invokeID := ⟨true, msg.nInvokeID⟩
  objClass := copyField sizeObjClass msg.pcObjClass
  objName := copyField sizeObjName msg.pcObjName
  objInst := optionalInt msg.objInst
  objValue := objValue
  result := optionalInt msg.result
  authPolicy := authPolicy
  destAEInst := copyField sizeNamePart msg.xDestinationInfo.pcEntityInstance
  destAEName := copyField sizeNamePart msg.xDestinationInfo.pcEntityName
  destApInst := copyField sizeNamePart msg.xDestinationInfo.pcProcessInstance
  destApName := copyField sizeNamePart msg.xDestinationInfo.pcProcessName
  srcAEInst := copyField sizeNamePart msg.xSourceInfo.pcEntityInstance
  srcAEName := copyField sizeNamePart msg.xSourceInfo.pcEntityName
  srcApInst := copyField sizeNamePart msg.xSourceInfo.pcProcessInstance
  srcApName := copyField sizeNamePart msg.xSourceInfo.pcProcessName
  resultReason := copyField sizeResultReason msg.pcResultReason
  version := ⟨true, msg.version⟩

def fillMessage (msg : MessageCdap) : Exec PbMessage := do
  let authPolicy ← fillAuthPolicy msg.xAuthPolicy
  let objValue ← fillObjValue msg.pxObjValue
  return fillRest msg authPolicy objValue

/-! ### The decoded message -/

/-- A name whose parts lie one after the other in a block of their own. -/
structure DupName where
  pxFree : Bytes
  pcProcessName : ℕ
  pcProcessInstance : ℕ
  pcEntityName : ℕ
  pcEntityInstance : ℕ
deriving DecidableEq, Repr

def prvNameCopyAssignParts (pn pi en ei : CString) : DupName where
  pxFree := pn.terminated ++ pi.terminated ++ en.terminated ++ ei.terminated
  pcProcessName := 0
  pcProcessInstance := pn.length + 1
  pcEntityName := pn.length + 1 + (pi.length + 1)
  pcEntityInstance := pn.length + 1 + (pi.length + 1) + (en.length + 1)

/-- `memory` tells whether the block for the parts is allocated. -/
def xNameAssignFromPartsDup (memory : Bool) (pn pi en ei : Bytes) : Exec (Option DupName) := do
  let pn ← inBounds (cstring pn)
  let pi ← inBounds (cstring pi)
  let en ← inBounds (cstring en)
  let ei ← inBounds (cstring ei)
  return if memory then some (prvNameCopyAssignParts pn pi en ei) else none

/-- A decoded message; its strings and its value are offsets behind the structure. -/
structure DecodedCdap where
  eOpCode : OpCode
  xDestinationInfo : DupName
  xSourceInfo : DupName
  version : ℤ
  nInvokeID : ℤ
  result : ℤ
  objInst : ℤ
  pcObjClass : ℕ
  pcObjName : ℕ
  pcResultReason : ℕ
  pcAuthName : ℕ
  pcAuthVersion : ℕ
  /-- The offset of the value and its length. -/
  pxObjValue : Option (ℕ × ℕ)
  /-- The pool object behind the structure. -/
  tail : Bytes
deriving DecidableEq, Repr

/-- The space behind the structure in an object of the decoding pool. -/
def sizeTail : ℕ :=
  sizeObjClass + sizeObjName + sizeResultReason + sizeAuthName + sizeVersions +
    (2 + sizeByteval) + sizeofSerObjectValue

/-- Which allocations succeed, and what the pool object contains at first. -/
structure Memory where
  encPool : Bool
  decPool : Bool
  destination : Bool
  source : Bool
  stale : Bytes
  sized : stale.length = sizeTail
deriving DecidableEq

def Memory.Available (mem : Memory) : Prop :=
  mem.encPool = true ∧ mem.decPool = true ∧ mem.destination = true ∧ mem.source = true

def offObjClass : ℕ := 0

def offObjName : ℕ := offObjClass + sizeObjClass

/-- The object name has `sizeObjName` bytes, but the next pointer is moved on by the
size of the result reason, and the one after it by that of the object name. -/
def offResultReason : ℕ := offObjName + sizeResultReason

def offAuthName : ℕ := offResultReason + sizeObjName

def offAuthVersion : ℕ := offAuthName + sizeAuthName

def offObjValue : ℕ := offAuthVersion + sizeVersions

/-- Copying an optional string of the structure, or an empty one. -/
def strcpyField (tail : Bytes) (o : ℕ) (field : PbString) : Exec Bytes := do
  if field.has then strcpy tail o (← inBounds (cstring field.chars))
  else strcpy tail o CString.empty

def strcpyAuth (tail : Bytes) (auth : PbAuthPolicy) : Exec Bytes := do
  if auth.has then
    let tail ← if auth.has_name then
        (do strcpy tail offAuthName (← inBounds (cstring auth.name)))
      else .ok tail
    strcpy tail offAuthVersion (← inBounds (cstring auth.versions))
  else
    let tail ← strcpy tail offAuthName CString.empty
    strcpy tail offAuthVersion CString.empty

/-- The strings in the order in which they are copied. -/
def copyStrings (tail : Bytes) (message : PbMessage) : Exec Bytes := do
  let tail ← strcpyField tail offObjClass message.objClass
  let tail ← strcpyField tail offObjName message.objName
  let tail ← strcpyAuth tail message.authPolicy
  strcpyField tail offResultReason message.resultReason

def copyObjValue (tail : Bytes) (value : PbObjVal) : Exec (Option (ℕ × ℕ) × Bytes) :=
  if value.has then do
    let tail ← copyTo tail (offObjValue + sizeofSerObjectValue) (value.bytes.take value.size)
    return (some (offObjValue + sizeofSerObjectValue, value.size), tail)
  else .ok (none, tail)

/-! ### Encoder and decoder -/

variable (pb_encode : PbMessage → Option Bytes) (pb_decode : Bytes → Option PbMessage)
  (mem : Memory)

/-- `none` stands for the error codes. -/
def xSerDesMessageEncode (pxMsgCdap : MessageCdap) : Exec (Option Bytes) := do
  let xMsg ← fillMessage pxMsgCdap
  if mem.encPool then return pb_encode xMsg else return none

def pxSerDesMessageDecode (pucBuffer : Bytes) : Exec (Option DecodedCdap) :=
  match pb_decode pucBuffer with
  | none => .ok none
  | some message =>
    if ¬ mem.decPool then .ok none
    else do
      let dst ← xNameAssignFromPartsDup mem.destination message.destApName.chars
        message.destApInst.chars message.destAEName.chars message.destAEInst.chars
      match dst with
      | none => return none
      | some dst =>
        let src ← xNameAssignFromPartsDup mem.source message.srcApName.chars
          message.srcApInst.chars message.srcAEName.chars message.srcAEInst.chars
        match src with
        | none => return none
        | some src =>
          let tail ← copyStrings mem.stale message
          let (pxObjValue, tail) ← copyObjValue tail message.objValue
          return some {
            eOpCode := message.opCode
            xDestinationInfo := dst
            xSourceInfo := src
            version := message.version.val
            nInvokeID := message.invokeID.val
            result := message.result.val
            objInst := message.objInst.val
            pcObjClass := offObjClass
            pcObjName := offObjName
            pcResultReason := offResultReason
            pcAuthName := offAuthName
            pcAuthVersion := offAuthVersion
            pxObjValue := pxObjValue
            tail := tail }

end RinaSense.SerDes
