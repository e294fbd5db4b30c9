import RinaSense.Rib.QueryErrors

/-!
# Building messages

The constructors of `CdapMessage.c`. A message is one object of the pool: the structure, and
behind it the value, the name, the class and the reason, each at the end of those in front of
it.
-/

namespace RinaSense.Rib

open Common SerDes Library.Memory

/-- What a caller says in a message. -/
structure MessageArgs where
  pcObjClass : Option CString
  pcObjName : Option CString
  nObjInst : ℤ
  eOpCode : OpCode
  pxObjValue : Option Bytes
  nResultCode : ℤ
  pcResultReason : Option CString
  nInvokeId : ℤ

/-- A message of the pool; its strings and its value are offsets behind the structure. -/
structure PackedCdap where
  /-- Absent where the number is -1. -/
  eOpCode : Option OpCode
  xDestinationInfo : Rname
  xSourceInfo : Rname
  version : ℤ
  xAuthPolicy : AuthPolicy
  nInvokeID : ℤ
  pcObjClass : Option ℕ
  pcObjName : Option ℕ
  objInst : ℤ
  /-- The offset of the value and its length. -/
  pxObjValue : Option (ℕ × ℕ)
  result : ℤ
  pcResultReason : Option ℕ
  tail : Bytes

def sizeofMessageCdap : ℕ := 184

/-! ### The constructors -/

/-- The message with its default values, where there is memory for it and for its names. -/
def pxRibCdapMsgCreate (creates : Bool) (unSz : ℕ) : Option PackedCdap :=
  if creates then
    some {
      eOpCode := none
      xDestinationInfo := managementName
      xSourceInfo := managementName
      version := 1
      xAuthPolicy := ⟨none, none⟩
      nInvokeID := 1
      pcObjClass := none
      pcObjName := none
      objInst := -1
      pxObjValue := none
      result := 0
      pcResultReason := none
      tail := zeros (unSz - sizeofMessageCdap) }
  else none

def prvCountCommonItems (pcObjClass pcObjName : Option CString) (pxObjValue : Option Bytes) :
    ℕ :=
  (pcObjName.map fun s => s.length + 1).getD 0 + (pcObjClass.map fun s => s.length + 1).getD 0 +
    (pxObjValue.map fun value => sizeofSerObjectValue + value.length).getD 0

/-- A string at `px`, and the place behind it. A null string takes none. -/
def copyString (tail : Bytes) (px : ℕ) : Option CString → Exec (Option ℕ × Bytes × ℕ)
  | none => .ok (none, tail, px)
  | some s => do
    let tail ← strcpy tail px s
    return (some px, tail, px + (s.length + 1))

/-- The value lies behind the structure which says where it is and how long. -/
def copyValue (tail : Bytes) : Option Bytes → Exec (Option (ℕ × ℕ) × Bytes × ℕ)
  | none => .ok (none, tail, 0)
  | some value => do
    let tail ← copyTo tail sizeofSerObjectValue value
    return (some (sizeofSerObjectValue, value.length), tail, sizeofSerObjectValue + value.length)

/-- The message with its value, name and class, and the place behind them. -/
def prvCopyCommonStrings (pxMsg : PackedCdap) (pcObjClass pcObjName : Option CString)
    (pxObjValue : Option Bytes) : Exec (PackedCdap × ℕ) := do
  let (valueAt, tail, px) ← copyValue pxMsg.tail pxObjValue
  let (nameAt, tail, px) ← copyString tail px pcObjName
  let (classAt, tail, px) ← copyString tail px pcObjClass
  return ({ pxMsg with pxObjValue := valueAt, pcObjName := nameAt, pcObjClass := classAt,
                       tail := tail }, px)

/-- The result code is taken and not looked at again. The size of the structure is counted
twice. -/
def pxRibCdapMsgCreateResponse (creates : Bool) (pcObjClass pcObjName : Option CString)
    (nObjInst : ℤ) (eOpCode : OpCode) (pxObjValue : Option Bytes) (_nResultCode : ℤ)
    (pcResultReason : Option CString) (nInvokeId : ℤ) : Exec (Option PackedCdap) :=
  let unSz := sizeofMessageCdap + prvCountCommonItems pcObjClass pcObjName pxObjValue +
    (pcResultReason.map fun s => s.length + 1).getD 0
  match pxRibCdapMsgCreate creates (sizeofMessageCdap + unSz) with
  | none => .ok none
  | some pxMsg => do
    let pxMsg :=
      { pxMsg with nInvokeID := nInvokeId, eOpCode := some eOpCode, objInst := nObjInst }
    if 0 < unSz then
      let (pxMsg, px) ← prvCopyCommonStrings pxMsg pcObjClass pcObjName pxObjValue
      let (reasonAt, tail, _) ← copyString pxMsg.tail px pcResultReason
      return some { pxMsg with pcResultReason := reasonAt, tail := tail }
    else return some pxMsg

/-- The size of the value is counted twice. -/
def pxRibCdapMsgCreateRequest (creates : Bool) (invoke_id : InvokeId)
    (pcObjClass pcObjName : Option CString) (objInst : ℤ) (eOpCode : OpCode)
    (pxObjValue : Option Bytes) : Exec (Option (PackedCdap × InvokeId)) :=
  let unSz := sizeofMessageCdap + prvCountCommonItems pcObjClass pcObjName pxObjValue +
    (pxObjValue.map fun value => sizeofSerObjectValue + value.length).getD 0
  match pxRibCdapMsgCreate creates unSz with
  | none => .ok none
  | some pxMsg => do
    let (nInvokeID, invoke_id) := get_next_invoke_id invoke_id
    let pxMsg :=
      { pxMsg with nInvokeID := nInvokeID, eOpCode := some eOpCode, objInst := objInst }
    if 0 < unSz then
      let (pxMsg, _) ← prvCopyCommonStrings pxMsg pcObjClass pcObjName pxObjValue
      return some (pxMsg, invoke_id)
    else return some (pxMsg, invoke_id)

/-! ### Reading a message -/

/-- The string which a pointer of the message leads to. -/
def PackedCdap.string (m : PackedCdap) : Option ℕ → Option (Option CString)
  | none => some none
  | some o => (cstring (m.tail.drop o)).map some

/-- The message as its reader sees it, unless a pointer leads to no string. -/
def PackedCdap.read (m : PackedCdap) : Option MessageCdap := do
  let eOpCode ← m.eOpCode
  let pcObjClass ← m.string m.pcObjClass
  let pcObjName ← m.string m.pcObjName
  let pcResultReason ← m.string m.pcResultReason
  return {
    eOpCode := eOpCode
    xDestinationInfo := m.xDestinationInfo
    xSourceInfo := m.xSourceInfo
    version := m.version
    xAuthPolicy := m.xAuthPolicy
    nInvokeID := m.nInvokeID
    pcObjClass := pcObjClass
    pcObjName := pcObjName
    objInst := m.objInst
    pxObjValue := m.pxObjValue.map fun p => (m.tail.drop p.1).take p.2
    result := m.result
    pcResultReason := pcResultReason }

/-! ### Packing -/

/-- The bytes which a string takes. -/
def stringBytes (s : Option CString) : Bytes := (s.map CString.terminated).getD []

/-- The bytes which a value takes, with the structure in front of it. -/
def valueBytes (value : Option Bytes) : Bytes :=
  (value.map fun value => zeros sizeofSerObjectValue ++ value).getD []

theorem stringBytes_length (s : Option CString) :
    (stringBytes s).length = (s.map fun s => s.length + 1).getD 0 := by
  cases s with
  | none => rfl
  | some s => exact s.terminated_length

theorem valueBytes_length (value : Option Bytes) :
    (valueBytes value).length =
      (value.map fun value => sizeofSerObjectValue + value.length).getD 0 := by
  cases value with
  | none => rfl
  | some value => simp [valueBytes, zeros]

theorem zeros_length (n : ℕ) : (zeros n).length = n := List.length_replicate

/-- A copy into the part of an object which is still clear. -/
theorem copyTo_behind (pre : Bytes) {bs : Bytes} {n : ℕ} (h : bs.length ≤ n) :
    copyTo (pre ++ zeros n) pre.length bs = .ok (pre ++ bs ++ zeros (n - bs.length)) := by
  have hroom : pre.length + bs.length ≤ (pre ++ zeros n).length := by
    rw [List.length_append, zeros, List.length_replicate]
    omega
  have hmiddle : pre ++ zeros n = pre ++ (zeros bs.length ++ zeros (n - bs.length)) := by
    rw [zeros, zeros, zeros, List.replicate_append_replicate, Nat.add_sub_cancel' h]
  rw [copyTo_ok hroom, hmiddle, splice_middle (by rw [zeros, List.length_replicate]),
    List.append_assoc]

theorem copyString_behind (pre : Bytes) {s : Option CString} {n : ℕ}
    (h : (stringBytes s).length ≤ n) :
    copyString (pre ++ zeros n) pre.length s =
      .ok (s.map fun _ => pre.length, pre ++ stringBytes s ++ zeros (n - (stringBytes s).length),
        (pre ++ stringBytes s).length) := by
  cases s with
  | none => simp [copyString, stringBytes]
  | some s =>
    have hcopy : strcpy (pre ++ zeros n) pre.length s = _ := copyTo_behind pre h
    rw [copyString, hcopy, List.length_append, stringBytes_length, CString.terminated_length]
    rfl

theorem copyValue_zeros {value : Option Bytes} {n : ℕ} (h : (valueBytes value).length ≤ n) :
    copyValue (zeros n) value =
      .ok (value.map fun value => (sizeofSerObjectValue, value.length),
        valueBytes value ++ zeros (n - (valueBytes value).length), (valueBytes value).length) := by
  cases value with
  | none => simp [copyValue, valueBytes]
  | some value =>
    rw [valueBytes_length] at h ⊢
    simp only [Option.map_some, Option.getD_some] at h ⊢
    have hsplit : zeros n = zeros sizeofSerObjectValue ++ zeros (n - sizeofSerObjectValue) := by
      rw [zeros, zeros, zeros, List.replicate_append_replicate,
        Nat.add_sub_cancel' (by omega)]
    have hcopy : copyTo (zeros n) sizeofSerObjectValue value =
        .ok (zeros sizeofSerObjectValue ++ value ++
          zeros (n - sizeofSerObjectValue - value.length)) := by
      have hroom : value.length ≤ n - sizeofSerObjectValue := by omega
      have hbehind := copyTo_behind (zeros sizeofSerObjectValue) hroom
      rwa [← hsplit, zeros_length] at hbehind
    rw [copyValue, hcopy, ← Nat.sub_sub]
    rfl

/-- The three parts which requests and responses have, one behind the other. -/
def commonBytes (cls name : Option CString) (value : Option Bytes) : Bytes :=
  valueBytes value ++ stringBytes name ++ stringBytes cls

theorem commonBytes_length (cls name : Option CString) (value : Option Bytes) :
    (commonBytes cls name value).length = prvCountCommonItems cls name value := by
  simp only [commonBytes, List.length_append, valueBytes_length, stringBytes_length,
    prvCountCommonItems]
  omega

theorem prvCopyCommonStrings_zeros (m : PackedCdap) {cls name : Option CString}
    {value : Option Bytes} {n : ℕ} (hm : m.tail = zeros n)
    (h : (commonBytes cls name value).length ≤ n) :
    prvCopyCommonStrings m cls name value =
      .ok ({ m with
        pxObjValue := value.map fun value => (sizeofSerObjectValue, value.length)
        pcObjName := name.map fun _ => (valueBytes value).length
        pcObjClass := cls.map fun _ => (valueBytes value ++ stringBytes name).length
        tail := commonBytes cls name value ++ zeros (n - (commonBytes cls name value).length) },
        (commonBytes cls name value).length) := by
  have hlen : (commonBytes cls name value).length = (valueBytes value).length +
      (stringBytes name).length + (stringBytes cls).length := by
    simp only [commonBytes, List.length_append]
  have hsub : n - (valueBytes value).length - (stringBytes name).length -
      (stringBytes cls).length = n - (commonBytes cls name value).length := by
    omega
  rw [prvCopyCommonStrings, hm, copyValue_zeros (by omega), Exec.ok_bind]
  simp only
  rw [copyString_behind _ (by omega), Exec.ok_bind]
  simp only
  rw [copyString_behind _ (by omega), Exec.ok_bind, hsub]
  rfl

/-! ### What is read back -/

theorem string_behind {m : PackedCdap} {pre rest : Bytes} {s : Option CString}
    (hm : m.tail = pre ++ (stringBytes s ++ rest)) :
    m.string (s.map fun _ => pre.length) = some s := by
  cases s with
  | none => rfl
  | some s =>
    have hread : cstring (m.tail.drop pre.length) = some s := cstring_drop hm rfl
    rw [Option.map_some, PackedCdap.string, hread]
    rfl

theorem value_behind {m : PackedCdap} {rest : Bytes} {value : Option Bytes}
    (hm : m.tail = valueBytes value ++ rest) :
    (value.map fun value => (sizeofSerObjectValue, value.length)).map
      (fun p => (m.tail.drop p.1).take p.2) = value := by
  cases value with
  | none => rfl
  | some value =>
    have htail : m.tail = zeros sizeofSerObjectValue ++ (value ++ rest) := by
      rw [hm, valueBytes, Option.map_some, Option.getD_some, List.append_assoc]
    have hdrop : (zeros sizeofSerObjectValue ++ (value ++ rest)).drop sizeofSerObjectValue =
        value ++ rest := List.drop_left' (zeros_length sizeofSerObjectValue)
    rw [Option.map_some, Option.map_some, htail, hdrop, List.take_left]

/-- A message with the parts which were put into it. -/
def MessageArgs.message (args : MessageArgs) : MessageCdap where
  eOpCode := args.eOpCode
  xDestinationInfo := managementName
  xSourceInfo := managementName
  version := 1
  xAuthPolicy := ⟨none, none⟩
  nInvokeID := args.nInvokeId
  pcObjClass := args.pcObjClass
  pcObjName := args.pcObjName
  objInst := args.nObjInst
  pxObjValue := args.pxObjValue
  result := 0
  pcResultReason := args.pcResultReason

/-- The parts of a message behind one another. -/
structure PackedCdap.Holds (m : PackedCdap) (args : MessageArgs) : Prop where
  eOpCode : m.eOpCode = some args.eOpCode
  names : m.xDestinationInfo = managementName ∧ m.xSourceInfo = managementName
  version : m.version = 1
  xAuthPolicy : m.xAuthPolicy = ⟨none, none⟩
  nInvokeID : m.nInvokeID = args.nInvokeId
  objInst : m.objInst = args.nObjInst
  result : m.result = 0
  pxObjValue : m.pxObjValue =
    args.pxObjValue.map fun value => (sizeofSerObjectValue, value.length)
  pcObjName : m.pcObjName = args.pcObjName.map fun _ => (valueBytes args.pxObjValue).length
  pcObjClass : m.pcObjClass = args.pcObjClass.map fun _ =>
    (valueBytes args.pxObjValue ++ stringBytes args.pcObjName).length
  pcResultReason : m.pcResultReason = args.pcResultReason.map fun _ =>
    (commonBytes args.pcObjClass args.pcObjName args.pxObjValue).length
  tail : ∃ rest, m.tail = commonBytes args.pcObjClass args.pcObjName args.pxObjValue ++
    (stringBytes args.pcResultReason ++ rest)

theorem PackedCdap.Holds.read {m : PackedCdap} {args : MessageArgs} (h : m.Holds args) :
    m.read = some args.message := by
  obtain ⟨rest, htail⟩ := h.tail
  have hreason := string_behind htail
  rw [commonBytes, List.append_assoc (_ ++ _)] at htail
  have hclass := string_behind htail
  rw [List.append_assoc] at htail
  have hname := string_behind htail
  have hvalue := value_behind htail
  simp only [PackedCdap.read, h.eOpCode, h.pcObjClass, h.pcObjName, h.pcResultReason, hclass,
    hname, hreason, h.pxObjValue, hvalue, Option.bind_eq_bind, Option.bind_some, h.names.1,
    h.names.2, h.version, h.xAuthPolicy, h.nInvokeID, h.objInst, h.result]
  rfl

/-- Where the memory is granted, the parts of a response are in the object which was asked for. -/
theorem response_holds (args : MessageArgs) :
    ∃ m, pxRibCdapMsgCreateResponse true args.pcObjClass args.pcObjName args.nObjInst
        args.eOpCode args.pxObjValue args.nResultCode args.pcResultReason args.nInvokeId =
          .ok (some m) ∧
      m.Holds args ∧ sizeofMessageCdap + m.tail.length = sizeofMessageCdap + (sizeofMessageCdap +
        prvCountCommonItems args.pcObjClass args.pcObjName args.pxObjValue +
        (args.pcResultReason.map fun s => s.length + 1).getD 0) := by
  have hcommon := commonBytes_length args.pcObjClass args.pcObjName args.pxObjValue
  have hreason := stringBytes_length args.pcResultReason
  have hsize : 0 < sizeofMessageCdap := by decide
  simp only [pxRibCdapMsgCreateResponse, pxRibCdapMsgCreate, if_true]
  rw [if_pos (by omega), prvCopyCommonStrings_zeros _ rfl (by omega), Exec.ok_bind]
  simp only
  rw [copyString_behind _ (by omega), Exec.ok_bind]
  refine ⟨_, rfl, ⟨rfl, ⟨rfl, rfl⟩, rfl, rfl, rfl, rfl, rfl, rfl, rfl, rfl,
    rfl, _, List.append_assoc ..⟩, ?_⟩
  simp only [List.length_append, zeros_length]
  omega

/-- So a response is built without leaving its object. -/
theorem response_built (args : MessageArgs) :
    ∃ m, pxRibCdapMsgCreateResponse true args.pcObjClass args.pcObjName args.nObjInst
        args.eOpCode args.pxObjValue args.nResultCode args.pcResultReason args.nInvokeId =
          .ok (some m) ∧
      m.read = some args.message := by
  obtain ⟨m, hm, hholds, -⟩ := response_holds args
  exact ⟨m, hm, hholds.read⟩

/-- A request carries no reason, and its id is drawn. -/
def requestArgs (pcObjClass pcObjName : Option CString) (objInst : ℤ) (eOpCode : OpCode)
    (pxObjValue : Option Bytes) (nInvokeId : InvokeId) : MessageArgs :=
  ⟨pcObjClass, pcObjName, objInst, eOpCode, pxObjValue, 0, none, nInvokeId⟩

theorem request_holds (invoke_id : InvokeId) (pcObjClass pcObjName : Option CString)
    (objInst : ℤ) (eOpCode : OpCode) (pxObjValue : Option Bytes) :
    ∃ m, pxRibCdapMsgCreateRequest true invoke_id pcObjClass pcObjName objInst eOpCode
        pxObjValue = .ok (some (m, (get_next_invoke_id invoke_id).2)) ∧
      m.Holds (requestArgs pcObjClass pcObjName objInst eOpCode pxObjValue
        (get_next_invoke_id invoke_id).1) ∧
      sizeofMessageCdap + m.tail.length = sizeofMessageCdap +
        prvCountCommonItems pcObjClass pcObjName pxObjValue +
        (pxObjValue.map fun value => sizeofSerObjectValue + value.length).getD 0 := by
  have hcommon := commonBytes_length pcObjClass pcObjName pxObjValue
  have hsize : 0 < sizeofMessageCdap := by decide
  simp only [pxRibCdapMsgCreateRequest, pxRibCdapMsgCreate, if_true]
  rw [if_pos (by omega), prvCopyCommonStrings_zeros _ rfl (by omega), Exec.ok_bind]
  refine ⟨_, rfl, ⟨rfl, ⟨rfl, rfl⟩, rfl, rfl, rfl, rfl, rfl, rfl, rfl, rfl, rfl, _, rfl⟩, ?_⟩
  simp only [List.length_append, zeros_length]
  omega

theorem request_built (invoke_id : InvokeId) (pcObjClass pcObjName : Option CString)
    (objInst : ℤ) (eOpCode : OpCode) (pxObjValue : Option Bytes) :
    ∃ m, pxRibCdapMsgCreateRequest true invoke_id pcObjClass pcObjName objInst eOpCode
        pxObjValue = .ok (some (m, (get_next_invoke_id invoke_id).2)) ∧
      m.read = some (requestArgs pcObjClass pcObjName objInst eOpCode pxObjValue
        (get_next_invoke_id invoke_id).1).message := by
  obtain ⟨m, hm, hholds, -⟩ :=
    request_holds invoke_id pcObjClass pcObjName objInst eOpCode pxObjValue
  exact ⟨m, hm, hholds.read⟩

/-- The request of a query is the one which the query is modelled with. -/
theorem request_message (pxRibObj : QueriedObject) (eOpCode : OpCode) (pxObjVal : Option Bytes)
    (nInvokeId : InvokeId) :
    (requestArgs (some pxRibObj.ucObjClass) (some pxRibObj.ucObjName) pxRibObj.ulObjInst eOpCode
      pxObjVal nInvokeId).message = requestMsg pxRibObj eOpCode pxObjVal nInvokeId := rfl

/-! ### What a message says -/

/-- The message says what its caller said. -/
structure Carries (msg : MessageCdap) (args : MessageArgs) : Prop where
  eOpCode : msg.eOpCode = args.eOpCode
  pcObjClass : msg.pcObjClass = args.pcObjClass
  pcObjName : msg.pcObjName = args.pcObjName
  objInst : msg.objInst = args.nObjInst
  pxObjValue : msg.pxObjValue = args.pxObjValue
  result : msg.result = args.nResultCode
  pcResultReason : msg.pcResultReason = args.pcResultReason
  nInvokeID : msg.nInvokeID = args.nInvokeId

/-- With memory or without, the message is built without leaving its object, and it says what
its caller said. -/
def Says (build : Bool → Exec (Option PackedCdap)) (args : MessageArgs) : Prop :=
  ∀ creates, ∃ res, build creates = .ok res ∧
    ∀ m, res = some m → ∃ msg, m.read = some msg ∧ Carries msg args

theorem message_carries_iff (args : MessageArgs) :
    Carries args.message args ↔ args.nResultCode = 0 :=
  ⟨fun h => h.result.symm, fun h => ⟨rfl, rfl, rfl, rfl, rfl, h.symm, rfl, rfl⟩⟩

/-- What is built of the arguments without a result code says what the caller said exactly
when the code is 0. -/
theorem says_iff {build : Bool → Exec (Option PackedCdap)} {args : MessageArgs}
    (hnone : build false = .ok none)
    (hsome : ∃ m, build true = .ok (some m) ∧ m.read = some args.message) :
    Says build args ↔ args.nResultCode = 0 := by
  obtain ⟨m, hm, hread⟩ := hsome
  rw [← message_carries_iff]
  constructor
  · intro h
    obtain ⟨res, hres, hall⟩ := h true
    rw [hm] at hres
    cases hres
    obtain ⟨msg, hmsg, hcarries⟩ := hall m rfl
    rw [hread] at hmsg
    cases hmsg
    exact hcarries
  · intro h creates
    cases creates with
    | false => exact ⟨none, hnone, fun m hm => nomatch hm⟩
    | true =>
      refine ⟨some m, hm, fun m' hm' => ?_⟩
      cases hm'
      exact ⟨args.message, hread, h⟩

/-- The message which `xRibObjectReply` hands to the output function. -/
def replyCdap (creates : Bool) (pxRibObj : QueriedObject) (eOpCode : OpCode)
    (unInvokeId : InvokeId) (nResultCode : ℤ) (pcResultReason : Option CString)
    (pxObjVal : Option Bytes) : Exec (Option PackedCdap) :=
  pxRibCdapMsgCreateResponse creates (some pxRibObj.ucObjClass) (some pxRibObj.ucObjName)
    pxRibObj.ulObjInst eOpCode pxObjVal nResultCode pcResultReason unInvokeId

/-- The message of `xRibObjectErr`, which has no value. -/
def errCdap (creates : Bool) (pxRibObj : QueriedObject) (eOpCode : OpCode)
    (unInvokeId : InvokeId) (nResultCode : ℤ) (pcResultReason : Option CString) :
    Exec (Option PackedCdap) :=
  pxRibCdapMsgCreateResponse creates (some pxRibObj.ucObjClass) (some pxRibObj.ucObjName)
    pxRibObj.ulObjInst eOpCode none nResultCode pcResultReason unInvokeId

/-- The message of `xRibObjectQuery`, before the id of a command is cleared. -/
def queryCdap (creates : Bool) (invoke_id : InvokeId) (pxRibObj : QueriedObject)
    (eOpCode : OpCode) (pxObjVal : Option Bytes) : Exec (Option PackedCdap) := do
  let pxMsgCdap ← pxRibCdapMsgCreateRequest creates invoke_id (some pxRibObj.ucObjClass)
    (some pxRibObj.ucObjName) pxRibObj.ulObjInst eOpCode pxObjVal
  return pxMsgCdap.map (·.1)

/-- What the caller of a reply says. -/
def replyArgs (pxRibObj : QueriedObject) (eOpCode : OpCode) (unInvokeId : InvokeId)
    (nResultCode : ℤ) (pcResultReason : Option CString) (pxObjVal : Option Bytes) : MessageArgs :=
  ⟨some pxRibObj.ucObjClass, some pxRibObj.ucObjName, pxRibObj.ulObjInst, eOpCode, pxObjVal,
    nResultCode, pcResultReason, unInvokeId⟩

/-- Replies and errors say what their caller said exactly when the result code is 0; requests
always do. -/
theorem messages_say_iff (pxRibObj : QueriedObject) (eOpCode : OpCode) (id : InvokeId)
    (nResultCode : ℤ) (pcResultReason : Option CString) (pxObjVal : Option Bytes) :
    (Says (fun creates =>
        replyCdap creates pxRibObj eOpCode id nResultCode pcResultReason pxObjVal)
      (replyArgs pxRibObj eOpCode id nResultCode pcResultReason pxObjVal) ↔ nResultCode = 0) ∧
    (Says (fun creates => errCdap creates pxRibObj eOpCode id nResultCode pcResultReason)
      (replyArgs pxRibObj eOpCode id nResultCode pcResultReason none) ↔ nResultCode = 0) ∧
    Says (fun creates => queryCdap creates id pxRibObj eOpCode pxObjVal)
      (requestArgs (some pxRibObj.ucObjClass) (some pxRibObj.ucObjName) pxRibObj.ulObjInst
        eOpCode pxObjVal (get_next_invoke_id id).1) := by
  refine ⟨?_, ?_, ?_⟩
  · exact says_iff rfl
      (response_built (replyArgs pxRibObj eOpCode id nResultCode pcResultReason pxObjVal))
  · exact says_iff rfl
      (response_built (replyArgs pxRibObj eOpCode id nResultCode pcResultReason none))
  · obtain ⟨m, hm, hread⟩ := request_built id (some pxRibObj.ucObjClass)
      (some pxRibObj.ucObjName) pxRibObj.ulObjInst eOpCode pxObjVal
    refine (says_iff rfl ⟨m, ?_, hread⟩).mpr rfl
    rw [queryCdap, hm]
    rfl

/-- The reason `Test`. -/
def testReason : CString := ⟨[0x54, 0x65, 0x73, 0x74], by decide⟩

/-- An error with the code 1 is a message with the code 0. -/
theorem errCdap_says_success :
    ¬ Says (fun creates => errCdap creates exampleQueried .M_START_R 1 1 (some testReason))
      (replyArgs exampleQueried .M_START_R 1 1 (some testReason) none) := by
  intro h
  obtain ⟨res, hres, hall⟩ := h true
  obtain ⟨m, hm, hread⟩ :=
    response_built (replyArgs exampleQueried .M_START_R 1 1 (some testReason) none)
  obtain rfl : some m = res := Except.ok.inj (hm.symm.trans hres)
  obtain ⟨msg, hmsg, hcarries⟩ := hall m rfl
  rw [hread] at hmsg
  cases hmsg
  cases hcarries.result

end RinaSense.Rib
