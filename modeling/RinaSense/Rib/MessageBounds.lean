import RinaSense.Rib.MessageBuild
import RinaSense.SerDes.NeighborList

/-!
# Bounds of the encoder

Whether the encoder stays inside the arrays of the protobuf structure, for the messages which
the constructors build. Strings are cut off to the size of their arrays; the value is copied
whatever its length is.
-/

namespace RinaSense.Rib

open Common SerDes Library.Memory

/-- The messages of the program: those of the constructors, and requests whose id is cleared
because nobody waits for the reply. -/
inductive Built : MessageCdap → Prop
  | response (args : MessageArgs) {m : PackedCdap} {msg : MessageCdap} {creates : Bool} :
    pxRibCdapMsgCreateResponse creates args.pcObjClass args.pcObjName args.nObjInst args.eOpCode
      args.pxObjValue args.nResultCode args.pcResultReason args.nInvokeId = .ok (some m) →
    m.read = some msg → Built msg
  | request (args : MessageArgs) {m : PackedCdap} {msg : MessageCdap} {creates : Bool}
      {id id' : InvokeId} :
    pxRibCdapMsgCreateRequest creates id args.pcObjClass args.pcObjName args.nObjInst
      args.eOpCode args.pxObjValue = .ok (some (m, id')) →
    m.read = some msg → Built msg
  | command {msg : MessageCdap} : Built msg → Built { msg with nInvokeID := 0 }

/-- No message of the program has an authentication policy. -/
theorem Built.noPolicy {msg : MessageCdap} (h : Built msg) : msg.xAuthPolicy = ⟨none, none⟩ := by
  induction h with
  | @response args m msg creates hm hread =>
    cases creates with
    | false => cases hm
    | true =>
      obtain ⟨m', hm', hread'⟩ := response_built args
      rw [hm'] at hm
      cases hm
      rw [hread'] at hread
      cases hread
      rfl
  | @request args m msg creates id id' hm hread =>
    cases creates with
    | false => cases hm
    | true =>
      obtain ⟨m', hm', hread'⟩ := request_built id args.pcObjClass args.pcObjName args.nObjInst
        args.eOpCode args.pxObjValue
      rw [hm'] at hm
      cases hm
      rw [hread'] at hread
      cases hread
      rfl
  | command _ ih => exact ih

/-- The encoder ends without a write outside a field, with bytes or with an error. -/
def EncodesInside (pb_encode : PbMessage → Option Bytes) (mem : Memory) (msg : MessageCdap) :
    Prop :=
  ∃ res, xSerDesMessageEncode pb_encode mem msg = .ok res

theorem fillObjValue_ok_iff (value : Option Bytes) :
    (∃ pb, fillObjValue value = .ok pb) ↔
      ∀ bytes, value = some bytes → bytes.length ≤ sizeByteval := by
  cases value with
  | none => simp [fillObjValue]
  | some bytes =>
    have hroom : 0 + bytes.length ≤ (zeros sizeByteval).length ↔ bytes.length ≤ sizeByteval := by
      rw [zeros_length, Nat.zero_add]
    simp only [fillObjValue, copyTo, hroom, Option.some.injEq, forall_eq']
    split_ifs with h
    · exact iff_of_true ⟨_, rfl⟩ h
    · refine iff_of_false ?_ h
      rintro ⟨pb, hpb⟩
      cases hpb

/-- Without a policy the structure is filled in exactly when the value fits. -/
theorem encodesInside_iff_value {msg : MessageCdap} (h : msg.xAuthPolicy = ⟨none, none⟩)
    (pb_encode : PbMessage → Option Bytes) (mem : Memory) :
    EncodesInside pb_encode mem msg ↔ ∃ pb, fillObjValue msg.pxObjValue = .ok pb := by
  have hauth : fillAuthPolicy msg.xAuthPolicy =
      .ok ⟨false, false, zeros sizeAuthName, 0, zeros sizeVersions⟩ := by
    rw [h]
    rfl
  unfold EncodesInside xSerDesMessageEncode fillMessage
  rw [hauth]
  cases hvalue : fillObjValue msg.pxObjValue with
  | error t =>
    refine iff_of_false ?_ ?_
    · rintro ⟨res, hres⟩
      cases hres
    · rintro ⟨pb, hpb⟩
      cases hpb
  | ok pb =>
    refine iff_of_true ?_ ⟨pb, rfl⟩
    cases mem.encPool with
    | false => exact ⟨_, rfl⟩
    | true => exact ⟨_, rfl⟩

/-- A message of the program is encoded inside the fields exactly when its value, if there is
one, fits the array for it. -/
theorem encodesInside_iff {msg : MessageCdap} (h : Built msg)
    (pb_encode : PbMessage → Option Bytes) (mem : Memory) :
    EncodesInside pb_encode mem msg ↔
      ∀ value, msg.pxObjValue = some value → value.length ≤ sizeByteval := by
  rw [encodesInside_iff_value h.noPolicy, fillObjValue_ok_iff]

/-! ### A neighbor whose DIF has a long name -/

theorem letters_noZero (n : ℕ) : (0 : UInt8) ∉ List.replicate n (0x61 : UInt8) := fun h =>
  absurd (List.eq_of_mem_replicate h) (by decide)

/-- A name of six hundred letters. -/
def longDif : CString := ⟨List.replicate 600 0x61, letters_noZero 600⟩

/-- The neighbor with one DIF which an enrollment sends. -/
def neighborOf (dif : CString) : NeighborMessage :=
  ⟨some asciiApName, some asciiApInstance, some asciiAeName, some asciiAeInstance, 0, [dif]⟩

def longNeighbor : NeighborMessage := neighborOf longDif

/-- The object value which the list encoder makes of it. -/
def longValue : Bytes := wires (neighborsRecords [longNeighbor])

theorem neighborOf_size (dif : CString) :
    neighborsSize [neighborOf dif] = fieldSize (40 + fieldSize dif.length) := rfl

theorem longNeighbor_size : neighborsSize [longNeighbor] = 646 := by
  have hdif : longDif.length = 600 := List.length_replicate
  rw [longNeighbor, neighborOf_size, hdif]
  decide

theorem longNeighbor_encoded :
    pxSerDesNeighborListEncode plainPlatform amplePools [longNeighbor] = .ok (some longValue) := by
  have hcarried : carried .blank [longNeighbor] = [longNeighbor] := by
    rw [carried, NeighborMessage.blank_carry, carried]
  have hfits : ∀ msg ∈ [longNeighbor], msg.Fits := by decide
  rw [pxSerDesNeighborListEncode_eq_some plainPlatform amplePools hfits, hcarried,
    longNeighbor_size]
  exact ⟨rfl, by decide, rfl⟩

theorem longValue_length : longValue.length = 646 := by
  rw [longValue, neighborsRecords_size, longNeighbor_size]

/-- The request with which the neighbors are created. -/
def neighborsArgs (value : Bytes) : MessageArgs :=
  requestArgs (some exampleQueried.ucObjClass) (some exampleQueried.ucObjName)
    exampleQueried.ulObjInst .M_CREATE (some value) 1

theorem neighbors_built (value : Bytes) : Built (neighborsArgs value).message := by
  obtain ⟨m, hm, hread⟩ := request_built 1 (some exampleQueried.ucObjClass)
    (some exampleQueried.ucObjName) exampleQueried.ulObjInst .M_CREATE (some value)
  exact .request (neighborsArgs value) hm hread

/-- The list of one neighbor without strings is encoded inside the fields. -/
theorem blankNeighbor_inside :
    Built (neighborsArgs [0x0a, 0x00]).message ∧
      EncodesInside (flowEncode shortKey) exampleMemory (neighborsArgs [0x0a, 0x00]).message :=
  ⟨neighbors_built _, (encodesInside_iff (neighbors_built _) _ _).mpr (by
    rintro value ⟨⟩
    decide)⟩

/-- A neighbor with a DIF of six hundred letters is serialised, and the message with it is
copied over the end of the array. -/
theorem longNeighbor_outside :
    pxSerDesNeighborListEncode plainPlatform amplePools [longNeighbor] = .ok (some longValue) ∧
      Built (neighborsArgs longValue).message ∧
      ¬ EncodesInside (flowEncode shortKey) exampleMemory (neighborsArgs longValue).message := by
  have hlong : ¬ longValue.length ≤ sizeByteval := by
    rw [longValue_length]
    decide
  refine ⟨longNeighbor_encoded, neighbors_built longValue, fun h => hlong ?_⟩
  have hvalue := (encodesInside_iff_value (neighbors_built longValue).noPolicy _ _).mp h
  exact (fillObjValue_ok_iff _).mp hvalue longValue rfl

end RinaSense.Rib
