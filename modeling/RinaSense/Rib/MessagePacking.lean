import RinaSense.Library.Regions
import RinaSense.Rib.MessageBuild

/-!
# Where the parts of a message lie

The regions into which the constructors copy. They follow one another behind the structure of the
message, whichever of them are there.
-/

namespace RinaSense.Rib

open Common SerDes Library.Memory Library.Regions

/-- A string at a pointer of a message, with its terminator. -/
def stringRegion (at_offset : Option ℕ) (s : Option CString) : List Region :=
  at_offset.toList.map fun o =>
    ⟨sizeofMessageCdap + o, (s.map fun s => s.length + 1).getD 0⟩

/-- A value with the structure in front of it. -/
def valueRegions (at_offset : Option (ℕ × ℕ)) : List Region :=
  at_offset.toList.flatMap fun (o, n) =>
    [⟨sizeofMessageCdap + (o - sizeofSerObjectValue), sizeofSerObjectValue⟩,
      ⟨sizeofMessageCdap + o, n⟩]

/-- The regions of the block of a message, the structure and each part where its pointer leads. -/
def PackedCdap.regions (m : PackedCdap) (args : MessageArgs) : List Region :=
  ⟨0, sizeofMessageCdap⟩ :: (valueRegions m.pxObjValue ++
    stringRegion m.pcObjName args.pcObjName ++ stringRegion m.pcObjClass args.pcObjClass ++
    stringRegion m.pcResultReason args.pcResultReason)

/-- The parts were copied, each into a region of its own of the block of `unSz` bytes. -/
structure PackedCdap.PackedInto (m : PackedCdap) (unSz : ℕ) (args : MessageArgs) : Prop where
  read : m.read = some args.message
  block : sizeofMessageCdap + m.tail.length = unSz
  packed : Packed unSz (m.regions args)

/-- A call which copies nothing outside its block, and packs the message if it makes one. -/
def PacksInBounds (built : Exec (Option PackedCdap)) (unSz : ℕ) (args : MessageArgs) : Prop :=
  ∃ res, built = .ok res ∧ ∀ m, res = some m → m.PackedInto unSz args

/-! ### One behind the other -/

theorem stringRegion_sublist (pre : Bytes) (s : Option CString) :
    (stringRegion (s.map fun _ => pre.length) s).Sublist
      (consecutive (sizeofMessageCdap + pre.length) [(stringBytes s).length]) := by
  cases s with
  | none => exact List.nil_sublist _
  | some s =>
    rw [stringBytes_length]
    exact List.Sublist.refl _

/-- The bytes of a value are the last ones of its part. -/
def valueLengths (value : Option Bytes) : List ℕ :=
  [(valueBytes value).length - (value.getD []).length, (value.getD []).length]

theorem valueLengths_sum (value : Option Bytes) :
    (valueLengths value).sum = (valueBytes value).length := by
  have hle : (value.getD []).length ≤ (valueBytes value).length := by
    rw [valueBytes_length]
    cases value <;> simp
  simp only [valueLengths, List.sum_cons, List.sum_nil]
  omega

theorem valueRegions_sublist (value : Option Bytes) :
    (valueRegions (value.map fun value => (sizeofSerObjectValue, value.length))).Sublist
      (consecutive sizeofMessageCdap (valueLengths value)) := by
  cases value with
  | none => exact List.nil_sublist _
  | some value =>
    rw [valueLengths, valueBytes_length]
    simp [valueRegions, consecutive]

/-- The regions of a message follow one another, but for those of absent parts. -/
theorem PackedCdap.Holds.regions_sublist {m : PackedCdap} {args : MessageArgs}
    (h : m.Holds args) :
    (m.regions args).Sublist (consecutive 0 (sizeofMessageCdap :: (valueLengths args.pxObjValue ++
      [(stringBytes args.pcObjName).length] ++ [(stringBytes args.pcObjClass).length] ++
      [(stringBytes args.pcResultReason).length]))) := by
  have hname := stringRegion_sublist (valueBytes args.pxObjValue) args.pcObjName
  have hclass := stringRegion_sublist (valueBytes args.pxObjValue ++ stringBytes args.pcObjName)
    args.pcObjClass
  have hreason := stringRegion_sublist
    (commonBytes args.pcObjClass args.pcObjName args.pxObjValue) args.pcResultReason
  rw [PackedCdap.regions, h.pxObjValue, h.pcObjName, h.pcObjClass, h.pcResultReason, consecutive,
    Nat.zero_add, consecutive_append, consecutive_append, consecutive_append]
  simp only [List.sum_append, valueLengths_sum, List.sum_singleton, ← List.length_append]
  exact .cons_cons _ ((((valueRegions_sublist args.pxObjValue).append hname).append hclass).append
    hreason)

theorem PackedCdap.Holds.packedInto {m : PackedCdap} {args : MessageArgs} {unSz : ℕ}
    (h : m.Holds args) (hblock : sizeofMessageCdap + m.tail.length = unSz) :
    m.PackedInto unSz args where
  read := h.read
  block := hblock
  packed := by
    refine (consecutive_packed ?_).sublist h.regions_sublist
    obtain ⟨rest, htail⟩ := h.tail
    have hlength := congrArg List.length htail
    simp only [commonBytes, List.length_append] at hlength
    rw [List.sum_cons, List.sum_append, List.sum_append, List.sum_append, valueLengths_sum,
      List.sum_singleton, List.sum_singleton, List.sum_singleton]
    omega

/-- Responses and requests, with memory or without, are packed into the blocks which their sizes
ask for. -/
theorem messages_packed (args : MessageArgs) (invoke_id : InvokeId) (creates : Bool) :
    PacksInBounds
      (pxRibCdapMsgCreateResponse creates args.pcObjClass args.pcObjName args.nObjInst args.eOpCode
        args.pxObjValue args.nResultCode args.pcResultReason args.nInvokeId)
      (sizeofMessageCdap + (sizeofMessageCdap +
        prvCountCommonItems args.pcObjClass args.pcObjName args.pxObjValue +
        (args.pcResultReason.map fun s => s.length + 1).getD 0)) args ∧
    PacksInBounds
      (Option.map Prod.fst <$> pxRibCdapMsgCreateRequest creates invoke_id args.pcObjClass
        args.pcObjName args.nObjInst args.eOpCode args.pxObjValue)
      (sizeofMessageCdap + prvCountCommonItems args.pcObjClass args.pcObjName args.pxObjValue +
        (args.pxObjValue.map fun value => sizeofSerObjectValue + value.length).getD 0)
      (requestArgs args.pcObjClass args.pcObjName args.nObjInst args.eOpCode args.pxObjValue
        (get_next_invoke_id invoke_id).1) := by
  cases creates with
  | false => exact ⟨⟨none, rfl, fun m hm => nomatch hm⟩, none, rfl, fun m hm => nomatch hm⟩
  | true =>
    obtain ⟨m, hm, hholds, hblock⟩ := response_holds args
    obtain ⟨m', hm', hholds', hblock'⟩ := request_holds invoke_id args.pcObjClass args.pcObjName
      args.nObjInst args.eOpCode args.pxObjValue
    refine ⟨⟨some m, hm, fun _ heq => ?_⟩, some m', by rw [hm']; rfl, fun _ heq => ?_⟩
    · cases heq
      exact hholds.packedInto hblock
    · cases heq
      exact hholds'.packedInto hblock'

end RinaSense.Rib
