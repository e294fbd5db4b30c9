import Mathlib.Algebra.GroupWithZero.Nat
import Mathlib.Data.List.Forall2
import RinaSense.SerDes.NeighborWire
import RinaSense.Library.Buffer

/-!
# Packing a neighbor

The strings of a neighbor lie one behind the other in the object which begins with the
structure. The size of the object is what they need, to the byte.
-/

namespace RinaSense.SerDes

open Common Library.Memory

variable (pf : Platform)

/-- The object has `n` bytes left. -/
structure Pk.Room (pk : Pk) (n : ℕ) : Prop where
  sized : pk.unMaxSz = pk.pvBase.length
  left : pk.pvNext + n = pk.pvBase.length

/-- A string which is packed at the offset. -/
structure Pk.Holds (pk : Pk) (o : ℕ) (s : CString) : Prop where
  at_offset : StringAt pk.pvBase o s
  packed : o + s.length + 1 ≤ pk.pvNext

/-- The strings which are packed stay. -/
def Pk.Keeps (pk pk' : Pk) : Prop := ∀ o s, pk.Holds o s → pk'.Holds o s

theorem Pk.Keeps.refl (pk : Pk) : pk.Keeps pk := fun _ _ h => h

theorem Pk.Keeps.trans {pk pk' pk'' : Pk} (h : pk.Keeps pk') (h' : pk'.Keeps pk'') :
    pk.Keeps pk'' := fun o s hs => h' o s (h o s hs)

theorem Pk.Holds.cstring {pk : Pk} {o : ℕ} {s : CString} (h : pk.Holds o s) :
    cstring (pk.pvBase.drop o) = some s := h.at_offset.cstring

/-- A string with its terminator in the room for it. -/
theorem vPkWriteStr_spec {pk : Pk} {s : CString} {n : ℕ} (h : pk.Room (s.length + 1 + n)) :
    ∃ pk', vPkWriteStr pf pk s = .ok pk' ∧ pk'.Room n ∧ pk'.Holds pk.pvNext s ∧
      pk.Keeps pk' := by
  obtain ⟨pvBase, pvNext, unMaxSz⟩ := pk
  obtain ⟨hsized, hleft⟩ := h
  simp only at hsized hleft
  have hbytes : s.bytes.length = s.length := rfl
  have hterm : s.terminated.length = s.length + 1 := s.terminated_length
  have hcheck : ¬ (pf.ndebug = false ∧ unMaxSz < pvNext + s.bytes.length) := by omega
  have hfirst : copyTo pvBase pvNext s.bytes = .ok (splice pvBase pvNext s.bytes) :=
    copyTo_ok (by omega)
  have hlen : (splice pvBase pvNext s.bytes).length = pvBase.length :=
    splice_length (by omega)
  have hsecond : copyTo (splice pvBase pvNext s.bytes) (pvNext + s.bytes.length) [0] =
      .ok (splice pvBase pvNext s.terminated) := by
    rw [copyTo_ok (by rw [hlen, List.length_singleton]; omega), splice_splice [0] (by omega)]
    rfl
  have hlen' : (splice pvBase pvNext s.terminated).length = pvBase.length :=
    splice_length (by omega)
  refine ⟨⟨splice pvBase pvNext s.terminated, pvNext + s.bytes.length + 1, unMaxSz⟩, ?_, ⟨?_, ?_⟩,
    ⟨stringAt_splice (by omega), ?_⟩, fun o t ht => ⟨?_, ?_⟩⟩
  · simp only [vPkWriteStr, vPkWrite, if_neg hcheck, hfirst, Exec.ok_bind]
    change (copyTo (splice pvBase pvNext s.bytes) (pvNext + s.bytes.length) [0] >>= _) = _
    rw [hsecond]
    rfl
  · rw [hlen', hsized]
  · simp only
    omega
  · simp only
    omega
  · have hlies : StringAt pvBase o t := ht.at_offset
    exact hlies.splice (by omega) (Or.inl ht.packed)
  · have hpacked : o + t.length + 1 ≤ pvNext := ht.packed
    simp only
    omega

/-- The bytes which an optional string takes. -/
def packedSize (s : Option CString) : ℕ := (s.map fun s => s.length + 1).getD 0

def packedSizes (difs : List CString) : ℕ := (difs.map fun s => s.length + 1).sum

/-- The pointer leads to the string, or it is `old` when there is none. -/
def Pk.Points (pk : Pk) (old ptr : Option ℕ) (s : Option CString) : Prop :=
  match s with
  | none => ptr = old
  | some s => ∃ o, ptr = some o ∧ pk.Holds o s

theorem Pk.Points.mono {pk pk' : Pk} {old ptr : Option ℕ} {s : Option CString}
    (h : pk.Points old ptr s) (hk : pk.Keeps pk') : pk'.Points old ptr s := by
  cases s with
  | none => exact h
  | some s =>
    obtain ⟨o, hptr, ho⟩ := h
    exact ⟨o, hptr, hk o s ho⟩

/-- The field has the string, or it is not there. -/
def PbString.Says (field : PbString) : Option CString → Prop
  | none => field.has = false
  | some s => field.has = true ∧ cstring field.chars = some s

theorem copyField_message {s : Option CString} (hfit : FitsIn sizeNeighborString s) :
    (copyField sizeNeighborString s).Says s := by
  cases s with
  | none => rfl
  | some s => exact ⟨rfl, cstring_strncpy hfit⟩

theorem packField_spec {field : PbString} {s : Option CString} (hs : field.Says s) {pk : Pk}
    {n : ℕ} (old : Option ℕ) (h : pk.Room (packedSize s + n)) :
    ∃ ptr pk', packField pf old pk field = .ok (ptr, pk') ∧
      pk'.Room n ∧ pk'.Points old ptr s ∧ pk.Keeps pk' := by
  cases s with
  | none =>
    have hhas : field.has = false := hs
    refine ⟨old, pk, by rw [packField, hhas]; rfl, ?_, rfl, Pk.Keeps.refl pk⟩
    simpa [packedSize] using h
  | some s =>
    obtain ⟨hhas, hread⟩ := hs
    obtain ⟨pk', hwrite, hroom, hholds, hkeeps⟩ := vPkWriteStr_spec pf h
    refine ⟨some pk.pvNext, pk', ?_, hroom, ⟨pk.pvNext, rfl, hholds⟩, hkeeps⟩
    simp only [packField, hhas, if_true, hread, inBounds_some, Exec.ok_bind, hwrite]
    rfl

/-- The arrays have the strings. -/
def Texts : List Bytes → List CString → Prop := List.Forall₂ fun bs s => cstring bs = some s

theorem texts_terminated (difs : List CString) : Texts (difs.map CString.terminated) difs := by
  induction difs with
  | nil => exact .nil
  | cons s difs ih => exact .cons (cstring_terminated s) ih

theorem packDifs_spec {pcDifs : List Bytes} {difs : List CString} (hd : Texts pcDifs difs)
    {pk : Pk} {n : ℕ} (h : pk.Room (packedSizes difs + n)) :
    ∃ offsets pk', packDifs pf pk pcDifs = .ok (offsets, pk') ∧
      pk'.Room n ∧ List.Forall₂ pk'.Holds offsets difs ∧ pk.Keeps pk' := by
  induction hd generalizing pk with
  | nil =>
    refine ⟨[], pk, rfl, ?_, .nil, Pk.Keeps.refl pk⟩
    simpa [packedSizes] using h
  | @cons pcDif s pcDifs difs hread _ ih =>
    have hroom : pk.Room (s.length + 1 + (packedSizes difs + n)) := by
      rw [← Nat.add_assoc]
      exact h
    obtain ⟨pk', hwrite, hroom', hholds, hkeeps⟩ := vPkWriteStr_spec pf hroom
    obtain ⟨offsets, pk'', hrest, hroom'', hall, hkeeps'⟩ := ih hroom'
    refine ⟨pk.pvNext :: offsets, pk'', ?_, hroom'', .cons (hkeeps' _ _ hholds) hall,
      hkeeps.trans hkeeps'⟩
    simp only [packDifs, hread, inBounds_some, Exec.ok_bind, hwrite, hrest]
    rfl

/-! ### The size of the object -/

theorem strlenField_says {field : PbString} {s : Option CString} (hs : field.Says s) :
    strlenField field = .ok (packedSize s) := by
  cases s with
  | none =>
    have hhas : field.has = false := hs
    rw [strlenField, hhas]
    rfl
  | some s =>
    obtain ⟨hhas, hread⟩ := hs
    simp only [strlenField, hhas, if_true, hread, inBounds_some, Exec.ok_bind]
    rfl

theorem strlenDifs_texts {pcDifs : List Bytes} {difs : List CString} (hd : Texts pcDifs difs) :
    strlenDifs pcDifs = .ok (packedSizes difs) := by
  induction hd with
  | nil => rfl
  | cons hread _ ih =>
    simp only [strlenDifs, hread, inBounds_some, Exec.ok_bind, ih]
    rfl

/-- The fields of the structure have the strings of the message. -/
structure PbNeighbor.Says (message : PbNeighbor) (msg : NeighborMessage) : Prop where
  apname : message.apname.Says msg.pcApName
  apinstance : message.apinstance.Says msg.pcApInstance
  aename : message.aename.Says msg.pcAeName
  aeinstance : message.aeinstance.Says msg.pcAeInstance

theorem pbNeighbor_says {msg : NeighborMessage} (hfits : msg.Fits) : (pbNeighbor msg).Says msg := by
  obtain ⟨hap, hapi, hae, haei⟩ := hfits
  exact ⟨copyField_message hap, copyField_message hapi, copyField_message hae,
    copyField_message haei⟩

/-- What the strings of a neighbor and the pointers to its names take. -/
def neighborRoom (msg : NeighborMessage) (difs : List CString) : ℕ :=
  packedSize msg.pcApName + packedSize msg.pcApInstance + packedSize msg.pcAeName +
    packedSize msg.pcAeInstance + packedSizes difs + sizeofPointer * difs.length

theorem prvSerDesGetNeighborAllocSize_eq {message : PbNeighbor} {msg : NeighborMessage}
    (hs : message.Says msg) {pcDifs : List Bytes} {difs : List CString} (hd : Texts pcDifs difs) :
    prvSerDesGetNeighborAllocSize message pcDifs = .ok (neighborRoom msg difs) := by
  simp only [prvSerDesGetNeighborAllocSize, strlenField_says hs.apname,
    strlenField_says hs.apinstance, strlenField_says hs.aename, strlenField_says hs.aeinstance,
    strlenDifs_texts hd, Exec.ok_bind, hd.length_eq]
  rfl

/-! ### The object -/

/-- What a pointer into an object reads. -/
def reads (object : Bytes) (ptr : Option ℕ) : Option (Option CString) :=
  ptr.map fun o => cstring (object.drop o)

theorem Pk.Points.reads {pk : Pk} {ptr : Option ℕ} {s : Option CString}
    (h : pk.Points none ptr s) : reads pk.pvBase ptr = s.map some := by
  cases s with
  | none =>
    have hptr : ptr = none := h
    rw [hptr]
    rfl
  | some s =>
    obtain ⟨o, rfl, ho⟩ := h
    exact congrArg some ho.cstring

/-- What an object has where the decoder does not write. -/
def freshPointer (residue : Residue) : Option ℕ :=
  if pf.valgrind then residue.pcAeInstance else none

def freshAddress (residue : Residue) : UInt64 := if pf.valgrind then residue.ullAddress else 0

/-- The object holds the strings of the message and the names; the instance of the
application entity and the address may be what the object had at first. -/
structure DecodedAs (residue : Residue) (msg : NeighborMessage) (difs : List CString)
    (obj : DecodedNeighbor) : Prop where
  apName : reads obj.object obj.pcApName = msg.pcApName.map some
  apInstance : reads obj.object obj.pcApInstance = msg.pcApInstance.map some
  aeName : reads obj.object obj.pcAeName = msg.pcAeName.map some
  aeInstance : ∀ s, msg.pcAeInstance = some s →
    reads obj.object obj.pcAeInstance = some (some s)
  noAeInstance : msg.pcAeInstance = none → obj.pcAeInstance = freshPointer pf residue
  address : obj.ullAddress = freshAddress pf residue
  supportingDifs :
    obj.pcSupportingDifs.map (fun o => cstring (obj.object.drop o)) = difs.map some

theorem newObject_length (residue : Residue) (unSz : ℕ) :
    (newObject pf residue unSz).object.length = unSz := by
  unfold newObject
  cases pf.valgrind <;> simp [zeros]

theorem forall₂_holds {pk : Pk} {offsets : List ℕ} {difs : List CString}
    (h : List.Forall₂ pk.Holds offsets difs) :
    offsets.map (fun o => cstring (pk.pvBase.drop o)) = difs.map some := by
  induction h with
  | nil => rfl
  | cons ho _ ih => rw [List.map_cons, List.map_cons, ih, ho.cstring]

/-- The object holds the strings of the message and the names. -/
structure PackedAs (old : DecodedNeighbor) (msg : NeighborMessage) (difs : List CString)
    (obj : DecodedNeighbor) : Prop where
  apName : reads obj.object obj.pcApName = msg.pcApName.map some
  apInstance : reads obj.object obj.pcApInstance = msg.pcApInstance.map some
  aeName : reads obj.object obj.pcAeName = msg.pcAeName.map some
  aeInstance : ∀ s, msg.pcAeInstance = some s →
    reads obj.object obj.pcAeInstance = some (some s)
  noAeInstance : msg.pcAeInstance = none → obj.pcAeInstance = old.pcAeInstance
  supportingDifs :
    obj.pcSupportingDifs.map (fun o => cstring (obj.object.drop o)) = difs.map some

/-- The strings fit the object to the byte. -/
theorem prvSerDesRinaNeighborToNeighborMessage_spec {message : PbNeighbor} {msg : NeighborMessage}
    (hs : message.Says msg) {pcDifs : List Bytes} {difs : List CString} (hd : Texts pcDifs difs)
    (old : DecodedNeighbor)
    (hobject : old.object.length = sizeofNeighborMessage + neighborRoom msg difs) :
    ∃ obj, prvSerDesRinaNeighborToNeighborMessage pf old message pcDifs old.object.length =
        .ok obj ∧ PackedAs old msg difs obj ∧
      obj.ullAddress = (if message.has_address then message.address else old.ullAddress) := by
  let pk := vPkInit old.object (sizeofNeighborMessage + pcDifs.length * sizeofPointer)
    old.object.length
  have hroom : pk.Room (packedSize msg.pcApName + (packedSize msg.pcApInstance +
      (packedSize msg.pcAeName + (packedSize msg.pcAeInstance + (packedSizes difs + 0))))) := by
    refine ⟨rfl, ?_⟩
    change sizeofNeighborMessage + pcDifs.length * sizeofPointer + _ = old.object.length
    rw [hobject, neighborRoom, hd.length_eq, Nat.mul_comm]
    omega
  obtain ⟨ptr₁, pk₁, hpack₁, hroom₁, hptr₁, -⟩ := packField_spec pf hs.apname none hroom
  obtain ⟨ptr₂, pk₂, hpack₂, hroom₂, hptr₂, hkeep₂⟩ := packField_spec pf hs.apinstance none hroom₁
  obtain ⟨ptr₃, pk₃, hpack₃, hroom₃, hptr₃, hkeep₃⟩ := packField_spec pf hs.aename none hroom₂
  obtain ⟨ptr₄, pk₄, hpack₄, hroom₄, hptr₄, hkeep₄⟩ :=
    packField_spec pf hs.aeinstance old.pcAeInstance hroom₃
  obtain ⟨offsets, pk₅, hpack₅, -, hdifs, hkeep₅⟩ := packDifs_spec pf hd hroom₄
  have hpoints₁ := hptr₁.mono (hkeep₂.trans (hkeep₃.trans (hkeep₄.trans hkeep₅)))
  have hpoints₂ := hptr₂.mono (hkeep₃.trans (hkeep₄.trans hkeep₅))
  have hpoints₃ := hptr₃.mono (hkeep₄.trans hkeep₅)
  have hpoints₄ := hptr₄.mono hkeep₅
  refine ⟨⟨ptr₁, ptr₂, ptr₃, ptr₄, _, offsets, pk₅.pvBase⟩, ?_, ⟨hpoints₁.reads, hpoints₂.reads,
    hpoints₃.reads, fun s hs => ?_, fun hs => ?_, forall₂_holds hdifs⟩, rfl⟩
  · simp only [prvSerDesRinaNeighborToNeighborMessage]
    change (packField pf none pk _ >>= _) = _
    simp only [hpack₁, hpack₂, hpack₃, hpack₄, hpack₅, Exec.ok_bind]
    rfl
  · rw [hs] at hpoints₄
    obtain ⟨o, hptr, ho⟩ := hpoints₄
    simp only [reads, hptr, Option.map_some, ho.cstring]
  · rw [hs] at hpoints₄
    exact hpoints₄

/-- The object for a neighbor costs one request. -/
theorem neighborObject_spec (pools : SerDesPools) {msg : NeighborMessage} (hfits : msg.Fits)
    (difs : List CString) (max calls : ℕ) :
    ∃ obj, DecodedAs pf (pools.residue calls) msg difs obj ∧
      neighborObject pf pools ⟨pbNeighbor msg, ⟨difs.map CString.terminated, max⟩, calls⟩ =
        if Met pools calls (calls + 1) then .ok (obj, calls + 1) else outOfMemory pf := by
  have hs := pbNeighbor_says hfits
  have hd := texts_terminated difs
  have hobject := newObject_length pf (pools.residue calls)
    (sizeofNeighborMessage + neighborRoom msg difs)
  obtain ⟨obj, hconvert, hpacked, haddress⟩ :=
    prvSerDesRinaNeighborToNeighborMessage_spec pf hs hd _ hobject
  rw [hobject] at hconvert
  refine ⟨obj, ⟨hpacked.apName, hpacked.apInstance, hpacked.aeName, hpacked.aeInstance,
    hpacked.noAeInstance, haddress, hpacked.supportingDifs⟩, ?_⟩
  simp only [neighborObject, prvSerDesGetNeighborAllocSize_eq hs hd, traps_ok, PbExec.ok_bind,
    pxRsrcVarAlloc_eq]
  split_ifs
  · rw [PbExec.ok_bind, hconvert]
    rfl
  · rfl

end RinaSense.SerDes
