import RinaSense.Library.Regions
import RinaSense.SerDes.NeighborList

/-!
# Where the parts of a neighbor lie

What the decoder has collected of a neighbor are strings with their terminators. Behind the
structure and the pointers to the names they follow one another to the end of the object.
-/

namespace RinaSense.SerDes

open Common Library.Memory Library.Regions

variable (pf : Platform) (pools : SerDesPools)

/-! ### What the decoder collects -/

/-- The fields for strings. -/
def PbNeighbor.strings (message : PbNeighbor) : List PbString :=
  [message.apname, message.apinstance, message.aename, message.aeinstance]

/-- What is there has a terminator. -/
structure NeighborDecode.Terminated (d : NeighborDecode) : Prop where
  fields : ∀ field ∈ d.message.strings, ∃ s, field.Says s
  supportingDifs : ∀ pcDif ∈ d.xSupDifLst.pvArray, ∃ s, cstring pcDif = some s

variable {pf pools} {d : NeighborDecode} {field : PbString}

theorem init_terminated (calls : ℕ) :
    NeighborDecode.Terminated ⟨.init_zero, .init Bytes, calls⟩ where
  fields field hfield := by
    refine ⟨none, ?_⟩
    simp only [PbNeighbor.strings, PbNeighbor.init_zero, List.mem_cons, List.not_mem_nil, or_false,
      or_self] at hfield
    rw [hfield]
    rfl
  supportingDifs pcDif hdif := by cases hdif

theorem decode_string_field_terminated {get : NeighborDecode → PbString}
    {set : PbString → NeighborDecode → NeighborDecode}
    (hset : ∀ field d, (∃ s, field.Says s) → d.Terminated → (set field d).Terminated)
    {wire_type : PbWireType} {stream rest : Bytes} {d' : NeighborDecode} (hd : d.Terminated)
    (h : decode_string_field get set wire_type stream d = .ok (rest, d')) : d'.Terminated := by
  obtain ⟨⟨rest', chars⟩, hdec, h⟩ := PbExec.bind_eq_ok.mp h
  cases h
  obtain ⟨s, hs⟩ := cstring_of_mem (pb_dec_string_ends (succeeds_eq_ok hdec)).2
  exact hset _ d ⟨some s, rfl, hs⟩ hd

/-- A name which is collected gets a terminator. -/
theorem prvSerDesNeighborDecodeCb_terminated {stream rest : Bytes} {d' : NeighborDecode}
    (hd : d.Terminated) (h : prvSerDesNeighborDecodeCb pf pools stream d = .ok (rest, d')) :
    d'.Terminated := by
  unfold prvSerDesNeighborDecodeCb at h
  split_ifs at h with hempty
  · cases h
    exact hd
  · obtain ⟨calls, -, h⟩ := PbExec.bind_eq_ok.mp h
    obtain ⟨⟨xSupDifLst, calls'⟩, hadd, h⟩ := PbExec.bind_eq_ok.mp h
    cases h
    have harray : xSupDifLst.pvArray = d.xSupDifLst.pvArray ++ [stream ++ [0]] := by
      unfold xArrayListAdd at hadd
      split_ifs at hadd
      · obtain ⟨calls'', -, hadd⟩ := PbExec.bind_eq_ok.mp hadd
        cases hadd
        rfl
      · cases hadd
        rfl
    refine ⟨hd.fields, fun pcDif hdif => ?_⟩
    simp only [harray, List.mem_append, List.mem_singleton] at hdif
    rcases hdif with hdif | rfl
    · exact hd.supportingDifs pcDif hdif
    · exact cstring_of_mem (by simp)

theorem NeighborDecode.terminated_iff : d.Terminated ↔
    ((∃ s, d.message.apname.Says s) ∧ (∃ s, d.message.apinstance.Says s) ∧
      (∃ s, d.message.aename.Says s) ∧ ∃ s, d.message.aeinstance.Says s) ∧
      ∀ pcDif ∈ d.xSupDifLst.pvArray, ∃ s, cstring pcDif = some s := by
  constructor
  · intro h
    have hfields := h.fields
    simp only [PbNeighbor.strings, List.forall_mem_cons] at hfields
    obtain ⟨hap, hapi, hae, haei, -⟩ := hfields
    exact ⟨⟨hap, hapi, hae, haei⟩, h.supportingDifs⟩
  · rintro ⟨⟨hap, hapi, hae, haei⟩, hdifs⟩
    refine ⟨?_, hdifs⟩
    simp only [PbNeighbor.strings, List.forall_mem_cons]
    exact ⟨hap, hapi, hae, haei, by simp⟩

/-- Every field leaves the strings terminated. -/
theorem neighborFields_terminated {tag : ℕ} {decode_field : FieldDecoder NeighborDecode}
    (hfield : neighborFields pf pools tag = some decode_field) {wire_type : PbWireType}
    {stream rest : Bytes} {d' : NeighborDecode} (hd : d.Terminated)
    (h : decode_field wire_type stream d = .ok (rest, d')) : d'.Terminated := by
  unfold neighborFields at hfield
  split at hfield
  · cases hfield
    refine decode_string_field_terminated (fun field d hs hd => ?_) hd h
    obtain ⟨⟨-, hapi, hae, haei⟩, hdifs⟩ := NeighborDecode.terminated_iff.mp hd
    exact NeighborDecode.terminated_iff.mpr ⟨⟨hs, hapi, hae, haei⟩, hdifs⟩
  · cases hfield
    refine decode_string_field_terminated (fun field d hs hd => ?_) hd h
    obtain ⟨⟨hap, -, hae, haei⟩, hdifs⟩ := NeighborDecode.terminated_iff.mp hd
    exact NeighborDecode.terminated_iff.mpr ⟨⟨hap, hs, hae, haei⟩, hdifs⟩
  · cases hfield
    refine decode_string_field_terminated (fun field d hs hd => ?_) hd h
    obtain ⟨⟨hap, hapi, -, haei⟩, hdifs⟩ := NeighborDecode.terminated_iff.mp hd
    exact NeighborDecode.terminated_iff.mpr ⟨⟨hap, hapi, hs, haei⟩, hdifs⟩
  · cases hfield
    refine decode_string_field_terminated (fun field d hs hd => ?_) hd h
    obtain ⟨⟨hap, hapi, hae, -⟩, hdifs⟩ := NeighborDecode.terminated_iff.mp hd
    exact NeighborDecode.terminated_iff.mpr ⟨⟨hap, hapi, hae, hs⟩, hdifs⟩
  · cases hfield
    unfold decode_uint64_field at h
    split at h
    · cases h
    · obtain ⟨⟨value, rest'⟩, -, h⟩ := PbExec.bind_eq_ok.mp h
      cases h
      exact ⟨hd.fields, hd.supportingDifs⟩
  · cases hfield
    unfold decode_callback_field at h
    split at h
    · obtain ⟨⟨substream, rest'⟩, -, h⟩ := PbExec.bind_eq_ok.mp h
      obtain ⟨dest, hloop, h⟩ := PbExec.bind_eq_ok.mp h
      cases h
      exact callbackLoop_keeps (fun _ _ _ _ => prvSerDesNeighborDecodeCb_terminated) _ hd hloop
    · obtain ⟨⟨raw, rest'⟩, -, h⟩ := PbExec.bind_eq_ok.mp h
      obtain ⟨⟨left, dest⟩, hcall, h⟩ := PbExec.bind_eq_ok.mp h
      cases h
      exact prvSerDesNeighborDecodeCb_terminated hd hcall
  · cases hfield

theorem decodeNeighbor_terminated {stream : Bytes} {calls : ℕ}
    (h : decodeNeighbor pf pools stream calls = .ok d) : d.Terminated :=
  pb_decode_keeps (fun _ _ hfield _ _ _ _ _ hd hstep => neighborFields_terminated hfield hd hstep)
    (init_terminated calls) h

/-- The message and the names which are decoded. -/
theorem decodeNeighbor_says {stream : Bytes} {calls : ℕ}
    (h : decodeNeighbor pf pools stream calls = .ok d) :
    ∃ msg difs, d.message.Says msg ∧ Texts d.xSupDifLst.pvArray difs := by
  obtain ⟨⟨⟨ap, hap⟩, ⟨api, hapi⟩, ⟨ae, hae⟩, aei, haei⟩, hdifs⟩ :=
    NeighborDecode.terminated_iff.mp (decodeNeighbor_terminated h)
  obtain ⟨difs, htexts⟩ : ∃ difs, Texts d.xSupDifLst.pvArray difs := by
    generalize d.xSupDifLst.pvArray = pcDifs at hdifs
    induction pcDifs with
    | nil => exact ⟨[], .nil⟩
    | cons pcDif pcDifs ih =>
      obtain ⟨⟨s, hs⟩, hrest⟩ := List.forall_mem_cons.mp hdifs
      obtain ⟨difs, htexts⟩ := ih hrest
      exact ⟨s :: difs, .cons hs htexts⟩
  exact ⟨⟨ap, api, ae, aei, 0, difs⟩, difs, ⟨hap, hapi, hae, haei⟩, htexts⟩

/-! ### Where the packer writes -/

/-- The bytes of the string in an array, with its terminator. -/
def textLength (chars : Bytes) : ℕ := ((cstring chars).map fun s => s.length + 1).getD 0

def fieldRegion (ptr : Option ℕ) (field : PbString) : List Region :=
  if field.has then ptr.toList.map fun o => ⟨o, textLength field.chars⟩ else []

/-- The structure, the pointers to the names, and each string where its pointer leads. -/
def DecodedNeighbor.regions (obj : DecodedNeighbor) (d : NeighborDecode) : List Region :=
  ⟨0, sizeofNeighborMessage⟩ ::
    ⟨sizeofNeighborMessage, d.xSupDifLst.pvArray.length * sizeofPointer⟩ ::
    (fieldRegion obj.pcApName d.message.apname ++
      fieldRegion obj.pcApInstance d.message.apinstance ++
      fieldRegion obj.pcAeName d.message.aename ++
      fieldRegion obj.pcAeInstance d.message.aeinstance ++
      List.zipWith (fun o pcDif => ⟨o, textLength pcDif⟩) obj.pcSupportingDifs
        d.xSupDifLst.pvArray)

/-- A packer which has written so many bytes. -/
structure Pk.Moves (pk pk' : Pk) (n : ℕ) : Prop where
  pvNext : pk'.pvNext = pk.pvNext + n
  length : pk'.pvBase.length = pk.pvBase.length

theorem copyTo_length {b bs b' : Bytes} {o : ℕ} (h : copyTo b o bs = .ok b') :
    b'.length = b.length := by
  unfold copyTo at h
  split_ifs at h with hfits
  cases h
  exact splice_length hfits

theorem vPkWriteStr_moves {pk pk' : Pk} {s : CString} (h : vPkWriteStr pf pk s = .ok pk') :
    pk.Moves pk' (s.length + 1) := by
  obtain ⟨pk₁, hwrite, h⟩ := Exec.bind_eq_ok.mp h
  obtain ⟨pvBase, hzero, h⟩ := Exec.bind_eq_ok.mp h
  cases h
  unfold vPkWrite at hwrite
  split_ifs at hwrite
  obtain ⟨pvBase₁, hcopy, hwrite⟩ := Exec.bind_eq_ok.mp hwrite
  cases hwrite
  exact ⟨rfl, (copyTo_length hzero).trans (copyTo_length hcopy)⟩

/-- The lengths of the strings which are there. -/
def stringLengths (strings : List CString) : List ℕ := strings.map fun s => s.length + 1

theorem stringLengths_sum (s : Option CString) : (stringLengths s.toList).sum = packedSize s := by
  cases s <;> rfl

theorem packField_region {pk pk' : Pk} {old ptr : Option ℕ} {s : Option CString}
    (hs : field.Says s) (h : packField pf old pk field = .ok (ptr, pk')) :
    fieldRegion ptr field = consecutive pk.pvNext (stringLengths s.toList) ∧
      pk.Moves pk' (packedSize s) := by
  cases s with
  | none =>
    have hhas : field.has = false := hs
    simp only [packField, hhas, Bool.false_eq_true, if_false] at h
    cases h
    exact ⟨by rw [fieldRegion, hhas]; rfl, rfl, rfl⟩
  | some s =>
    obtain ⟨hhas, hread⟩ := hs
    simp only [packField, hhas, if_true, hread, inBounds_some, Exec.ok_bind] at h
    obtain ⟨pk₁, hwrite, h⟩ := Exec.bind_eq_ok.mp h
    cases h
    refine ⟨?_, vPkWriteStr_moves hwrite⟩
    rw [fieldRegion, hhas, if_pos rfl, textLength, hread]
    rfl

theorem packDifs_regions {pcDifs : List Bytes} {difs : List CString} (hd : Texts pcDifs difs)
    {pk pk' : Pk} {offsets : List ℕ} (h : packDifs pf pk pcDifs = .ok (offsets, pk')) :
    List.zipWith (fun o pcDif => (⟨o, textLength pcDif⟩ : Region)) offsets pcDifs =
        consecutive pk.pvNext (stringLengths difs) ∧ pk.Moves pk' (packedSizes difs) := by
  induction hd generalizing pk offsets with
  | nil =>
    cases h
    exact ⟨rfl, rfl, rfl⟩
  | @cons pcDif s pcDifs difs hread _ ih =>
    simp only [packDifs, hread, inBounds_some, Exec.ok_bind] at h
    obtain ⟨pk₁, hwrite, h⟩ := Exec.bind_eq_ok.mp h
    obtain ⟨⟨offsets', pk₂⟩, hrest, h⟩ := Exec.bind_eq_ok.mp h
    cases h
    obtain ⟨hregions, hmoves⟩ := ih hrest
    have hmoved := vPkWriteStr_moves hwrite
    refine ⟨?_, ?_, hmoves.length.trans hmoved.length⟩
    · rw [List.zipWith_cons_cons, hregions, hmoved.pvNext, textLength, hread]
      rfl
    · rw [hmoves.pvNext, hmoved.pvNext, packedSizes, packedSizes, List.map_cons, List.sum_cons,
        Nat.add_assoc]

/-- The lengths of the parts of a neighbor. -/
def neighborLengths (msg : NeighborMessage) (difs : List CString) : List ℕ :=
  sizeofNeighborMessage :: difs.length * sizeofPointer ::
    (stringLengths msg.pcApName.toList ++ stringLengths msg.pcApInstance.toList ++
      stringLengths msg.pcAeName.toList ++ stringLengths msg.pcAeInstance.toList ++
      stringLengths difs)

theorem neighborLengths_sum (msg : NeighborMessage) (difs : List CString) :
    (neighborLengths msg difs).sum = sizeofNeighborMessage + neighborRoom msg difs := by
  have hdifs : (stringLengths difs).sum = packedSizes difs := rfl
  simp only [neighborLengths, List.sum_cons, List.sum_append, stringLengths_sum, hdifs,
    neighborRoom]
  rw [Nat.mul_comm]
  omega

/-- The parts which are packed follow one another. -/
theorem packed_regions {msg : NeighborMessage} {difs : List CString} (hs : d.message.Says msg)
    (hd : Texts d.xSupDifLst.pvArray difs) {old obj : DecodedNeighbor} {unMaxSz : ℕ}
    (h : prvSerDesRinaNeighborToNeighborMessage pf old d.message d.xSupDifLst.pvArray unMaxSz =
      .ok obj) :
    obj.regions d = consecutive 0 (neighborLengths msg difs) ∧
      obj.object.length = old.object.length := by
  obtain ⟨⟨ptr₁, pk₁⟩, hpack₁, h⟩ := Exec.bind_eq_ok.mp h
  obtain ⟨⟨ptr₂, pk₂⟩, hpack₂, h⟩ := Exec.bind_eq_ok.mp h
  obtain ⟨⟨ptr₃, pk₃⟩, hpack₃, h⟩ := Exec.bind_eq_ok.mp h
  obtain ⟨⟨ptr₄, pk₄⟩, hpack₄, h⟩ := Exec.bind_eq_ok.mp h
  obtain ⟨⟨offsets, pk₅⟩, hpack₅, h⟩ := Exec.bind_eq_ok.mp h
  cases h
  obtain ⟨hregion₁, hmoves₁⟩ := packField_region hs.apname hpack₁
  obtain ⟨hregion₂, hmoves₂⟩ := packField_region hs.apinstance hpack₂
  obtain ⟨hregion₃, hmoves₃⟩ := packField_region hs.aename hpack₃
  obtain ⟨hregion₄, hmoves₄⟩ := packField_region hs.aeinstance hpack₄
  obtain ⟨hregions, hmoves₅⟩ := packDifs_regions hd hpack₅
  refine ⟨?_, ?_⟩
  · simp only [DecodedNeighbor.regions, hregion₁, hregion₂, hregion₃, hregion₄, hregions,
      neighborLengths, consecutive, consecutive_append, List.sum_append, stringLengths_sum,
      hmoves₁.pvNext, hmoves₂.pvNext, hmoves₃.pvNext, hmoves₄.pvNext, vPkInit, hd.length_eq,
      Nat.zero_add, Nat.add_assoc]
  · exact hmoves₅.length.trans (hmoves₄.length.trans (hmoves₃.length.trans
      (hmoves₂.length.trans hmoves₁.length)))

/-- The string of a field is where its pointer leads. -/
def DecodedNeighbor.FieldAt (obj : DecodedNeighbor) (ptr : Option ℕ) (field : PbString) : Prop :=
  field.has = true → reads obj.object ptr = some (cstring field.chars)

/-- The strings were copied, each into a part of its own, and the parts fill the block. -/
structure DecodedNeighbor.PackedFrom (obj : DecodedNeighbor) (d : NeighborDecode) (unSz : ℕ) :
    Prop where
  apName : obj.FieldAt obj.pcApName d.message.apname
  apInstance : obj.FieldAt obj.pcApInstance d.message.apinstance
  aeName : obj.FieldAt obj.pcAeName d.message.aename
  aeInstance : obj.FieldAt obj.pcAeInstance d.message.aeinstance
  supportingDifs : obj.pcSupportingDifs.map (fun o => cstring (obj.object.drop o)) =
    d.xSupDifLst.pvArray.map cstring
  block : obj.object.length = unSz
  packed : Packed unSz (obj.regions d)
  filled : ((obj.regions d).map Region.length).sum = unSz

theorem fieldAt_of_says {obj : DecodedNeighbor} {ptr : Option ℕ} {s : Option CString}
    (hs : field.Says s) (hreads : ∀ s', s = some s' → reads obj.object ptr = some (some s')) :
    obj.FieldAt ptr field := by
  intro hhas
  cases s with
  | none => cases hhas.symm.trans (show field.has = false from hs)
  | some s => rw [hreads s rfl, hs.2]

theorem Texts.map_cstring {pcDifs : List Bytes} {difs : List CString} (hd : Texts pcDifs difs) :
    pcDifs.map cstring = difs.map some := by
  induction hd with
  | nil => rfl
  | cons hread _ ih => rw [List.map_cons, List.map_cons, ih, hread]

/-- The size which is computed for a decoded neighbor is what its parts take, so that they are
packed into the block without leaving it and without touching one another. -/
theorem decoded_fits {stream : Bytes} {calls : ℕ}
    (h : decodeNeighbor pf pools stream calls = .ok d) (residue : Residue) :
    ∃ unAlloc obj,
      prvSerDesGetNeighborAllocSize d.message d.xSupDifLst.pvArray = .ok unAlloc ∧
      prvSerDesRinaNeighborToNeighborMessage pf
        (newObject pf residue (sizeofNeighborMessage + unAlloc)) d.message d.xSupDifLst.pvArray
        (sizeofNeighborMessage + unAlloc) = .ok obj ∧
      obj.PackedFrom d (sizeofNeighborMessage + unAlloc) := by
  obtain ⟨msg, difs, hs, hd⟩ := decodeNeighbor_says h
  have hobject := newObject_length pf residue (sizeofNeighborMessage + neighborRoom msg difs)
  obtain ⟨obj, hconvert, hpacked, -⟩ :=
    prvSerDesRinaNeighborToNeighborMessage_spec pf hs hd _ hobject
  obtain ⟨hregions, hlength⟩ := packed_regions hs hd hconvert
  rw [hobject] at hconvert
  refine ⟨_, obj, prvSerDesGetNeighborAllocSize_eq hs hd, hconvert,
    fieldAt_of_says hs.apname fun s hsome => ?_, fieldAt_of_says hs.apinstance fun s hsome => ?_,
    fieldAt_of_says hs.aename fun s hsome => ?_,
    fieldAt_of_says hs.aeinstance hpacked.aeInstance, ?_, hlength.trans hobject, ?_, ?_⟩
  · rw [hpacked.apName, hsome, Option.map_some]
  · rw [hpacked.apInstance, hsome, Option.map_some]
  · rw [hpacked.aeName, hsome, Option.map_some]
  · rw [hpacked.supportingDifs, hd.map_cstring]
  · rw [hregions]
    exact consecutive_packed (by rw [Nat.zero_add, neighborLengths_sum])
  · rw [hregions, consecutive_lengths, neighborLengths_sum]

/-- A neighbor `a` which supports the DIF `xy`. -/
theorem decoded_fits_one :
    ∃ d, decodeNeighbor plainPlatform amplePools [0x0a, 1, 0x61, 0x32, 2, 0x78, 0x79] 0 = .ok d ∧
      d.xSupDifLst.pvArray = [[0x78, 0x79, 0]] ∧ ∃ unAlloc obj,
        prvSerDesGetNeighborAllocSize d.message d.xSupDifLst.pvArray = .ok unAlloc ∧
        prvSerDesRinaNeighborToNeighborMessage plainPlatform
          (newObject plainPlatform ⟨none, 0, fun _ => 0⟩ (sizeofNeighborMessage + unAlloc))
          d.message d.xSupDifLst.pvArray (sizeofNeighborMessage + unAlloc) = .ok obj ∧
        obj.PackedFrom d (sizeofNeighborMessage + unAlloc) := by
  let callback := prvSerDesNeighborDecodeCb plainPlatform amplePools
  let message : PbNeighbor := { PbNeighbor.init_zero with apname := ⟨true, 0x61 :: zeros 19⟩ }
  have hdif : decode_callback_field callback .PB_WT_STRING [2, 0x78, 0x79]
      ⟨message, .init Bytes, 0⟩ = .ok ([], ⟨message, ⟨[[0x78, 0x79, 0]], 10⟩, 1⟩) :=
    @decode_callback_field_record _ callback [0x78, 0x79] (by decide) _ (.ok _) rfl []
  have hdecode : decodeNeighbor plainPlatform amplePools [0x0a, 1, 0x61, 0x32, 2, 0x78, 0x79] 0 =
      .ok ⟨message, ⟨[[0x78, 0x79, 0]], 10⟩, 1⟩ := by
    -- behind the first field the decoder is at the bytes of the DIF
    change (decode_callback_field callback .PB_WT_STRING [2, 0x78, 0x79]
      ⟨message, .init Bytes, 0⟩ >>= fun p =>
        pb_decode_inner (neighborFields plainPlatform amplePools) 5 p.1 p.2) = _
    rw [hdif]
    rfl
  exact ⟨_, hdecode, rfl, decoded_fits hdecode _⟩

end RinaSense.SerDes
