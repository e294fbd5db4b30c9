import RinaSense.SerDes.Neighbor
import RinaSense.SerDes.RoundTrip
import RinaSense.SerDes.Wire

/-!
# Neighbors on the wire

The encoder turns a neighbor into one record for each of its strings, and the decoder
turns the records into the same structure and the list of the names which are not empty.
-/

namespace RinaSense.SerDes

open Common Library.Memory

def NeighborMessage.Fits (msg : NeighborMessage) : Prop :=
  FitsIn sizeNeighborString msg.pcApName ∧ FitsIn sizeNeighborString msg.pcApInstance ∧
    FitsIn sizeNeighborString msg.pcAeName ∧ FitsIn sizeNeighborString msg.pcAeInstance

instance (msg : NeighborMessage) : Decidable msg.Fits :=
  inferInstanceAs (Decidable (_ ∧ _ ∧ _ ∧ _))

/-- A neighbor without any contents. -/
def NeighborMessage.blank : NeighborMessage := ⟨none, none, none, none, 0, []⟩

/-- A neighbor with the strings of the one before it where it has none. -/
def NeighborMessage.carry (prev msg : NeighborMessage) : NeighborMessage :=
  { msg with
    pcApName := msg.pcApName.or prev.pcApName
    pcApInstance := msg.pcApInstance.or prev.pcApInstance
    pcAeName := msg.pcAeName.or prev.pcAeName
    pcAeInstance := msg.pcAeInstance.or prev.pcAeInstance }

/-- The structure which is encoded for a neighbor. -/
def pbNeighbor (msg : NeighborMessage) : PbNeighbor where
  apname := copyField sizeNeighborString msg.pcApName
  apinstance := copyField sizeNeighborString msg.pcApInstance
  aename := copyField sizeNeighborString msg.pcAeName
  aeinstance := copyField sizeNeighborString msg.pcAeInstance
  has_address := false
  address := 0

def difRecords (difs : List CString) : List Record := difs.map fun s => ⟨6, s.bytes⟩

def neighborRecords (msg : NeighborMessage) : List Record :=
  stringRecords 1 msg.pcApName ++ (stringRecords 2 msg.pcApInstance ++
    (stringRecords 3 msg.pcAeName ++ (stringRecords 4 msg.pcAeInstance ++
      difRecords msg.pcSupportingDifs)))

/-! ### Encoding -/

theorem serdesFieldCopy_copyField (prev s : Option CString) :
    serdesFieldCopy (copyField sizeNeighborString prev) s =
      copyField sizeNeighborString (s.or prev) := by
  cases s <;> rfl

theorem pxSerDesNeighborEncodePrepare_eq (prev msg : NeighborMessage) :
    pxSerDesNeighborEncodePrepare msg (pbNeighbor prev) = pbNeighbor (prev.carry msg) := by
  simp only [pxSerDesNeighborEncodePrepare, pbNeighbor, serdesFieldCopy_copyField]
  rfl

theorem fitsIn_or {n : ℕ} {s t : Option CString} (hs : FitsIn n s) (ht : FitsIn n t) :
    FitsIn n (s.or t) := by
  cases s with
  | none => exact ht
  | some s => exact hs

theorem NeighborMessage.Fits.carry {prev msg : NeighborMessage} (hp : prev.Fits)
    (hm : msg.Fits) : (prev.carry msg).Fits :=
  ⟨fitsIn_or hm.1 hp.1, fitsIn_or hm.2.1 hp.2.1, fitsIn_or hm.2.2.1 hp.2.2.1,
    fitsIn_or hm.2.2.2 hp.2.2.2⟩

theorem NeighborMessage.blank_fits : NeighborMessage.blank.Fits := by decide

@[simp] theorem NeighborMessage.blank_carry (msg : NeighborMessage) :
    NeighborMessage.blank.carry msg = msg := by
  simp [NeighborMessage.carry, NeighborMessage.blank]

theorem writes_string_field (tag : ℕ) {n : ℕ} {s : Option CString} (h : FitsIn n s) :
    Writes (encode_string_field tag (copyField n s)) (wires (stringRecords tag s)) := by
  cases s with
  | none => exact writes_nothing
  | some s =>
    intro stream
    have hwrite := writes_record ⟨tag, s.bytes⟩ stream
    have hread : cstring (strncpy n s) = some s := cstring_strncpy h
    simp only [stringRecords, Option.toList_some, List.map_cons, List.map_nil, wires_cons,
      wires_nil, List.append_nil]
    rw [← hwrite]
    simp [encode_string_field, copyField, pb_enc_string, hread]

theorem writes_difs (difs : List CString) :
    Writes (prvSerDesNeighborEncodeCb difs) (wires (difRecords difs)) := by
  induction difs with
  | nil => exact writes_nothing
  | cons s difs ih =>
    intro stream
    have hwrite := (writes_tag 6).andThen ((writes_string s.bytes).andThen ih) stream
    have hwires : wires (difRecords (s :: difs)) = varint 9 (8 * 6 + 2) ++
        (varint 9 s.bytes.length ++ s.bytes ++ wires (difRecords difs)) := by
      simp [difRecords, Record.wire]
    rw [hwires, ← hwrite]
    rfl

theorem writes_neighbor {msg : NeighborMessage} (h : msg.Fits) :
    Writes (encodeNeighbor (pbNeighbor msg) msg.pcSupportingDifs)
      (wires (neighborRecords msg)) := by
  obtain ⟨hap, hapi, hae, haei⟩ := h
  intro stream
  have hwrite := (writes_string_field 1 hap).andThen
    ((writes_string_field 2 hapi).andThen ((writes_string_field 3 hae).andThen
      ((writes_string_field 4 haei).andThen (writes_difs msg.pcSupportingDifs)))) stream
  simp only [neighborRecords, wires_append]
  rw [← hwrite]
  rfl

/-- The neighbors as they are encoded one after the other. -/
def carried : NeighborMessage → List NeighborMessage → List NeighborMessage
  | _, [] => []
  | prev, msg :: msgs => prev.carry msg :: carried (prev.carry msg) msgs

def neighborsRecords (msgs : List NeighborMessage) : List Record :=
  msgs.map fun msg => ⟨1, wires (neighborRecords msg)⟩

theorem writes_neighbors {prev : NeighborMessage} {msgs : List NeighborMessage}
    (hprev : prev.Fits) (hmsgs : ∀ msg ∈ msgs, msg.Fits) :
    Writes (prvSerDesNeighborListEncodeCb msgs (pbNeighbor prev))
      (wires (neighborsRecords (carried prev msgs))) := by
  induction msgs generalizing prev with
  | nil => exact writes_nothing
  | cons msg msgs ih =>
    have hfits : (prev.carry msg).Fits := hprev.carry (hmsgs msg (List.mem_cons_self ..))
    have hrest := ih hfits fun m hm => hmsgs m (List.mem_cons_of_mem _ hm)
    have hwrites := (writes_tag 1).andThen ((writes_neighbor hfits).submessage.andThen hrest)
    intro stream
    have hwires : wires (neighborsRecords (carried prev (msg :: msgs))) =
        varint 9 (8 * 1 + 2) ++ (varint 9 (wires (neighborRecords (prev.carry msg))).length ++
          wires (neighborRecords (prev.carry msg)) ++
            wires (neighborsRecords (carried (prev.carry msg) msgs))) := by
      simp [neighborsRecords, carried, Record.wire]
    rw [hwires, ← hwrites stream]
    simp only [prvSerDesNeighborListEncodeCb, pxSerDesNeighborEncodePrepare_eq]
    rfl

/-! ### Decoding the strings -/

theorem splice_zeros (n k : ℕ) (h : k < n) : splice (zeros n) k [0] = zeros n := by
  obtain ⟨m, rfl⟩ := Nat.exists_eq_add_of_lt h
  have hlast : ([0] : Bytes) = List.replicate 1 0 := rfl
  rw [splice, zeros, List.take_replicate, List.drop_replicate, hlast,
    List.replicate_append_replicate, List.replicate_append_replicate, List.length_replicate]
  congr 1
  omega

theorem splice_zeros_front {n : ℕ} {s : CString} (h : s.length < n) :
    splice (zeros n) 0 s.bytes = strncpy n s := by
  have htake : s.bytes.take n = s.bytes := List.take_of_length_le (Nat.le_of_lt h)
  simp [splice, zeros, strncpy, htake, CString.length]

/-- A string which is read into an array has its terminator there. -/
theorem pb_dec_string_ends {wire_type : PbWireType} {stream chars rest chars' : Bytes}
    (h : pb_dec_string wire_type stream chars = some (rest, chars')) :
    chars'.length = chars.length ∧ (0 : UInt8) ∈ chars' := by
  unfold pb_dec_string at h
  split_ifs at h with htype
  obtain ⟨⟨size, stream'⟩, -, h⟩ := Option.bind_eq_some_iff.mp h
  dsimp only at h
  split_ifs at h with hroom
  obtain ⟨⟨payload, rest'⟩, hread, h⟩ := Option.bind_eq_some_iff.mp h
  cases h
  have hsize : size < chars.length := by omega
  have hpayload : payload.length = size := by
    unfold pb_read at hread
    split_ifs at hread with hshort
    cases hread
    exact List.length_take_of_le (Nat.le_of_not_lt hshort)
  have hlen : (splice chars size [0]).length = chars.length :=
    splice_length (by simpa using Nat.succ_le_of_lt hsize)
  have hfront : (chars.take size).length = size := List.length_take_of_le (Nat.le_of_lt hsize)
  dsimp only
  refine ⟨by rw [splice_length (by omega), hlen], ?_⟩
  have hzero : (splice (splice chars size [0]) 0 payload)[size]? = some 0 := by
    simp [splice, hpayload, hfront]
  exact List.mem_of_getElem? hzero

/-- A string which is encoded from a field is decoded into the same field. -/
theorem pb_dec_string_record {n : ℕ} {s : CString} (h : s.length < n) (hn : n < 2 ^ 32)
    (rest : Bytes) :
    pb_dec_string .PB_WT_STRING (varint 9 s.bytes.length ++ (s.bytes ++ rest)) (zeros n) =
      some (rest, strncpy n s) := by
  have hlen : s.bytes.length < n := h
  have hsize : ¬ (s.bytes.length = 2 ^ 32 - 1 ∨ (zeros n).length < s.bytes.length + 1) := by
    rw [zeros, List.length_replicate]
    omega
  have hnumber := pb_decode_varint32_varint (v := s.bytes.length) (by omega) (s.bytes ++ rest)
  simp only [pb_dec_string, ne_eq, not_true, if_false, hnumber, Option.bind_eq_bind,
    Option.bind_some, if_neg hsize, pb_read_append, splice_zeros n _ hlen, splice_zeros_front h]
  rfl

section Optional

variable {β : Type} {fields : ℕ → Option (FieldDecoder β)} {get : β → PbString}
  {set : PbString → β → β} {n tag : ℕ} {s : Option CString}

/-- An optional string is decoded into its field. -/
theorem Decodes.optional (hfit : FitsIn n s) (hn : n < 2 ^ 32) (htag : tag ≠ 0)
    (htag' : 8 * tag + 2 < 2 ^ 32) (hfield : fields tag = some (decode_string_field get set))
    {dest : β} (hget : get dest = copyField n none) (hset : set (copyField n none) dest = dest)
    {rest : Bytes} {res : PbExec β} (h : Decodes fields rest (set (copyField n s) dest) res) :
    Decodes fields (wires (stringRecords tag s) ++ rest) dest res := by
  cases s with
  | none =>
    rw [hset] at h
    exact h
  | some s =>
    have hlt : s.length < n := hfit
    have hwires : wires (stringRecords tag (some s)) = Record.wire ⟨tag, s.bytes⟩ := by
      simp [stringRecords]
    rw [hwires]
    have hlen : s.bytes.length < 2 ^ 32 := Nat.lt_trans hlt hn
    refine Decodes.record ⟨htag, htag', hlen⟩ hfield ?_ h
    have hchars : (copyField n none).chars = zeros n := rfl
    simp only [decode_string_field, hget, hchars, pb_dec_string_record hlt hn, succeeds_some,
      PbExec.ok_bind]
    rfl

end Optional

/-! ### Requests for memory -/

/-- The requests from number `a` up to number `b` are met. -/
def Met (pools : SerDesPools) (a b : ℕ) : Prop := ∀ i, a ≤ i → i < b → pools.decPool i = true

instance (pools : SerDesPools) (a b : ℕ) : Decidable (Met pools a b) :=
  decidable_of_iff (∀ i < b, a ≤ i → pools.decPool i = true)
    ⟨fun h i ha hb => h i hb ha, fun h i hb ha => h i ha hb⟩

theorem met_self (pools : SerDesPools) (a : ℕ) : Met pools a a :=
  fun _ ha hb => absurd ha (Nat.not_le.mpr hb)

theorem met_succ (pools : SerDesPools) (a : ℕ) :
    Met pools a (a + 1) ↔ pools.decPool a = true := by
  constructor
  · exact fun h => h a (Nat.le_refl a) (Nat.lt_succ_self a)
  · intro h i ha hb
    obtain rfl : i = a := by omega
    exact h

/-- Requests one behind the other. -/
theorem met_split (pools : SerDesPools) {a b c : ℕ} (hab : a ≤ b) (hbc : b ≤ c) :
    Met pools a c ↔ Met pools a b ∧ Met pools b c := by
  constructor
  · exact fun h => ⟨fun i ha hb => h i ha (by omega), fun i hb hc => h i (by omega) hc⟩
  · rintro ⟨hab', hbc'⟩ i ha hc
    rcases Nat.lt_or_ge i b with hlt | hge
    · exact hab' i ha hlt
    · exact hbc' i hge hc

/-- The requests which one more item of an array list costs. -/
def growRequests (used max : ℕ) : ℕ := if used = max then 1 else 0

/-- The room in the list behind it. -/
def roomAfter (used max : ℕ) : ℕ := if used = max then max * 2 else max

/-- The requests which `n` more items cost. -/
def addRequests (used max : ℕ) : ℕ → ℕ
  | 0 => 0
  | n + 1 => growRequests used max + addRequests (used + 1) (roomAfter used max) n

def roomAfterAdds (used max : ℕ) : ℕ → ℕ
  | 0 => max
  | n + 1 => roomAfterAdds (used + 1) (roomAfter used max) n

section Memory

variable (pf : Platform) (pools : SerDesPools)

/-- Two steps which need nothing but memory are one. -/
theorem met_bind {α β : Type} {a b c : ℕ} (hab : a ≤ b) (hbc : b ≤ c) {x : α} {y : β}
    {f : α → PbExec β} (h : f x = if Met pools b c then .ok y else outOfMemory pf) :
    ((if Met pools a b then .ok x else outOfMemory pf) >>= f) =
      if Met pools a c then .ok y else outOfMemory pf := by
  have hsplit := met_split pools hab hbc
  by_cases hfirst : Met pools a b
  · rw [if_pos hfirst, PbExec.ok_bind, h]
    by_cases hsecond : Met pools b c
    · rw [if_pos hsecond, if_pos (hsplit.mpr ⟨hfirst, hsecond⟩)]
    · rw [if_neg hsecond, if_neg (fun hall => hsecond (hsplit.mp hall).2)]
  · rw [if_neg hfirst, if_neg (fun hall => hfirst (hsplit.mp hall).1)]
    rfl

theorem pxRsrcVarAlloc_eq (calls : ℕ) :
    pxRsrcVarAlloc pf pools calls =
      if Met pools calls (calls + 1) then .ok (calls + 1) else outOfMemory pf := by
  simp only [pxRsrcVarAlloc, met_succ]

theorem xArrayListAdd_eq {α : Type} (lst : Arraylist α) (x : α) (calls : ℕ) :
    xArrayListAdd pf pools lst x calls =
      if Met pools calls (calls + growRequests lst.pvArray.length lst.unMaxItemCount) then
        .ok (⟨lst.pvArray ++ [x], roomAfter lst.pvArray.length lst.unMaxItemCount⟩,
          calls + growRequests lst.pvArray.length lst.unMaxItemCount)
      else outOfMemory pf := by
  unfold xArrayListAdd growRequests roomAfter
  split_ifs with hfull hmet
  · rw [pxRsrcVarAlloc_eq, if_pos hmet]
    rfl
  · rw [pxRsrcVarAlloc_eq, if_neg hmet]
    rfl
  · rfl
  · exact absurd (met_self pools calls) ‹_›

/-- The names which are collected. -/
def kept (difs : List CString) : List CString := difs.filter (· ≠ CString.empty)

/-- What the callback does with a name. -/
def collect (d : NeighborDecode) (s : CString) : PbExec NeighborDecode :=
  if s = CString.empty then .ok d
  else do
    let calls ← pxRsrcVarAlloc pf pools d.calls
    let (xSupDifLst, calls) ← xArrayListAdd pf pools d.xSupDifLst s.terminated calls
    return { d with xSupDifLst := xSupDifLst, calls := calls }

theorem prvSerDesNeighborDecodeCb_eq (d : NeighborDecode) (s : CString) :
    prvSerDesNeighborDecodeCb pf pools s.bytes d =
      (collect pf pools d s).map fun d => ([], d) := by
  have hempty : s.bytes = [] ↔ s = CString.empty :=
    ⟨fun h => CString.ext h, fun h => by rw [h]; rfl⟩
  unfold prvSerDesNeighborDecodeCb collect
  simp only [hempty]
  split_ifs with h
  · rfl
  · cases pxRsrcVarAlloc pf pools d.calls with
    | error t => rfl
    | ok calls =>
      simp only [PbExec.ok_bind]
      change (xArrayListAdd pf pools d.xSupDifLst s.terminated calls >>= _) = _
      cases xArrayListAdd pf pools d.xSupDifLst s.terminated calls <;> rfl

/-- The names are collected in their order, until there is no memory. -/
theorem decodes_difs {difs : List CString} (hlen : ∀ s ∈ difs, s.length < 2 ^ 32)
    (d : NeighborDecode) :
    Decodes (neighborFields pf pools) (wires (difRecords difs)) d
      (difs.foldlM (collect pf pools) d) :=
  decodes_repeated (by decide) (by decide) rfl hlen
    (fun s _ d => prvSerDesNeighborDecodeCb_eq pf pools d s) d

/-- The request for a name and for the room in the list. -/
theorem collect_kept {s : CString} (hs : s ≠ CString.empty) (d : NeighborDecode) :
    collect pf pools d s =
      if Met pools d.calls (d.calls + 1 +
          growRequests d.xSupDifLst.pvArray.length d.xSupDifLst.unMaxItemCount) then
        .ok ⟨d.message, ⟨d.xSupDifLst.pvArray ++ [s.terminated],
          roomAfter d.xSupDifLst.pvArray.length d.xSupDifLst.unMaxItemCount⟩,
          d.calls + 1 + growRequests d.xSupDifLst.pvArray.length d.xSupDifLst.unMaxItemCount⟩
      else outOfMemory pf := by
  rw [collect, if_neg hs, pxRsrcVarAlloc_eq]
  refine met_bind pf pools (by omega) (by omega) ?_
  rw [xArrayListAdd_eq]
  split_ifs <;> rfl

/-- All the names together. -/
theorem foldlM_collect (difs : List CString) (d : NeighborDecode) :
    difs.foldlM (collect pf pools) d =
      if Met pools d.calls (d.calls + (kept difs).length +
          addRequests d.xSupDifLst.pvArray.length d.xSupDifLst.unMaxItemCount
            (kept difs).length) then
        .ok ⟨d.message, ⟨d.xSupDifLst.pvArray ++ (kept difs).map CString.terminated,
          roomAfterAdds d.xSupDifLst.pvArray.length d.xSupDifLst.unMaxItemCount
            (kept difs).length⟩,
          d.calls + (kept difs).length +
            addRequests d.xSupDifLst.pvArray.length d.xSupDifLst.unMaxItemCount
              (kept difs).length⟩
      else outOfMemory pf := by
  induction difs generalizing d with
  | nil =>
    obtain ⟨message, ⟨pvArray, unMaxItemCount⟩, calls⟩ := d
    simp only [List.foldlM_nil, kept, List.filter_nil, List.length_nil, addRequests,
      roomAfterAdds, List.map_nil, List.append_nil, Nat.add_zero, if_pos (met_self pools calls)]
    rfl
  | cons s difs ih =>
    rw [List.foldlM_cons]
    by_cases hs : s = CString.empty
    · have hkept : kept (s :: difs) = kept difs := by simp [kept, hs]
      have hskip : collect pf pools d s = .ok d := by rw [collect, if_pos hs]
      rw [hkept, hskip]
      exact ih d
    · have hkept : kept (s :: difs) = s :: kept difs := by simp [kept, hs]
      have hcount : ∀ n used max, d.calls + (n + 1) + addRequests used max (n + 1) =
          d.calls + 1 + growRequests used max + n +
            addRequests (used + 1) (roomAfter used max) n := by
        intro n used max
        rw [addRequests]
        omega
      rw [hkept, collect_kept pf pools hs, List.length_cons, hcount]
      refine met_bind pf pools (by omega) (by omega) ?_
      rw [ih]
      simp only [List.length_append, List.length_cons, List.length_nil, Nat.zero_add,
        List.append_assoc, List.singleton_append, List.map_cons, roomAfterAdds]

/-- The requests which are made for the names of a neighbor, and the one for the list. -/
def nameRequests (msg : NeighborMessage) : ℕ :=
  1 + (kept msg.pcSupportingDifs).length + addRequests 0 10 (kept msg.pcSupportingDifs).length

/-- The structure and the list which a neighbor is decoded into. -/
theorem decodeNeighbor_eq {msg : NeighborMessage} (hfits : msg.Fits)
    (hlen : ∀ s ∈ msg.pcSupportingDifs, s.length < 2 ^ 32) (calls : ℕ) :
    decodeNeighbor pf pools (wires (neighborRecords msg)) calls =
      msg.pcSupportingDifs.foldlM (collect pf pools) ⟨pbNeighbor msg, .init Bytes, calls⟩ := by
  obtain ⟨hap, hapi, hae, haei⟩ := hfits
  have hsize : sizeNeighborString < 2 ^ 32 := by decide
  have hapname : neighborFields pf pools 1 = some (decode_string_field (·.message.apname)
      fun field => NeighborDecode.update fun m => { m with apname := field }) := rfl
  have hapinstance : neighborFields pf pools 2 = some (decode_string_field (·.message.apinstance)
      fun field => NeighborDecode.update fun m => { m with apinstance := field }) := rfl
  have haename : neighborFields pf pools 3 = some (decode_string_field (·.message.aename)
      fun field => NeighborDecode.update fun m => { m with aename := field }) := rfl
  have haeinstance : neighborFields pf pools 4 = some (decode_string_field (·.message.aeinstance)
      fun field => NeighborDecode.update fun m => { m with aeinstance := field }) := rfl
  apply Decodes.pb_decode
  simp only [neighborRecords, wires_append]
  refine Decodes.optional hap hsize (by decide) (by decide) hapname rfl rfl ?_
  refine Decodes.optional hapi hsize (by decide) (by decide) hapinstance rfl rfl ?_
  refine Decodes.optional hae hsize (by decide) (by decide) haename rfl rfl ?_
  refine Decodes.optional haei hsize (by decide) (by decide) haeinstance rfl rfl ?_
  exact decodes_difs pf pools hlen _

end Memory

end RinaSense.SerDes
