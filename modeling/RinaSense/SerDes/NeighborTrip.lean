import RinaSense.SerDes.NeighborPack

/-!
# Round trip of neighbors

What is decoded from the bytes of a neighbor, and of a list of neighbors. An address is
not sent, an empty name is not collected, an empty neighbor in a list is passed over, and a
neighbor in a list is sent with the strings of the one before it where it has none.
-/

namespace RinaSense.SerDes

open Common Library.Memory

/-! ### Sizes -/

def stringSize (s : Option CString) : ℕ := (s.map fun s => fieldSize s.length).getD 0

/-- The number of bytes which a neighbor takes. -/
def neighborSize (msg : NeighborMessage) : ℕ :=
  stringSize msg.pcApName + stringSize msg.pcApInstance + stringSize msg.pcAeName +
    stringSize msg.pcAeInstance + (msg.pcSupportingDifs.map fun s => fieldSize s.length).sum

def neighborsSize (msgs : List NeighborMessage) : ℕ :=
  (msgs.map fun msg => fieldSize (neighborSize msg)).sum

theorem stringRecords_size {tag : ℕ} (h : 8 * tag + 2 < 128) (s : Option CString) :
    (wires (stringRecords tag s)).length = stringSize s := by
  cases s with
  | none => rfl
  | some s =>
    have hwire := Record.wire_length (r := ⟨tag, s.bytes⟩) h
    simp only [stringRecords, Option.toList_some, List.map_cons, List.map_nil, wires_cons,
      wires_nil, List.append_nil, hwire]
    rfl

theorem difRecords_size (difs : List CString) :
    (wires (difRecords difs)).length = (difs.map fun s => fieldSize s.length).sum := by
  induction difs with
  | nil => rfl
  | cons s difs ih =>
    have hwire := Record.wire_length (r := ⟨6, s.bytes⟩) (by decide : 8 * 6 + 2 < 128)
    change (Record.wire ⟨6, s.bytes⟩ ++ wires (difRecords difs)).length = _
    rw [List.length_append, hwire, ih]
    rfl

theorem neighborRecords_size (msg : NeighborMessage) :
    (wires (neighborRecords msg)).length = neighborSize msg := by
  simp only [neighborRecords, wires_append, List.length_append, difRecords_size, neighborSize]
  rw [stringRecords_size (by decide), stringRecords_size (by decide),
    stringRecords_size (by decide), stringRecords_size (by decide)]
  omega

theorem neighborsRecords_size (msgs : List NeighborMessage) :
    (wires (neighborsRecords msgs)).length = neighborsSize msgs := by
  induction msgs with
  | nil => rfl
  | cons msg msgs ih =>
    have hwire := Record.wire_length (r := ⟨1, wires (neighborRecords msg)⟩)
      (by decide : 8 * 1 + 2 < 128)
    change (Record.wire ⟨1, wires (neighborRecords msg)⟩ ++
      wires (neighborsRecords msgs)).length = _
    rw [List.length_append, hwire, ih, neighborRecords_size]
    rfl

theorem dif_length_le {msg : NeighborMessage} {s : CString} (h : s ∈ msg.pcSupportingDifs) :
    s.length ≤ (wires (neighborRecords msg)).length := by
  have hmem : (⟨6, s.bytes⟩ : Record) ∈ neighborRecords msg := by
    simp only [neighborRecords, List.mem_append]
    exact Or.inr (Or.inr (Or.inr (Or.inr (List.mem_map.mpr ⟨s, h, rfl⟩))))
  exact Nat.le_trans (Record.payload_length_le ⟨6, s.bytes⟩) (wire_length_le hmem)

/-! ### One neighbor -/

variable (pf : Platform) (pools : SerDesPools)

/-- The object for the bytes of a neighbor, from a new array list on. -/
def receive (stream : Bytes) (calls : ℕ) : PbExec (DecodedNeighbor × ℕ) := do
  let calls ← pxRsrcVarAlloc pf pools calls
  let d ← decodeNeighbor pf pools stream calls
  neighborObject pf pools d

theorem receive_spec {msg : NeighborMessage} (hfits : msg.Fits)
    (hlen : ∀ s ∈ msg.pcSupportingDifs, s.length < 2 ^ 32) (calls : ℕ) :
    ∃ obj, DecodedAs pf (pools.residue (calls + nameRequests msg)) msg
        (kept msg.pcSupportingDifs) obj ∧
      receive pf pools (wires (neighborRecords msg)) calls =
        if Met pools calls (calls + nameRequests msg + 1) then
          .ok (obj, calls + nameRequests msg + 1)
        else outOfMemory pf := by
  have hcalls : calls + 1 + (kept msg.pcSupportingDifs).length +
      addRequests 0 10 (kept msg.pcSupportingDifs).length = calls + nameRequests msg := by
    rw [nameRequests]
    omega
  have hnames := foldlM_collect pf pools msg.pcSupportingDifs
    ⟨pbNeighbor msg, .init Bytes, calls + 1⟩
  simp only [Arraylist.init, List.length_nil, List.nil_append, hcalls] at hnames
  obtain ⟨obj, hdecoded, hobject⟩ := neighborObject_spec pf pools hfits
    (kept msg.pcSupportingDifs) (roomAfterAdds 0 10 (kept msg.pcSupportingDifs).length)
    (calls + nameRequests msg)
  refine ⟨obj, hdecoded, ?_⟩
  have hpos : calls + 1 ≤ calls + nameRequests msg := by omega
  rw [receive, pxRsrcVarAlloc_eq]
  refine met_bind pf pools (b := calls + 1) (by omega) (by omega) ?_
  rw [decodeNeighbor_eq pf pools hfits hlen]
  simp only [Arraylist.init] at hnames ⊢
  rw [hnames]
  exact met_bind pf pools hpos (by omega) hobject

/-- A decoded neighbor is the same as the one it was made from. -/
structure SameNeighbor (msg : NeighborMessage) (obj : DecodedNeighbor) : Prop where
  apName : reads obj.object obj.pcApName = msg.pcApName.map some
  apInstance : reads obj.object obj.pcApInstance = msg.pcApInstance.map some
  aeName : reads obj.object obj.pcAeName = msg.pcAeName.map some
  aeInstance : reads obj.object obj.pcAeInstance = msg.pcAeInstance.map some
  address : obj.ullAddress = msg.ullAddress
  supportingDifs : obj.pcSupportingDifs.map (fun o => cstring (obj.object.drop o)) =
    msg.pcSupportingDifs.map some

/-- What a neighbor needs to stay as it is: no string which it lacks and the one before it
has, the address which a new object has already, the same for an instance of the
application entity which is absent, and no empty name. -/
structure Intact (residue : Residue) (prev msg : NeighborMessage) : Prop where
  carry : prev.carry msg = msg
  address : msg.ullAddress = freshAddress pf residue
  aeInstance : msg.pcAeInstance = none → freshPointer pf residue = none
  supportingDifs : ∀ s ∈ msg.pcSupportingDifs, s ≠ CString.empty

instance (residue : Residue) (prev msg : NeighborMessage) :
    Decidable (Intact pf residue prev msg) :=
  decidable_of_iff (prev.carry msg = msg ∧ msg.ullAddress = freshAddress pf residue ∧
      (msg.pcAeInstance = none → freshPointer pf residue = none) ∧
      ∀ s ∈ msg.pcSupportingDifs, s ≠ CString.empty)
    ⟨fun ⟨hc, ha, hi, hd⟩ => ⟨hc, ha, hi, hd⟩, fun ⟨hc, ha, hi, hd⟩ => ⟨hc, ha, hi, hd⟩⟩

theorem map_some_inj {α : Type} {a b : Option α} (h : a.map some = b.map some) : a = b :=
  Option.map_injective (fun _ _ => Option.some.inj) h

theorem kept_eq_iff (difs : List CString) :
    kept difs = difs ↔ ∀ s ∈ difs, s ≠ CString.empty := by
  simp [kept, List.filter_eq_self]

theorem DecodedAs.same_iff {residue : Residue} {prev msg : NeighborMessage}
    {obj : DecodedNeighbor}
    (h : DecodedAs pf residue (prev.carry msg) (kept msg.pcSupportingDifs) obj) :
    SameNeighbor msg obj ↔ Intact pf residue prev msg := by
  constructor
  · intro hs
    have hap : msg.pcApName.or prev.pcApName = msg.pcApName :=
      map_some_inj (h.apName.symm.trans hs.apName)
    have hapi : msg.pcApInstance.or prev.pcApInstance = msg.pcApInstance :=
      map_some_inj (h.apInstance.symm.trans hs.apInstance)
    have hae : msg.pcAeName.or prev.pcAeName = msg.pcAeName :=
      map_some_inj (h.aeName.symm.trans hs.aeName)
    have hdifs : kept msg.pcSupportingDifs = msg.pcSupportingDifs := by
      have hmap := h.supportingDifs.symm.trans hs.supportingDifs
      exact List.map_injective_iff.mpr (fun _ _ => Option.some.inj) hmap
    have hinst : msg.pcAeInstance.or prev.pcAeInstance = msg.pcAeInstance := by
      cases hcarried : msg.pcAeInstance.or prev.pcAeInstance with
      | none => exact (Option.or_eq_none_iff.mp hcarried).1.symm
      | some s =>
        have hread := h.aeInstance s hcarried
        exact map_some_inj (hread.symm.trans hs.aeInstance)
    refine ⟨?_, hs.address.symm.trans h.address, fun hnone => ?_, (kept_eq_iff _).mp hdifs⟩
    · simp only [NeighborMessage.carry, hap, hapi, hae, hinst]
    · have hptr : obj.pcAeInstance = freshPointer pf residue := by
        apply h.noAeInstance
        rw [NeighborMessage.carry]
        exact hinst.trans hnone
      have hread := hs.aeInstance
      rw [hnone, hptr] at hread
      exact Option.map_eq_none_iff.mp hread
  · intro hi
    have hdifs := (kept_eq_iff _).mpr hi.supportingDifs
    rw [hi.carry, hdifs] at h
    refine ⟨h.apName, h.apInstance, h.aeName, ?_, h.address.trans hi.address.symm,
      h.supportingDifs⟩
    cases hae : msg.pcAeInstance with
    | none =>
      rw [h.noAeInstance hae, hi.aeInstance hae]
      rfl
    | some s => exact h.aeInstance s hae

/-- The bytes produced for a neighbor are decoded to the same neighbor. -/
def NeighborRoundTrips (msg : NeighborMessage) : Prop :=
  ∃ buf obj, xSerDesNeighborEncode pf pools msg = .ok (some buf) ∧
    pxSerDesNeighborDecode pf pools buf = .ok (some obj) ∧ SameNeighbor msg obj

/-- The memory for a neighbor which is decoded from request number `calls` on, and what it
needs to stay as it is. -/
structure Held (prev : NeighborMessage) (calls : ℕ) (msg : NeighborMessage) : Prop where
  memory : Met pools calls (calls + nameRequests msg + 1)
  intact : Intact pf (pools.residue (calls + nameRequests msg)) prev msg

instance (prev : NeighborMessage) (calls : ℕ) (msg : NeighborMessage) :
    Decidable (Held pf pools prev calls msg) :=
  decidable_of_iff (Met pools calls (calls + nameRequests msg + 1) ∧
      Intact pf (pools.residue (calls + nameRequests msg)) prev msg)
    ⟨fun ⟨hm, hi⟩ => ⟨hm, hi⟩, fun ⟨hm, hi⟩ => ⟨hm, hi⟩⟩

structure NeighborSurvives (msg : NeighborMessage) : Prop where
  encPool : pools.encPool = true
  size : neighborSize msg ≤ ENROLLMENT_MSG_SIZE
  held : Held pf pools .blank 0 msg

theorem status_outOfMemory {α : Type} (a : α) :
    status (outOfMemory pf : PbExec α) ≠ .ok (some a) := by
  unfold outOfMemory
  cases pf.valgrind <;> simp [status]

theorem status_eq_some {α : Type} {x : PbExec α} {a : α} :
    status x = .ok (some a) ↔ x = .ok a := by
  match x with
  | .ok b => simp [status]
  | .error none => simp [status]
  | .error (some t) => simp [status]

/-- Writing into the buffer of the serialiser. -/
theorem Writes.buffer {f : PbOstream → Option PbOstream} {bs : Bytes} (h : Writes f bs) :
    (f (pb_ostream_from_buffer ENROLLMENT_MSG_SIZE)).map (·.buffer) =
      if bs.length ≤ ENROLLMENT_MSG_SIZE then some bs else none := by
  rw [h, pb_write_from_buffer]
  split_ifs <;> rfl

theorem xSerDesNeighborEncode_eq_some {msg : NeighborMessage} (hfits : msg.Fits) {buf : Bytes} :
    xSerDesNeighborEncode pf pools msg = .ok (some buf) ↔
      pools.encPool = true ∧ neighborSize msg ≤ ENROLLMENT_MSG_SIZE ∧
        buf = wires (neighborRecords msg) := by
  have hzero : PbNeighbor.init_zero = pbNeighbor .blank := rfl
  have hwrites := (writes_neighbor hfits).buffer
  rw [neighborRecords_size] at hwrites
  unfold xSerDesNeighborEncode
  simp only [hzero, pxSerDesNeighborEncodePrepare_eq, NeighborMessage.blank_carry, hwrites]
  cases henc : pools.encPool with
  | false => simp [status_outOfMemory]
  | true =>
    by_cases hsize : neighborSize msg ≤ ENROLLMENT_MSG_SIZE
    · simp [hsize, eq_comm]
    · simp [hsize]

theorem pxSerDesNeighborDecode_eq (buf : Bytes) :
    pxSerDesNeighborDecode pf pools buf =
      status ((receive pf pools buf 0).map fun p => p.1) := by
  unfold pxSerDesNeighborDecode receive
  congr 1
  cases pxRsrcVarAlloc pf pools 0 with
  | error t => rfl
  | ok calls =>
    cases hd : decodeNeighbor pf pools buf calls with
    | error t => simp [hd]; rfl
    | ok d => cases ho : neighborObject pf pools d <;> simp [hd, ho] <;> rfl

/-- A decoded neighbor is the one object which its bytes make. -/
theorem pxSerDesNeighborDecode_wires {msg : NeighborMessage} (hfits : msg.Fits)
    (hlen : ∀ s ∈ msg.pcSupportingDifs, s.length < 2 ^ 32) :
    ∃ obj, (SameNeighbor msg obj ↔ Intact pf (pools.residue (0 + nameRequests msg)) .blank msg) ∧
      ∀ obj', pxSerDesNeighborDecode pf pools (wires (neighborRecords msg)) = .ok (some obj') ↔
        Met pools 0 (0 + nameRequests msg + 1) ∧ obj' = obj := by
  obtain ⟨obj, hdecoded, hreceive⟩ := receive_spec pf pools hfits hlen 0
  have hcarried : DecodedAs pf (pools.residue (0 + nameRequests msg))
      (NeighborMessage.blank.carry msg) (kept msg.pcSupportingDifs) obj := by
    rw [NeighborMessage.blank_carry]
    exact hdecoded
  refine ⟨obj, hcarried.same_iff, fun obj' => ?_⟩
  rw [pxSerDesNeighborDecode_eq, hreceive, status_eq_some]
  by_cases hmet : Met pools 0 (0 + nameRequests msg + 1)
  · rw [if_pos hmet]
    constructor
    · intro h
      cases h
      exact ⟨hmet, rfl⟩
    · rintro ⟨-, rfl⟩
      rfl
  · rw [if_neg hmet]
    constructor
    · intro h
      cases h
    · exact fun h => absurd h.1 hmet

/-- A neighbor makes the round trip exactly when it survives it. -/
theorem neighbor_roundTrips_iff {msg : NeighborMessage} (hfits : msg.Fits) :
    NeighborRoundTrips pf pools msg ↔ NeighborSurvives pf pools msg := by
  have hshort : neighborSize msg ≤ ENROLLMENT_MSG_SIZE →
      ∀ s ∈ msg.pcSupportingDifs, s.length < 2 ^ 32 := by
    intro hsize s hs
    have hle := dif_length_le hs
    have hbound : ENROLLMENT_MSG_SIZE < 2 ^ 32 := by decide
    rw [neighborRecords_size] at hle
    omega
  constructor
  · rintro ⟨buf, obj, hencode, hdecode, hsame⟩
    obtain ⟨henc, hsize, rfl⟩ := (xSerDesNeighborEncode_eq_some pf pools hfits).mp hencode
    obtain ⟨obj', hiff, hdecoded⟩ := pxSerDesNeighborDecode_wires pf pools hfits (hshort hsize)
    obtain ⟨hmet, rfl⟩ := (hdecoded obj).mp hdecode
    exact ⟨henc, hsize, hmet, hiff.mp hsame⟩
  · rintro ⟨henc, hsize, hmet, hintact⟩
    obtain ⟨obj, hiff, hdecoded⟩ := pxSerDesNeighborDecode_wires pf pools hfits (hshort hsize)
    exact ⟨wires (neighborRecords msg), obj,
      (xSerDesNeighborEncode_eq_some pf pools hfits).mpr ⟨henc, hsize, rfl⟩,
      (hdecoded obj).mpr ⟨hmet, rfl⟩, hiff.mpr hintact⟩

end RinaSense.SerDes
