import RinaSense.SerDes.NeighborList

/-!
# A list of neighbors and its parts

The callback of a list against the callback of each of its neighbors alone. The loop fills
one structure again and again, so that a string which a neighbor does not have is the one of
the last neighbor in front of it which has one.
-/

namespace RinaSense.SerDes

open Common Library.Memory

/-- A neighbor which is the only one of its list. -/
def encodeOne (stream : PbOstream) (msg : NeighborMessage) : Option PbOstream :=
  prvSerDesNeighborListEncodeCb [msg] .init_zero stream

/-- The list is encoded as its neighbors are one by one, on any stream. -/
def EncodesApart (msgs : List NeighborMessage) : Prop :=
  ∀ stream, prvSerDesNeighborListEncodeCb msgs .init_zero stream =
    msgs.foldlM encodeOne stream

/-- A neighbor which has every string that another one has. -/
structure NeighborMessage.Covers (msg prev : NeighborMessage) : Prop where
  apName : prev.pcApName.isSome → msg.pcApName.isSome
  apInstance : prev.pcApInstance.isSome → msg.pcApInstance.isSome
  aeName : prev.pcAeName.isSome → msg.pcAeName.isSome
  aeInstance : prev.pcAeInstance.isSome → msg.pcAeInstance.isSome

/-! ### What is carried over -/

theorem or_eq_left_iff {α : Type} (s t : Option α) :
    s.or t = s ↔ (t.isSome → s.isSome) := by
  cases s <;> cases t <;> simp

theorem carry_eq_iff (prev msg : NeighborMessage) :
    prev.carry msg = msg ↔ msg.Covers prev := by
  have hfields : prev.carry msg = msg ↔
      msg.pcApName.or prev.pcApName = msg.pcApName ∧
        msg.pcApInstance.or prev.pcApInstance = msg.pcApInstance ∧
        msg.pcAeName.or prev.pcAeName = msg.pcAeName ∧
        msg.pcAeInstance.or prev.pcAeInstance = msg.pcAeInstance := by
    cases msg
    simp [NeighborMessage.carry]
  rw [hfields, or_eq_left_iff, or_eq_left_iff, or_eq_left_iff, or_eq_left_iff]
  constructor
  · rintro ⟨hap, hapi, hae, haei⟩
    exact ⟨hap, hapi, hae, haei⟩
  · rintro ⟨hap, hapi, hae, haei⟩
    exact ⟨hap, hapi, hae, haei⟩

theorem NeighborMessage.Covers.trans {a b c : NeighborMessage} (hab : b.Covers a)
    (hbc : c.Covers b) : c.Covers a :=
  ⟨hbc.apName ∘ hab.apName, hbc.apInstance ∘ hab.apInstance, hbc.aeName ∘ hab.aeName,
    hbc.aeInstance ∘ hab.aeInstance⟩

theorem NeighborMessage.covers_blank (msg : NeighborMessage) : msg.Covers .blank :=
  (carry_eq_iff _ _).mp (NeighborMessage.blank_carry msg)

/-- Nothing is carried over exactly when every neighbor covers those in front of it. -/
theorem carried_eq_iff (prev : NeighborMessage) (msgs : List NeighborMessage) :
    carried prev msgs = msgs ↔
      (∀ msg ∈ msgs, msg.Covers prev) ∧ msgs.Pairwise fun a b => b.Covers a := by
  induction msgs generalizing prev with
  | nil => simp [carried]
  | cons msg msgs ih =>
    have hcons : carried prev (msg :: msgs) = msg :: msgs ↔
        msg.Covers prev ∧ carried msg msgs = msgs := by
      rw [carried, List.cons.injEq, carry_eq_iff]
      refine and_congr_right fun hcover => ?_
      rw [(carry_eq_iff prev msg).mpr hcover]
    rw [hcons, ih, List.forall_mem_cons, List.pairwise_cons]
    constructor
    · rintro ⟨hcover, hall, hpair⟩
      exact ⟨⟨hcover, fun m hm => hcover.trans (hall m hm)⟩, hall, hpair⟩
    · rintro ⟨⟨hcover, -⟩, hall, hpair⟩
      exact ⟨hcover, hall, hpair⟩

/-! ### What is carried over takes room -/

theorem varintSize_mono (k : ℕ) {m n : ℕ} (h : m ≤ n) : varintSize k m ≤ varintSize k n := by
  induction k generalizing m n with
  | zero => exact le_rfl
  | succ k ih =>
    have hdiv := ih (Nat.div_le_div_right (c := 128) h)
    unfold varintSize
    split_ifs with hm hn hn
    · exact le_rfl
    · omega
    · omega
    · omega

theorem fieldSize_strictMono {m n : ℕ} (h : m < n) : fieldSize m < fieldSize n := by
  have hsize := varintSize_mono 9 h.le
  unfold fieldSize
  omega

theorem stringSize_or (s t : Option CString) :
    stringSize s ≤ stringSize (s.or t) ∧
      (stringSize (s.or t) = stringSize s → s.or t = s) := by
  cases s with
  | some s => simp
  | none =>
    cases t with
    | none => simp
    | some t => simp [stringSize, fieldSize]

/-- A neighbor gets no smaller by what is carried over, and bigger unless it stays as it
is. -/
theorem neighborSize_carry (prev msg : NeighborMessage) :
    neighborSize msg ≤ neighborSize (prev.carry msg) ∧
      (neighborSize (prev.carry msg) = neighborSize msg → prev.carry msg = msg) := by
  obtain ⟨hap, hap'⟩ := stringSize_or msg.pcApName prev.pcApName
  obtain ⟨hapi, hapi'⟩ := stringSize_or msg.pcApInstance prev.pcApInstance
  obtain ⟨hae, hae'⟩ := stringSize_or msg.pcAeName prev.pcAeName
  obtain ⟨haei, haei'⟩ := stringSize_or msg.pcAeInstance prev.pcAeInstance
  simp only [neighborSize, NeighborMessage.carry]
  refine ⟨by omega, fun hsize => ?_⟩
  rw [hap' (by omega), hapi' (by omega), hae' (by omega), haei' (by omega)]

theorem neighborsSize_carried (prev : NeighborMessage) (msgs : List NeighborMessage) :
    neighborsSize msgs ≤ neighborsSize (carried prev msgs) ∧
      (neighborsSize (carried prev msgs) = neighborsSize msgs → carried prev msgs = msgs) := by
  induction msgs generalizing prev with
  | nil => exact ⟨le_rfl, fun _ => rfl⟩
  | cons msg msgs ih =>
    obtain ⟨hle, heq⟩ := neighborSize_carry prev msg
    obtain ⟨hles, heqs⟩ := ih (prev.carry msg)
    have hfield : fieldSize (neighborSize msg) ≤ fieldSize (neighborSize (prev.carry msg)) := by
      rcases hle.eq_or_lt with h | h
      · rw [h]
      · exact (fieldSize_strictMono h).le
    simp only [neighborsSize, carried, List.map_cons, List.sum_cons] at *
    refine ⟨by omega, fun hsize => ?_⟩
    have hsame : neighborSize (prev.carry msg) = neighborSize msg := by
      by_contra hne
      have hlt := fieldSize_strictMono (lt_of_le_of_ne hle (Ne.symm hne))
      omega
    rw [heqs (by omega), heq hsame]

/-! ### Strings which do not fit -/

theorem cstring_strncpy_long {n : ℕ} {s : CString} (h : ¬ s.length < n) :
    cstring (strncpy n s) = none := by
  have hpad : n - s.length = 0 := by omega
  have htake : strncpy n s = s.bytes.take n := by simp [strncpy, hpad]
  have hzero : (0 : UInt8) ∉ s.bytes.take n := fun hmem => s.noZero (List.mem_of_mem_take hmem)
  rw [htake, cstring, if_neg hzero]

/-- A string which has no room for its end is not encoded. -/
theorem encode_string_field_unfit (tag : ℕ) {s : Option CString}
    (h : ¬ FitsIn sizeNeighborString s) (stream : PbOstream) :
    encode_string_field tag (copyField sizeNeighborString s) stream = none := by
  cases s with
  | none => exact absurd (by decide) h
  | some s =>
    have hread : cstring (strncpy sizeNeighborString s) = none := cstring_strncpy_long h
    simp only [encode_string_field, copyField, if_true, pb_enc_string, hread]
    cases pb_encode_tag_for_field stream 2 tag <;> rfl

/-- An encoder which gets nowhere on any stream. -/
theorem bind_none {α β : Type} (x : Option α) {f : α → Option β} (h : ∀ a, f a = none) :
    x.bind f = none := by
  cases x with
  | none => rfl
  | some a => exact h a

theorem encodeNeighbor_unfit {msg : NeighborMessage} (h : ¬ msg.Fits) (difs : List CString)
    (stream : PbOstream) : encodeNeighbor (pbNeighbor msg) difs stream = none := by
  simp only [encodeNeighbor, pbNeighbor, Option.bind_eq_bind]
  by_cases hap : FitsIn sizeNeighborString msg.pcApName
  swap
  · rw [encode_string_field_unfit 1 hap]
    rfl
  refine bind_none _ fun stream => ?_
  by_cases hapi : FitsIn sizeNeighborString msg.pcApInstance
  swap
  · rw [encode_string_field_unfit 2 hapi]
    rfl
  refine bind_none _ fun stream => ?_
  by_cases hae : FitsIn sizeNeighborString msg.pcAeName
  swap
  · rw [encode_string_field_unfit 3 hae]
    rfl
  refine bind_none _ fun stream => ?_
  have haei : ¬ FitsIn sizeNeighborString msg.pcAeInstance :=
    fun haei => h ⟨hap, hapi, hae, haei⟩
  rw [encode_string_field_unfit 4 haei]
  rfl

theorem fitsIn_of_or {n : ℕ} (hn : 0 < n) {s t : Option CString} (h : FitsIn n (s.or t)) :
    FitsIn n s := by
  cases s with
  | none => exact hn
  | some s => exact h

/-- A string of its own is never replaced by one in front of it. -/
theorem fits_of_carry {prev msg : NeighborMessage} (h : (prev.carry msg).Fits) : msg.Fits := by
  have hsize : 0 < sizeNeighborString := by decide
  obtain ⟨hap, hapi, hae, haei⟩ := h
  exact ⟨fitsIn_of_or hsize hap, fitsIn_of_or hsize hapi, fitsIn_of_or hsize hae,
    fitsIn_of_or hsize haei⟩

/-- One round of the loop. -/
theorem encodeListCb_cons (prev msg : NeighborMessage) (msgs : List NeighborMessage)
    (stream : PbOstream) :
    prvSerDesNeighborListEncodeCb (msg :: msgs) (pbNeighbor prev) stream =
      (pb_encode_tag_for_field stream 2 1).bind fun stream =>
        (pb_encode_submessage
          (encodeNeighbor (pbNeighbor (prev.carry msg)) msg.pcSupportingDifs) stream).bind
            (prvSerDesNeighborListEncodeCb msgs (pbNeighbor (prev.carry msg))) := by
  simp only [prvSerDesNeighborListEncodeCb, pxSerDesNeighborEncodePrepare_eq]
  rfl

theorem unfit_tail {msg : NeighborMessage} {msgs : List NeighborMessage}
    (h : ∃ m ∈ msg :: msgs, ¬ m.Fits) (hmsg : msg.Fits) : ∃ m ∈ msgs, ¬ m.Fits := by
  obtain ⟨m, hm, hunfit⟩ := h
  rcases List.mem_cons.mp hm with rfl | hmem
  · exact absurd hmsg hunfit
  · exact ⟨m, hmem, hunfit⟩

/-- A list with a string which does not fit is not encoded. -/
theorem encodeListCb_unfit (prev : NeighborMessage) {msgs : List NeighborMessage}
    (h : ∃ msg ∈ msgs, ¬ msg.Fits) (stream : PbOstream) :
    prvSerDesNeighborListEncodeCb msgs (pbNeighbor prev) stream = none := by
  induction msgs generalizing prev stream with
  | nil => simp at h
  | cons msg msgs ih =>
    rw [encodeListCb_cons]
    refine bind_none _ fun stream => ?_
    by_cases hmsg : msg.Fits
    · exact bind_none _ (ih _ (unfit_tail h hmsg))
    · have hcarry : ¬ (prev.carry msg).Fits := fun hfits => hmsg (fits_of_carry hfits)
      simp [pb_encode_submessage, encodeNeighbor_unfit hcarry]

/-! ### The neighbors one by one -/

theorem encodeOne_fits {msg : NeighborMessage} (h : msg.Fits) :
    Writes (fun stream => encodeOne stream msg) (wires (neighborsRecords [msg])) := by
  have hmsgs : ∀ m ∈ [msg], m.Fits := by simpa using h
  have hwrites := writes_neighbors NeighborMessage.blank_fits hmsgs
  rwa [carried, carried, NeighborMessage.blank_carry] at hwrites

theorem encodeOne_unfit {msg : NeighborMessage} (h : ¬ msg.Fits) (stream : PbOstream) :
    encodeOne stream msg = none :=
  encodeListCb_unfit .blank ⟨msg, List.mem_singleton_self msg, h⟩ stream

theorem foldlM_encodeOne_fits {msgs : List NeighborMessage} (h : ∀ msg ∈ msgs, msg.Fits) :
    Writes (fun stream => msgs.foldlM encodeOne stream) (wires (neighborsRecords msgs)) := by
  induction msgs with
  | nil => exact writes_nothing
  | cons msg msgs ih =>
    have hrest := ih fun m hm => h m (List.mem_cons_of_mem _ hm)
    have hwires : wires (neighborsRecords (msg :: msgs)) =
        wires (neighborsRecords [msg]) ++ wires (neighborsRecords msgs) := by
      simp [neighborsRecords]
    rw [hwires]
    intro stream
    change (msg :: msgs).foldlM encodeOne stream = _
    rw [List.foldlM_cons]
    exact (encodeOne_fits (h msg (List.mem_cons_self ..))).andThen hrest stream

theorem foldlM_encodeOne_unfit {msgs : List NeighborMessage} (h : ∃ msg ∈ msgs, ¬ msg.Fits)
    (stream : PbOstream) : msgs.foldlM encodeOne stream = none := by
  induction msgs generalizing stream with
  | nil => simp at h
  | cons msg msgs ih =>
    rw [List.foldlM_cons]
    by_cases hmsg : msg.Fits
    · exact bind_none _ (ih (unfit_tail h hmsg))
    · rw [encodeOne_unfit hmsg]
      rfl

/-! ### The list against its parts -/

/-- A list is encoded as its neighbors are one by one exactly when a string does not fit, so
that neither is encoded, or no neighbor lacks a string which one in front of it has. -/
theorem encodesApart_iff (msgs : List NeighborMessage) :
    EncodesApart msgs ↔
      (∃ msg ∈ msgs, ¬ msg.Fits) ∨ msgs.Pairwise fun a b => b.Covers a := by
  by_cases hunfit : ∃ msg ∈ msgs, ¬ msg.Fits
  · refine iff_of_true (fun stream => ?_) (Or.inl hunfit)
    exact (encodeListCb_unfit .blank hunfit stream).trans
      (foldlM_encodeOne_unfit hunfit stream).symm
  · have hfits : ∀ msg ∈ msgs, msg.Fits := by
      simpa using hunfit
    have hlist := writes_neighbors NeighborMessage.blank_fits hfits
    have hparts := foldlM_encodeOne_fits hfits
    have hcover : carried .blank msgs = msgs ↔ msgs.Pairwise fun a b => b.Covers a := by
      rw [carried_eq_iff]
      exact and_iff_right fun msg _ => msg.covers_blank
    rw [or_iff_right hunfit, ← hcover]
    constructor
    · intro h
      -- a buffer with room for both
      let room := neighborsSize (carried .blank msgs)
      obtain ⟨hle, heq⟩ := neighborsSize_carried .blank msgs
      have hsizes : (wires (neighborsRecords (carried .blank msgs))).length ≤ room ∧
          (wires (neighborsRecords msgs)).length ≤ room := by
        rw [neighborsRecords_size, neighborsRecords_size]
        exact ⟨le_rfl, hle⟩
      have hbytes := (hlist _).symm.trans ((h (pb_ostream_from_buffer room)).trans (hparts _))
      rw [pb_write_from_buffer, if_pos hsizes.1, pb_write_from_buffer, if_pos hsizes.2] at hbytes
      have hlength := congrArg PbOstream.bytes_written (Option.some.inj hbytes)
      refine heq ?_
      rw [← neighborsRecords_size, ← neighborsRecords_size]
      exact hlength
    · intro h stream
      rw [h] at hlist
      exact (hlist stream).trans (hparts stream).symm

/-- A neighbor without an application name behind one which has it is sent with its name. -/
theorem absent_name_taken_over :
    ¬ EncodesApart [testNeighbor 0, ⟨none, some asciiApInstance, some asciiAeName,
      some asciiAeInstance, 0, []⟩] := by
  intro h
  have hbytes := h (pb_ostream_from_buffer ENROLLMENT_MSG_SIZE)
  revert hbytes
  decide

end RinaSense.SerDes
