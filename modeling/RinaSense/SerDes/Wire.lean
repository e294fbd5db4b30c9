import RinaSense.SerDes.Nanopb

/-!
# Messages on the wire

A message whose fields are strings is a sequence of records. The encoder writes them one
behind the other, and the decoder hands them to their fields in the same order.
-/

namespace RinaSense.SerDes

open Common Library.Memory

/-! ### Numbers -/

theorem toNat_low {v : ℕ} (hv : v < 128) : (UInt8.ofNat v).toNat = v := by
  rw [UInt8.toNat_ofNat']
  omega

theorem toNat_marked (v : ℕ) : (UInt8.ofNat (v % 128 + 128)).toNat = v % 128 + 128 := by
  rw [UInt8.toNat_ofNat']
  omega

theorem varint_ne_nil (k v : ℕ) : varint k v ≠ [] := by
  cases k with
  | zero => simp [varint]
  | succ k =>
    unfold varint
    split_ifs <;> simp

/-- The bits which a byte adds are above those that were read before. -/
theorem or_shifted {result b : ℕ} (bitpos v : ℕ) (hr : result < 2 ^ bitpos)
    (hv : v * 2 ^ bitpos < 2 ^ b) :
    result ||| v * 2 ^ bitpos % 2 ^ b = result + v * 2 ^ bitpos := by
  have hor := Nat.two_pow_add_eq_or_of_lt hr v
  rw [Nat.mod_eq_of_lt hv, Nat.mul_comm, Nat.or_comm, ← hor, Nat.add_comm]

/-- The seven bits of a byte and those of the bytes behind it. -/
theorem digit_add_rest (v bitpos : ℕ) :
    v % 128 * 2 ^ bitpos + v / 128 * 2 ^ (bitpos + 7) = v * 2 ^ bitpos := by
  have hpow : 2 ^ (bitpos + 7) = 2 ^ bitpos * 128 := by rw [Nat.pow_add]
  have hv : v * 2 ^ bitpos = (128 * (v / 128) + v % 128) * 2 ^ bitpos := by
    rw [Nat.div_add_mod]
  rw [hv, hpow, Nat.add_mul, Nat.mul_comm (2 ^ bitpos) 128, ← Nat.mul_assoc,
    Nat.mul_comm (v / 128) 128]
  exact Nat.add_comm _ _

/-- What is read with a byte is below the next position. -/
theorem digit_lt {result bitpos : ℕ} (v : ℕ) (hr : result < 2 ^ bitpos) :
    result + v % 128 * 2 ^ bitpos < 2 ^ (bitpos + 7) := by
  have hpow : 2 ^ (bitpos + 7) = 2 ^ bitpos * 128 := by rw [Nat.pow_add]
  have hdigit : v % 128 * 2 ^ bitpos ≤ 127 * 2 ^ bitpos := Nat.mul_le_mul_right _ (by omega)
  omega

/-- Only four bits of the fifth byte fit. -/
theorem varint32Rest_last {v bitpos result : ℕ} (rest : Bytes) (hbit : bitpos < 32)
    (hseven : bitpos % 7 = 0) (hlow : v < 128) (hv : v * 2 ^ bitpos < 2 ^ 32)
    (hr : result < 2 ^ bitpos) :
    varint32Rest bitpos result (UInt8.ofNat v :: rest) = some (result + v * 2 ^ bitpos, rest) := by
  have hmod : v % 128 = v := Nat.mod_eq_of_lt hlow
  have hfits : ¬ (bitpos + 7 = 35 ∧ v &&& 0x70 ≠ 0) := by
    rintro ⟨h28, hand⟩
    have hpos : bitpos = 28 := by omega
    have hsmall : v < 16 := by
      rw [hpos] at hv
      omega
    exact hand ((by decide : ∀ v < 16, v &&& 0x70 = 0) v hsmall)
  have hstop : ¬ 128 ≤ v := by omega
  rw [varint32Rest, if_neg (by omega), toNat_low hlow, hmod, or_shifted bitpos v hr hv]
  simp only [if_neg hstop, if_neg hfits]

/-- The bytes behind the first one of a number of thirty-two bits. -/
theorem varint32Rest_varint (rest : Bytes) {k v bitpos result : ℕ} (hbit : bitpos < 32)
    (hseven : bitpos % 7 = 0) (hlong : 32 ≤ bitpos + 7 * (k + 1)) (hv : v * 2 ^ bitpos < 2 ^ 32)
    (hr : result < 2 ^ bitpos) :
    varint32Rest bitpos result (varint k v ++ rest) = some (result + v * 2 ^ bitpos, rest) := by
  induction k generalizing v bitpos result with
  | zero =>
    have hpos : bitpos = 28 := by omega
    have hsmall : v < 128 := by
      rw [hpos] at hv
      omega
    exact varint32Rest_last rest hbit hseven hsmall hv hr
  | succ k ih =>
    unfold varint
    split_ifs with hlow
    · exact varint32Rest_last rest hbit hseven hlow hv hr
    · have hroom : bitpos + 7 < 32 := by
        by_contra hfull
        have hpow : 2 ^ 25 ≤ 2 ^ bitpos := Nat.pow_le_pow_right (by decide) (by omega)
        have hbig : 128 * 2 ^ 25 ≤ v * 2 ^ bitpos := Nat.mul_le_mul (by omega) hpow
        omega
      have hsplit := digit_add_rest v bitpos
      have hpart : v % 128 * 2 ^ bitpos < 2 ^ 32 := by omega
      have hacc := digit_lt v hr
      have hmark : (v % 128 + 128) % 128 = v % 128 := by omega
      have hmore : 128 ≤ v % 128 + 128 := by omega
      rw [List.cons_append, varint32Rest, if_neg (by omega), toNat_marked, hmark,
        or_shifted bitpos _ hr hpart]
      simp only [if_pos hmore]
      rw [ih hroom (by omega) (by omega) (by omega) hacc, Nat.add_assoc, hsplit]

theorem pb_decode_varint32_varint {v : ℕ} (hv : v < 2 ^ 32) (rest : Bytes) :
    pb_decode_varint32 (varint 9 v ++ rest) = some (v, rest) := by
  unfold varint
  split_ifs with h
  · simp [pb_decode_varint32, toNat_low h, h]
  · have hmod : v % 128 < 2 ^ 7 := Nat.mod_lt _ (by decide)
    have hrest := varint32Rest_varint rest (k := 8) (v := v / 128)
      (show 7 < 32 by decide) (by decide) (by decide) (by omega) hmod
    have hsum : v % 128 + v / 128 * 2 ^ 7 = v := by omega
    rw [hsum] at hrest
    simp only [List.cons_append, pb_decode_varint32, toNat_marked]
    rw [if_neg (by omega)]
    have hlow : (v % 128 + 128) % 128 = v % 128 := by omega
    rw [hlow]
    exact hrest

/-! ### Writing -/

theorem pb_write_nil (s : PbOstream) : pb_write s [] = some s := by
  obtain ⟨max_size, bytes_written, buffer⟩ := s
  cases max_size with
  | none => rfl
  | some max_size => simp [pb_write]

/-- Two writes one behind the other are a single write. -/
theorem pb_write_append (s : PbOstream) (a b : Bytes) :
    pb_write s (a ++ b) = (pb_write s a).bind fun t => pb_write t b := by
  obtain ⟨max_size, bytes_written, buffer⟩ := s
  cases max_size with
  | none => simp [pb_write, Nat.add_assoc]
  | some max_size =>
    cases a with
    | nil => simp [pb_write]
    | cons x a =>
      cases b with
      | nil =>
        rw [List.append_nil]
        cases hwrite : pb_write ⟨some max_size, bytes_written, buffer⟩ (x :: a) with
        | none => rfl
        | some t => exact (pb_write_nil t).symm
      | cons y b =>
        by_cases hfull : max_size < bytes_written + (x :: a).length
        · have hover : max_size < bytes_written + (x :: a ++ y :: b).length := by
            rw [List.length_append]
            omega
          simp only [pb_write, if_pos (And.intro (List.cons_ne_nil x a) hfull), Option.bind_none]
          exact if_pos ⟨by simp, hover⟩
        · have hlen : bytes_written + (x :: a ++ y :: b).length =
              bytes_written + (x :: a).length + (y :: b).length := by
            rw [List.length_append, Nat.add_assoc]
          simp only [pb_write, if_neg (fun h : _ ∧ _ => hfull h.2), Option.bind_some, hlen,
            List.append_assoc]
          simp

/-- The encoder does nothing but write these bytes. -/
def Writes (encode : PbOstream → Option PbOstream) (bs : Bytes) : Prop :=
  ∀ s, encode s = pb_write s bs

theorem writes_nothing : Writes some [] := fun s => (pb_write_nil s).symm

theorem Writes.andThen {f g : PbOstream → Option PbOstream} {a b : Bytes} (hf : Writes f a)
    (hg : Writes g b) : Writes (fun s => (f s).bind g) (a ++ b) := by
  intro s
  change (f s).bind g = _
  rw [hf s, pb_write_append]
  congr 1
  exact funext hg

theorem writes_string (bs : Bytes) :
    Writes (fun s => pb_encode_string s bs) (varint 9 bs.length ++ bs) := by
  intro s
  rw [pb_write_append]
  rfl

/-- What a stream has room for. -/
theorem pb_write_from_buffer (n : ℕ) (bs : Bytes) :
    pb_write (pb_ostream_from_buffer n) bs =
      if bs.length ≤ n then some ⟨some n, bs.length, bs⟩ else none := by
  cases bs with
  | nil => simp [pb_write, pb_ostream_from_buffer]
  | cons b bs =>
    simp only [pb_write, pb_ostream_from_buffer, Nat.zero_add, List.nil_append]
    by_cases hfits : (b :: bs).length ≤ n
    · rw [if_neg (by omega), if_pos hfits]
    · rw [if_pos ⟨by simp, by omega⟩, if_neg hfits]

/-- A message inside a message has its length in front. -/
theorem Writes.submessage {f : PbOstream → Option PbOstream} {bs : Bytes} (hf : Writes f bs) :
    Writes (pb_encode_submessage f) (varint 9 bs.length ++ bs) := by
  intro s
  have hsize : f pb_ostream_sizing = some ⟨none, bs.length, []⟩ := by
    rw [hf]
    simp [pb_write, pb_ostream_sizing]
  have hagain : f (pb_ostream_from_buffer bs.length) =
      some ⟨some bs.length, bs.length, bs⟩ := by
    rw [hf, pb_write_from_buffer, if_pos (Nat.le_refl _)]
  rw [pb_write_append]
  unfold pb_encode_submessage
  simp only [hsize, Option.bind_eq_bind, Option.bind_some, pb_encode_varint]
  cases hlen : pb_write s (varint 9 bs.length) with
  | none => rfl
  | some t =>
    simp only [Option.bind_some]
    obtain ⟨max_size, bytes_written, buffer⟩ := s
    cases max_size with
    | none =>
      cases hlen
      simp [pb_write]
    | some max_size =>
      have hne := varint_ne_nil 9 bs.length
      simp only [pb_write] at hlen
      split_ifs at hlen with hfull
      cases hlen
      have hroom : bytes_written + (varint 9 bs.length).length ≤ max_size := by
        by_contra hover
        exact hfull ⟨hne, by omega⟩
      simp only [hagain, Option.bind_some, ne_eq, not_true, if_false, pb_write]
      by_cases hover : max_size < bytes_written + (varint 9 bs.length).length + bs.length
      · have hbs : bs ≠ [] := by
          rintro rfl
          rw [List.length_nil] at hover hroom
          omega
        rw [if_pos hover, if_pos ⟨hbs, hover⟩]
      · rw [if_neg hover, if_neg (fun h => hover h.2)]

/-! ### Records -/

/-- A field whose value has a length. -/
structure Record where
  tag : ℕ
  payload : Bytes
deriving DecidableEq, Repr

def Record.wire (r : Record) : Bytes :=
  varint 9 (8 * r.tag + 2) ++ (varint 9 r.payload.length ++ r.payload)

/-- The tags and the lengths are numbers of thirty-two bits. -/
structure Record.Valid (r : Record) : Prop where
  tag_ne_zero : r.tag ≠ 0
  tag_lt : 8 * r.tag + 2 < 2 ^ 32
  length_lt : r.payload.length < 2 ^ 32

theorem writes_tag (tag : ℕ) :
    Writes (fun s => pb_encode_tag_for_field s 2 tag) (varint 9 (8 * tag + 2)) := fun _ => rfl

theorem writes_record (r : Record) :
    Writes (fun s => (pb_encode_tag_for_field s 2 r.tag).bind fun t =>
      pb_encode_string t r.payload) r.wire :=
  (writes_tag r.tag).andThen (writes_string r.payload)

/-- The records which an optional string makes. -/
def stringRecords (tag : ℕ) (s : Option CString) : List Record :=
  s.toList.map fun s => ⟨tag, s.bytes⟩

def wires (rs : List Record) : Bytes := rs.flatMap Record.wire

@[simp] theorem wires_nil : wires [] = [] := rfl

@[simp] theorem wires_cons (r : Record) (rs : List Record) :
    wires (r :: rs) = r.wire ++ wires rs := rfl

@[simp] theorem wires_append (rs rs' : List Record) :
    wires (rs ++ rs') = wires rs ++ wires rs' := List.flatMap_append

theorem Record.wire_ne_nil (r : Record) : r.wire ≠ [] := by
  intro h
  exact varint_ne_nil _ _ (List.append_eq_nil_iff.mp h).1

theorem wires_eq_nil_iff {rs : List Record} : wires rs = [] ↔ rs = [] := by
  cases rs with
  | nil => simp
  | cons r rs => simp [r.wire_ne_nil]

/-! ### Reading -/

section Decoder

variable {β : Type} {fields : ℕ → Option (FieldDecoder β)}

/-- Reading the rest of a stream ends so, whatever number of rounds is left for it. -/
def Decodes (fields : ℕ → Option (FieldDecoder β)) (bs : Bytes) (dest : β) (res : PbExec β) :
    Prop :=
  ∀ fuel, bs.length ≤ fuel → pb_decode_inner fields fuel bs dest = res

theorem Decodes.pb_decode {bs : Bytes} {dest : β} {res : PbExec β}
    (h : Decodes fields bs dest res) : pb_decode fields bs dest = res :=
  h _ (Nat.le_refl _)

theorem decodes_nil (dest : β) : Decodes fields [] dest (.ok dest) := by
  intro fuel _
  cases fuel <;> rfl

theorem pb_decode_tag_field {tag w : ℕ} (hw : w < 8) (htag : 8 * tag + w < 2 ^ 32)
    (rest : Bytes) :
    pb_decode_tag (varint 9 (8 * tag + w) ++ rest) = some (tag, wireType w, rest) := by
  have hdiv : (8 * tag + w) / 8 = tag := by omega
  have hmod : (8 * tag + w) % 8 = w := by omega
  simp [pb_decode_tag, pb_decode_varint32_varint htag, hdiv, hmod]

theorem pb_read_append (payload rest : Bytes) :
    pb_read (payload ++ rest) payload.length = some (payload, rest) := by
  have hroom : ¬ (payload ++ rest).length < payload.length := by
    rw [List.length_append]
    omega
  rw [pb_read, if_neg hroom, List.take_left, List.drop_left]

/-- One round of the decoder. -/
theorem pb_decode_inner_field {tag w : ℕ} (hw : w < 8) (hne : tag ≠ 0)
    (htag : 8 * tag + w < 2 ^ 32) {decode_field : FieldDecoder β}
    (hfield : fields tag = some decode_field) (k : ℕ) (rest : Bytes) (dest : β) :
    pb_decode_inner fields (k + 1) (varint 9 (8 * tag + w) ++ rest) dest = (do
      let (stream, dest) ← decode_field (wireType w) rest dest
      pb_decode_inner fields k stream dest) := by
  have hread := pb_decode_tag_field hw htag rest
  cases hbytes : varint 9 (8 * tag + w) ++ rest with
  | nil => exact absurd (List.append_eq_nil_iff.mp hbytes).1 (varint_ne_nil _ _)
  | cons byte stream =>
    rw [pb_decode_inner, ← hbytes, hread]
    simp only [succeeds_some, PbExec.ok_bind, if_neg hne, hfield]

theorem pb_decode_inner_record {r : Record} (hr : r.Valid) {decode_field : FieldDecoder β}
    (hfield : fields r.tag = some decode_field) (k : ℕ) (rest : Bytes) (dest : β) :
    pb_decode_inner fields (k + 1) (r.wire ++ rest) dest = (do
      let (stream, dest) ← decode_field .PB_WT_STRING
        (varint 9 r.payload.length ++ (r.payload ++ rest)) dest
      pb_decode_inner fields k stream dest) := by
  have hwire : r.wire ++ rest =
      varint 9 (8 * r.tag + 2) ++ (varint 9 r.payload.length ++ (r.payload ++ rest)) := by
    simp [Record.wire]
  rw [hwire]
  exact pb_decode_inner_field (by decide) hr.tag_ne_zero hr.tag_lt hfield k _ dest

theorem Decodes.record {r : Record} (hr : r.Valid) {decode_field : FieldDecoder β}
    (hfield : fields r.tag = some decode_field) {rest : Bytes} {dest dest' : β} {res : PbExec β}
    (hstep : decode_field .PB_WT_STRING (varint 9 r.payload.length ++ (r.payload ++ rest)) dest =
      .ok (rest, dest'))
    (h : Decodes fields rest dest' res) : Decodes fields (r.wire ++ rest) dest res := by
  intro fuel hfuel
  have hpos : 0 < r.wire.length := List.length_pos_iff.mpr r.wire_ne_nil
  rw [List.length_append] at hfuel
  obtain ⟨k, rfl⟩ : ∃ k, fuel = k + 1 := ⟨fuel - 1, by omega⟩
  rw [pb_decode_inner_record hr hfield, hstep]
  exact h k (by omega)

theorem decodes_refused {r : Record} (hr : r.Valid) {decode_field : FieldDecoder β}
    (hfield : fields r.tag = some decode_field) {rest : Bytes} {dest : β} {t : Option Trap}
    (hstep : decode_field .PB_WT_STRING (varint 9 r.payload.length ++ (r.payload ++ rest)) dest =
      .error t) : Decodes fields (r.wire ++ rest) dest (.error t) := by
  intro fuel hfuel
  have hpos : 0 < r.wire.length := List.length_pos_iff.mpr r.wire_ne_nil
  rw [List.length_append] at hfuel
  obtain ⟨k, rfl⟩ : ∃ k, fuel = k + 1 := ⟨fuel - 1, by omega⟩
  rw [pb_decode_inner_record hr hfield, hstep]
  rfl

theorem pb_make_string_substream_record {payload : Bytes} (hlen : payload.length < 2 ^ 32)
    (rest : Bytes) :
    pb_make_string_substream (varint 9 payload.length ++ (payload ++ rest)) =
      some (payload, rest) := by
  simp [pb_make_string_substream, pb_decode_varint32_varint hlen]

/-- A callback which takes all bytes is called once. -/
theorem callbackLoop_once {callback : Bytes → β → PbExec (Bytes × β)} {payload : Bytes}
    {dest : β} {res : PbExec β}
    (h : callback payload dest = res.map fun dest => ([], dest)) :
    callbackLoop callback payload dest = res := by
  rw [callbackLoop, h]
  cases res with
  | error t => rfl
  | ok dest => rfl

theorem decode_callback_field_record {callback : Bytes → β → PbExec (Bytes × β)}
    {payload : Bytes} (hlen : payload.length < 2 ^ 32) {dest : β} {res : PbExec β}
    (h : callback payload dest = res.map fun dest => ([], dest)) (rest : Bytes) :
    decode_callback_field callback .PB_WT_STRING
      (varint 9 payload.length ++ (payload ++ rest)) dest = res.map fun dest => (rest, dest) := by
  simp only [decode_callback_field, if_true, pb_make_string_substream_record hlen,
    succeeds_some, PbExec.ok_bind, callbackLoop_once h]
  cases res <;> rfl

/-- A repeated field goes to its callback item by item, until one is refused. -/
theorem decodes_repeated {α : Type} {tag : ℕ} (htag : tag ≠ 0) (htag' : 8 * tag + 2 < 2 ^ 32)
    {callback : Bytes → β → PbExec (Bytes × β)}
    (hfield : fields tag = some (decode_callback_field callback)) {payload : α → Bytes}
    {step : β → α → PbExec β} {items : List α}
    (hlen : ∀ a ∈ items, (payload a).length < 2 ^ 32)
    (hstep : ∀ a ∈ items, ∀ dest,
      callback (payload a) dest = (step dest a).map fun dest => ([], dest)) (dest : β) :
    Decodes fields (wires (items.map fun a => ⟨tag, payload a⟩)) dest
      (items.foldlM step dest) := by
  induction items generalizing dest with
  | nil => exact decodes_nil dest
  | cons a items ih =>
    have ha : (payload a).length < 2 ^ 32 := hlen a (List.mem_cons_self ..)
    have hvalid : Record.Valid ⟨tag, payload a⟩ := ⟨htag, htag', ha⟩
    have hcall := decode_callback_field_record ha (hstep a (List.mem_cons_self ..) dest)
      (wires (items.map fun a => ⟨tag, payload a⟩))
    rw [List.foldlM_cons, List.map_cons, wires_cons]
    cases hd : step dest a with
    | error t =>
      rw [hd] at hcall
      exact decodes_refused hvalid hfield hcall
    | ok dest' =>
      rw [hd] at hcall
      exact Decodes.record hvalid hfield hcall
        (ih (fun a ha => hlen a (List.mem_cons_of_mem _ ha))
          (fun a ha => hstep a (List.mem_cons_of_mem _ ha)) dest')

/-- What the callback keeps is kept by its rounds. -/
theorem callbackLoop_keeps {inv : β → Prop}
    {callback : Bytes → β → PbExec (Bytes × β)}
    (hstep : ∀ stream dest rest dest', inv dest → callback stream dest = .ok (rest, dest') →
      inv dest') (substream : Bytes) {dest dest' : β} (hinv : inv dest)
    (hloop : callbackLoop callback substream dest = .ok dest') : inv dest' := by
  induction substream, dest using callbackLoop.induct with
  | case1 substream dest ih =>
    rw [callbackLoop] at hloop
    obtain ⟨⟨rest, dest₁⟩, hcall, hloop⟩ := PbExec.bind_eq_ok.mp hloop
    have hinv₁ := hstep substream dest rest dest₁ hinv hcall
    simp only at hloop
    split at hloop
    · rename_i hmore
      exact ih rest dest₁ hmore hinv₁ hloop
    · cases hloop
      exact hinv₁

/-- What every field keeps is kept by a message. -/
theorem pb_decode_keeps {inv : β → Prop}
    (hfields : ∀ tag decode_field, fields tag = some decode_field →
      ∀ wire_type stream dest rest dest', inv dest →
        decode_field wire_type stream dest = .ok (rest, dest') → inv dest')
    {stream : Bytes} {dest dest' : β} (hinv : inv dest)
    (hdecode : pb_decode fields stream dest = .ok dest') : inv dest' := by
  rw [pb_decode] at hdecode
  generalize stream.length = k at hdecode
  induction k generalizing stream dest with
  | zero =>
    cases stream with
    | nil =>
      cases hdecode
      exact hinv
    | cons byte stream => cases hdecode
  | succ k ih =>
    cases stream with
    | nil =>
      cases hdecode
      exact hinv
    | cons byte stream =>
      obtain ⟨⟨tag, wire_type, rest⟩, -, hdecode⟩ := PbExec.bind_eq_ok.mp hdecode
      simp only at hdecode
      split at hdecode
      · cases hdecode
      · cases hfield : fields tag with
        | none =>
          simp only [hfield] at hdecode
          obtain ⟨rest', -, hdecode⟩ := PbExec.bind_eq_ok.mp hdecode
          exact ih hinv hdecode
        | some decode_field =>
          simp only [hfield] at hdecode
          obtain ⟨⟨rest', dest₁⟩, hone, hdecode⟩ := PbExec.bind_eq_ok.mp hdecode
          exact ih (hfields tag decode_field hfield wire_type rest dest rest' dest₁ hinv hone)
            hdecode

end Decoder

/-! ### Sizes -/

/-- The number of bytes of a number. -/
def varintSize : ℕ → ℕ → ℕ
  | 0, _ => 1
  | k + 1, v => if v < 128 then 1 else varintSize k (v / 128) + 1

theorem varint_length (k v : ℕ) : (varint k v).length = varintSize k v := by
  induction k generalizing v with
  | zero => rfl
  | succ k ih =>
    unfold varint varintSize
    split_ifs
    · rfl
    · rw [List.length_cons, ih]

/-- A field whose tag takes one byte and whose value takes `n` bytes. -/
def fieldSize (n : ℕ) : ℕ := 1 + varintSize 9 n + n

theorem Record.wire_length {r : Record} (h : 8 * r.tag + 2 < 128) :
    r.wire.length = fieldSize r.payload.length := by
  have htag : varint 9 (8 * r.tag + 2) = [UInt8.ofNat (8 * r.tag + 2)] := if_pos h
  rw [Record.wire, htag, List.length_append, List.length_append, varint_length,
    List.length_singleton, fieldSize, Nat.add_assoc]

theorem Record.payload_length_le (r : Record) : r.payload.length ≤ r.wire.length := by
  rw [Record.wire, List.length_append, List.length_append]
  omega

theorem wire_length_le {r : Record} {rs : List Record} (h : r ∈ rs) :
    r.wire.length ≤ (wires rs).length := by
  induction rs with
  | nil => cases h
  | cons r' rs ih =>
    rw [wires_cons, List.length_append]
    rcases List.mem_cons.mp h with rfl | hmem
    · omega
    · have hle := ih hmem
      omega

end RinaSense.SerDes
