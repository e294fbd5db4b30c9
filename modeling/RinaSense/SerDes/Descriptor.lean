import RinaSense.Library.Families
import RinaSense.SerDes.FieldTypes

/-!
# Messages by their descriptors

A message is a family of fields, and its descriptor says for each field its tag, its type, and
whether it is required, optional or repeated. On the wire each field is a chunk behind a tag. What
is decoded depends, field by field, on the chunks of that field alone: chunks with unknown tags
are skipped, and the fields may come in any order.
-/

namespace RinaSense.SerDes

open Common Library.Memory Library.Families

/-! ### Fields -/

structure PbField (γ : Type) where
  tag : ℕ
  required : Bool
  /-- `encode_field`. -/
  encode : γ → PbOstream → Option PbOstream
  /-- `decode_field`. -/
  decode : FieldDecoder γ

/-- A value with the flag which says whether it is there. -/
structure PbSlot (γ : Type) where
  has : Bool
  val : γ
deriving DecidableEq, Repr

/-- An array with the number of its items which are used. -/
structure PbArray (γ : Type) where
  count : ℕ
  items : List γ
deriving DecidableEq, Repr

section Rules

variable {γ : Type}

def encode_basic_field (tag : ℕ) (t : PbType γ) (x : γ) (stream : PbOstream) :
    Option PbOstream := do
  let stream ← pb_encode_tag_for_field stream t.wire_type tag
  t.enc x stream

def encode_items (tag : ℕ) (t : PbType γ) : List γ → PbOstream → Option PbOstream
  | [], stream => some stream
  | x :: xs, stream => do
    let stream ← encode_basic_field tag t x stream
    encode_items tag t xs stream

def REQUIRED (tag : ℕ) (t : PbType γ) : PbField γ where
  tag := tag
  required := true
  encode := encode_basic_field tag t
  decode := t.dec

def OPTIONAL (tag : ℕ) (t : PbType γ) : PbField (PbSlot γ) where
  tag := tag
  required := false
  encode x stream := if x.has then encode_basic_field tag t x.val stream else some stream
  decode := fun wire_type stream dest => do
    let (stream, val) ← t.dec wire_type stream dest.val
    return (stream, ⟨true, val⟩)

/-- An array of a type which is not packed. -/
def REPEATED (tag : ℕ) (t : PbType γ) : PbField (PbArray γ) where
  tag := tag
  required := false
  encode x stream :=
    if x.count = 0 then some stream
    else if x.items.length < x.count then none
    else encode_items tag t (x.items.take x.count) stream
  decode := fun wire_type stream dest =>
    match dest.items[dest.count]? with
    | none => .error none
    | some item => do
      let (stream, item) ← t.dec wire_type stream item
      return (stream, ⟨dest.count + 1, dest.items.set dest.count item⟩)

/-- A field with `pb_default_field_callback` and no functions of the program. -/
def CALLBACK (tag : ℕ) : PbField Unit where
  tag := tag
  required := false
  encode _ stream := some stream
  decode := decode_callback_field fun stream dest => .ok (stream, dest)

end Rules

/-! ### Messages -/

/-- `pb_msgdesc_t`: the fields in the order of their tags. -/
structure PbMsgdesc {ι : Type} (γ : ι → Type) where
  order : List ι
  field : (i : ι) → PbField (γ i)

section Messages

variable {ι : Type} [DecidableEq ι] {γ : ι → Type} (desc : PbMsgdesc γ)

def encode_fields (x : ∀ i, γ i) : List ι → PbOstream → Option PbOstream
  | [], stream => some stream
  | i :: is, stream => do
    let stream ← (desc.field i).encode (x i) stream
    encode_fields x is stream

def PbMsgdesc.pb_encode (x : ∀ i, γ i) (stream : PbOstream) : Option PbOstream :=
  encode_fields desc x desc.order stream

def PbMsgdesc.pb_field_iter_find (tag : ℕ) : Option ι :=
  desc.order.find? fun i => (desc.field i).tag = tag

/-- A field of the message, which is noted in `fields_seen` if it is required. -/
def PbMsgdesc.decoders (tag : ℕ) : Option (FieldDecoder (List ι × ∀ i, γ i)) :=
  (desc.pb_field_iter_find tag).map fun i wire_type stream dest => do
    let (stream, x) ← (desc.field i).decode wire_type stream (dest.2 i)
    return (stream, if (desc.field i).required then i :: dest.1 else dest.1,
      Function.update dest.2 i x)

/-- All required fields have to be seen. -/
def PbMsgdesc.pb_decode (stream : Bytes) (dest : ∀ i, γ i) : PbExec (∀ i, γ i) := do
  let (fields_seen, dest) ← SerDes.pb_decode desc.decoders stream ([], dest)
  if ∀ i ∈ desc.order, (desc.field i).required → i ∈ fields_seen then .ok dest else .error none

/-- A message which is a field of another. -/
def MESSAGE : PbType (∀ i, γ i) where
  wire_type := 2
  enc x stream := pb_encode_submessage (desc.pb_encode x) stream
  dec := expects .PB_WT_STRING fun stream dest => do
    let (substream, stream) ← succeeds (pb_make_string_substream stream)
    let dest ← desc.pb_decode substream dest
    return (stream, dest)

/-- The messages of an array are set to their defaults before they are decoded. -/
def ITEM (init : ∀ i, γ i) : PbType (∀ i, γ i) where
  wire_type := 2
  enc x stream := pb_encode_submessage (desc.pb_encode x) stream
  dec := fun wire_type stream _ => (MESSAGE desc).dec wire_type stream init

end Messages

/-! ### Chunks -/

/-- A tag, with the number of the wire type, and the bytes behind it. -/
structure Chunk where
  tag : ℕ
  wire_type : ℕ
  value : Bytes
deriving DecidableEq, Repr

def Chunk.wire (c : Chunk) : Bytes := varint 9 (8 * c.tag + c.wire_type) ++ c.value

def chunkWires (cs : List Chunk) : Bytes := cs.flatMap Chunk.wire

structure Chunk.Valid (c : Chunk) : Prop where
  tag_ne_zero : c.tag ≠ 0
  wire_type_lt : c.wire_type < 8
  tag_lt : 8 * c.tag + c.wire_type < 2 ^ 32

/-- The decoder can step over the chunk. -/
def Chunk.Skipped (c : Chunk) : Prop :=
  ∀ rest, pb_skip_field (c.value ++ rest) (wireType c.wire_type) = some rest

@[simp] theorem chunkWires_nil : chunkWires [] = [] := rfl

@[simp] theorem chunkWires_cons (c : Chunk) (cs : List Chunk) :
    chunkWires (c :: cs) = c.wire ++ chunkWires cs := rfl

@[simp] theorem chunkWires_append (cs cs' : List Chunk) :
    chunkWires (cs ++ cs') = chunkWires cs ++ chunkWires cs' := List.flatMap_append

theorem Chunk.wire_pos (c : Chunk) : 0 < c.wire.length := by
  have htag := List.length_pos_iff.mpr (varint_ne_nil 9 (8 * c.tag + c.wire_type))
  rw [Chunk.wire, List.length_append]
  omega

section Field

variable {γ : Type}

/-- The field takes the chunk, and no byte behind it. -/
def PbField.Reads (f : PbField γ) (c : Chunk) (x y : γ) : Prop :=
  ∀ rest, f.decode (wireType c.wire_type) (c.value ++ rest) x = .ok (rest, y)

/-- What the encoder writes of `x` takes `n` bytes at most, and with its chunks the decoder makes
`y` of `z`. -/
def PbField.Carries (f : PbField γ) (z x y : γ) (n : ℕ) : Prop :=
  ∃ cs : List Chunk, (∀ c ∈ cs, c.tag = f.tag ∧ c.wire_type < 8) ∧
    (chunkWires cs).length ≤ n ∧ Writes (f.encode x) (chunkWires cs) ∧
    Takes f.Reads cs z y ∧ (f.required = true → cs ≠ [])

/-- The number of bytes of a tag. -/
def tagSize (tag : ℕ) : ℕ := if tag < 16 then 1 else 2

theorem tag_length_le {tag w : ℕ} (htag : tag < 2 ^ 10) (hw : w < 8) :
    (varint 9 (8 * tag + w)).length ≤ tagSize tag := by
  unfold tagSize
  split_ifs with hlow
  · have hone : varint 9 (8 * tag + w) = [UInt8.ofNat (8 * tag + w)] := if_pos (by omega)
    rw [hone, List.length_singleton]
  · exact varint_length_le_two (by omega)

/-- A single value behind its tag. -/
theorem PbType.Carries.chunk {t : PbType γ} {z x y : γ} {n tag : ℕ} (h : t.Carries z x y n)
    (htag : tag < 2 ^ 10) (hw : t.wire_type < 8) :
    ∃ c : Chunk, c.tag = tag ∧ c.wire_type < 8 ∧ c.wire.length ≤ tagSize tag + n ∧
      Writes (encode_basic_field tag t x) c.wire ∧
      ∀ rest, t.dec (wireType c.wire_type) (c.value ++ rest) z = .ok (rest, y) := by
  obtain ⟨bs, hlen, hwrites, hread⟩ := h
  refine ⟨⟨tag, t.wire_type, bs⟩, rfl, hw, ?_, ?_, hread⟩
  · have hsize := tag_length_le htag hw
    rw [Chunk.wire, List.length_append]
    dsimp only
    omega
  · have hfirst : Writes (fun s => pb_encode_tag_for_field s t.wire_type tag)
        (varint 9 (8 * tag + t.wire_type)) := fun _ => rfl
    exact hfirst.andThen hwrites

variable {t : PbType γ} {z x y : γ} {n tag : ℕ}

theorem carries_single {f : PbField γ} {c : Chunk} (htag : c.tag = f.tag) (hw : c.wire_type < 8)
    (hlen : c.wire.length ≤ n) (hwrites : Writes (f.encode x) c.wire) (hread : f.Reads c z y) :
    f.Carries z x y n := by
  refine ⟨[c], ?_, ?_, ?_, .cons hread (.nil y), fun _ => List.cons_ne_nil c []⟩
  · intro c' hc'
    rw [List.mem_singleton.mp hc']
    exact ⟨htag, hw⟩
  · rwa [chunkWires_cons, chunkWires_nil, List.append_nil]
  · rwa [chunkWires_cons, chunkWires_nil, List.append_nil]

theorem carries_nothing {f : PbField γ} (hreq : f.required = false)
    (hwrites : Writes (f.encode x) []) (z : γ) : f.Carries z x z n :=
  ⟨[], by simp, Nat.zero_le n, hwrites, .nil z, by simp [hreq]⟩

theorem REQUIRED_carries (h : t.Carries z x y n) (htag : tag < 2 ^ 10) (hw : t.wire_type < 8) :
    (REQUIRED tag t).Carries z x y (tagSize tag + n) := by
  obtain ⟨c, hctag, hcw, hlen, hwrites, hread⟩ := h.chunk htag hw
  exact carries_single hctag hcw hlen hwrites hread

/-- An optional field which is not there leaves what the decoder finds. -/
theorem OPTIONAL_carries {z x : PbSlot γ} {y : γ} (h : x.has = true → t.Carries z.val x.val y n)
    (htag : tag < 2 ^ 10) (hw : t.wire_type < 8) :
    (OPTIONAL tag t).Carries z x (if x.has then ⟨true, y⟩ else z) (tagSize tag + n) := by
  cases hhas : x.has with
  | false =>
    have hwrites : Writes ((OPTIONAL tag t).encode x) [] := by
      intro s
      simp [OPTIONAL, hhas, pb_write_nil]
    exact carries_nothing rfl hwrites z
  | true =>
    obtain ⟨c, hctag, hcw, hlen, hwrites, hread⟩ := (h hhas).chunk htag hw
    refine carries_single hctag hcw hlen (fun s => ?_) fun rest => ?_
    · rw [← hwrites s]
      simp [OPTIONAL, hhas]
    · simp only [OPTIONAL, hread, PbExec.ok_bind]
      rfl

/-- The item behind those which were read. -/
theorem REPEATED_reads (tag : ℕ) {c : Chunk} (hread : ∀ rest, t.dec (wireType c.wire_type)
    (c.value ++ rest) z = .ok (rest, y)) (ys zs : List γ) :
    (REPEATED tag t).Reads c ⟨ys.length, ys ++ z :: zs⟩ ⟨ys.length + 1, ys ++ y :: zs⟩ := by
  intro rest
  have hitem : (ys ++ z :: zs)[ys.length]? = some z := by simp
  have hset : (ys ++ z :: zs).set ys.length y = ys ++ y :: zs := by simp
  simp only [REPEATED, hitem, hread, PbExec.ok_bind, hset]
  rfl

/-- The items go into their array one behind the other. -/
theorem encode_items_carries {f : γ → γ} {xs : List γ} (h : ∀ x ∈ xs, t.Carries z x (f x) n)
    (htag : tag < 2 ^ 10) (hw : t.wire_type < 8) (ys : List γ) {m : ℕ} (hm : xs.length ≤ m) :
    ∃ cs : List Chunk, (∀ c ∈ cs, c.tag = tag ∧ c.wire_type < 8) ∧
      (chunkWires cs).length ≤ xs.length * (tagSize tag + n) ∧
      Writes (encode_items tag t xs) (chunkWires cs) ∧
      Takes (REPEATED tag t).Reads cs ⟨ys.length, ys ++ List.replicate m z⟩
        ⟨ys.length + xs.length, ys ++ xs.map f ++ List.replicate (m - xs.length) z⟩ := by
  induction xs generalizing ys m with
  | nil =>
    refine ⟨[], by simp, Nat.zero_le _, writes_nothing, ?_⟩
    simp
  | cons x xs ih =>
    obtain ⟨k, rfl⟩ : ∃ k, m = k + 1 := Nat.exists_eq_add_one.mpr (Nat.lt_of_lt_of_le (by simp) hm)
    rw [List.length_cons] at hm
    obtain ⟨c, hctag, hcw, hlen, hwrites, hread⟩ := (h x List.mem_cons_self).chunk htag hw
    obtain ⟨cs, hcs, hlens, hwrites', htakes⟩ := ih (fun x hx => h x (List.mem_cons_of_mem _ hx))
      (ys ++ [f x]) (Nat.le_of_succ_le_succ hm)
    refine ⟨c :: cs, ?_, ?_, hwrites.andThen hwrites', ?_⟩
    · intro c' hc'
      rcases List.mem_cons.mp hc' with rfl | hc'
      · exact ⟨hctag, hcw⟩
      · exact hcs c' hc'
    · rw [chunkWires_cons, List.length_append, List.length_cons, Nat.succ_mul]
      omega
    · have hfirst := REPEATED_reads tag hread ys (List.replicate k z)
      have harray : ys ++ f x :: List.replicate k z = ys ++ [f x] ++ List.replicate k z := by simp
      rw [harray] at hfirst
      have hafter : (⟨(ys ++ [f x]).length + xs.length, ys ++ [f x] ++ xs.map f ++
          List.replicate (k - xs.length) z⟩ : PbArray γ) = ⟨ys.length + (x :: xs).length,
          ys ++ (x :: xs).map f ++ List.replicate (k + 1 - (x :: xs).length) z⟩ := by
        simp [Nat.add_assoc, Nat.add_comm 1]
      rw [← hafter, List.replicate_succ]
      refine .cons hfirst ?_
      simpa using htakes

/-- The items of an array which are used; those behind them stay as they are. -/
theorem REPEATED_carries {f : γ → γ} {x : PbArray γ} {k : ℕ} (hitems : x.items.length = k)
    (hcount : x.count ≤ k) (h : ∀ a ∈ x.items.take x.count, t.Carries z a (f a) n)
    (htag : tag < 2 ^ 10) (hw : t.wire_type < 8) :
    (REPEATED tag t).Carries ⟨0, List.replicate k z⟩ x
      ⟨x.count, (x.items.take x.count).map f ++ List.replicate (k - x.count) z⟩
      (k * (tagSize tag + n)) := by
  have hlen : (x.items.take x.count).length = x.count := List.length_take_of_le (hitems ▸ hcount)
  obtain ⟨cs, hcs, hsize, hwrites, htakes⟩ := encode_items_carries h htag hw [] (m := k)
    (hlen.symm ▸ hcount)
  rw [hlen] at hsize
  refine ⟨cs, hcs, hsize.trans (Nat.mul_le_mul_right _ hcount), fun s => ?_, ?_,
    fun hreq => absurd hreq Bool.false_ne_true⟩
  · rw [← hwrites s]
    by_cases hzero : x.count = 0
    · simp [REPEATED, hzero, encode_items]
    · have hroom : ¬ x.items.length < x.count := by omega
      simp only [REPEATED, if_neg hzero, if_neg hroom]
  · simpa [hlen] using htakes

theorem CALLBACK_carries (tag : ℕ) : (CALLBACK tag).Carries () () () 0 :=
  carries_nothing rfl writes_nothing ()

end Field

section Messages

variable {ι : Type} [DecidableEq ι] {γ : ι → Type} {desc : PbMsgdesc γ}

/-- A descriptor has all fields, with different tags which are numbers of fields. -/
structure PbMsgdesc.Valid (desc : PbMsgdesc γ) : Prop where
  complete : ∀ i, i ∈ desc.order
  nodup : (desc.order.map fun i => (desc.field i).tag).Nodup
  tag_ne_zero : ∀ i, (desc.field i).tag ≠ 0
  tag_lt : ∀ i, (desc.field i).tag < 2 ^ 10

omit [DecidableEq ι] in
theorem PbMsgdesc.Valid.find (hvalid : desc.Valid) (i : ι) :
    desc.pb_field_iter_find (desc.field i).tag = some i := by
  cases hfind : desc.pb_field_iter_find (desc.field i).tag with
  | none =>
    have hno := List.find?_eq_none.mp hfind i (hvalid.complete i)
    simp at hno
  | some j =>
    have htag : (desc.field j).tag = (desc.field i).tag := by
      simpa using List.find?_some hfind
    exact congrArg some (List.inj_on_of_nodup_map hvalid.nodup (hvalid.complete j)
      (hvalid.complete i) htag)

/-- The field of a chunk. -/
def PbMsgdesc.key (desc : PbMsgdesc γ) (c : Chunk) : Option ι := desc.pb_field_iter_find c.tag

/-- One round of the decoder with a chunk which has no field. -/
theorem pb_decode_inner_skipped {β : Type} {fields : ℕ → Option (FieldDecoder β)} {c : Chunk}
    (hc : c.Valid) (hfield : fields c.tag = none) (hskip : c.Skipped) (k : ℕ) (rest : Bytes)
    (dest : β) :
    pb_decode_inner fields (k + 1) (c.wire ++ rest) dest = pb_decode_inner fields k rest dest := by
  have hread := pb_decode_tag_field hc.wire_type_lt hc.tag_lt (c.value ++ rest)
  cases hbytes : c.wire ++ rest with
  | nil =>
    have hpos := c.wire_pos
    rw [(List.append_eq_nil_iff.mp hbytes).1] at hpos
    exact absurd hpos (Nat.lt_irrefl 0)
  | cons byte stream =>
    rw [Chunk.wire, List.append_assoc] at hbytes
    rw [pb_decode_inner, ← hbytes, hread]
    simp only [succeeds_some, PbExec.ok_bind, if_neg hc.tag_ne_zero, hfield, hskip rest]

/-- The chunks of a message are handed to their fields one after the other. -/
theorem decodes_chunks {cs : List Chunk} (hcs : ∀ c ∈ cs, c.Valid)
    (hskip : ∀ c ∈ cs, desc.key c = none → c.Skipped) {d d' : ∀ i, γ i}
    (h : Takes (Changes desc.key fun i => (desc.field i).Reads) cs d d') (seen : List ι) :
    ∃ seen', Decodes desc.decoders (chunkWires cs) (seen, d) (.ok (seen', d')) ∧
      (∀ i ∈ seen, i ∈ seen') ∧
      ∀ c ∈ cs, ∀ i, desc.key c = some i → (desc.field i).required = true → i ∈ seen' := by
  induction cs generalizing d seen with
  | nil =>
    obtain rfl := takes_nil_iff.mp h
    exact ⟨seen, decodes_nil _, fun _ hi => hi, by simp⟩
  | cons c cs ih =>
    obtain ⟨d₁, hstep, hrest⟩ := takes_cons_iff.mp h
    have hc := hcs c List.mem_cons_self
    have hpos := c.wire_pos
    have hcs' : ∀ c ∈ cs, c.Valid := fun c hc => hcs c (List.mem_cons_of_mem _ hc)
    have hskip' : ∀ c ∈ cs, desc.key c = none → c.Skipped :=
      fun c hc => hskip c (List.mem_cons_of_mem _ hc)
    cases hkey : desc.key c with
    | none =>
      obtain rfl := (changes_none hkey).mp hstep
      obtain ⟨seen', hdecodes, hseen, hall⟩ := ih hcs' hskip' hrest seen
      refine ⟨seen', fun fuel hfuel => ?_, hseen, fun c' hc' i hi hreq => ?_⟩
      · rw [chunkWires_cons, List.length_append] at hfuel
        obtain ⟨k, rfl⟩ : ∃ k, fuel = k + 1 := ⟨fuel - 1, by omega⟩
        have hnone : desc.decoders c.tag = none := by
          rw [PbMsgdesc.decoders, show desc.pb_field_iter_find c.tag = none from hkey]
          rfl
        rw [chunkWires_cons, pb_decode_inner_skipped hc hnone (hskip c List.mem_cons_self hkey)]
        exact hdecodes k (by omega)
      · rcases List.mem_cons.mp hc' with rfl | hc'
        · rw [hkey] at hi
          cases hi
        · exact hall c' hc' i hi hreq
    | some j =>
      obtain ⟨y, hread, rfl⟩ := (changes_some hkey).mp hstep
      obtain ⟨seen', hdecodes, hseen, hall⟩ := ih hcs' hskip' hrest
        (if (desc.field j).required then j :: seen else seen)
      refine ⟨seen', fun fuel hfuel => ?_, fun i hi => hseen i ?_, fun c' hc' i hi hreq => ?_⟩
      · rw [chunkWires_cons, List.length_append] at hfuel
        obtain ⟨k, rfl⟩ : ∃ k, fuel = k + 1 := ⟨fuel - 1, by omega⟩
        have hfield := congrArg (Option.map fun i wire_type stream (dest : List ι × ∀ i, γ i) => do
          let (stream, x) ← (desc.field i).decode wire_type stream (dest.2 i)
          return (stream, if (desc.field i).required then i :: dest.1 else dest.1,
            Function.update dest.2 i x))
          (show desc.pb_field_iter_find c.tag = some j from hkey)
        rw [chunkWires_cons, Chunk.wire, List.append_assoc, pb_decode_inner_field hc.wire_type_lt
          hc.tag_ne_zero hc.tag_lt hfield]
        dsimp only
        rw [hread (chunkWires cs)]
        exact hdecodes k (by omega)
      · split_ifs
        · exact List.mem_cons_of_mem j hi
        · exact hi
      · rcases List.mem_cons.mp hc' with rfl | hc'
        · rw [hkey] at hi
          cases hi
          exact hseen _ (by rw [if_pos hreq]; exact List.mem_cons_self)
        · exact hall c' hc' i hi hreq

/-- The same chunks for each field, in any order of the fields, and between them chunks which have
no field. -/
structure PbMsgdesc.SameFields (desc : PbMsgdesc γ) (cs cs' : List Chunk) : Prop where
  valid : ∀ c ∈ cs', c.Valid
  unknown : ∀ c ∈ cs', desc.key c = none → c.Skipped
  known : ∀ i, commands desc.key i cs' = commands desc.key i cs

omit [DecidableEq ι] in
/-- The fields are written one after the other. -/
theorem writes_fields {x : ∀ i, γ i} {own : ι → List Chunk}
    (h : ∀ i, Writes ((desc.field i).encode (x i)) (chunkWires (own i))) (is : List ι) :
    Writes (encode_fields desc x is) (chunkWires (is.flatMap own)) := by
  induction is with
  | nil => exact writes_nothing
  | cons i is ih =>
    rw [List.flatMap_cons, chunkWires_append]
    exact (h i).andThen ih

omit [DecidableEq ι] in
theorem chunkWires_flatMap_le {own : ι → List Chunk} {n : ι → ℕ}
    (h : ∀ i, (chunkWires (own i)).length ≤ n i) (is : List ι) :
    (chunkWires (is.flatMap own)).length ≤ (is.map n).sum := by
  induction is with
  | nil => exact Nat.zero_le _
  | cons i is ih =>
    rw [List.flatMap_cons, chunkWires_append, List.length_append, List.map_cons, List.sum_cons]
    exact Nat.add_le_add (h i) ih

/-- A message whose fields are all carried is written as their chunks, and decoded from any
sequence which has these chunks for each field. -/
theorem PbMsgdesc.carries (hvalid : desc.Valid) {z x y : ∀ i, γ i} {n : ι → ℕ}
    (h : ∀ i, (desc.field i).Carries (z i) (x i) (y i) (n i)) :
    ∃ cs : List Chunk, (chunkWires cs).length ≤ (desc.order.map n).sum ∧
      Writes (desc.pb_encode x) (chunkWires cs) ∧ desc.SameFields cs cs ∧
      ∀ cs', desc.SameFields cs cs' → desc.pb_decode (chunkWires cs') z = .ok y := by
  choose own htags hlen hwrites htakes hreq using h
  have hkey : ∀ i, ∀ c ∈ own i, desc.key c = some i := by
    intro i c hc
    rw [PbMsgdesc.key, (htags i c hc).1]
    exact hvalid.find i
  have hcommands : ∀ i, commands desc.key i (desc.order.flatMap own) = own i := by
    intro i
    rw [commands_flatMap hvalid.nodup.of_map fun i _ => hkey i, if_pos (hvalid.complete i)]
  refine ⟨desc.order.flatMap own, chunkWires_flatMap_le hlen _, writes_fields hwrites _,
    ⟨fun c hc => ?_, fun c hc hnone => ?_, fun _ => rfl⟩, fun cs' hsame => ?_⟩
  · obtain ⟨i, -, hc⟩ := List.mem_flatMap.mp hc
    obtain ⟨htag, hw⟩ := htags i c hc
    have hlt := hvalid.tag_lt i
    exact ⟨htag ▸ hvalid.tag_ne_zero i, hw, by omega⟩
  · obtain ⟨i, -, hc⟩ := List.mem_flatMap.mp hc
    rw [hkey i c hc] at hnone
    cases hnone
  · have hall : Takes (Changes desc.key fun i => (desc.field i).Reads) cs' z y := by
      refine takes_iff.mpr fun i => ?_
      rw [hsame.known i, hcommands i]
      exact htakes i
    obtain ⟨seen, hdecodes, -, hseen⟩ := decodes_chunks hsame.valid hsame.unknown hall []
    have hrequired : ∀ i ∈ desc.order, (desc.field i).required = true → i ∈ seen := by
      intro i _ hi
      obtain ⟨c, hc⟩ := List.exists_mem_of_ne_nil _ (hreq i hi)
      rw [← hcommands i, ← hsame.known i] at hc
      obtain ⟨hmem, hkeyc⟩ := List.mem_filter.mp hc
      exact hseen c hmem i (of_decide_eq_true hkeyc) hi
    rw [PbMsgdesc.pb_decode, hdecodes.pb_decode, PbExec.ok_bind]
    exact if_pos hrequired

/-- A message inside a message has its length in front. -/
theorem MESSAGE_carries (hvalid : desc.Valid) {z x y : ∀ i, γ i} {n : ι → ℕ}
    (h : ∀ i, (desc.field i).Carries (z i) (x i) (y i) (n i))
    (hn : (desc.order.map n).sum < 2 ^ 14) :
    (MESSAGE desc).Carries z x y (2 + (desc.order.map n).sum) := by
  obtain ⟨cs, hlen, hwrites, hself, hdecode⟩ := PbMsgdesc.carries hvalid h
  have hsize := varint_length_le_two (Nat.lt_of_le_of_lt hlen hn)
  have hwire : (varint 9 (chunkWires cs).length ++ chunkWires cs).length ≤
      2 + (desc.order.map n).sum := by
    rw [List.length_append]
    omega
  refine PbType.carries_of rfl rfl hwire hwrites.submessage fun rest => ?_
  have hshort : (chunkWires cs).length < 2 ^ 32 := by omega
  simp only [List.append_assoc, pb_make_string_substream_record hshort, succeeds_some,
    PbExec.ok_bind, hdecode cs hself]
  rfl

theorem ITEM_carries (hvalid : desc.Valid) {init x y : ∀ i, γ i} {n : ι → ℕ}
    (h : ∀ i, (desc.field i).Carries (init i) (x i) (y i) (n i))
    (hn : (desc.order.map n).sum < 2 ^ 14) (z : ∀ i, γ i) :
    (ITEM desc init).Carries z x y (2 + (desc.order.map n).sum) :=
  MESSAGE_carries hvalid h hn

end Messages

/-! ### Any bytes -/

section Safety

variable {α β γ : Type}

/-- The computation does not end in a trap, and its result is such. -/
def PbExec.Safe (P : α → Prop) : PbExec α → Prop
  | .ok a => P a
  | .error none => True
  | .error (some _) => False

theorem PbExec.Safe.bind {P : α → Prop} {Q : β → Prop} {x : PbExec α} {f : α → PbExec β}
    (hx : PbExec.Safe P x) (hf : ∀ a, P a → PbExec.Safe Q (f a)) : PbExec.Safe Q (x >>= f) := by
  cases x with
  | ok a => exact hf a hx
  | error t =>
    cases t with
    | none => exact trivial
    | some t => exact hx.elim

theorem succeeds_safe {P : α → Prop} {o : Option α} (h : ∀ a, o = some a → P a) :
    PbExec.Safe P (succeeds o) := by
  cases o with
  | none => exact trivial
  | some a => exact h a rfl

/-- Whatever the bytes are, decoding a value does not trap, and keeps what holds of the field. -/
def PbType.Keeps (t : PbType γ) (P : γ → Prop) : Prop :=
  ∀ wire_type stream x, P x → PbExec.Safe (fun r => P r.2) (t.dec wire_type stream x)

def PbField.Keeps (f : PbField γ) (P : γ → Prop) : Prop :=
  ∀ wire_type stream x, P x → PbExec.Safe (fun r => P r.2) (f.decode wire_type stream x)

theorem expects_safe {P : γ → Prop} {expected : PbWireType}
    {dec : Bytes → γ → PbExec (Bytes × γ)}
    (h : ∀ stream x, P x → PbExec.Safe (fun r => P r.2) (dec stream x)) (wire_type : PbWireType)
    (stream : Bytes) (x : γ) (hx : P x) :
    PbExec.Safe (fun r => P r.2) (expects expected dec wire_type stream x) := by
  unfold expects
  split_ifs
  · exact h stream x hx
  · exact trivial

/-- What is read takes the place of what was there. -/
theorem read_safe {P : β → Prop} {o : Option α} {f : α → PbExec β}
    (hf : ∀ a, PbExec.Safe P (f a)) : PbExec.Safe P (succeeds o >>= f) :=
  (succeeds_safe fun _ _ => trivial).bind (P := fun _ => True) fun a _ => hf a

theorem VARINT_keeps (bits : ℕ) : (VARINT bits).Keeps fun _ => True := by
  refine expects_safe fun stream x _ => read_safe ?_
  rintro ⟨value, stream⟩
  exact trivial

theorem SVARINT_keeps (bits : ℕ) : (SVARINT bits).Keeps fun _ => True := by
  refine expects_safe fun stream x _ => read_safe ?_
  rintro ⟨value, stream⟩
  dsimp only
  split_ifs <;> exact trivial

theorem UINT32_keeps : UINT32.Keeps fun _ => True := by
  refine expects_safe fun stream x _ => read_safe ?_
  rintro ⟨value, stream⟩
  dsimp only
  split_ifs <;> exact trivial

theorem UINT64_keeps : UINT64.Keeps fun _ => True :=
  expects_safe fun _ _ _ => read_safe fun _ => trivial

theorem BOOL_keeps : BOOL.Keeps fun _ => True :=
  expects_safe fun _ _ _ => read_safe fun _ => trivial

theorem FIXED32_keeps : FIXED32.Keeps fun _ => True :=
  expects_safe fun _ _ _ => read_safe fun _ => trivial

theorem FIXED64_keeps : FIXED64.Keeps fun _ => True :=
  expects_safe fun _ _ _ => read_safe fun _ => trivial

/-- An array of `n` characters in which a string ends. -/
def Terminated (n : ℕ) (chars : Bytes) : Prop := chars.length = n ∧ (0 : UInt8) ∈ chars

theorem STRING_safe : STRING.Keeps fun _ => True :=
  fun _ _ _ _ => succeeds_safe fun _ _ => trivial

theorem STRING_keeps (n : ℕ) : STRING.Keeps (Terminated n) := by
  intro wire_type stream x hx
  refine succeeds_safe fun r hr => ?_
  obtain ⟨hlen, hzero⟩ := pb_dec_string_ends hr
  exact ⟨hlen.trans hx.1, hzero⟩

/-- An array for `n` bytes of which no more are used. -/
def PbBytes.Within (n : ℕ) (b : PbBytes) : Prop := b.bytes.length = n ∧ b.size ≤ n

theorem BYTES_keeps (n : ℕ) : BYTES.Keeps (PbBytes.Within n) := by
  refine expects_safe fun stream x hx => read_safe ?_
  rintro ⟨size, stream⟩
  dsimp only
  split_ifs with hroom
  · exact trivial
  · refine (succeeds_safe (P := fun p : Bytes × Bytes => p.1.length = size) ?_).bind ?_
    · rintro ⟨payload, rest⟩ hread
      unfold pb_read at hread
      split_ifs at hread with hshort
      cases hread
      exact List.length_take_of_le (Nat.le_of_not_lt hshort)
    · rintro ⟨payload, rest⟩ (hpayload : payload.length = size)
      have hsize : size ≤ x.bytes.length := by omega
      refine ⟨?_, hx.1 ▸ hsize⟩
      change (splice x.bytes 0 payload).length = n
      rw [splice_length (by omega), hx.1]

variable {t : PbType γ} {P : γ → Prop}

theorem REQUIRED_keeps (h : t.Keeps P) (tag : ℕ) : (REQUIRED tag t).Keeps P := h

theorem OPTIONAL_keeps (h : t.Keeps P) (tag : ℕ) :
    (OPTIONAL tag t).Keeps fun slot => P slot.val := by
  intro wire_type stream x hx
  refine (h wire_type stream x.val hx).bind ?_
  rintro ⟨rest, val⟩ hval
  exact hval

/-- An optional field which may hold anything. -/
theorem OPTIONAL_safe (h : t.Keeps fun _ => True) (tag : ℕ) :
    (OPTIONAL tag t).Keeps fun _ => True := OPTIONAL_keeps h tag

/-- An array with room for `k` items. -/
def PbArray.Within (k : ℕ) (P : γ → Prop) (a : PbArray γ) : Prop :=
  a.items.length = k ∧ a.count ≤ k ∧ ∀ x ∈ a.items, P x

theorem REPEATED_keeps (h : t.Keeps P) (tag k : ℕ) :
    (REPEATED tag t).Keeps (PbArray.Within k P) := by
  intro wire_type stream x ⟨hlen, hcount, hitems⟩
  simp only [REPEATED]
  cases hitem : x.items[x.count]? with
  | none => exact trivial
  | some item =>
    obtain ⟨hlt, -⟩ := List.getElem?_eq_some_iff.mp hitem
    refine (h wire_type stream item (hitems item (List.mem_of_getElem? hitem))).bind ?_
    rintro ⟨rest, y⟩ (hy : P y)
    refine ⟨?_, ?_, fun z hz => ?_⟩
    · change (x.items.set x.count y).length = k
      rw [List.length_set, hlen]
    · change x.count + 1 ≤ k
      omega
    · rcases List.mem_or_eq_of_mem_set hz with hz | rfl
      · exact hitems z hz
      · exact hy

theorem CALLBACK_keeps (tag : ℕ) (P : Unit → Prop) : (CALLBACK tag).Keeps P := by
  intro wire_type stream x hx
  have hloop : ∀ substream : Bytes,
      callbackLoop (fun stream dest => .ok (stream, dest)) substream x = .ok x := by
    intro substream
    rw [callbackLoop]
    simp
    rfl
  simp only [CALLBACK, decode_callback_field]
  split_ifs
  · refine read_safe ?_
    rintro ⟨substream, rest⟩
    dsimp only
    rw [hloop]
    exact hx
  · refine read_safe ?_
    rintro ⟨raw, rest⟩
    exact hx

/-- What every field keeps is kept by a message. -/
theorem pb_decode_inner_safe {fields : ℕ → Option (FieldDecoder β)} {Q : β → Prop}
    (h : ∀ tag decode_field, fields tag = some decode_field → ∀ wire_type stream x, Q x →
      PbExec.Safe (fun r => Q r.2) (decode_field wire_type stream x))
    (k : ℕ) (stream : Bytes) {x : β} (hx : Q x) :
    PbExec.Safe Q (pb_decode_inner fields k stream x) := by
  induction k generalizing stream x with
  | zero =>
    cases stream with
    | nil => exact hx
    | cons byte stream => exact trivial
  | succ k ih =>
    cases stream with
    | nil => exact hx
    | cons byte stream =>
      rw [pb_decode_inner]
      refine read_safe ?_
      rintro ⟨tag, wire_type, rest⟩
      dsimp only
      split_ifs
      · exact trivial
      · cases hfield : fields tag with
        | none => exact read_safe fun rest' => ih rest' hx
        | some decode_field =>
          refine (h tag decode_field hfield wire_type rest x hx).bind ?_
          rintro ⟨rest', y⟩ hy
          exact ih rest' hy

end Safety

section MessageSafety

variable {ι : Type} [DecidableEq ι] {γ : ι → Type} {desc : PbMsgdesc γ} {P : ∀ i, γ i → Prop}

/-- Whatever the bytes are, decoding a message does not trap, and keeps what holds of its
fields. -/
theorem PbMsgdesc.pb_decode_safe (h : ∀ i, (desc.field i).Keeps (P i)) (stream : Bytes)
    {d : ∀ i, γ i} (hd : ∀ i, P i (d i)) :
    PbExec.Safe (fun d => ∀ i, P i (d i)) (desc.pb_decode stream d) := by
  have hfields : ∀ tag decode_field, desc.decoders tag = some decode_field →
      ∀ wire_type stream (x : List ι × ∀ i, γ i), (∀ i, P i (x.2 i)) →
        PbExec.Safe (fun r => ∀ i, P i (r.2.2 i)) (decode_field wire_type stream x) := by
    intro tag decode_field hfield wire_type stream x hx
    obtain ⟨i, -, rfl⟩ := Option.map_eq_some_iff.mp hfield
    refine (h i wire_type stream (x.2 i) (hx i)).bind ?_
    rintro ⟨rest, y⟩ (hy : P i y) j
    change P j (Function.update x.2 i y j)
    by_cases hji : j = i
    · subst hji
      rwa [Function.update_self]
    · rw [Function.update_of_ne hji]
      exact hx j
  refine (pb_decode_inner_safe (Q := fun x : List ι × ∀ i, γ i => ∀ i, P i (x.2 i)) hfields _
    stream hd).bind ?_
  rintro ⟨seen, d'⟩ hd'
  dsimp only
  split_ifs
  · exact hd'
  · exact trivial

theorem MESSAGE_keeps (h : ∀ i, (desc.field i).Keeps (P i)) :
    (MESSAGE desc).Keeps fun d => ∀ i, P i (d i) := by
  refine expects_safe fun stream d hd => read_safe ?_
  rintro ⟨substream, rest⟩
  refine (PbMsgdesc.pb_decode_safe h substream hd).bind fun d' hd' => ?_
  exact hd'

/-- A message whose fields may hold anything. -/
theorem MESSAGE_safe (h : ∀ i, (desc.field i).Keeps fun _ => True) :
    (MESSAGE desc).Keeps fun _ => True := by
  intro wire_type stream x _
  have hsafe := MESSAGE_keeps h wire_type stream x fun _ => trivial
  cases hrun : (MESSAGE desc).dec wire_type stream x with
  | ok r => exact trivial
  | error t =>
    rw [hrun] at hsafe
    cases t with
    | none => exact trivial
    | some t => exact hsafe

end MessageSafety

end RinaSense.SerDes
