import Mathlib.Algebra.Group.Nat.Defs
import Mathlib.Algebra.Order.Ring.Int
import Mathlib.Tactic.Linarith
import RinaSense.SerDes.Enrollment

/-!
# Types of protobuf fields

The types which the descriptors of messages are made of: how the encoder writes a value behind
its tag, and what the decoder makes of the bytes which it finds there. A value is carried if the
decoder takes just the bytes which the encoder wrote and ends up with it.
-/

namespace RinaSense.SerDes

open Common Library.Memory

structure PbType (γ : Type) where
  /-- The number which `pb_encode_tag_for_field` puts into the tag. -/
  wire_type : ℕ
  enc : γ → PbOstream → Option PbOstream
  dec : FieldDecoder γ

/-- A field of another wire type is an error. -/
def expects {γ : Type} (expected : PbWireType) (dec : Bytes → γ → PbExec (Bytes × γ)) :
    FieldDecoder γ :=
  fun wire_type stream dest => if wire_type = expected then dec stream dest else .error none

/-! ### Numbers -/

/-- A signed number of so many bits, extended to 64 bits on the wire. -/
def VARINT (bits : ℕ) : PbType ℤ where
  wire_type := 0
  enc value stream := pb_encode_varint stream (value % 2 ^ 64).toNat
  dec := expects .PB_WT_VARINT fun stream _ => do
    let (value, stream) ← succeeds (pb_decode_varint stream)
    return (stream, Int.bmod value (2 ^ bits))

def INT32 : PbType ℤ := VARINT 32

def INT64 : PbType ℤ := VARINT 64

/-- `pb_encode_svarint`: the sign goes to the lowest bit. -/
def zigzag (value : ℤ) : ℕ :=
  if value < 0 then 2 ^ 64 - 1 - (2 * value % 2 ^ 64).toNat else (2 * value % 2 ^ 64).toNat

/-- `pb_decode_svarint`. -/
def unzigzag (value : ℕ) : ℤ :=
  if value % 2 = 1 then -((value / 2 : ℕ) : ℤ) - 1 else ((value / 2 : ℕ) : ℤ)

/-- A number which does not fit is an error. -/
def SVARINT (bits : ℕ) : PbType ℤ where
  wire_type := 0
  enc value stream := pb_encode_varint stream (zigzag value)
  dec := expects .PB_WT_VARINT fun stream _ => do
    let (value, stream) ← succeeds (pb_decode_varint stream)
    let svalue := unzigzag value
    if Int.bmod svalue (2 ^ bits) ≠ svalue then .error none
    else return (stream, svalue)

def SINT32 : PbType ℤ := SVARINT 32

def SINT64 : PbType ℤ := SVARINT 64

/-- A number which does not fit is an error. -/
def UINT32 : PbType UInt32 where
  wire_type := 0
  enc value stream := pb_encode_varint stream value.toNat
  dec := expects .PB_WT_VARINT fun stream _ => do
    let (value, stream) ← succeeds (pb_decode_varint stream)
    if 2 ^ 32 ≤ value then .error none else return (stream, UInt32.ofNat value)

/-- An enumeration is read as the number which it is. -/
def UENUM : PbType UInt32 := UINT32

def UINT64 : PbType UInt64 where
  wire_type := 0
  enc value stream := pb_encode_varint stream value.toNat
  dec := expects .PB_WT_VARINT fun stream _ => do
    let (value, stream) ← succeeds (pb_decode_varint stream)
    return (stream, UInt64.ofNat value)

def BOOL : PbType Bool where
  wire_type := 0
  enc value stream := pb_encode_varint stream (if value then 1 else 0)
  dec := expects .PB_WT_VARINT fun stream _ => do
    let (value, stream) ← succeeds (pb_decode_varint32 stream)
    return (stream, decide (value ≠ 0))

/-- The bytes of a number in memory, the low ones first. -/
def FIXED32 : PbType Bytes where
  wire_type := 5
  enc value stream := pb_write stream value
  dec := expects .PB_WT_32BIT fun stream _ => do
    let (value, stream) ← succeeds (pb_read stream 4)
    return (stream, value)

def FIXED64 : PbType Bytes where
  wire_type := 1
  enc value stream := pb_write stream value
  dec := expects .PB_WT_64BIT fun stream _ => do
    let (value, stream) ← succeeds (pb_read stream 8)
    return (stream, value)

/-! ### Strings and bytes -/

/-- An array of characters. -/
def STRING : PbType Bytes where
  wire_type := 2
  enc chars stream := pb_enc_string stream chars
  dec := fun wire_type stream chars => succeeds (pb_dec_string wire_type stream chars)

/-- An array of bytes with the number of those which are used. -/
structure PbBytes where
  size : ℕ
  bytes : Bytes
deriving DecidableEq, Repr

def PB_SIZE_MAX : ℕ := 2 ^ 16 - 1

def BYTES : PbType PbBytes where
  wire_type := 2
  enc value stream :=
    if value.bytes.length < value.size then none
    else pb_encode_string stream (value.bytes.take value.size)
  dec := expects .PB_WT_STRING fun stream dest => do
    let (size, stream) ← succeeds (pb_decode_varint32 stream)
    if PB_SIZE_MAX < size ∨ dest.bytes.length < size then .error none
    else
      let (payload, stream) ← succeeds (pb_read stream size)
      return (stream, ⟨size, splice dest.bytes 0 payload⟩)

/-! ### What is carried -/

variable {γ : Type}

/-- What the encoder writes of `x` takes `n` bytes at most, and the decoder, which finds `z` in
the field, takes these bytes and no others and leaves `y`. -/
def PbType.Carries (t : PbType γ) (z x y : γ) (n : ℕ) : Prop :=
  ∃ bs : Bytes, bs.length ≤ n ∧ Writes (t.enc x) bs ∧
    ∀ rest, t.dec (wireType t.wire_type) (bs ++ rest) z = .ok (rest, y)

theorem writes_varint (value : ℕ) :
    Writes (fun stream => pb_encode_varint stream value) (varint 9 value) := fun _ => rfl

theorem varint_length_le (value : ℕ) : (varint 9 value).length ≤ 10 := by
  rw [varint_length]
  exact varintSize_le 9 value

theorem PbType.carries_of {t : PbType γ} {expected : PbWireType}
    {dec : Bytes → γ → PbExec (Bytes × γ)} {z x y : γ} {n : ℕ} {bs : Bytes}
    (hdec : t.dec = expects expected dec) (hwire : wireType t.wire_type = expected)
    (hlen : bs.length ≤ n) (hwrites : Writes (t.enc x) bs)
    (hread : ∀ rest, dec (bs ++ rest) z = .ok (rest, y)) : t.Carries z x y n := by
  refine ⟨bs, hlen, hwrites, fun rest => ?_⟩
  rw [hdec, hwire]
  exact (if_pos rfl).trans (hread rest)

/-- A number with a sign which has so many bits. -/
def Signed (bits : ℕ) (x : ℤ) : Prop := -2 ^ (bits - 1) ≤ x ∧ x < 2 ^ (bits - 1)

instance (bits : ℕ) (x : ℤ) : Decidable (Signed bits x) := inferInstanceAs (Decidable (_ ∧ _))

theorem Signed.bmod {bits : ℕ} {x : ℤ} (hbits : 0 < bits) (h : Signed bits x) :
    Int.bmod x (2 ^ bits) = x := by
  obtain ⟨k, rfl⟩ : ∃ k, bits = k + 1 := ⟨bits - 1, by omega⟩
  obtain ⟨hlow, hhigh⟩ := h
  rw [Nat.add_sub_cancel] at hlow hhigh
  have hpow : ((2 ^ (k + 1) : ℕ) : ℤ) = 2 * 2 ^ k := by
    rw [Nat.cast_pow, pow_succ, mul_comm]
    rfl
  refine Int.bmod_eq_of_le_mul_two ?_ ?_
  · rw [hpow]
    linarith
  · rw [hpow]
    linarith

/-- What is left of a number which is cut down to 64 bits. -/
theorem bmod_wrapped {bits : ℕ} (hbits : bits ≤ 64) (x : ℤ) :
    Int.bmod ((x % 2 ^ 64).toNat : ℤ) (2 ^ bits) = Int.bmod x (2 ^ bits) := by
  have hcast : ((x % 2 ^ 64).toNat : ℤ) = x % 2 ^ 64 :=
    Int.toNat_of_nonneg (Int.emod_nonneg x (by decide))
  have hdvd : ((2 ^ bits : ℕ) : ℤ) ∣ 2 ^ 64 := by
    rw [Nat.cast_pow]
    exact pow_dvd_pow 2 hbits
  rw [hcast, ← Int.emod_bmod (x % 2 ^ 64), Int.emod_emod_of_dvd x hdvd, Int.emod_bmod]

theorem wrapped_lt (x : ℤ) : (x % 2 ^ 64).toNat < 2 ^ 64 := by
  have hlt : x % 2 ^ 64 < 2 ^ 64 := Int.emod_lt_of_pos x (by decide)
  omega

theorem VARINT_carries {bits : ℕ} (hpos : 0 < bits) (hbits : bits ≤ 64) (z : ℤ) {x : ℤ}
    (hx : Signed bits x) : (VARINT bits).Carries z x x 10 := by
  refine PbType.carries_of rfl rfl (varint_length_le _) (writes_varint _) fun rest => ?_
  simp only [pb_decode_varint_varint (wrapped_lt x), succeeds_some, PbExec.ok_bind,
    bmod_wrapped hbits, hx.bmod hpos]
  rfl

theorem INT32_carries (z : ℤ) {x : ℤ} (hx : Signed 32 x) : INT32.Carries z x x 10 :=
  VARINT_carries (by decide) (by decide) z hx

theorem INT64_carries (z : ℤ) {x : ℤ} (hx : Signed 64 x) : INT64.Carries z x x 10 :=
  VARINT_carries (by decide) (by decide) z hx

theorem zigzag_eq {x : ℤ} (hx : Signed 64 x) :
    (zigzag x : ℤ) = if x < 0 then -2 * x - 1 else 2 * x := by
  obtain ⟨hlow, hhigh⟩ := hx
  unfold zigzag
  split_ifs with hneg
  · have hmod : 2 * x % 2 ^ 64 = 2 * x + 2 ^ 64 := by omega
    omega
  · have hmod : 2 * x % 2 ^ 64 = 2 * x := by omega
    omega

theorem unzigzag_zigzag {x : ℤ} (hx : Signed 64 x) : unzigzag (zigzag x) = x := by
  have heq := zigzag_eq hx
  unfold unzigzag
  split_ifs at heq ⊢ <;> omega

theorem zigzag_lt {x : ℤ} (hx : Signed 64 x) : zigzag x < 2 ^ 64 := by
  have heq := zigzag_eq hx
  obtain ⟨hlow, hhigh⟩ := hx
  split_ifs at heq <;> omega

theorem Signed.mono {bits bits' : ℕ} {x : ℤ} (h : Signed bits x) (hle : bits ≤ bits') :
    Signed bits' x := by
  have hpow : (2 : ℤ) ^ (bits - 1) ≤ 2 ^ (bits' - 1) :=
    pow_le_pow_right₀ (by decide) (Nat.sub_le_sub_right hle 1)
  exact ⟨le_trans (neg_le_neg hpow) h.1, lt_of_lt_of_le h.2 hpow⟩

theorem SVARINT_carries {bits : ℕ} (hpos : 0 < bits) (hbits : bits ≤ 64) (z : ℤ) {x : ℤ}
    (hx : Signed bits x) : (SVARINT bits).Carries z x x 10 := by
  have hlong := hx.mono hbits
  refine PbType.carries_of rfl rfl (varint_length_le _) (writes_varint _) fun rest => ?_
  simp only [pb_decode_varint_varint (zigzag_lt hlong), succeeds_some, PbExec.ok_bind,
    unzigzag_zigzag hlong, hx.bmod hpos, ne_eq, not_true, if_false]
  rfl

theorem UINT32_carries (z x : UInt32) : UINT32.Carries z x x 10 := by
  have hlt := x.toNat_lt
  refine PbType.carries_of rfl rfl (varint_length_le _) (writes_varint _) fun rest => ?_
  simp only [pb_decode_varint_varint (Nat.lt_trans hlt (by decide)), succeeds_some,
    PbExec.ok_bind, if_neg (Nat.not_le.mpr hlt), UInt32.ofNat_toNat]
  rfl

theorem UINT64_carries (z x : UInt64) : UINT64.Carries z x x 10 := by
  refine PbType.carries_of rfl rfl (varint_length_le _) (writes_varint _) fun rest => ?_
  simp only [pb_decode_varint_varint x.toNat_lt, succeeds_some, PbExec.ok_bind,
    UInt64.ofNat_toNat]
  rfl

theorem BOOL_carries (z x : Bool) : BOOL.Carries z x x 1 := by
  cases x with
  | false => exact ⟨[0], by decide, fun _ => rfl, fun _ => rfl⟩
  | true => exact ⟨[1], by decide, fun _ => rfl, fun _ => rfl⟩

theorem FIXED32_carries (z : Bytes) {x : Bytes} (hx : x.length = 4) : FIXED32.Carries z x x 4 := by
  refine PbType.carries_of rfl rfl hx.le (fun _ => rfl) fun rest => ?_
  have hread := pb_read_append x rest
  rw [hx] at hread
  simp only [hread, succeeds_some, PbExec.ok_bind]
  rfl

theorem FIXED64_carries (z : Bytes) {x : Bytes} (hx : x.length = 8) : FIXED64.Carries z x x 8 := by
  refine PbType.carries_of rfl rfl hx.le (fun _ => rfl) fun rest => ?_
  have hread := pb_read_append x rest
  rw [hx] at hread
  simp only [hread, succeeds_some, PbExec.ok_bind]
  rfl

/-- A string in front of anything is carried, and zeros come behind it. -/
theorem STRING_carries {n : ℕ} (hn : n ≤ 128) {x : Bytes} {s : CString}
    (hx : cstring x = some s) (hs : s.length < n) :
    STRING.Carries (zeros n) x (strncpy n s) n := by
  have hlt : s.bytes.length < n := hs
  have hsize : varintSize 9 s.bytes.length = 1 := if_pos (Nat.lt_of_lt_of_le hlt hn)
  refine ⟨varint 9 s.bytes.length ++ s.bytes, ?_, fun stream => ?_, fun rest => ?_⟩
  · rw [List.length_append, varint_length, hsize]
    omega
  · rw [← writes_string s.bytes stream]
    simp [STRING, pb_enc_string, hx]
  · have hread := pb_dec_string_record hs (show n < 2 ^ 32 by omega) rest
    change succeeds (pb_dec_string .PB_WT_STRING _ _) = _
    rw [List.append_assoc, hread, succeeds_some]

theorem varint_length_le_two {value : ℕ} (h : value < 2 ^ 14) : (varint 9 value).length ≤ 2 := by
  rw [varint_length, varintSize]
  split_ifs with hlow
  · exact Nat.le_succ 1
  · have hrest : varintSize 8 (value / 128) = 1 := if_pos (by omega)
    rw [hrest]

theorem BYTES_carries {z x : PbBytes} (hz : x.bytes.length = z.bytes.length)
    (hx : x.size ≤ x.bytes.length) (hmax : x.bytes.length < 2 ^ 14) :
    BYTES.Carries z x ⟨x.size, splice z.bytes 0 (x.bytes.take x.size)⟩ (2 + x.bytes.length) := by
  have htake : (x.bytes.take x.size).length = x.size := List.length_take_of_le hx
  have hlen : (varint 9 x.size ++ x.bytes.take x.size).length ≤ 2 + x.bytes.length := by
    have hsize := varint_length_le_two (Nat.lt_of_le_of_lt hx hmax)
    rw [List.length_append, htake]
    omega
  refine PbType.carries_of rfl rfl hlen (fun stream => ?_) fun rest => ?_
  · have hwrites := writes_string (x.bytes.take x.size) stream
    rw [htake] at hwrites
    rw [← hwrites]
    exact if_neg (Nat.not_lt.mpr hx)
  · have hroom : ¬ (PB_SIZE_MAX < x.size ∨ z.bytes.length < x.size) := by
      have hsmall : 2 ^ 14 < PB_SIZE_MAX := by decide
      omega
    have hread := pb_read_append (x.bytes.take x.size) rest
    rw [htake] at hread
    simp only [List.append_assoc, pb_decode_varint32_varint (show x.size < 2 ^ 32 by omega),
      succeeds_some, PbExec.ok_bind, if_neg hroom, hread]
    rfl

end RinaSense.SerDes
