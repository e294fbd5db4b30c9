import Mathlib.Data.Nat.Notation
import RinaSense.Common.Platform
import RinaSense.Library.CString

/-!
# The protobuf library

What the serialisers use of `pb_encode.c` and `pb_decode.c`. A message is a sequence of
fields with a tag in front of each; a field whose value has a length is read by a callback
or into an array. A stream to be read is the list of its bytes.
-/

namespace RinaSense.SerDes

open Common Library.Memory

inductive PbWireType
  | PB_WT_VARINT
  | PB_WT_64BIT
  | PB_WT_STRING
  | PB_WT_32BIT
  /-- One of the numbers which stand for no wire type. -/
  | other
deriving DecidableEq, Repr

def wireType : ℕ → PbWireType
  | 0 => .PB_WT_VARINT
  | 1 => .PB_WT_64BIT
  | 2 => .PB_WT_STRING
  | 5 => .PB_WT_32BIT
  | _ => .other

/-! ### Output streams -/

structure PbOstream where
  /-- Absent in a stream which only counts. -/
  max_size : Option ℕ
  bytes_written : ℕ
  buffer : Bytes
deriving DecidableEq, Repr

def pb_ostream_from_buffer (bufsize : ℕ) : PbOstream := ⟨some bufsize, 0, []⟩

/-- `PB_OSTREAM_SIZING`. -/
def pb_ostream_sizing : PbOstream := ⟨none, 0, []⟩

def pb_write (stream : PbOstream) (buf : Bytes) : Option PbOstream :=
  match stream.max_size with
  | none => some { stream with bytes_written := stream.bytes_written + buf.length }
  | some max_size =>
    if buf ≠ [] ∧ max_size < stream.bytes_written + buf.length then none
    else some { stream with
      bytes_written := stream.bytes_written + buf.length
      buffer := stream.buffer ++ buf }

/-- Seven bits to a byte, the low ones first, and a mark on all but the last; at most
`k + 1` bytes. -/
def varint : ℕ → ℕ → Bytes
  | 0, v => [UInt8.ofNat v]
  | k + 1, v =>
    if v < 128 then [UInt8.ofNat v] else UInt8.ofNat (v % 128 + 128) :: varint k (v / 128)

/-- A value of 64 bits takes ten bytes at most. -/
def pb_encode_varint (stream : PbOstream) (value : ℕ) : Option PbOstream :=
  pb_write stream (varint 9 value)

/-- The tag of a field whose value has a length or is a number. -/
def pb_encode_tag_for_field (stream : PbOstream) (wire_type tag : ℕ) : Option PbOstream :=
  pb_encode_varint stream (8 * tag + wire_type)

def pb_encode_string (stream : PbOstream) (buffer : Bytes) : Option PbOstream := do
  let stream ← pb_encode_varint stream buffer.length
  pb_write stream buffer

/-- The fields are encoded twice: once to learn their size, and once to write them. -/
def pb_encode_submessage (encode : PbOstream → Option PbOstream) (stream : PbOstream) :
    Option PbOstream := do
  let sizing ← encode pb_ostream_sizing
  let size := sizing.bytes_written
  let stream ← pb_encode_varint stream size
  match stream.max_size with
  | none => pb_write stream (List.replicate size 0)
  | some max_size =>
    if max_size < stream.bytes_written + size then none
    else do
      let substream ← encode (pb_ostream_from_buffer size)
      if substream.bytes_written ≠ size then none
      else some { stream with
        bytes_written := stream.bytes_written + size
        buffer := stream.buffer ++ substream.buffer }

/-! ### Input streams -/

/-- A step of the decoder can return `false`, which is `none`, or end in a trap. -/
abbrev PbExec (α : Type) := Except (Option Trap) α

@[simp] theorem PbExec.ok_bind {α β : Type} (a : α) (f : α → PbExec β) :
    ((Except.ok a : PbExec α) >>= f) = f a := rfl

@[simp] theorem PbExec.error_bind {α β : Type} (t : Option Trap) (f : α → PbExec β) :
    ((Except.error t : PbExec α) >>= f) = .error t := rfl

theorem PbExec.bind_eq_ok {α γ : Type} {x : PbExec α} {f : α → PbExec γ} {c : γ} :
    (x >>= f) = .ok c ↔ ∃ a, x = .ok a ∧ f a = .ok c := by
  cases x with
  | error t => simp
  | ok a => simp

/-- A step which returns `false` when it has no result. -/
def succeeds {α : Type} : Option α → PbExec α
  | none => .error none
  | some a => .ok a

@[simp] theorem succeeds_some {α : Type} (a : α) : succeeds (some a) = .ok a := rfl

theorem succeeds_eq_ok {α : Type} {x : Option α} {a : α} (h : succeeds x = .ok a) :
    x = some a := by
  cases x with
  | none => cases h
  | some b =>
    cases h
    rfl

/-- A step which the library does not supervise. -/
def traps {α : Type} : Exec α → PbExec α
  | .error t => .error (some t)
  | .ok a => .ok a

@[simp] theorem traps_ok {α : Type} (a : α) : traps (.ok a : Exec α) = .ok a := rfl

/-- What the caller makes of the status. -/
def status {α : Type} : PbExec α → Exec (Option α)
  | .error none => .ok none
  | .error (some t) => .error t
  | .ok a => .ok (some a)

def pb_read (stream : Bytes) (count : ℕ) : Option (Bytes × Bytes) :=
  if stream.length < count then none else some (stream.take count, stream.drop count)

/-- The bytes behind the first. A value which is too long may go on with zeros, or with
the sign of a negative number. -/
def varint32Rest (bitpos result : ℕ) : Bytes → Option (ℕ × Bytes)
  | [] => none
  | byte :: stream =>
    if 32 ≤ bitpos then
      let sign_extension : UInt8 := if bitpos < 63 then 0xFF else 0x01
      if 64 ≤ bitpos ∨
          ¬ (byte.toNat % 128 = 0 ∨ (result / 2 ^ 31 ≠ 0 ∧ byte = sign_extension)) then none
      else if 128 ≤ byte.toNat then varint32Rest (bitpos + 7) result stream
      else some (result, stream)
    else
      let result := result ||| (byte.toNat % 128) * 2 ^ bitpos % 2 ^ 32
      if 128 ≤ byte.toNat then varint32Rest (bitpos + 7) result stream
      else if bitpos + 7 = 35 ∧ byte.toNat &&& 0x70 ≠ 0 then none
      else some (result, stream)

def pb_decode_varint32 : Bytes → Option (ℕ × Bytes)
  | [] => none
  | byte :: stream =>
    if byte.toNat < 128 then some (byte.toNat, stream)
    else varint32Rest 7 (byte.toNat % 128) stream

def varint64Rest (bitpos result : ℕ) : Bytes → Option (ℕ × Bytes)
  | [] => none
  | byte :: stream =>
    if 64 ≤ bitpos then none
    else
      let result := result ||| (byte.toNat % 128) * 2 ^ bitpos % 2 ^ 64
      if 128 ≤ byte.toNat then varint64Rest (bitpos + 7) result stream
      else some (result, stream)

def pb_decode_varint (stream : Bytes) : Option (ℕ × Bytes) := varint64Rest 0 0 stream

def pb_skip_varint : Bytes → Option Bytes
  | [] => none
  | byte :: stream => if 128 ≤ byte.toNat then pb_skip_varint stream else some stream

def pb_skip_string (stream : Bytes) : Option Bytes := do
  let (length, stream) ← pb_decode_varint32 stream
  let (_, stream) ← pb_read stream length
  return stream

def pb_decode_tag (stream : Bytes) : Option (ℕ × PbWireType × Bytes) := do
  let (temp, stream) ← pb_decode_varint32 stream
  return (temp / 8, wireType (temp % 8), stream)

def pb_skip_field (stream : Bytes) : PbWireType → Option Bytes
  | .PB_WT_VARINT => pb_skip_varint stream
  | .PB_WT_64BIT => (pb_read stream 8).map (·.2)
  | .PB_WT_STRING => pb_skip_string stream
  | .PB_WT_32BIT => (pb_read stream 4).map (·.2)
  | .other => none

/-- The bytes of a number, at most `max_size` of them. -/
def rawVarint : ℕ → Bytes → Option (Bytes × Bytes)
  | 0, _ => none
  | _ + 1, [] => none
  | max_size + 1, byte :: stream =>
    if 128 ≤ byte.toNat then
      (rawVarint max_size stream).map fun p => (byte :: p.1, p.2)
    else some ([byte], stream)

def read_raw_value (stream : Bytes) : PbWireType → Option (Bytes × Bytes)
  | .PB_WT_VARINT => rawVarint 10 stream
  | .PB_WT_64BIT => pb_read stream 8
  | .PB_WT_32BIT => pb_read stream 4
  | .PB_WT_STRING => none
  | .other => none

/-- The bytes of a value with a length, and what comes behind it. -/
def pb_make_string_substream (stream : Bytes) : Option (Bytes × Bytes) := do
  let (size, stream) ← pb_decode_varint32 stream
  if stream.length < size then none else return (stream.take size, stream.drop size)

/-! ### Fields -/

/-- An array for a string in the structure of a message. -/
structure PbString where
  has : Bool
  chars : Bytes
deriving DecidableEq, Repr

/-- A string has to end inside its array. -/
def pb_enc_string (stream : PbOstream) (chars : Bytes) : Option PbOstream := do
  let str ← cstring chars
  pb_encode_string stream str.bytes

def encode_string_field (tag : ℕ) (field : PbString) (stream : PbOstream) : Option PbOstream :=
  if field.has then do
    let stream ← pb_encode_tag_for_field stream 2 tag
    pb_enc_string stream field.chars
  else some stream

def encode_uint64_field (tag : ℕ) (has : Bool) (value : UInt64) (stream : PbOstream) :
    Option PbOstream :=
  if has then do
    let stream ← pb_encode_tag_for_field stream 0 tag
    pb_encode_varint stream value.toNat
  else some stream

/-- What a field does with the value which comes behind its tag. -/
abbrev FieldDecoder (β : Type) := PbWireType → Bytes → β → PbExec (Bytes × β)

/-- A string and its terminator go into the array. -/
def pb_dec_string (wire_type : PbWireType) (stream chars : Bytes) : Option (Bytes × Bytes) := do
  if wire_type ≠ .PB_WT_STRING then none
  else
    let (size, stream) ← pb_decode_varint32 stream
    if size = 2 ^ 32 - 1 ∨ chars.length < size + 1 then none
    else
      let (payload, stream) ← pb_read stream size
      return (stream, splice (splice chars size [0]) 0 payload)

section Decoder

variable {β : Type}

def decode_string_field (get : β → PbString) (set : PbString → β → β) : FieldDecoder β :=
  fun wire_type stream dest => do
    let (stream, chars) ← succeeds (pb_dec_string wire_type stream (get dest).chars)
    return (stream, set ⟨true, chars⟩ dest)

def decode_uint64_field (set : UInt64 → β → β) : FieldDecoder β :=
  fun wire_type stream dest => do
    if wire_type ≠ .PB_WT_VARINT then .error none
    else
      let (value, stream) ← succeeds (pb_decode_varint stream)
      return (stream, set (UInt64.ofNat value) dest)

/-- The callback is given the bytes which are left of the value, for as long as it takes some
and leaves some. -/
def callbackLoop (callback : Bytes → β → PbExec (Bytes × β)) (substream : Bytes) (dest : β) :
    PbExec β := do
  let (rest, dest) ← callback substream dest
  if _h : rest ≠ [] ∧ rest.length < substream.length then callbackLoop callback rest dest
  else return dest
termination_by substream.length
decreasing_by exact _h.2

/-- A number is handed to the callback as its bytes. -/
def decode_callback_field (callback : Bytes → β → PbExec (Bytes × β)) : FieldDecoder β :=
  fun wire_type stream dest => do
    if wire_type = .PB_WT_STRING then
      let (substream, stream) ← succeeds (pb_make_string_substream stream)
      let dest ← callbackLoop callback substream dest
      return (stream, dest)
    else
      let (raw, stream) ← succeeds (read_raw_value stream wire_type)
      let (_, dest) ← callback raw dest
      return (stream, dest)

/-- The fields of a message one after the other. Each takes a byte at least, so that there
are no more of them than bytes. -/
def pb_decode_inner (fields : ℕ → Option (FieldDecoder β)) : ℕ → Bytes → β → PbExec β
  | _, [], dest => .ok dest
  | 0, _ :: _, _ => .error none
  | k + 1, byte :: stream, dest => do
    let (tag, wire_type, stream) ← succeeds (pb_decode_tag (byte :: stream))
    if tag = 0 then .error none
    else
      match fields tag with
      | none => do
        let stream ← succeeds (pb_skip_field stream wire_type)
        pb_decode_inner fields k stream dest
      | some decode_field => do
        let (stream, dest) ← decode_field wire_type stream dest
        pb_decode_inner fields k stream dest

/-- The fields of `dest` which the library owns have their defaults. -/
def pb_decode (fields : ℕ → Option (FieldDecoder β)) (stream : Bytes) (dest : β) : PbExec β :=
  pb_decode_inner fields stream.length stream dest

end Decoder

end RinaSense.SerDes
