import Mathlib.Algebra.Group.Nat.Defs
import Mathlib.Logic.Function.Basic
import Mathlib.Tactic.Common

/-!
# Byte memory

Memory is a family of separately allocated blocks. A pointer is a block with an
offset, and an access succeeds exactly when it lies inside its block. Little-endian
integers and zero-terminated strings are views of such bytes.
-/

namespace RinaSense.Library.Memory

abbrev Bytes := List UInt8

/-- Position inside an allocated block. -/
structure Ptr where
  block : ℕ
  off : ℕ
deriving DecidableEq, Repr

def Ptr.add (p : Ptr) (n : ℕ) : Ptr := ⟨p.block, p.off + n⟩

@[simp] theorem Ptr.add_block (p : Ptr) (n : ℕ) : (p.add n).block = p.block := rfl

@[simp] theorem Ptr.add_off (p : Ptr) (n : ℕ) : (p.add n).off = p.off + n := rfl

/-- The contents of the blocks which are allocated. -/
abbrev Mem := ℕ → Option Bytes

/-- Replacement of the bytes from position `o` on by `bs`. -/
def splice (b : Bytes) (o : ℕ) (bs : Bytes) : Bytes :=
  b.take o ++ bs ++ b.drop (o + bs.length)

def load (m : Mem) (p : Ptr) (n : ℕ) : Option Bytes :=
  match m p.block with
  | none => none
  | some b => if p.off + n ≤ b.length then some ((b.drop p.off).take n) else none

def store (m : Mem) (p : Ptr) (bs : Bytes) : Option Mem :=
  match m p.block with
  | none => none
  | some b =>
    if p.off + bs.length ≤ b.length then
      some (Function.update m p.block (some (splice b p.off bs)))
    else none

@[simp] theorem splice_length {b bs : Bytes} {o : ℕ} (h : o + bs.length ≤ b.length) :
    (splice b o bs).length = b.length := by
  simp only [splice, List.length_append, List.length_take, List.length_drop]
  omega

theorem splice_append_left (pre post bs : Bytes) (o : ℕ) :
    splice (pre ++ post) (pre.length + o) bs = pre ++ splice post o bs := by
  have htake : pre.take (pre.length + o) = pre := List.take_of_length_le (by omega)
  have hdrop : pre.drop (pre.length + (o + bs.length)) = [] := List.drop_eq_nil_of_le (by omega)
  simp [splice, List.take_append, List.drop_append, Nat.add_assoc, htake, hdrop]

/-- A write which covers the front of a list leaves the rest. -/
theorem splice_front {old post bs : Bytes} (h : bs.length = old.length) :
    splice (old ++ post) 0 bs = bs ++ post := by
  simp [splice, h]

theorem splice_middle {pre old post bs : Bytes} (h : bs.length = old.length) :
    splice (pre ++ (old ++ post)) pre.length bs = pre ++ (bs ++ post) := by
  have h0 := splice_append_left pre (old ++ post) bs 0
  rw [Nat.add_zero] at h0
  rw [h0, splice_front h]

theorem splice_getElem?_outside {b bs : Bytes} {o i : ℕ} (h : o + bs.length ≤ b.length)
    (hi : i < o ∨ o + bs.length ≤ i) : (splice b o bs)[i]? = b[i]? := by
  have hlen : (b.take o).length = o := by
    rw [List.length_take]
    omega
  unfold splice
  rcases hi with hi | hi
  · rw [List.append_assoc, List.getElem?_append_left (by omega), List.getElem?_take_of_lt hi]
  · rw [List.getElem?_append_right (by rw [List.length_append]; omega), List.getElem?_drop,
      List.length_append, hlen]
    congr 1
    omega

/-- A write does not touch the bytes before and behind it. -/
theorem take_drop_splice {b bs : Bytes} {o p n : ℕ} (h : o + bs.length ≤ b.length)
    (hout : p + n ≤ o ∨ o + bs.length ≤ p) :
    ((splice b o bs).drop p).take n = (b.drop p).take n := by
  apply List.ext_getElem?
  intro i
  by_cases hi : i < n
  · rw [List.getElem?_take_of_lt hi, List.getElem?_take_of_lt hi, List.getElem?_drop,
      List.getElem?_drop, splice_getElem?_outside h (by omega)]
  · rw [List.getElem?_take_eq_none (by omega), List.getElem?_take_eq_none (by omega)]

theorem take_drop_splice_self {b bs : Bytes} {o : ℕ} (h : o + bs.length ≤ b.length) :
    ((splice b o bs).drop o).take bs.length = bs := by
  have hlen : (b.take o).length = o := by
    rw [List.length_take]
    omega
  rw [splice, List.append_assoc, List.drop_left' hlen, List.take_left]

theorem load_eq_some {m : Mem} {p : Ptr} {n : ℕ} {b : Bytes} (hb : m p.block = some b)
    (h : p.off + n ≤ b.length) : load m p n = some ((b.drop p.off).take n) := by
  simp [load, hb, h]

/-- A load in two parts. -/
theorem load_add (m : Mem) (p : Ptr) (j k : ℕ) :
    load m p (j + k) = (load m p j).bind fun x => (load m (p.add j) k).map (x ++ ·) := by
  cases hb : m p.block with
  | none => simp [load, hb]
  | some b =>
    by_cases hfit : p.off + (j + k) ≤ b.length
    · have hfront : p.off + j ≤ b.length := by omega
      have hback : (p.add j).off + k ≤ b.length := by
        rw [Ptr.add_off]
        omega
      rw [load_eq_some hb hfit, load_eq_some hb hfront, load_eq_some (p := p.add j) hb hback]
      simp [List.take_add]
    · have hback : ¬ (p.add j).off + k ≤ b.length := by
        rw [Ptr.add_off]
        omega
      have hwhole : load m p (j + k) = none := by simp only [load, hb, if_neg hfit]
      have hnone : load m (p.add j) k = none := by simp only [load, Ptr.add_block, hb, if_neg hback]
      simp [hwhole, hnone]

theorem store_eq_some {m : Mem} {p : Ptr} {bs b : Bytes} (hb : m p.block = some b)
    (h : p.off + bs.length ≤ b.length) :
    store m p bs = some (Function.update m p.block (some (splice b p.off bs))) := by
  simp [store, hb, h]

/-- The value of little-endian bytes. -/
def leVal : Bytes → ℕ
  | [] => 0
  | b :: bs => b.toNat + 256 * leVal bs

/-- The `n` low-order bytes of a number, least significant first. -/
def leBytes : ℕ → ℕ → Bytes
  | 0, _ => []
  | n + 1, v => UInt8.ofNat v :: leBytes n (v / 256)

@[simp] theorem leBytes_length (n v : ℕ) : (leBytes n v).length = n := by
  induction n generalizing v with
  | zero => rfl
  | succ n ih => simp [leBytes, ih]

theorem leVal_leBytes (n v : ℕ) : leVal (leBytes n v) = v % 256 ^ n := by
  induction n generalizing v with
  | zero => simp [leBytes, leVal, Nat.mod_one]
  | succ n ih =>
    have hb : (UInt8.ofNat v).toNat = v % 256 := by simp
    rw [leBytes, leVal, ih, hb, Nat.pow_succ', Nat.mod_mul]

theorem leVal_lt (bs : Bytes) : leVal bs < 256 ^ bs.length := by
  induction bs with
  | nil => simp [leVal]
  | cons b bs ih =>
    have hb := b.toNat_lt
    rw [leVal, List.length_cons, Nat.pow_succ]
    omega

theorem leBytes_leVal (bs : Bytes) : leBytes bs.length (leVal bs) = bs := by
  induction bs with
  | nil => rfl
  | cons b bs ih =>
    have hb := b.toNat_lt
    have hdiv : (b.toNat + 256 * leVal bs) / 256 = leVal bs := by omega
    have hmod : UInt8.ofNat (b.toNat + 256 * leVal bs) = b := by
      apply UInt8.toNat_inj.mp
      simp only [UInt8.toNat_ofNat']
      omega
    rw [leVal, List.length_cons, leBytes, hdiv, hmod, ih]

end RinaSense.Library.Memory
