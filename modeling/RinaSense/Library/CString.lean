import RinaSense.Library.Memory

/-!
# Zero-terminated strings

Strings without a zero byte, how they lie in byte arrays, and the copies which put them
there. A copy leaves what lies before and behind it.
-/

namespace RinaSense.Library.Memory

/-- The bytes of a C string before its terminator. -/
structure CString where
  bytes : Bytes
  noZero : (0 : UInt8) ∉ bytes
deriving DecidableEq

def CString.empty : CString := ⟨[], by simp⟩

def CString.length (s : CString) : ℕ := s.bytes.length

/-- The string with its terminator. -/
def CString.terminated (s : CString) : Bytes := s.bytes ++ [0]

@[simp] theorem CString.terminated_length (s : CString) :
    s.terminated.length = s.length + 1 := by
  simp [CString.terminated, CString.length]

@[ext] theorem CString.ext {s t : CString} (h : s.bytes = t.bytes) : s = t := by
  cases s
  cases t
  cases h
  rfl

/-- A part of a string. -/
def CString.take (s : CString) (n : ℕ) : CString :=
  ⟨s.bytes.take n, fun h => s.noZero (List.mem_of_mem_take h)⟩

theorem CString.take_of_length_le {s : CString} {n : ℕ} (hn : s.length ≤ n) : s.take n = s :=
  CString.ext (List.take_of_length_le hn)

def CString.append (s t : CString) : CString :=
  ⟨s.bytes ++ t.bytes, fun h => (List.mem_append.mp h).elim s.noZero t.noZero⟩

theorem takeWhile_noZero (b : Bytes) : (0 : UInt8) ∉ b.takeWhile fun x => x ≠ 0 := by
  induction b with
  | nil => simp
  | cons x b ih =>
    by_cases hx : x = 0
    · simp [hx]
    · simpa [hx, Ne.symm hx] using ih

/-- The string at the start of an array, unless there is no terminator. -/
def cstring (b : Bytes) : Option CString :=
  if (0 : UInt8) ∈ b then
    some ⟨b.takeWhile (· ≠ 0), takeWhile_noZero b⟩
  else none

theorem cstring_of_mem {b : Bytes} (h : (0 : UInt8) ∈ b) : ∃ s, cstring b = some s :=
  ⟨_, if_pos h⟩

theorem cstring_append (s : CString) (rest : Bytes) :
    cstring (s.bytes ++ 0 :: rest) = some s := by
  have hmem : (0 : UInt8) ∈ s.bytes ++ 0 :: rest := by simp
  have hall : ∀ x ∈ s.bytes, decide (x ≠ 0) = true := by
    intro x hx
    exact decide_eq_true fun h0 => s.noZero (h0 ▸ hx)
  have hstop : (s.bytes ++ 0 :: rest).takeWhile (fun x => decide (x ≠ 0)) = s.bytes := by
    rw [List.takeWhile_append_of_pos hall]
    simp
  rw [cstring, if_pos hmem]
  exact congrArg some (CString.ext hstop)

/-- An array with a string at its start goes on behind the terminator. -/
theorem eq_of_cstring {b : Bytes} {s : CString} (h : cstring b = some s) :
    ∃ rest, b = s.terminated ++ rest := by
  unfold cstring at h
  split_ifs at h with hmem
  cases h
  have hsplit := List.takeWhile_append_dropWhile (p := fun x : UInt8 => decide (x ≠ 0)) (l := b)
  cases hrest : b.dropWhile fun x => decide (x ≠ 0) with
  | nil =>
    rw [hrest, List.append_nil] at hsplit
    rw [← hsplit] at hmem
    exact absurd hmem (takeWhile_noZero b)
  | cons x rest =>
    have hx : x = 0 := by
      have hne : b.dropWhile (fun x => decide (x ≠ 0)) ≠ [] := hrest ▸ List.cons_ne_nil x rest
      have hstop := List.head_dropWhile_not (fun x : UInt8 => decide (x ≠ 0)) hne
      simp only [hrest, List.head_cons] at hstop
      exact not_not.mp (of_decide_eq_false hstop)
    subst hx
    rw [hrest] at hsplit
    refine ⟨rest, ?_⟩
    rw [CString.terminated, List.append_assoc]
    exact hsplit.symm

theorem cstring_terminated (s : CString) : cstring s.terminated = some s := cstring_append s []

/-- A string between other bytes. -/
theorem cstring_drop {b pre rest : Bytes} {s : CString} {o : ℕ}
    (hb : b = pre ++ (s.terminated ++ rest)) (ho : o = pre.length) :
    cstring (b.drop o) = some s := by
  rw [hb, ho, List.drop_left, CString.terminated, List.append_assoc]
  exact cstring_append s rest

/-- The string lies at the offset of the array. -/
def StringAt (b : Bytes) (o : ℕ) (s : CString) : Prop :=
  (b.drop o).take (s.length + 1) = s.terminated

theorem StringAt.cstring {b : Bytes} {o : ℕ} {s : CString} (h : StringAt b o s) :
    cstring (b.drop o) = some s := by
  rw [← List.take_append_drop (s.length + 1) (b.drop o), h, CString.terminated,
    List.append_assoc]
  exact cstring_append s _

/-- A copied string lies where it was put. -/
theorem stringAt_splice {b : Bytes} {o : ℕ} {s : CString} (h : o + s.length + 1 ≤ b.length) :
    StringAt (splice b o s.terminated) o s := by
  have hlen : o + s.terminated.length ≤ b.length := by
    rw [CString.terminated_length]
    omega
  have hself := take_drop_splice_self hlen
  rw [CString.terminated_length] at hself
  exact hself

/-- A copy which does not touch a string leaves it. -/
theorem StringAt.splice {b bs : Bytes} {o p : ℕ} {s : CString} (h : StringAt b p s)
    (hlen : o + bs.length ≤ b.length)
    (hout : p + s.length + 1 ≤ o ∨ o + bs.length ≤ p) : StringAt (splice b o bs) p s := by
  rw [StringAt, take_drop_splice hlen (by omega)]
  exact h

/-- A copy into the middle of a string cuts it off and takes its place. -/
theorem StringAt.overwrite {b : Bytes} {o n : ℕ} {s t : CString} (h : StringAt b o s)
    (hn : n ≤ s.length) (hlen : o + n + t.length + 1 ≤ b.length) :
    StringAt (Memory.splice b (o + n) t.terminated) o ((s.take n).append t) := by
  have htaken : (s.take n).bytes.length = n := by
    rw [CString.take, List.length_take]
    exact Nat.min_eq_left hn
  have hlen' : o + n + t.terminated.length ≤ b.length := by
    rw [CString.terminated_length]
    omega
  have hfront : ((Memory.splice b (o + n) t.terminated).drop o).take n = (s.take n).bytes := by
    rw [take_drop_splice hlen' (Or.inl (Nat.le_refl _))]
    have hs : ((b.drop o).take (s.length + 1)).take n = s.terminated.take n := by rw [h]
    rw [List.take_take, Nat.min_eq_left (by omega)] at hs
    rw [hs, CString.terminated, List.take_append_of_le_length hn]
    rfl
  have hback : ((Memory.splice b (o + n) t.terminated).drop (o + n)).take (t.length + 1) =
      t.terminated := by
    have hself := take_drop_splice_self hlen'
    rw [CString.terminated_length] at hself
    exact hself
  have hsize : ((s.take n).append t).length + 1 = n + (t.length + 1) := by
    rw [CString.length, CString.append, List.length_append, htaken]
    exact Nat.add_assoc _ _ _
  rw [StringAt, hsize, List.take_add, hfront, List.drop_drop, hback]
  simp [CString.terminated, CString.append]

/-- The array which `strncpy` leaves. -/
def strncpy (n : ℕ) (s : CString) : Bytes :=
  s.bytes.take n ++ List.replicate (n - s.length) 0

/-- A string which fits with its terminator reads back. -/
theorem cstring_strncpy {n : ℕ} {s : CString} (h : s.length < n) :
    cstring (strncpy n s) = some s := by
  obtain ⟨k, rfl⟩ := Nat.exists_eq_add_of_lt h
  have hpad : s.length + k + 1 - s.length = k + 1 := by omega
  have htake : s.bytes.take (s.length + k + 1) = s.bytes :=
    List.take_of_length_le (by rw [CString.length]; omega)
  rw [strncpy, hpad, htake, List.replicate_succ]
  exact cstring_append s _

/-- An array of zeros holds the empty string. -/
theorem cstring_zeros {n : ℕ} (h : 0 < n) :
    cstring (List.replicate n 0) = some CString.empty := by
  obtain ⟨k, rfl⟩ := Nat.exists_eq_add_of_lt h
  rw [Nat.zero_add, List.replicate_succ]
  exact cstring_append CString.empty _

/-! ### Numbers -/

/-- The digits of a number, as `%d` prints it. -/
def decimalBytes (n : ℤ) : Bytes :=
  (if n < 0 then [45] else []) ++ (Nat.toDigits 10 n.natAbs).map fun c => c.toNat.toUInt8

theorem digit_ne_zero {c : Char} (h : c.isDigit = true) : c.toNat.toUInt8 ≠ 0 := by
  simp only [Char.isDigit, Bool.and_eq_true, decide_eq_true_eq] at h
  obtain ⟨hlow, hhigh⟩ := h
  have hlow' : 48 ≤ c.toNat := hlow
  have hhigh' : c.toNat ≤ 57 := hhigh
  intro h0
  have hnat := congrArg UInt8.toNat h0
  rw [UInt8.toNat_ofNat'] at hnat
  have hzero : (0 : UInt8).toNat = 0 := rfl
  omega

theorem decimalBytes_noZero (n : ℤ) : (0 : UInt8) ∉ decimalBytes n := by
  have hdigits : (0 : UInt8) ∉ (Nat.toDigits 10 n.natAbs).map fun c => c.toNat.toUInt8 := by
    intro h
    obtain ⟨c, hc, h0⟩ := List.mem_map.mp h
    exact digit_ne_zero (Nat.isDigit_of_mem_toDigits (by decide) (by decide) hc) h0
  unfold decimalBytes
  split_ifs
  · simpa using hdigits
  · simpa using hdigits

def CString.decimal (n : ℤ) : CString := ⟨decimalBytes n, decimalBytes_noZero n⟩

end RinaSense.Library.Memory
