import RinaSense.Common.Platform

/-!
# Status words

A status packs a category, a free byte for an error number of the system and the error of the
category into one word, and a word which is not zero is an error.
-/

namespace RinaSense.Common

structure RsErrT where
  c : UInt32
deriving DecidableEq, Repr

def MK_CAT (cat : UInt32) : UInt32 := cat <<< 24

def MK_ERR (cat err : UInt32) : RsErrT := ⟨cat ||| err⟩

def SUCCESS : RsErrT := ⟨0⟩

def ERR_CHK (x : RsErrT) : Bool := x.c != 0

/-! ### The errors of `rinasense_errors.h` -/

def EC_BASE : UInt32 := MK_CAT 0x00
def ERR_ERR : RsErrT := MK_ERR EC_BASE 0x01
def ERR_OOM : RsErrT := MK_ERR EC_BASE 0x02
def ERR_BAD_ARG : RsErrT := MK_ERR EC_BASE 0x03
def ERR_PTHREAD : RsErrT := MK_ERR EC_BASE 0x04
def ERR_ERRNO : RsErrT := MK_ERR EC_BASE 0x05
def ERR_OVERFLOW : RsErrT := MK_ERR EC_BASE 0x06
def ERR_UNDERFLOW : RsErrT := MK_ERR EC_BASE 0x07
def ERR_TIMEDOUT : RsErrT := MK_ERR EC_BASE 0x08

def EC_GPA : UInt32 := MK_CAT 0x01
def ERR_GPA_INVALID : RsErrT := MK_ERR EC_GPA 0x01
def ERR_GHA_INVALID : RsErrT := MK_ERR EC_GPA 0x02

def EC_NETBUF : UInt32 := MK_CAT 0x02
def ERR_NETBUF_SPLIT_FAIL : RsErrT := MK_ERR EC_NETBUF 0x01

def EC_SERDES : UInt32 := MK_CAT 0x03
def ERR_SERDES_ENCODING_FAIL : RsErrT := MK_ERR EC_SERDES 0x01
def ERR_SERDES_DECODING_FAIL : RsErrT := MK_ERR EC_SERDES 0x02

def EC_RIB : UInt32 := MK_CAT 0x04
def ERR_RIB_TABLE_FULL : RsErrT := MK_ERR EC_RIB 0x01
def ERR_RIB_NOT_PENDING : RsErrT := MK_ERR EC_RIB 0x02
def ERR_RIB_NEIGHBOR_NOT_FOUND : RsErrT := MK_ERR EC_RIB 0x03
def ERR_RIB_TOO_MANY_CONNECTIONS : RsErrT := MK_ERR EC_RIB 0x04
def ERR_RIB_NO_SUCH_CONNECTION : RsErrT := MK_ERR EC_RIB 0x05
def ERR_RIB_OBJECT_UNSUPPORTED : RsErrT := MK_ERR EC_RIB 0x06
def ERR_RIB_OBJECT_UNSUP_METHOD : RsErrT := MK_ERR EC_RIB 0x07
def ERR_RIB_BAD_CONNECTION_STATE : RsErrT := MK_ERR EC_RIB 0x08
def ERR_RIB_CONNECTION_EXISTS : RsErrT := MK_ERR EC_RIB 0x09
def ERR_RIB_TIMEOUT : RsErrT := MK_ERR EC_RIB 0x10

def EC_ENROLLMENT : UInt32 := MK_CAT 0x05
def ERR_ENROLLMENT_INBOUND_FAIL : RsErrT := MK_ERR EC_ENROLLMENT 0x01

def FAIL : RsErrT := ERR_ERR

/-- The status of an error which is set. -/
def ERR_SET (x : RsErrT) : RsErrT := if x.c = 0 then SUCCESS else x

/-- The number of the system is to go into the word. -/
def xErrorSetErrno (errno : UInt32) : RsErrT := ⟨ERR_ERRNO.c &&& (errno <<< 24)⟩

/-- The error number of a call to `pthread` goes into the free byte and above. -/
def ERR_PTHREAD_OF (n : UInt32) : RsErrT := MK_ERR ERR_PTHREAD.c (n <<< 16)

theorem ERR_SET_eq (x : RsErrT) : ERR_SET x = x := by
  rw [ERR_SET]
  split_ifs with h
  · exact congrArg RsErrT.mk h.symm
  · rfl

/-- The mask of the code and the shifted number have no bit in common. -/
theorem xErrorSetErrno_eq (errno : UInt32) : xErrorSetErrno errno = SUCCESS := by
  have hzero : (5 : UInt32) &&& (errno <<< 24) = 0 := by
    apply UInt32.toNat_inj.mp
    apply Nat.eq_of_testBit_eq
    intro i
    rw [UInt32.toNat_and, Nat.testBit_and, UInt32.toNat_shiftLeft, Nat.testBit_mod_two_pow]
    change (Nat.testBit 5 i && (decide (i < 32) && (errno.toNat <<< 24).testBit i)) =
      Nat.testBit 0 i
    rw [Nat.testBit_shiftLeft, Nat.zero_testBit]
    by_cases hi : 24 ≤ i
    · have hsmall : 5 < 2 ^ i := Nat.lt_of_lt_of_le (by decide) (Nat.pow_le_pow_right (by decide) hi)
      rw [Nat.testBit_lt_two_pow hsmall, Bool.false_and]
    · simp [hi]
  exact congrArg RsErrT.mk hzero

end RinaSense.Common
