import Mathlib.Data.Int.Notation
import RinaSense.Common.Errors
import RinaSense.Library.CString

/-!
# Error messages

The table of `rinasense_errors.c` and the lookup which setting a status makes in it. The category
of the status selects a list of messages and its error an entry of the list.
-/

namespace RinaSense.Common

open Library.Memory

/-! ### The table -/

def GenericErrorMessages : List String :=
  ["Unknown error", "Out of memory", "Bad arguments", "pthread error: %d", "System error: %d",
    "Overflow", "Underflow", "Timeout"]

def GpaErrorMessages : List String :=
  ["Invalid GPA (General Protocol Address)", "Invalid GHA (General Hardware Address)"]

def NetBufsMessages : List String := ["Failed to split netbufs"]

def SerDesMessages : List String := ["Encoding failed", "Decoding failed"]

/-- No comma stands between two of the literals, so that they are one. -/
def RibErrorMessages : List String :=
  ["RIB object table is full", "No pending RIB requests found for invoke ID %d",
    "Neighbor %s was not found", "Too many active connections" ++ "No such connection",
    "Unsupported RIB object: '%s'", "Unsupported method %s on RIB object '%s'",
    "Invalid connection state", "Connection already exists", "Timed out"]

def EnrollmentErrorMessages : List String := ["Inbound enrollment process failed"]

def ErrorMessages : List (List String) :=
  [GenericErrorMessages, GpaErrorMessages, NetBufsMessages, SerDesMessages, RibErrorMessages,
    EnrollmentErrorMessages]

def xErrorGetMsg (xErr : RsErrT) : Exec String := do
  let unLevel1 := xErr.c >>> 24
  let unLevel2 := xErr.c &&& 0xFF
  let messages ← inBounds ErrorMessages[unLevel1.toNat]?
  inBounds messages[(unLevel2 - 1).toNat]?

/-! ### Formats -/

inductive Conversion
  | d
  | s
deriving DecidableEq, Repr

def conversionsOf : List Char → List Conversion
  | '%' :: 'd' :: cs => .d :: conversionsOf cs
  | '%' :: 's' :: cs => .s :: conversionsOf cs
  | _ :: cs => conversionsOf cs
  | [] => []

/-- The arguments which a message takes when it is used as a format. -/
def conversions (msg : String) : List Conversion := conversionsOf msg.toList

/-! ### The messages as they were meant -/

/-- The message which the comment with its number gives to a status. -/
def statedMessages : List (RsErrT × String) :=
  [(ERR_ERR, "Unknown error"),
    (ERR_OOM, "Out of memory"),
    (ERR_BAD_ARG, "Bad arguments"),
    (ERR_PTHREAD, "pthread error: %d"),
    (ERR_ERRNO, "System error: %d"),
    (ERR_OVERFLOW, "Overflow"),
    (ERR_UNDERFLOW, "Underflow"),
    (ERR_TIMEDOUT, "Timeout"),
    (ERR_GPA_INVALID, "Invalid GPA (General Protocol Address)"),
    (ERR_GHA_INVALID, "Invalid GHA (General Hardware Address)"),
    (ERR_NETBUF_SPLIT_FAIL, "Failed to split netbufs"),
    (ERR_SERDES_ENCODING_FAIL, "Encoding failed"),
    (ERR_SERDES_DECODING_FAIL, "Decoding failed"),
    (ERR_RIB_TABLE_FULL, "RIB object table is full"),
    (ERR_RIB_NOT_PENDING, "No pending RIB requests found for invoke ID %d"),
    (ERR_RIB_NEIGHBOR_NOT_FOUND, "Neighbor %s was not found"),
    (ERR_RIB_TOO_MANY_CONNECTIONS, "Too many active connections"),
    (ERR_RIB_NO_SUCH_CONNECTION, "No such connection"),
    (ERR_RIB_OBJECT_UNSUPPORTED, "Unsupported RIB object: '%s'"),
    (ERR_RIB_OBJECT_UNSUP_METHOD, "Unsupported method %s on RIB object '%s'"),
    (ERR_RIB_BAD_CONNECTION_STATE, "Invalid connection state"),
    (ERR_RIB_CONNECTION_EXISTS, "Connection already exists"),
    (ERR_RIB_TIMEOUT, "Timed out"),
    (ERR_ENROLLMENT_INBOUND_FAIL, "Inbound enrollment process failed")]

def statedMessage (xErr : RsErrT) : Option String := statedMessages.lookup xErr

/-! ### Setting a status -/

/-- A number, a string of a message or of an object, or one of the program. -/
inductive Arg
  | int (n : ℤ)
  | string (s : CString)
  | literal (s : String)
deriving DecidableEq

def Arg.conversion : Arg → Conversion
  | .int _ => .d
  | .string _ => .s
  | .literal _ => .s

/-- A use of one of the macros which look up the message. -/
inductive Report
  | ERR_SET (x : RsErrT)
  | ERR_SETF (x : RsErrT) (args : List Arg)
  | ERR_SET_PTHREAD (n : UInt32)
deriving DecidableEq

/-- The word whose message is looked up. -/
def Report.word : Report → RsErrT
  | .ERR_SET x => x
  | .ERR_SETF x _ => x
  | .ERR_SET_PTHREAD n => ERR_PTHREAD_OF n

/-- The status which is set, without the number of the system. -/
def Report.status : Report → RsErrT
  | .ERR_SET x => x
  | .ERR_SETF x _ => x
  | .ERR_SET_PTHREAD _ => ERR_PTHREAD

/-- Without a format there are no arguments. -/
def Report.args : Report → List Arg
  | .ERR_SET _ => []
  | .ERR_SETF _ args => args
  | .ERR_SET_PTHREAD _ => []

/-- The lookup finds an entry, which is the message of the status and takes the arguments. -/
def Report.Proper (r : Report) : Prop :=
  ∃ msg, xErrorGetMsg r.word = .ok msg ∧ statedMessage r.status = some msg ∧
    conversions msg = r.args.map Arg.conversion

instance (r : Report) : Decidable r.Proper :=
  match hmsg : xErrorGetMsg r.word with
  | .error _ => .isFalse fun ⟨_, h, _⟩ => by cases hmsg.symm.trans h
  | .ok msg =>
    decidable_of_iff (statedMessage r.status = some msg ∧
      conversions msg = r.args.map Arg.conversion)
      ⟨fun h => ⟨msg, hmsg, h⟩, fun ⟨_, h, hproper⟩ => by cases hmsg.symm.trans h; exact hproper⟩

/-- The statuses whose message is where the lookup expects it and takes no arguments. -/
theorem plain_proper_iff : ∀ x ∈ statedMessages.map Prod.fst, (Report.ERR_SET x).Proper ↔
    x ∉ [ERR_PTHREAD, ERR_ERRNO, ERR_RIB_NOT_PENDING, ERR_RIB_NEIGHBOR_NOT_FOUND,
      ERR_RIB_TOO_MANY_CONNECTIONS, ERR_RIB_NO_SUCH_CONNECTION, ERR_RIB_OBJECT_UNSUPPORTED,
      ERR_RIB_OBJECT_UNSUP_METHOD, ERR_RIB_BAD_CONNECTION_STATE, ERR_RIB_CONNECTION_EXISTS,
      ERR_RIB_TIMEOUT] := by
  decide +kernel

/-- The message of a failed thread call takes the number, which is not an argument. -/
theorem pthread_not_proper (n : UInt32) : ¬ (Report.ERR_SET_PTHREAD n).Proper := by
  rintro ⟨msg, -, hstated, hargs⟩
  have hmsg : statedMessage ERR_PTHREAD = some "pthread error: %d" := by decide
  cases hmsg.symm.trans hstated
  change conversions "pthread error: %d" = [] at hargs
  exact absurd hargs (by decide)

/-- The category and the error of the word for a failed thread call. -/
theorem pthread_levels (n : UInt32) :
    ((ERR_PTHREAD_OF n).c >>> 24).toNat = n.toNat % 65536 / 256 ∧
      (ERR_PTHREAD_OF n).c &&& 0xFF = 4 := by
  have hword : (ERR_PTHREAD_OF n).c.toNat = 4 ||| n.toNat * 65536 % 2 ^ 32 := by
    change ((4 : UInt32) ||| n <<< 16).toNat = _
    rw [UInt32.toNat_or, UInt32.toNat_shiftLeft]
    change 4 ||| (n.toNat <<< 16) % 2 ^ 32 = _
    rw [Nat.shiftLeft_eq]
  constructor
  · rw [UInt32.toNat_shiftRight, hword]
    change (4 ||| n.toNat * 65536 % 2 ^ 32) >>> 24 = _
    rw [Nat.shiftRight_or_distrib, Nat.shiftRight_eq_div_pow, Nat.shiftRight_eq_div_pow]
    change 0 ||| _ = _
    rw [Nat.zero_or]
    omega
  · apply UInt32.toNat_inj.mp
    rw [UInt32.toNat_and, hword]
    change (4 ||| n.toNat * 65536 % 2 ^ 32) &&& (2 ^ 8 - 1) = 4
    rw [Nat.and_two_pow_sub_one_eq_mod, Nat.or_mod_two_pow]
    have hzero : n.toNat * 65536 % 2 ^ 32 % 2 ^ 8 = 0 := by omega
    rw [hzero]
    rfl

theorem other_category (c : ℕ) (hc : c ≠ 0) :
    (do
      let messages ← inBounds ErrorMessages[c]?
      inBounds messages[((4 : UInt32) - 1).toNat]?) ≠ (.ok "pthread error: %d" : Exec String) := by
  rcases Nat.lt_or_ge c ErrorMessages.length with hlt | hge
  · have hall : ∀ k < ErrorMessages.length, k ≠ 0 → (do
        let messages ← inBounds ErrorMessages[k]?
        inBounds messages[((4 : UInt32) - 1).toNat]?) ≠
          (.ok "pthread error: %d" : Exec String) := by
      decide
    exact hall c hlt hc
  · rw [List.getElem?_eq_none hge, inBounds_none, Exec.error_bind]
    simp

/-- From 256 on the number of a failed thread call changes the category. -/
theorem pthread_message_iff (n : UInt32) :
    xErrorGetMsg (ERR_PTHREAD_OF n) = .ok "pthread error: %d" ↔ n.toNat % 65536 < 256 := by
  obtain ⟨hcat, herr⟩ := pthread_levels n
  rw [xErrorGetMsg, hcat, herr]
  constructor
  · intro hmsg
    by_contra hlarge
    exact other_category _ (by omega) hmsg
  · intro hn
    rw [Nat.div_eq_of_lt hn]
    decide

/-- Behind the last entry there is none for a wait which timed out. -/
theorem timeout_outOfBounds : xErrorGetMsg ERR_RIB_TIMEOUT = .error .outOfBounds := by
  decide

end RinaSense.Common
