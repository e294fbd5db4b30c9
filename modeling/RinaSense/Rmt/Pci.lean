import RinaSense.Common.Netbuf
import RinaSense.Common.Ids

/-!
# Protocol control information

The packed header `pci_t` of fourteen bytes and its accessors, which work on whatever
netbuf they are given. Values are stored least significant byte first.
-/

namespace RinaSense.Rmt

open Common Library.Memory

def PDU_TYPE_DT : PduType := 0x80

def PDU_TYPE_CACK : PduType := 0xC0

def PDU_TYPE_ACK : PduType := 0xC1

def PDU_TYPE_NACK : PduType := 0xC2

def PDU_TYPE_FC : PduType := 0xC4

def PDU_TYPE_ACK_AND_FC : PduType := 0xC5

def PDU_TYPE_SACK : PduType := 0xC9

def PDU_TYPE_SACK_AND_FC : PduType := 0xCD

def PDU_TYPE_SNACK_AND_FC : PduType := 0xCE

def PDU_TYPE_RENDEZVOUS : PduType := 0xCF

def PDU_TYPE_MGMT : PduType := 0x40

def pdu_type_is_ok (x : PduType) : Bool :=
  x ∈ [PDU_TYPE_DT, PDU_TYPE_CACK, PDU_TYPE_SACK, PDU_TYPE_NACK, PDU_TYPE_FC, PDU_TYPE_ACK,
    PDU_TYPE_ACK_AND_FC, PDU_TYPE_SACK_AND_FC, PDU_TYPE_SNACK_AND_FC, PDU_TYPE_RENDEZVOUS,
    PDU_TYPE_MGMT]

def pdu_type_is_control (x : PduType) : Bool :=
  x ∈ [PDU_TYPE_CACK, PDU_TYPE_SACK, PDU_TYPE_NACK, PDU_TYPE_FC, PDU_TYPE_ACK,
    PDU_TYPE_ACK_AND_FC, PDU_TYPE_SACK_AND_FC, PDU_TYPE_RENDEZVOUS, PDU_TYPE_SNACK_AND_FC]

/-- The fields of the header, under the names of the accessor macros. -/
inductive PciField
  | PCI_VERSION
  | PCI_ADDR_DST
  | PCI_ADDR_SRC
  | PCI_CONN_QOS_ID
  | PCI_CONN_DST_ID
  | PCI_CONN_SRC_ID
  | PCI_TYPE
  | PCI_FLAGS
  | PCI_PDU_LEN
  | PCI_SEQ_NO
deriving DecidableEq, Repr

def PciField.offset : PciField → ℕ
  | PCI_VERSION => 0
  | PCI_ADDR_DST => 1
  | PCI_ADDR_SRC => 2
  | PCI_CONN_QOS_ID => 3
  | PCI_CONN_DST_ID => 4
  | PCI_CONN_SRC_ID => 5
  | PCI_TYPE => 6
  | PCI_FLAGS => 7
  | PCI_PDU_LEN => 8
  | PCI_SEQ_NO => 10

def PciField.size : PciField → ℕ
  | PCI_PDU_LEN => 2
  | PCI_SEQ_NO => 4
  | _ => 1

/-- `sizeof(pci_t)`. -/
def sizeofPci : ℕ := 14

/-- The contents of a header. -/
structure Pci where
  ucVersion : UInt8
  xDestination : Address
  xSource : Address
  xQosId : QosId
  xConnDestination : CepId
  xConnSource : CepId
  xType : PduType
  xFlags : PduFlags
  xPduLen : UInt16
  xSequenceNumber : SeqNum
deriving DecidableEq, Repr

def Pci.toBytes (h : Pci) : Bytes :=
  [h.ucVersion, h.xDestination, h.xSource, h.xQosId, h.xConnDestination, h.xConnSource,
    h.xType, h.xFlags] ++ leBytes 2 h.xPduLen.toNat ++ leBytes 4 h.xSequenceNumber.toNat

/-- The number in a field of a header. -/
def Pci.get (h : Pci) : PciField → ℕ
  | .PCI_VERSION => h.ucVersion.toNat
  | .PCI_ADDR_DST => h.xDestination.toNat
  | .PCI_ADDR_SRC => h.xSource.toNat
  | .PCI_CONN_QOS_ID => h.xQosId.toNat
  | .PCI_CONN_DST_ID => h.xConnDestination.toNat
  | .PCI_CONN_SRC_ID => h.xConnSource.toNat
  | .PCI_TYPE => h.xType.toNat
  | .PCI_FLAGS => h.xFlags.toNat
  | .PCI_PDU_LEN => h.xPduLen.toNat
  | .PCI_SEQ_NO => h.xSequenceNumber.toNat

/-- The number in a field of the bytes which are taken for a header. -/
def fieldOf (bs : Bytes) (f : PciField) : ℕ := leVal ((bs.drop f.offset).take f.size)

/-- What the accessors read from bytes which are taken for a header. -/
def Pci.ofBytes (bs : Bytes) : Pci where
  ucVersion := (fieldOf bs .PCI_VERSION).toUInt8
  xDestination := (fieldOf bs .PCI_ADDR_DST).toUInt8
  xSource := (fieldOf bs .PCI_ADDR_SRC).toUInt8
  xQosId := (fieldOf bs .PCI_CONN_QOS_ID).toUInt8
  xConnDestination := (fieldOf bs .PCI_CONN_DST_ID).toUInt8
  xConnSource := (fieldOf bs .PCI_CONN_SRC_ID).toUInt8
  xType := (fieldOf bs .PCI_TYPE).toUInt8
  xFlags := (fieldOf bs .PCI_FLAGS).toUInt8
  xPduLen := (fieldOf bs .PCI_PDU_LEN).toUInt16
  xSequenceNumber := (fieldOf bs .PCI_SEQ_NO).toUInt32

variable (pf : Platform)

def PCI_GET (h : Heap) (du : NbPtr) (field : PciField) : Exec ℕ := do
  let pxBuf ← pvNetBufPtr pf h du
  let bs ← h.read pxBuf field.offset field.size
  return leVal bs

def PCI_SET (h : Heap) (du : NbPtr) (field : PciField) (val : ℕ) : Exec Heap := do
  let eType ← eNetBufType pf h du
  rsAssert pf (eType == .NB_RINA_PCI)
  let pxBuf ← pvNetBufPtr pf h du
  h.write pxBuf field.offset (leBytes field.size val)

@[simp] theorem Pci.toBytes_length (h : Pci) : h.toBytes.length = sizeofPci := by
  simp [Pci.toBytes, sizeofPci]

theorem PciField.offset_add_size_le (f : PciField) : f.offset + f.size ≤ sizeofPci := by
  cases f <;> decide

/-- Every field of a written header reads back. -/
theorem fieldOf_toBytes (h : Pci) (rest : Bytes) (f : PciField) :
    fieldOf (h.toBytes ++ rest) f = h.get f := by
  cases f with
  | PCI_PDU_LEN =>
    have hbytes : ((h.toBytes ++ rest).drop 8).take 2 = leBytes 2 h.xPduLen.toNat := by
      simp [Pci.toBytes, leBytes]
    change leVal (((h.toBytes ++ rest).drop 8).take 2) = h.xPduLen.toNat
    rw [hbytes, leVal_leBytes]
    exact Nat.mod_eq_of_lt h.xPduLen.toNat_lt
  | PCI_SEQ_NO =>
    have hbytes : ((h.toBytes ++ rest).drop 10).take 4 = leBytes 4 h.xSequenceNumber.toNat := by
      simp [Pci.toBytes, leBytes]
    change leVal (((h.toBytes ++ rest).drop 10).take 4) = h.xSequenceNumber.toNat
    rw [hbytes, leVal_leBytes]
    exact Nat.mod_eq_of_lt h.xSequenceNumber.toNat_lt
  | _ => simp [fieldOf, PciField.offset, PciField.size, Pci.toBytes, Pci.get, leVal]

theorem Pci.ofBytes_toBytes (h : Pci) (rest : Bytes) : Pci.ofBytes (h.toBytes ++ rest) = h := by
  simp [Pci.ofBytes, fieldOf_toBytes, Pci.get]

/-- A header which is read writes back. -/
theorem Pci.toBytes_ofBytes {bs : Bytes} (hlen : bs.length = sizeofPci) :
    (Pci.ofBytes bs).toBytes = bs := by
  obtain ⟨b₀, b₁, b₂, b₃, b₄, b₅, b₆, b₇, b₈, b₉, b₁₀, b₁₁, b₁₂, b₁₃, rfl⟩ :
      ∃ b₀ b₁ b₂ b₃ b₄ b₅ b₆ b₇ b₈ b₉ b₁₀ b₁₁ b₁₂ b₁₃,
        bs = [b₀, b₁, b₂, b₃, b₄, b₅, b₆, b₇, b₈, b₉, b₁₀, b₁₁, b₁₂, b₁₃] := by
    rcases bs with _ | ⟨b₀, _ | ⟨b₁, _ | ⟨b₂, _ | ⟨b₃, _ | ⟨b₄, _ | ⟨b₅, _ | ⟨b₆, _ | ⟨b₇, _ | ⟨b₈,
      _ | ⟨b₉, _ | ⟨b₁₀, _ | ⟨b₁₁, _ | ⟨b₁₂, _ | ⟨b₁₃, _ | ⟨b₁₄, bs⟩⟩⟩⟩⟩⟩⟩⟩⟩⟩⟩⟩⟩⟩⟩
    all_goals simp [sizeofPci] at hlen ⊢
  have hlen16 := leVal_lt [b₈, b₉]
  have hseq := leVal_lt [b₁₀, b₁₁, b₁₂, b₁₃]
  have hlen16 : (leVal [b₈, b₉]).toUInt16.toNat = leVal [b₈, b₉] := by
    simpa using Nat.mod_eq_of_lt hlen16
  have hseq : (leVal [b₁₀, b₁₁, b₁₂, b₁₃]).toUInt32.toNat = leVal [b₁₀, b₁₁, b₁₂, b₁₃] := by
    simpa using Nat.mod_eq_of_lt hseq
  have h2 := leBytes_leVal [b₈, b₉]
  have h4 := leBytes_leVal [b₁₀, b₁₁, b₁₂, b₁₃]
  have hone : ∀ b : UInt8, (leVal [b]).toUInt8 = b := fun b => by simp [leVal]
  change [(leVal [b₀]).toUInt8, (leVal [b₁]).toUInt8, (leVal [b₂]).toUInt8, (leVal [b₃]).toUInt8,
    (leVal [b₄]).toUInt8, (leVal [b₅]).toUInt8, (leVal [b₆]).toUInt8, (leVal [b₇]).toUInt8] ++
    leBytes 2 (leVal [b₈, b₉]).toUInt16.toNat ++
    leBytes 4 (leVal [b₁₀, b₁₁, b₁₂, b₁₃]).toUInt32.toNat = _
  rw [hlen16, hseq, show (2 : ℕ) = [b₈, b₉].length from rfl, h2,
    show (4 : ℕ) = [b₁₀, b₁₁, b₁₂, b₁₃].length from rfl, h4]
  simp only [hone]
  rfl

/-- Reading a field of the bytes at the start of a live netbuf. -/
theorem PCI_GET_eq {h : Heap} {du : NbPtr} {nb : Netbuf} {p : Ptr} {b : Bytes}
    (hdu : h.netbufs du = some nb) (hlive : nb.xFreed = false) (hbuf : nb.pxBuf = some p)
    (hb : h.mem p.block = some b) (f : PciField) :
    PCI_GET pf h du f =
      if p.off + f.offset + f.size ≤ b.length then .ok (fieldOf (b.drop p.off) f)
      else .error .outOfBounds := by
  have hptr : pvNetBufPtr pf h du = .ok (some p) := by
    simp [pvNetBufPtr, hdu, hlive, hbuf, pure, Except.pure]
  split_ifs with hlen
  · simp [PCI_GET, hptr, Heap.read_of_block hb hlen, fieldOf, List.drop_drop, pure, Except.pure]
  · simp [PCI_GET, hptr, Heap.read_outOfBounds hb hlen]

/-- The memory at the start of a live netbuf, as far as its buffer goes. -/
def BytesAt (h : Heap) (du : NbPtr) (m : Bytes) : Prop :=
  ∃ nb ptr front, h.netbufs du = some nb ∧ nb.xFreed = false ∧ nb.pxBuf = some ptr ∧
    h.mem ptr.block = some (front ++ m) ∧ front.length = ptr.off

theorem BytesAt.get {h : Heap} {du : NbPtr} {m : Bytes} (hm : BytesAt h du m) (f : PciField) :
    PCI_GET pf h du f =
      if f.offset + f.size ≤ m.length then .ok (fieldOf m f) else .error .outOfBounds := by
  obtain ⟨nb, ptr, front, hdu, hlive, hbuf, hmem, hoff⟩ := hm
  rw [PCI_GET_eq pf hdu hlive hbuf hmem f, ← hoff]
  have hbound : front.length + f.offset + f.size ≤ (front ++ m).length ↔
      f.offset + f.size ≤ m.length := by
    rw [List.length_append]
    omega
  simp only [hbound, List.drop_left]

theorem BytesAt.get_ok {h : Heap} {du : NbPtr} {m : Bytes} (hm : BytesAt h du m)
    {f : PciField} (hlen : f.offset + f.size ≤ m.length) :
    PCI_GET pf h du f = .ok (fieldOf m f) := by
  rw [hm.get pf, if_pos hlen]

theorem BytesAt.get_short {h : Heap} {du : NbPtr} {m : Bytes} (hm : BytesAt h du m)
    {f : PciField} (hlen : m.length < f.offset + f.size) :
    PCI_GET pf h du f = .error .outOfBounds := by
  rw [hm.get pf, if_neg (Nat.not_le_of_lt hlen)]

/-- Two fields of the header do not overlap. -/
theorem PciField.disjoint {f g : PciField} (h : g ≠ f) :
    g.offset + g.size ≤ f.offset ∨ f.offset + f.size ≤ g.offset := by
  cases f <;> cases g <;> first | exact absurd rfl h | decide

theorem fieldOf_splice {m : Bytes} {f : PciField} (v : ℕ) (hlen : f.offset + f.size ≤ m.length)
    (g : PciField) :
    fieldOf (splice m f.offset (leBytes f.size v)) g =
      if g = f then v % 256 ^ f.size else fieldOf m g := by
  have hlen' : f.offset + (leBytes f.size v).length ≤ m.length := by
    rw [leBytes_length]
    exact hlen
  split_ifs with hg
  · subst hg
    have hself := take_drop_splice_self hlen'
    rw [leBytes_length] at hself
    rw [fieldOf, hself, leVal_leBytes]
  · unfold fieldOf
    rw [take_drop_splice hlen' (by rw [leBytes_length]; exact PciField.disjoint hg)]

/-- Setting a field of a live netbuf; without the assertions its type does not matter. -/
theorem BytesAt.set {h : Heap} {du : NbPtr} {m : Bytes} (hm : BytesAt h du m)
    (hdebug : pf.ndebug = true) {f : PciField} (hlen : f.offset + f.size ≤ m.length) (v : ℕ) :
    ∃ mem, PCI_SET pf h du f v = .ok { h with mem := mem } ∧
      BytesAt { h with mem := mem } du (splice m f.offset (leBytes f.size v)) ∧
      ∀ a, h.mem a = none → mem a = none := by
  obtain ⟨nb, ptr, front, hdu, hlive, hbuf, hmem, hoff⟩ := hm
  have hbound : (ptr.add f.offset).off + (leBytes f.size v).length ≤ (front ++ m).length := by
    simp only [Ptr.add_off, leBytes_length, List.length_append]
    omega
  have hstore := store_eq_some (m := h.mem) (p := ptr.add f.offset) hmem hbound
  refine ⟨Function.update h.mem ptr.block
    (some (splice (front ++ m) (ptr.off + f.offset) (leBytes f.size v))), ?_,
    ⟨nb, ptr, front, hdu, hlive, hbuf, ?_, hoff⟩, ?_⟩
  · simp only [PCI_SET, eNetBufType, pvNetBufPtr, Heap.netbuf_of_some hdu, hbuf, rsAssert, hdebug,
      Heap.write, Bool.true_or, if_true, Exec.ok_bind, deref_some, pure, Except.pure,
      hstore, inBounds_some, Ptr.add_block, Ptr.add_off]
  · simp [← hoff, splice_append_left]
  · intro a ha
    have hne : a ≠ ptr.block := by
      rintro rfl
      rw [ha] at hmem
      cases hmem
    simp [hne, ha]

theorem BytesAt.set_short {h : Heap} {du : NbPtr} {m : Bytes} (hm : BytesAt h du m)
    (hdebug : pf.ndebug = true) {f : PciField} (hlen : m.length < f.offset + f.size) (v : ℕ) :
    PCI_SET pf h du f v = .error .outOfBounds := by
  obtain ⟨nb, ptr, front, hdu, hlive, hbuf, hmem, hoff⟩ := hm
  have hbound : ¬ ptr.off + f.offset + f.size ≤ (front ++ m).length := by
    simp only [List.length_append]
    omega
  have hstore : store h.mem (ptr.add f.offset) (leBytes f.size v) = none := by
    simp only [store, Ptr.add_block, hmem, Ptr.add_off, leBytes_length, if_neg hbound]
  simp [PCI_SET, eNetBufType, pvNetBufPtr, hdu, hbuf, rsAssert, hdebug, Heap.write, hstore,
    pure, Except.pure]

/-- Consecutive uses of `PCI_SET` on one netbuf. -/
def setFields (pf : Platform) (h : Heap) (du : NbPtr) : List (PciField × ℕ) → Exec Heap
  | [] => .ok h
  | (f, v) :: fs => do
    let h ← PCI_SET pf h du f v
    setFields pf h du fs

/-- The numbers in the fields after the assignments. -/
def assigned (vals : PciField → ℕ) : List (PciField × ℕ) → PciField → ℕ
  | [] => vals
  | (f, v) :: fs => assigned (fun g => if g = f then v % 256 ^ f.size else vals g) fs

/-- A buffer with room for a header takes all the assignments. -/
theorem BytesAt.setFields (hdebug : pf.ndebug = true) {h : Heap} {du : NbPtr} {m : Bytes}
    (hm : BytesAt h du m) (hlen : sizeofPci ≤ m.length) (fs : List (PciField × ℕ)) :
    ∃ mem m', Rmt.setFields pf h du fs = .ok { h with mem := mem } ∧
      BytesAt { h with mem := mem } du m' ∧ m'.length = m.length ∧
      fieldOf m' = assigned (fieldOf m) fs ∧ ∀ a, h.mem a = none → mem a = none := by
  induction fs generalizing h m with
  | nil => exact ⟨h.mem, m, rfl, hm, rfl, rfl, fun _ ha => ha⟩
  | cons fv fs ih =>
    obtain ⟨f, v⟩ := fv
    have hf : f.offset + f.size ≤ m.length :=
      Nat.le_trans f.offset_add_size_le hlen
    obtain ⟨mem, hset, hm', hnone⟩ := hm.set pf hdebug hf v
    have hlen' : (splice m f.offset (leBytes f.size v)).length = m.length := by
      rw [splice_length (by rw [leBytes_length]; exact hf)]
    obtain ⟨mem', m', hsets, hm'', hm'len, hfields, hnone'⟩ := ih hm' (by rw [hlen']; exact hlen)
    refine ⟨mem', m', ?_, hm'', hm'len.trans hlen', ?_, fun a ha => hnone' a (hnone a ha)⟩
    · rw [Rmt.setFields, hset, Exec.ok_bind, hsets]
    · rw [hfields, assigned, funext (fieldOf_splice v hf)]

end RinaSense.Rmt
