import RinaSense.Common.Links
import RinaSense.Rib.QueryErrors

/-!
# The buffers of an outgoing message

`prvRibNormalOutgoing` on the heap: the object of the encoding pool with the encoded message,
and the netbuf around it. A release of what is not handed out ends the program, so that a
call which returns has released nothing twice.
-/

namespace RinaSense.Rib

open Common SerDes Library.Memory

/-- What a call leaves, and what it made on the way. -/
structure OutgoingEnd where
  xStatus : Bool
  heap : Heap
  pvSerBuffer : Option ℕ
  pxDu : Option NbPtr

section

variable (pf : Platform) (xEncPool xDuPool : PoolPtr) (pb_encode : PbMessage → Option Bytes)

/-- `sizeofCdap` is the size of the protobuf structure, and so that of the stream. -/
def messageEncode (sizeofCdap : ℕ) (h : Heap) (pxMsgCdap : MessageCdap) :
    Exec (Bool × Option ℕ × ℕ × Heap) := do
  let xMsg ← fillMessage pxMsgCdap
  match ← pxRsrcAlloc pf h (some xEncPool) (some "CDAP message encoding") with
  | (none, h) => return (false, none, 0, h)
  | (some a, h) =>
    match (pb_encode xMsg).filter (·.length ≤ sizeofCdap) with
    | none => return (false, some a, 0, h)
    | some bytes => do
      let h ← h.write (some ⟨a, 0⟩) 0 bytes
      return (true, some a, bytes.length, h)

/-- `xSent` tells whether the event gets to the task. -/
def prvRibNormalOutgoing (sizeofCdap : ℕ) (xSent : Bool) (h : Heap)
    (pxOutgoingCdap : MessageCdap) : Exec OutgoingEnd := do
  let (xStatus, pvSerBuffer, xSerLength, h) ←
    messageEncode pf xEncPool pb_encode sizeofCdap h pxOutgoingCdap
  if !xStatus then return ⟨false, h, pvSerBuffer, none⟩
  else
    let pxBuf := pvSerBuffer.map fun a => (⟨a, 0⟩ : Ptr)
    let (pxDu, h) ← pxNetBufNew pf h (some xDuPool) .NB_RINA_DATA pxBuf xSerLength
      (some .vNetBufFreePool)
    if pxDu.isSome && xSent then return ⟨true, h, pvSerBuffer, pxDu⟩
    else
      let h ← vRsrcFree pf h pxBuf
      match pxDu with
      | none => return ⟨false, h, pvSerBuffer, none⟩
      | some p => do
        let h ← vNetBufFree pf h p
        return ⟨false, h, pvSerBuffer, some p⟩

/-- The buffer of the encoded message. -/
def pooled (a : ℕ) : Ptr := ⟨a, 0⟩

/-- The call returns, so that nothing was released twice; what it made is all released after a
failure, and none of it after a success. -/
def ReleasesOnce (res : Exec OutgoingEnd) : Prop :=
  ∃ out, res = .ok out ∧
    (∀ a, out.pvSerBuffer = some a →
      if out.xStatus then Usable pf out.heap (some .vNetBufFreePool) (pooled a)
      else Released pf out.heap (some .vNetBufFreePool) (pooled a)) ∧
    ∀ p, out.pxDu = some p → ((out.heap.netbufs p).isSome ↔ out.xStatus = true)

end

variable {pf : Platform} {xEncPool xDuPool : PoolPtr} {pb_encode : PbMessage → Option Bytes}
  {sizeofCdap : ℕ} {xSent : Bool} {h h₁ : Heap} {msg : MessageCdap} {pool : RsrcPool}

/-! ### The netbuf around the buffer -/

/-- The netbuf of a new message. -/
def duNetbuf (xDuPool : PoolPtr) (p a n : ℕ) : Netbuf where
  pxNext := none
  pxFirst := p
  eType := .NB_RINA_DATA
  unSz := n
  pxBuf := some (pooled a)
  pxBufStart := some (pooled a)
  xFreed := false
  freemethod := some .vNetBufFreePool
  xPool := some xDuPool

/-- The freeing method of a netbuf releases the buffer: after a release of it the netbuf cannot
be freed. -/
theorem vNetBufFree_released {p : NbPtr} {nb : Netbuf} {ptr : Ptr}
    (hp : h.netbufs p = some nb) (hlt : p < h.brk) (hnext : nb.pxNext = none)
    (hfirst : nb.pxFirst = p) (hstart : nb.pxBufStart = some ptr)
    (hpool : nb.freemethod = some .vNetBufFreePool)
    (hr : Released pf h (some .vNetBufFreePool) ptr) (h' : Heap) :
    vNetBufFree pf h p ≠ .ok h' := by
  intro hf
  obtain ⟨h₁, hh₁⟩ : ∃ h₁, h₁ = h.setNetbuf p (some (nb.left (some ptr))) := ⟨_, rfl⟩
  have hself : h₁.netbufs p = some (nb.left (some ptr)) := by rw [hh₁, Heap.setNetbuf_self]
  have hrel : Released pf h₁ (some .vNetBufFreePool) ptr := by
    rw [hh₁]
    exact hr.congr ((SameBlock.refl h _).setNetbuf p _)
  have hchain : chainFrom h₁ h₁.brk (some p) = .ok [p] := by
    obtain ⟨k, hk⟩ := Nat.exists_eq_succ_of_ne_zero (Nat.ne_of_gt (Nat.zero_lt_of_lt hlt))
    have hbrk : h₁.brk = k + 1 := by
      rw [hh₁]
      exact hk
    have hlast : chainFrom h₁ k (nb.left (some ptr)).pxNext = .ok [] := by
      change chainFrom h₁ k nb.pxNext = .ok []
      rw [hnext]
      cases k <;> rfl
    rw [hbrk, chainFrom, Heap.netbuf_of_some hself, Exec.ok_bind, hlast]
    rfl
  have hcount : countBuffer h₁ (some ptr) [p] = .ok 1 := by
    simp [countBuffer, Heap.netbuf_of_some hself, Netbuf.left, pure, Except.pure]
  have hfreed : allFreed h₁ [p] = .ok true := by
    simp [allFreed, Heap.netbuf_of_some hself, Netbuf.left, pure, Except.pure]
  have hleft : ({ nb with xFreed := true, unSz := 0, pxBuf := none } : Netbuf) =
      nb.left (some ptr) := by
    rw [Netbuf.left, ← hstart]
  have hcode := vNetBufFree.eq_1 pf h p
  simp only [Heap.netbuf_of_some hp, Exec.ok_bind, hleft, ← hh₁] at hcode
  simp only [hfirst, hchain, hstart, hcount, hfreed, Exec.ok_bind, Nat.reduceLeDiff, if_false,
    Nat.one_ne_zero, if_true] at hcode
  rw [hcode, freeChain.eq_2, Heap.netbuf_of_some hself, Exec.ok_bind,
    show (nb.left (some ptr)).pxBufStart = some ptr from rfl, Option.isSome_some,
    if_pos rfl] at hf
  obtain ⟨h₂, hmethod, -⟩ := Exec.bind_eq_ok.mp hf
  have hpool' : (nb.left (some ptr)).freemethod = some .vNetBufFreePool := hpool
  simp only [callFreeMethod, hpool'] at hmethod
  obtain ⟨h₃, hfree, -⟩ := Exec.bind_eq_ok.mp hmethod
  exact hrel.not_again h₃ hfree

/-! ### The steps in front of the netbuf -/

/-- The encoded message lies in the object, which is handed out as before. -/
theorem write_pooled {a : ℕ} {bs bytes : Bytes} (hmem : h.mem a = some bs)
    (hlen : bytes.length ≤ bs.length) :
    ∃ h', h.write (some (pooled a)) 0 bytes = .ok h' ∧ SameBlock h h' a ∧ h'.brk = h.brk ∧
      h'.calls = h.calls ∧ h'.mallocOk = h.mallocOk := by
  have hroom : (pooled a).off + 0 + bytes.length ≤ bs.length := by
    change 0 + 0 + bytes.length ≤ bs.length
    omega
  refine ⟨_, Heap.write_of_block (p := pooled a) hmem hroom, ⟨?_, rfl, fun _ hp => hp⟩,
    rfl, rfl, rfl⟩
  simp [Heap.setBlock, pooled, hmem]

/-- The pool gives nothing. -/
theorem messageEncode_none {pb : PbMessage} (hfill : fillMessage msg = .ok pb)
    (halloc : pxRsrcAlloc pf h (some xEncPool) (some "CDAP message encoding") =
      .ok (none, h₁)) :
    messageEncode pf xEncPool pb_encode sizeofCdap h msg = .ok (false, none, 0, h₁) := by
  rw [messageEncode, hfill, Exec.ok_bind, halloc]
  rfl

/-- The library does not encode the message, or not in the size of the object. -/
theorem messageEncode_failed {pb : PbMessage} {a : ℕ} (hfill : fillMessage msg = .ok pb)
    (halloc : pxRsrcAlloc pf h (some xEncPool) (some "CDAP message encoding") =
      .ok (some a, h₁))
    (hpb : (pb_encode pb).filter (·.length ≤ sizeofCdap) = none) :
    messageEncode pf xEncPool pb_encode sizeofCdap h msg = .ok (false, some a, 0, h₁) := by
  rw [messageEncode, hfill, Exec.ok_bind, halloc, Exec.ok_bind]
  simp only [hpb]
  rfl

theorem messageEncode_ok {pb : PbMessage} {a : ℕ} {bytes : Bytes} {h₂ : Heap}
    (hfill : fillMessage msg = .ok pb)
    (halloc : pxRsrcAlloc pf h (some xEncPool) (some "CDAP message encoding") =
      .ok (some a, h₁))
    (hpb : (pb_encode pb).filter (·.length ≤ sizeofCdap) = some bytes)
    (hwrite : h₁.write (some (pooled a)) 0 bytes = .ok h₂) :
    messageEncode pf xEncPool pb_encode sizeofCdap h msg =
      .ok (true, some a, bytes.length, h₂) := by
  rw [messageEncode, hfill, Exec.ok_bind, halloc, Exec.ok_bind]
  simp only [hpb]
  change (h₁.write (some (pooled a)) 0 bytes >>= _) = _
  rw [hwrite]
  rfl

/-- The netbuf, where `malloc` has memory for it. -/
theorem pxNetBufNew_du {a n : ℕ} (hn : n ≠ 0) :
    pxNetBufNew pf h (some xDuPool) .NB_RINA_DATA (some (pooled a)) n (some .vNetBufFreePool) =
      .ok (pvRsMemAllocNetbuf h (duNetbuf xDuPool h.brk a n)) := by
  have hn' : (n != 0) = true := by simpa using hn
  rw [pxNetBufNew, hn', Option.isSome_some, rsAssert_true]
  rfl

/-! ### The call -/

/-- What follows once the message is encoded and the netbuf is made or refused. -/
theorem outgoing_wrapped {a n : ℕ} {h₂ h₃ : Heap} {pxDu : Option NbPtr}
    (hencode : messageEncode pf xEncPool pb_encode sizeofCdap h msg = .ok (true, some a, n, h₂))
    (hn : n ≠ 0) (hnew : pvRsMemAllocNetbuf h₂ (duNetbuf xDuPool h₂.brk a n) = (pxDu, h₃)) :
    prvRibNormalOutgoing pf xEncPool xDuPool pb_encode sizeofCdap xSent h msg =
      if pxDu.isSome && xSent then .ok ⟨true, h₃, some a, pxDu⟩
      else do
        let h ← vRsrcFree pf h₃ (some (pooled a))
        match pxDu with
        | none => return ⟨false, h, some a, none⟩
        | some p => do
          let h ← vNetBufFree pf h p
          return ⟨false, h, some a, some p⟩ := by
  rw [prvRibNormalOutgoing, hencode, Exec.ok_bind]
  change (pxNetBufNew pf h₂ (some xDuPool) .NB_RINA_DATA (some (pooled a)) n
    (some .vNetBufFreePool) >>= _) = _
  rw [pxNetBufNew_du hn, hnew, Exec.ok_bind]
  rfl

/-- A message which is encoded, with the netbuf refused or made, and the event sent or not. -/
theorem outgoing_encoded {a : ℕ} {bytes : Bytes} {h₂ : Heap}
    (hencode : messageEncode pf xEncPool pb_encode sizeofCdap h msg =
      .ok (true, some a, bytes.length, h₂))
    (hbytes : bytes ≠ []) (hu : Usable pf h₂ (some .vNetBufFreePool) (pooled a)) :
    ReleasesOnce pf (prvRibNormalOutgoing pf xEncPool xDuPool pb_encode sizeofCdap xSent h msg) ↔
      h₂.mallocOk h₂.calls = false ∨ xSent = true := by
  have hn : bytes.length ≠ 0 := by simpa using hbytes
  cases hcall : h₂.mallocOk h₂.calls with
  | false =>
    -- no netbuf: the buffer is released by itself
    have hnew : pvRsMemAllocNetbuf h₂ (duNetbuf xDuPool h₂.brk a bytes.length) =
        (none, h₂.called) := by simp [pvRsMemAllocNetbuf, hcall]
    have hu' : Usable pf h₂.called (some .vNetBufFreePool) (pooled a) :=
      hu.congr ⟨rfl, rfl, fun _ hp => hp⟩
    obtain ⟨h₃, hfree, -, -, hrel, -⟩ := hu'.release
    refine iff_of_true ⟨⟨false, h₃, some a, none⟩, ?_, ?_, ?_⟩ (Or.inl rfl)
    · rw [outgoing_wrapped hencode hn hnew, hfree]
      rfl
    · rintro b ⟨⟩
      exact hrel
    · rintro p ⟨⟩
  | true =>
    let h₃ : Heap := { h₂.called.setNetbuf h₂.brk (some (duNetbuf xDuPool h₂.brk a bytes.length))
      with brk := h₂.brk + 1 }
    have hnew : pvRsMemAllocNetbuf h₂ (duNetbuf xDuPool h₂.brk a bytes.length) =
        (some h₂.brk, h₃) := by simp [pvRsMemAllocNetbuf, hcall, h₃]
    have hu' : Usable pf h₃ (some .vNetBufFreePool) (pooled a) :=
      hu.congr ⟨rfl, rfl, fun _ hp => hp⟩
    have hnb : h₃.netbufs h₂.brk = some (duNetbuf xDuPool h₂.brk a bytes.length) :=
      Heap.setNetbuf_self ..
    cases xSent with
    | true =>
      refine iff_of_true ⟨⟨true, h₃, some a, some h₂.brk⟩, ?_, ?_, ?_⟩ (Or.inr rfl)
      · rw [outgoing_wrapped hencode hn hnew]
        rfl
      · rintro b ⟨⟩
        exact hu'
      · rintro p ⟨⟩
        simp [hnb]
    | false =>
      -- the buffer is released by itself and once more with the netbuf
      refine iff_of_false ?_ (by simp)
      rintro ⟨out, hout, -⟩
      obtain ⟨h₄, hfree, hnbs, hbrk, hrel, -⟩ := hu'.release
      rw [outgoing_wrapped hencode hn hnew, hfree] at hout
      change (vNetBufFree pf h₄ h₂.brk >>= _) = _ at hout
      obtain ⟨h₅, hfree', -⟩ := Exec.bind_eq_ok.mp hout
      refine vNetBufFree_released ((congrFun hnbs _).trans hnb) ?_ rfl rfl rfl rfl hrel h₅ hfree'
      rw [hbrk]
      exact Nat.lt_succ_self _

/-- A message which is not encoded leaves its buffer behind, still handed out. -/
theorem outgoing_not_encoded {a : ℕ}
    (hencode : messageEncode pf xEncPool pb_encode sizeofCdap h msg = .ok (false, some a, 0, h₁))
    (hu : Usable pf h₁ (some .vNetBufFreePool) (pooled a)) :
    ¬ ReleasesOnce pf
      (prvRibNormalOutgoing pf xEncPool xDuPool pb_encode sizeofCdap xSent h msg) := by
  rintro ⟨out, hout, hbuffer, -⟩
  rw [prvRibNormalOutgoing, hencode] at hout
  cases hout
  obtain ⟨h', hfree, -⟩ := hu.release
  exact (hbuffer a rfl).not_again h' hfree

/-- The buffers of a message are released as they should be exactly when the message fits the
structure, and it gets no object of the pool, or it is encoded and its netbuf is refused or
gets to the task. It goes wrong when the library does not encode it, and when the netbuf is
made and cannot be sent. -/
theorem outgoing_releasesOnce_iff {res : Option ℕ} (hpool : h.pools xEncPool = some pool)
    (hsize : pool.uxSizeEach = sizeofCdap)
    (hbytes : ∀ pb bytes, pb_encode pb = some bytes → bytes ≠ [])
    (halloc : pxRsrcAlloc pf h (some xEncPool) (some "CDAP message encoding") = .ok (res, h₁)) :
    ReleasesOnce pf (prvRibNormalOutgoing pf xEncPool xDuPool pb_encode sizeofCdap xSent h msg) ↔
      ∃ pb, fillMessage msg = .ok pb ∧ (res = none ∨
        (∃ bytes, pb_encode pb = some bytes ∧ bytes.length ≤ sizeofCdap) ∧
          (h₁.mallocOk h₁.calls = false ∨ xSent = true)) := by
  cases hfill : fillMessage msg with
  | error t =>
    refine iff_of_false ?_ (fun ⟨_, hpb, _⟩ => nomatch hpb)
    rintro ⟨out, hout, -⟩
    rw [prvRibNormalOutgoing, messageEncode, hfill] at hout
    cases hout
  | ok pb =>
    cases res with
    | none =>
      refine iff_of_true ⟨⟨false, h₁, none, none⟩, ?_, ?_, ?_⟩ ⟨pb, rfl, Or.inl rfl⟩
      · rw [prvRibNormalOutgoing, messageEncode_none hfill halloc]
        rfl
      · rintro a ⟨⟩
      · rintro p ⟨⟩
    | some a =>
      obtain ⟨hu, bs, hmem, hlen⟩ := pxRsrcAlloc_usable hpool halloc
      by_cases hpb : ∃ bytes, pb_encode pb = some bytes ∧ bytes.length ≤ sizeofCdap
      · obtain ⟨bytes, hsome, hfits⟩ := hpb
        obtain ⟨h₂, hwrite, hsame, -, hcalls, hmalloc⟩ :=
          write_pooled hmem (by omega : bytes.length ≤ bs.length)
        have hfilter : (pb_encode pb).filter (·.length ≤ sizeofCdap) = some bytes := by
          simp [hsome, Option.filter, hfits]
        rw [outgoing_encoded (messageEncode_ok hfill halloc hfilter hwrite)
          (hbytes pb bytes hsome) (hu.congr hsame), hcalls, hmalloc]
        constructor
        · exact fun h => ⟨pb, rfl, Or.inr ⟨⟨bytes, hsome, hfits⟩, h⟩⟩
        · rintro ⟨pb', hpb', h⟩
          cases hpb'
          exact (h.resolve_left (by simp)).2
      · have hfilter : (pb_encode pb).filter (·.length ≤ sizeofCdap) = none := by
          rw [Option.filter_eq_none_iff]
          intro bytes hsome
          simpa using fun hle => hpb ⟨bytes, hsome, hle⟩
        refine iff_of_false
          (outgoing_not_encoded (messageEncode_failed hfill halloc hfilter) hu) ?_
        rintro ⟨pb', hpb', h⟩
        cases hpb'
        exact hpb (h.resolve_left (by simp)).1

/-! ### A message of thirty-four bytes -/

/-- A pool which gets its objects from `malloc` one by one. -/
def cdapPool : RsrcPool := RsrcPool.new "CDAP Message SerDes Encoding" 64 0 1 0

def cdapHeap : Heap where
  mem := fun _ => none
  netbufs := fun _ => none
  rsrcs := fun _ => none
  pools := fun _ => some cdapPool
  brk := 0
  calls := 0
  mallocOk := fun _ => true
  junk := fun _ _ => 0

theorem cdapHeap_alloc :
    ∃ h₁, pxRsrcAlloc ⟨false, false⟩ cdapHeap (some 0) (some "CDAP message encoding") =
      .ok (some 0, h₁) ∧ h₁.mallocOk h₁.calls = true :=
  ⟨_, rfl, rfl⟩

theorem flowEncode_bytes (pb : PbMessage) (bytes : Bytes)
    (h : flowEncode shortKey pb = some bytes) : bytes ≠ [] := by
  unfold flowEncode at h
  split_ifs at h
  cases h
  decide

theorem cdapHeap_pool : cdapHeap.pools 0 = some cdapPool := rfl

theorem cdapPool_size : cdapPool.uxSizeEach = 64 := rfl

theorem flowMessage_outgoing_sent :
    ReleasesOnce ⟨false, false⟩ (prvRibNormalOutgoing ⟨false, false⟩ 0 0 (flowEncode shortKey) 64
      true cdapHeap (flowMessage shortKey)) := by
  obtain ⟨h₁, halloc, -⟩ := cdapHeap_alloc
  have hfill : fillMessage (flowMessage shortKey) = .ok (flowPb shortKey) := rfl
  have hencode : flowEncode shortKey (flowPb shortKey) = some (flowWire shortKey) := if_pos rfl
  have hroom : (flowWire shortKey).length ≤ 64 := by decide
  exact (outgoing_releasesOnce_iff cdapHeap_pool cdapPool_size flowEncode_bytes halloc).mpr
    ⟨flowPb shortKey, hfill, Or.inr ⟨⟨flowWire shortKey, hencode, hroom⟩, Or.inr rfl⟩⟩

/-- When the event is not sent the buffer is released twice, and when the library does not
encode the message it is not released at all. -/
theorem flowMessage_outgoing_lost :
    ¬ ReleasesOnce ⟨false, false⟩ (prvRibNormalOutgoing ⟨false, false⟩ 0 0 (flowEncode shortKey)
      64 false cdapHeap (flowMessage shortKey)) ∧
    ¬ ReleasesOnce ⟨false, false⟩ (prvRibNormalOutgoing ⟨false, false⟩ 0 0 (fun _ => none)
      64 true cdapHeap (flowMessage shortKey)) := by
  obtain ⟨h₁, halloc, hmalloc⟩ := cdapHeap_alloc
  obtain ⟨hu, bs, hmem, hlen⟩ := pxRsrcAlloc_usable cdapHeap_pool halloc
  have hfill : fillMessage (flowMessage shortKey) = .ok (flowPb shortKey) := rfl
  constructor
  · have hroom : (flowWire shortKey).length ≤ bs.length := by
      rw [hlen]
      decide
    obtain ⟨h₂, hwrite, hsame, -, hcalls, hmalloc'⟩ := write_pooled hmem hroom
    have hpb : (flowEncode shortKey (flowPb shortKey)).filter (·.length ≤ 64) =
        some (flowWire shortKey) := by
      rw [flowEncode, if_pos rfl]
      decide
    rw [outgoing_encoded (messageEncode_ok hfill halloc hpb hwrite) (by decide)
      (hu.congr hsame), hcalls, hmalloc', hmalloc]
    decide
  · exact outgoing_not_encoded (messageEncode_failed hfill halloc rfl) hu

end RinaSense.Rib
