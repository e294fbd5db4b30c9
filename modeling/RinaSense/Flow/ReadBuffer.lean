import Mathlib.Algebra.Group.Int.Defs
import RinaSense.Common.Content
import RinaSense.Flow.Read

/-!
# The buffer of a reader

What `RINA_flow_read` does with the packet it took from a flow. It copies as many bytes as the
packet has, whatever the length of the buffer it was given.
-/

namespace RinaSense.Flow

open Common Library.Memory

/-- The value of a size in an `int32_t`. -/
def toInt32 (unSz : ℕ) : Int := Int.bmod unSz (2 ^ 32)

/-- The value of an `int32_t` as a `size_t`. -/
def toSize (lDataLength : Int) : ℕ := (lDataLength % 2 ^ 64).toNat

/-- `RINA_flow_read` once it has a packet. The code drops the count of bytes which
`unNetBufRead` returns, which is kept here behind the result. -/
def readPacket (pf : Platform) (h : Heap) (pxNb : NbPtr) (pvBuffer : Option Ptr)
    (_uxTotalDataLength : ℕ) : Exec (Int × ℕ × Heap) := do
  let lDataLength := toInt32 (← unNetBufTotalSize h pxNb)
  let (unWrIdx, h) ← unNetBufRead h pxNb pvBuffer 0 (toSize lDataLength)
  let h ← vNetBufFree pf h pxNb
  return (lDataLength, unWrIdx, h)

/-- The part of `RINA_flow_read` which runs next: it begins, or it wakes up. -/
def FlowRun.readStep (s : FlowRun) (xPortId : PortId) : FlowOp → Exec (ReadStep × FlowRun)
  | .post _ => .ok (.waits, s)
  | .call xSetOk =>
    match s.waiting with
    | some _ => .ok (.waits, s)
    | none => flowReadCall s xPortId xSetOk
  | .wake xCheckOk =>
    match s.waiting with
    | none => .ok (.waits, s)
    | some p => flowReadWake s p xCheckOk

/-- `RINA_flow_read` with the buffer of its caller; without a result as long as it waits. -/
def RINA_flow_read (pf : Platform) (h : Heap) (s : FlowRun) (xPortId : PortId) (op : FlowOp)
    (pvBuffer : Option Ptr) (uxTotalDataLength : ℕ) : Exec (Option (Int × ℕ) × Heap) := do
  match ← s.readStep xPortId op with
  | (.waits, _) => return (none, h)
  | (.returned lDataLength, _) => return (some (lDataLength, 0), h)
  | (.packet pxNb, _) =>
    let (lDataLength, unWrIdx, h) ← readPacket pf h pxNb pvBuffer uxTotalDataLength
    return (some (lDataLength, unWrIdx), h)

/-- The call returns the number of bytes it wrote, which is at most the given length. -/
def RespectsBuffer (uxTotalDataLength : ℕ) (run : Exec (Option (Int × ℕ) × Heap)) : Prop :=
  ∃ lDataLength unWrIdx h, run = .ok (some (lDataLength, unWrIdx), h) ∧
    unWrIdx ≤ uxTotalDataLength ∧ lDataLength = unWrIdx

/-- A packet of any number of netbufs in a heap which is in order. Its bytes stand in blocks
which were handed over to netbufs. -/
structure Packet (pf : Platform) (s : NbState) (pxNb : NbPtr) (bs : Bytes) : Prop where
  inv : s.Inv pf
  live : s.ledger.live pxNb = true
  content : ∃ c l, s.ledger.chain pxNb = some c ∧ chainFrom s.heap s.heap.brk (some c) = .ok l ∧
    chainContent s.heap l = some bs
  given : ∀ q nb ptr, s.heap.netbufs q = some nb → nb.xFreed = false → nb.pxBuf = some ptr →
    (s.ledger.given ptr.block).isSome

/-- A buffer of the caller, which belongs to no netbuf. -/
structure CallerBuffer (s : NbState) (pvBuffer : Ptr) (uxTotalDataLength : ℕ) : Prop where
  block : ∃ b, s.heap.mem pvBuffer.block = some b ∧ pvBuffer.off + uxTotalDataLength ≤ b.length
  own : s.ledger.given pvBuffer.block = none

section

variable {pf : Platform} {s : NbState} {pxNb : NbPtr} {bs : Bytes} {pvBuffer : Ptr} {len : ℕ}

theorem toInt32_eq (n : ℕ) : toInt32 n =
    if n % 2 ^ 32 < 2 ^ 31 then ((n % 2 ^ 32 : ℕ) : Int) else ((n % 2 ^ 32 : ℕ) : Int) - 2 ^ 32 := by
  have hbmod : toInt32 n = if (n : Int) % 4294967296 < 2147483648 then (n : Int) % 4294967296
      else (n : Int) % 4294967296 - 4294967296 := rfl
  rw [hbmod]
  split <;> split <;> omega

theorem toSize_of_nonneg {n : ℕ} (hn : n < 2 ^ 31) : toSize n = n := by
  unfold toSize
  omega

/-- The packet as `unNetBufTotalSize` and `unNetBufRead` find it. -/
theorem Packet.chain (hp : Packet pf s pxNb bs) : ∃ nb l, s.heap.netbufs pxNb = some nb ∧
    chainFrom s.heap s.heap.brk (some nb.pxFirst) = .ok l ∧ chainContent s.heap l = some bs := by
  obtain ⟨c, l, hc, hl, hbs⟩ := hp.content
  obtain ⟨nb, -, hnb, -, -⟩ := hp.inv.live_netbuf hp.live
  refine ⟨nb, l, hnb, ?_, hbs⟩
  rw [hp.inv.first pxNb nb c hnb hp.live hc]
  exact hl

theorem Packet.unNetBufTotalSize (hp : Packet pf s pxNb bs) :
    unNetBufTotalSize s.heap pxNb = .ok bs.length := by
  obtain ⟨nb, l, hnb, hl, hbs⟩ := hp.chain
  simp only [Common.unNetBufTotalSize, Heap.netbuf_of_some hnb, Exec.ok_bind, hl,
    sizeSum_content hbs]

/-- Bytes in the buffer of the caller are no concern of the netbufs. -/
theorem CallerBuffer.leaves (hb : CallerBuffer s pvBuffer len) (hi : s.Inv pf) (b : Bytes) :
    Leaves s (s.heap.putBlock pvBuffer.block b) where
  fresh a ha := by
    obtain ⟨b₀, hb₀, -⟩ := hb.block
    have hlt := hi.fresh.lt_of_block hb₀
    refine ⟨(hi.fresh a ha).1, ?_⟩
    have hne : a ≠ pvBuffer.block := Nat.ne_of_gt (Nat.lt_of_lt_of_le hlt ha)
    exact (Function.update_of_ne hne _ _).trans (hi.fresh a ha).2
  brk := Nat.le_refl _
  netbufs := rfl
  given a ha := by
    have hne : a ≠ pvBuffer.block := by
      rintro rfl
      rw [hb.own] at ha
      cases ha
    refine ⟨?_, rfl, fun _ hpool => hpool⟩
    exact congrArg Option.isSome (Function.update_of_ne hne _ _)

/-- A packet which the buffer can take is copied as a whole, and its netbuf is freed. -/
theorem Packet.readPacket (hp : Packet pf s pxNb bs) (hb : CallerBuffer s pvBuffer len)
    (hsmall : bs.length % 2 ^ 32 < 2 ^ 31) (hfit : bs.length % 2 ^ 32 ≤ len) :
    ∃ h, readPacket pf s.heap pxNb (some pvBuffer) len =
      .ok (((bs.length % 2 ^ 32 : ℕ) : Int), bs.length % 2 ^ 32, h) := by
  obtain ⟨nb, l, hnb, hl, hbs⟩ := hp.chain
  obtain ⟨b, hblock, hin⟩ := hb.block
  have hap : Apart s.heap pvBuffer.block l := by
    intro q _ nb' ptr hq hlive hbuf heq
    have hgiven := hp.given q nb' ptr hq hlive hbuf
    rw [heq, hb.own] at hgiven
    cases hgiven
  have hlen : ((bs.drop 0).take (bs.length % 2 ^ 32)).length = bs.length % 2 ^ 32 := by
    rw [List.drop_zero, List.length_take]
    exact Nat.min_eq_left (Nat.mod_le _ _)
  have hread := readLoop_content hbs hblock hap (by rw [hlen]; omega :
    pvBuffer.off + 0 + ((bs.drop 0).take (bs.length % 2 ^ 32)).length ≤ b.length)
  rw [hlen, Nat.zero_add] at hread
  obtain ⟨w, hw⟩ : ∃ w, w = splice b (pvBuffer.off + 0) ((bs.drop 0).take (bs.length % 2 ^ 32)) :=
    ⟨_, rfl⟩
  rw [← hw] at hread
  have hint : toInt32 bs.length = ((bs.length % 2 ^ 32 : ℕ) : Int) := by
    rw [toInt32_eq, if_pos hsmall]
  obtain ⟨s', hfree, -⟩ := (hp.inv.leaves (hb.leaves hp.inv w)).free_step hp.live
  obtain ⟨h', hfree, -⟩ := Exec.toOption_map_eq_some hfree
  refine ⟨h', ?_⟩
  simp only [Flow.readPacket, hp.unNetBufTotalSize, Exec.ok_bind, hint,
    toSize_of_nonneg hsmall, unNetBufRead, Heap.netbuf_of_some hnb, hl]
  rw [hread]
  rw [Exec.ok_bind, hfree]
  rfl

/-- Whenever the packet was copied, the result and the count come from its length alone. -/
theorem Packet.readPacket_count (hp : Packet pf s pxNb bs) {p : Option Ptr} {l : Int} {n : ℕ}
    {h : Heap} (hrun : Flow.readPacket pf s.heap pxNb p len = .ok (l, n, h)) :
    l = toInt32 bs.length ∧ n = min (toSize (toInt32 bs.length)) bs.length := by
  obtain ⟨nb, chain, hnb, hl, hbs⟩ := hp.chain
  rw [Flow.readPacket, hp.unNetBufTotalSize, Exec.ok_bind] at hrun
  obtain ⟨i, hi⟩ : ∃ i, i = toInt32 bs.length := ⟨_, rfl⟩
  rw [← hi] at hrun ⊢
  obtain ⟨⟨n', h₁⟩, hread, hrun⟩ := Exec.bind_eq_ok.mp hrun
  obtain ⟨h₂, -, hret⟩ := Exec.bind_eq_ok.mp hrun
  rw [unNetBufRead, Heap.netbuf_of_some hnb, Exec.ok_bind, hl, Exec.ok_bind] at hread
  cases hret
  have hcount := readLoop_count (sizeSum_content hbs) hread
  rw [Nat.zero_add, Nat.sub_zero] at hcount
  exact ⟨rfl, hcount⟩

/-- `RINA_flow_read` respects the buffer of its caller exactly if the length of the packet, as
an `int32_t`, is not negative and at most the length of the buffer. -/
theorem flow_read_respects {run : FlowRun} {xPortId : PortId} {op : FlowOp} {run' : FlowRun}
    (hstep : run.readStep xPortId op = .ok (.packet pxNb, run')) (hp : Packet pf s pxNb bs)
    (hb : CallerBuffer s pvBuffer len) :
    RespectsBuffer len (RINA_flow_read pf s.heap run xPortId op (some pvBuffer) len) ↔
      bs.length % 2 ^ 32 < 2 ^ 31 ∧ bs.length % 2 ^ 32 ≤ len := by
  have hcall : RINA_flow_read pf s.heap run xPortId op (some pvBuffer) len = do
      let (lDataLength, unWrIdx, h) ← Flow.readPacket pf s.heap pxNb (some pvBuffer) len
      return (some (lDataLength, unWrIdx), h) := by
    rw [RINA_flow_read, hstep]
    rfl
  rw [hcall]
  constructor
  · rintro ⟨l, n, h, hrun, hle, heq⟩
    obtain ⟨⟨l', n', h'⟩, hread, hret⟩ := Exec.bind_eq_ok.mp hrun
    cases hret
    obtain ⟨hl, hn⟩ := hp.readPacket_count hread
    have hsmall : bs.length % 2 ^ 32 < 2 ^ 31 := by
      by_contra hbig
      rw [toInt32_eq, if_neg hbig] at hl
      omega
    rw [toInt32_eq, if_pos hsmall] at hl
    omega
  · rintro ⟨hsmall, hfit⟩
    obtain ⟨h, hread⟩ := hp.readPacket hb hsmall hfit
    rw [hread]
    exact ⟨_, _, h, rfl, hfit, rfl⟩

end

/-- A netbuf with the second buffer of four bytes. -/
def packetState : NbState where
  heap := bufferHeap.withNetbuf
    { pxNext := none
      pxFirst := 2
      eType := .NB_RINA_DATA
      unSz := 4
      pxBuf := some ⟨1, 0⟩
      pxBufStart := some ⟨1, 0⟩
      xFreed := false
      freemethod := some .vNetBufFreeNormal
      xPool := some 0 }
  ledger := Ledger.empty.enter 2 ⟨1, 0⟩ (some .vNetBufFreeNormal)

theorem packetState_packet : Packet ⟨false, false⟩ packetState 2 [1, 2, 3, 4] where
  inv := by
    have hperm : Permitted ⟨false, false⟩ ⟨bufferHeap, .empty⟩
        (.new (some 0) .NB_RINA_DATA ⟨1, 0⟩ 4 (some .vNetBufFreeNormal)) :=
      ⟨rfl, rfl, rfl, rfl, fun _ => rfl, fun hm => nomatch hm⟩
    obtain ⟨s, hstep, hinv⟩ := (inv_empty bufferHeap_fresh fun _ => rfl).new_step hperm
    obtain rfl : packetState = s := Option.some.inj hstep
    exact hinv
  live := rfl
  content := ⟨2, [2], rfl, rfl, rfl⟩
  given q nb ptr hq _ hbuf := by
    by_cases h2 : q = 2
    · subst h2
      cases hq
      cases hbuf
      rfl
    · have hnone : packetState.heap.netbufs q = none := Heap.withNetbuf_of_ne bufferHeap _ h2
      rw [hnone] at hq
      cases hq

/-- A flow in which the packet waits. -/
def packetFlow : FlowRun := (FlowRun.fresh 1 0).step ⟨false, false⟩ 1 (.post 2)

/-- A buffer of four bytes is respected. -/
theorem flow_read_respects_four :
    RespectsBuffer 4
      (RINA_flow_read ⟨false, false⟩ packetState.heap packetFlow 1 (.call true) (some ⟨0, 0⟩) 4) :=
  (flow_read_respects rfl packetState_packet ⟨⟨[1, 2, 3, 4], rfl, by decide⟩, rfl⟩).mpr
    (by decide)

/-- Given the first three bytes of that buffer, the call writes the fourth as well. -/
theorem flow_read_three :
    ¬ RespectsBuffer 3
      (RINA_flow_read ⟨false, false⟩ packetState.heap packetFlow 1 (.call true) (some ⟨0, 0⟩) 3) := by
  rintro ⟨l, n, h, hrun, hle, -⟩
  obtain ⟨h', heval⟩ : ∃ h', RINA_flow_read ⟨false, false⟩ packetState.heap packetFlow 1
      (.call true) (some ⟨0, 0⟩) 3 = .ok (some (4, 4), h') := ⟨_, rfl⟩
  rw [heval] at hrun
  cases hrun
  omega

end RinaSense.Flow
