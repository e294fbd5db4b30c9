import RinaSense.Ipcp.Management
import RinaSense.Ipcp.Task
import RinaSense.Rib.Sent

/-!
# CDAP messages between two nodes

A message which one RIB daemon gives to its output function goes through the task of its IPC
process, its RMT, its shim, and those of the peer, to the handler of the peer's daemon.
-/

namespace RinaSense.Ipcp

open Common Rmt Efcp Shim.OnChain Library.Memory
open Shim (ShimData exampleMac exampleGha)
open SerDes (MessageCdap PbMessage Fits fillMessage)
open Rib (OutgoingEnd PbCdap OutsidePool Understood Handled Outcomes Ribd arriving
  prvRibNormalOutgoing outgoing_carries xRibIncoming_sent)

variable {pf : Platform} {xEncPool xDuPool xPciPool : PoolPtr} {sizeofCdap : ℕ}
  {pb_encode : PbMessage → Option Bytes} {pb_decode : Bytes → Option PbCdap}
  {mem : SerDes.Memory} {h : Heap} {msg : MessageCdap} {sent : OutgoingEnd} {p : NbPtr}

/-- A daemon which sends a message, with the pool for its bytes. -/
structure Sending (pf : Platform) (xEncPool xDuPool : PoolPtr)
    (pb_encode : PbMessage → Option Bytes) (sizeofCdap : ℕ) (h : Heap) (msg : MessageCdap)
    (sent : OutgoingEnd) : Prop where
  fresh : h.Fresh
  outside : OutsidePool h xEncPool
  pool : ∃ pool, h.pools xEncPool = some pool ∧ pool.uxSizeEach = sizeofCdap
  bytes : ∀ pb bytes, pb_encode pb = some bytes → bytes ≠ []
  run : prvRibNormalOutgoing pf xEncPool xDuPool pb_encode sizeofCdap true h msg = .ok sent
  status : sent.xStatus = true

/-- When the task takes the event, the netbuf and its buffer are as the daemon has left them. -/
structure Kept (sent : OutgoingEnd) (p : NbPtr) (h : Heap) : Prop where
  fresh : h.Fresh
  netbuf : h.netbufs p = sent.heap.netbufs p
  buffer : ∀ b m, sent.heap.Holds [p] b m →
    SameBlock sent.heap h b.block ∧ h.mem b.block = sent.heap.mem b.block

theorem Sending.netbuf (hs : Sending pf xEncPool xDuPool pb_encode sizeofCdap h msg sent) :
    ∃ p pb m, sent.pxDu = some p ∧ fillMessage msg = .ok pb ∧ pb_encode pb = some m ∧ m ≠ [] ∧
      ∀ h', Kept sent p h' →
        Carries pf h' p [p] m ∧ eNetBufType pf h' p = .ok .NB_RINA_DATA := by
  obtain ⟨pool, hpool, hsize⟩ := hs.pool
  obtain ⟨p, pb, m, hp, hfill, hpb, hcarries, htype⟩ :=
    outgoing_carries hs.fresh hs.outside hpool hsize hs.bytes hs.run hs.status
  refine ⟨p, pb, m, hp, hfill, hpb, hs.bytes pb m hpb, fun h' hk => ⟨?_, ?_⟩⟩
  · refine hcarries.congr hk.fresh (fun q hq => ?_) hk.buffer
    rw [List.mem_singleton.mp hq, hk.netbuf]
  · rw [← htype, eNetBufType, eNetBufType, Heap.netbuf, Heap.netbuf, hk.netbuf]

theorem Sending.kept (hs : Sending pf xEncPool xDuPool pb_encode sizeofCdap h msg sent)
    (p : NbPtr) : Kept sent p sent.heap := by
  obtain ⟨pool, hpool, hsize⟩ := hs.pool
  obtain ⟨_, _, _, -, -, -, hcarries, -⟩ :=
    outgoing_carries hs.fresh hs.outside hpool hsize hs.bytes hs.run hs.status
  exact ⟨hcarries.chain.fresh, rfl, fun _ _ _ => ⟨⟨rfl, rfl, fun _ hp => hp⟩, rfl⟩⟩

/-- A node with the pools of the encoder and of the two headers, and a message in the block 0. -/
def exampleSendHeap : Heap where
  mem := fun a => if a = 0 then some [] else none
  netbufs := fun _ => none
  rsrcs := fun _ => none
  pools := fun p =>
    if p = 0 then some Rib.cdapPool
    else if p = 1 then some exampleHeaderPool
    else if p = 2 then some (.new "PCI Pool" sizeofPci 5 1 0)
    else none
  brk := 1
  calls := 0
  mallocOk := fun _ => true
  junk := fun _ _ => 0

/-- A library which knows the message for a flow. -/
def exampleEncode (_ : PbMessage) : Option Bytes := some (SerDes.flowWire SerDes.shortKey)

def exampleDecode (buf : Bytes) : Option PbCdap :=
  if buf = SerDes.flowWire SerDes.shortKey then some ⟨4, SerDes.flowPb SerDes.shortKey⟩ else none

def exampleCreate : MessageCdap := SerDes.flowMessage SerDes.shortKey

theorem exampleCreate_understood : Understood exampleEncode exampleDecode exampleCreate := by
  intro pb bytes hfill hpb
  cases hfill
  cases hpb
  exact if_pos rfl

/-- The frame with the message, as the peer's driver hands it over. -/
def exampleCreateFrame : Frame :=
  { exampleFrame [] [] with
    bytes := rinaHeader (exampleMac 2) (exampleSender true).xPhyDev ++
      ((mgmtHeader (SerDes.flowWire SerDes.shortKey).length).toBytes ++
        SerDes.flowWire SerDes.shortKey) }

theorem exampleCreate_sent : ∃ sent frame h₁,
    Sending ⟨false, false⟩ 0 3 exampleEncode 64 exampleSendHeap exampleCreate sent ∧
    sent.pxDu = some 2 ∧ sent.heap.pools 1 = some exampleHeaderPool ∧
    sent.heap.pools 2 = some (.new "PCI Pool" sizeofPci 5 1 0) ∧
    mgmtFrame ⟨false, false⟩ sent.heap (exampleSender true) 2 2 2 = .ok (some frame, h₁) := by
  refine ⟨_, _, _, ⟨fun a ha => ?_, ⟨0, Nat.zero_lt_one, fun pool hpool a ha => ?_⟩,
    ⟨_, rfl, rfl⟩, fun pb bytes hpb => ?_, rfl, rfl⟩, rfl, rfl, rfl, rfl⟩
  · have ha : 1 ≤ a := ha
    simp [exampleSendHeap, show a ≠ 0 by omega]
  · cases hpool
    cases ha
  · cases hpb
    decide

theorem exampleCreateFrame_in : MgmtIn ⟨false, false⟩ exampleCreateFrame exampleCreateFrame.heap
    exampleShim exampleSurroundings where
  debug := rfl
  frame :=
    { fresh := fun a ha => by
        have ha : 2 ≤ a := ha
        simp [Frame.heap, show a ≠ 0 by omega, show a ≠ 1 by omega]
      netbuf := rfl
      bytes := rfl
      usable := ⟨rfl, fun _ => rfl, fun hm => by cases hm⟩ }
  memory := rfl
  flow := ⟨none, rfl, fun _ => ⟨rfl, by decide, rfl, rfl⟩⟩
  queue := rfl

/-- The headers of the message come from the two pools, which are empty. -/
theorem exampleCreate_port {h : Heap} (heth : h.pools 1 = some exampleHeaderPool)
    (hpci : h.pools 2 = some (.new "PCI Pool" sizeofPci 5 1 0)) (l : List NbPtr) :
    MgmtPort ⟨false, false⟩ exampleShimWrite ⟨[exampleN1Port], h⟩ (exampleSender true)
      exampleDriver 2 2 l where
  portOk := rfl
  pciPool := ⟨_, hpci, rfl⟩
  spare b m _ pool hpool a ha := by
    cases hpci.symm.trans hpool
    cases ha
  ethPool := ⟨exampleHeaderPool, heth, rfl, fun b m _ pool hpool a ha => by
    cases heth.symm.trans hpool
    cases ha⟩
  apart := ⟨by decide, fun pool pool' hpool _ x hx => by
    cases hpci.symm.trans hpool
    cases hx⟩
  port := ⟨exampleN1Port, 0, rfl, rfl, rfl, rfl⟩

end RinaSense.Ipcp
