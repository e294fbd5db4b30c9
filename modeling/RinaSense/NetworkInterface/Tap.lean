import RinaSense.Library.Runs
import RinaSense.NetworkInterface.Output
import RinaSense.Shim.ArpPacket

/-!
# The TAP interface over time

The globals of the interface, its read threads, and the frames which they bring in. The global
for the pool of the netbufs is hidden by the parameter through which the shim hands the pool in.
-/

namespace RinaSense.NetworkInterface

open Common Shim.OnChain Library.Memory Library.Runs
open Shim (MACAddress FrameProcessingResult ETH_P_RINA ETH_P_RINA_ARP RsHtoNS ShimData
  sizeofEthernetHeader)

variable (pf : Platform)

/-- The globals, with the pipes of the read threads which nobody has told to leave. -/
structure TapInterface where
  xNbPool : Option PoolPtr
  pxMacAddr : Option MACAddress
  nCurrentIffFlags : BitVec 32
  xIsInterfaceConnected : Bool
  nTapThreadFD : Option ℕ
  readers : List ℕ
  /-- The pipe which is made next. -/
  nextPipe : ℕ

/-- What a TAP device sends at most, without the Ethernet header. -/
def TAP_MTU : ℕ := 1500

def TapInterface.start : TapInterface where
  xNbPool := none
  pxMacAddr := none
  nCurrentIffFlags := 0
  xIsInterfaceConnected := false
  nTapThreadFD := none
  readers := []
  nextPipe := 0

/-- The bits say that the address is not a group's, and assigned locally. -/
def prvGenRandomEth (rand : ℕ → ℕ) : MACAddress where
  ucBytes :=
    [((rand 0 % 127).toUInt8 &&& 0xfe) ||| 0x02, (rand 1 % 127).toUInt8, (rand 2 % 127).toUInt8,
      (rand 3 % 127).toUInt8, (rand 4 % 127).toUInt8, (rand 5 % 127).toUInt8]
  length_eq := rfl

/-- Whether the pipe and the thread of a new read thread could be made. -/
structure Spawn where
  piped : Bool
  created : Bool

def prvLinuxTapStartReadThread (s : TapInterface) (spawn : Spawn) : Bool × TapInterface :=
  if ¬ spawn.piped then (false, s)
  else
    (spawn.created, { s with
      nTapThreadFD := some s.nextPipe
      readers := if spawn.created then s.nextPipe :: s.readers else s.readers
      nextPipe := s.nextPipe + 1 })

/-- The parameter for the pool has the name of the global, which is not assigned. -/
def xNetworkInterfaceInitialise (s : TapInterface) (opened : Bool) (flags : Option (BitVec 32))
    (rand : ℕ → ℕ) (_xNbPool : PoolPtr) : Bool × TapInterface :=
  if ¬ opened then (false, s)
  else
    (true, { s with
      nCurrentIffFlags := flags.getD s.nCurrentIffFlags
      pxMacAddr := some (prvGenRandomEth rand) })

def xNetworkInterfaceConnect (s : TapInterface) (spawn : Spawn) : Bool × TapInterface :=
  if prvLinuxTapCheckFlags s.nCurrentIffFlags IFF_UP then
    match prvLinuxTapStartReadThread s spawn with
    | (false, s) => (false, s)
    | (true, s) => (true, { s with xIsInterfaceConnected := true })
  else (true, { s with xIsInterfaceConnected := true })

def xNetworkInterfaceDisconnect (s : TapInterface) : Bool × TapInterface :=
  (true, { s with xIsInterfaceConnected := false })

/-- A read thread leaves when its pipe is written to. -/
def vNetworkNotifyIFDown (s : TapInterface) : TapInterface :=
  if s.xIsInterfaceConnected then
    { s with readers := s.readers.filter fun fd => some fd ≠ s.nTapThreadFD }
  else s

def vNetworkNotifyIFUp (s : TapInterface) (spawn : Spawn) : TapInterface :=
  if s.xIsInterfaceConnected then (prvLinuxTapStartReadThread s spawn).2 else s

/-- A message about the link of the interface; those about other interfaces are passed over. -/
def prvLinuxTapParseNewLinkMsg (s : TapInterface) (ifi_flags : BitVec 32) (spawn : Spawn) :
    TapInterface :=
  let isNowUp := ifi_flags &&& IFF_UP ≠ 0 ∧ s.nCurrentIffFlags &&& IFF_UP = 0
  let isNowDown := ifi_flags &&& IFF_UP = 0 ∧ s.nCurrentIffFlags &&& IFF_UP ≠ 0
  let s := { s with nCurrentIffFlags := ifi_flags }
  let s := if isNowUp then vNetworkNotifyIFUp s spawn else s
  if isNowDown then vNetworkNotifyIFDown s else s

/-! ### Frames -/

def eConsiderFrameForProcessing (pucEthernetFrame : Bytes) : Exec FrameProcessingResult := do
  let bs ← inBounds (slice pucEthernetFrame 12 2)
  let usFrameType := RsHtoNS (leVal bs).toUInt16
  if usFrameType = ETH_P_RINA_ARP ∨ usFrameType = ETH_P_RINA then return .eProcessBuffer
  else return .eReleaseBuffer

def xBroadcastMac : Bytes := List.replicate 6 0xff

def xIsBroadcastMac (pxMac : Bytes) : Bool := pxMac = xBroadcastMac

/-- The part of `xNetworkInterfaceInput` in front of the shim, with the frame which the shim gets
if the function gets that far. A frame for another address is not released. -/
def frameForShim (s : TapInterface) (h : Heap) (buffer : Bytes) (len : UInt16) :
    Exec (Bool × Option NbPtr × Heap) := do
  if (← eConsiderFrameForProcessing buffer) ≠ .eProcessBuffer then return (true, none, h)
  match pvRsMemAlloc h len.toNat with
  | (none, h) => return (false, none, h)
  | (some pvFrame, h) => do
    let bs ← inBounds (slice buffer 0 len.toNat)
    let h ← h.write (some ⟨pvFrame, 0⟩) 0 bs
    match ← pxNetBufNew pf h s.xNbPool .NB_ETH_HDR (some ⟨pvFrame, 0⟩) len.toNat
      (some .vNetBufFreeNormal) with
    | (none, h) => do
      let h ← vRsMemFree h (some ⟨pvFrame, 0⟩)
      return (false, none, h)
    | (some pxNbFrame, h) => do
      let pxEthernetHeader ← pvNetBufPtr pf h pxNbFrame
      let xDestinationAddress ← h.read pxEthernetHeader 0 6
      let pxMacAddr ← deref s.pxMacAddr
      if xIsBroadcastMac xDestinationAddress then
        let h ← h.write pxEthernetHeader 0 pxMacAddr.ucBytes
        return (true, some pxNbFrame, h)
      else if xDestinationAddress ≠ pxMacAddr.ucBytes then return (false, none, h)
      else return (true, some pxNbFrame, h)

def xNetworkInterfaceInput (s : TapInterface) (h : Heap) (d : ShimData) (env : Surroundings)
    (buffer : Bytes) (len : UInt16) : Exec (Bool × Event × ShimData × Heap) := do
  match ← frameForShim pf s h buffer len with
  | (xStatus, none, h) => return (xStatus, none, d, h)
  | (_, some pxNbFrame, h) => do
    let (event, d, h) ← vShimHandleEthernetPacket pf h d pxNbFrame env
    return (true, event, d, h)

/-! ### Runs -/

/-- What happens to the interface. The system may end a read thread, and a frame finds the memory
as the rest of the program has left it. -/
inductive TapOp
  | initialise (opened : Bool) (flags : Option (BitVec 32)) (rand : ℕ → ℕ) (xNbPool : PoolPtr)
  | connect (spawn : Spawn)
  | disconnect
  | link (ifi_flags : BitVec 32) (spawn : Spawn)
  | ended (fd : ℕ)
  | frame (h : Heap) (env : Surroundings) (buffer : Bytes) (len : UInt16)

/-- The interface and its shim, with what was posted for the frames. -/
structure TapRun where
  tap : TapInterface
  shim : ShimData
  posted : List (PortId × Option NbPtr)

def TapInterface.step (s : TapInterface) : TapOp → TapInterface
  | .initialise opened flags rand xNbPool =>
    (xNetworkInterfaceInitialise s opened flags rand xNbPool).2
  | .connect spawn => (xNetworkInterfaceConnect s spawn).2
  | .disconnect => (xNetworkInterfaceDisconnect s).2
  | .link ifi_flags spawn => prvLinuxTapParseNewLinkMsg s ifi_flags spawn
  | .ended fd => { s with readers := s.readers.filter (· ≠ fd) }
  | .frame _ _ _ _ => s

/-- The random address is that of the shim too. -/
def TapOp.address (d : ShimData) : TapOp → ShimData
  | .initialise true _ rand _ => { d with xPhyDev := prvGenRandomEth rand }
  | _ => d

def TapRun.step (r : TapRun) : TapOp → Exec TapRun
  | .frame h env buffer len => do
    let (_, event, d, _) ← xNetworkInterfaceInput pf r.tap h r.shim env buffer len
    return { r with shim := d, posted := r.posted ++ event.toList }
  | op => .ok { r with tap := r.tap.step op, shim := op.address r.shim }

/-- The buffer of a read thread has room for every frame, and `read` does not write behind it. -/
def TapOp.Read (op : TapOp) : Prop :=
  match op with
  | .frame _ _ buffer len => buffer.length = TAP_MTU + sizeofEthernetHeader ∧
      len.toNat ≤ buffer.length
  | _ => True

/-- The frame is of a kind which the stack looks at, and there is memory for it. -/
def TapOp.Looked (op : TapOp) : Prop :=
  match op with
  | .frame h _ buffer _ => eConsiderFrameForProcessing buffer = .ok .eProcessBuffer ∧
      h.mallocOk h.calls = true
  | _ => False

variable {pf} {s s' : TapInterface} {op : TapOp} {ops : List TapOp} {r r' : TapRun}

/-! ### The pool -/

/-- The global stays a null pointer. -/
theorem step_xNbPool (s : TapInterface) (op : TapOp) : (s.step op).xNbPool = s.xNbPool := by
  cases op with
  | initialise opened flags rand xNbPool => cases opened <;> rfl
  | connect spawn =>
    obtain ⟨piped, created⟩ := spawn
    simp only [TapInterface.step, xNetworkInterfaceConnect, prvLinuxTapStartReadThread]
    split
    · cases piped <;> cases created <;> rfl
    · rfl
  | disconnect => rfl
  | link ifi_flags spawn =>
    obtain ⟨piped, created⟩ := spawn
    simp only [TapInterface.step, prvLinuxTapParseNewLinkMsg, vNetworkNotifyIFUp,
      vNetworkNotifyIFDown, prvLinuxTapStartReadThread]
    split_ifs <;> rfl
  | ended fd => rfl
  | frame h env buffer len => rfl

/-- Without the pool the function does not get as far as the shim. -/
theorem frameForShim_cases (hdebug : pf.ndebug = false) (hpool : s.xNbPool = none) {h : Heap}
    {env : Surroundings} {buffer : Bytes} {len : UInt16}
    (hread : (TapOp.frame h env buffer len).Read) :
    (¬ (TapOp.frame h env buffer len).Looked ∧
      ∃ b h', frameForShim pf s h buffer len = .ok (b, none, h')) ∨
    ((TapOp.frame h env buffer len).Looked ∧
      frameForShim pf s h buffer len = .error .assertion) := by
  obtain ⟨hsize, hlen⟩ := hread
  obtain ⟨eResult, hconsider⟩ : ∃ eResult, eConsiderFrameForProcessing buffer = .ok eResult := by
    have hin : 12 + 2 ≤ buffer.length := by
      rw [hsize]
      decide
    rw [eConsiderFrameForProcessing, slice, if_pos hin, inBounds_some, Exec.ok_bind]
    dsimp only
    split
    · exact ⟨_, rfl⟩
    · exact ⟨_, rfl⟩
  by_cases hkind : eResult = .eProcessBuffer
  · subst hkind
    have hslice : slice buffer 0 len.toNat = some ((buffer.drop 0).take len.toNat) :=
      if_pos (by rwa [Nat.zero_add])
    by_cases hm : h.mallocOk h.calls = true
    · right
      refine ⟨⟨hconsider, hm⟩, ?_⟩
      have hblock : (buffered h (h.stale h.brk len.toNat)).mem h.brk =
          some (h.stale h.brk len.toNat) := Function.update_self _ _ _
      have hlen' : ((buffer.drop 0).take len.toNat).length = (h.stale h.brk len.toNat).length := by
        rw [Heap.stale_length, List.drop_zero, List.length_take, Nat.min_eq_left hlen]
      have hwrite := write_whole hblock hlen'
      have halloc : pvRsMemAlloc h len.toNat =
          (some h.brk, buffered h (h.stale h.brk len.toNat)) := if_pos hm
      rw [frameForShim, hconsider, Exec.ok_bind, if_neg (not_not_intro rfl), halloc]
      simp only [hslice, inBounds_some, Exec.ok_bind, hwrite, pxNetBufNew, hpool, rsAssert, hdebug,
        Option.isSome_none, Bool.or_self, Bool.false_eq_true, if_false, Exec.error_bind]
    · left
      refine ⟨fun hlooked => hm hlooked.2, false, h.called, ?_⟩
      have halloc : pvRsMemAlloc h len.toNat = (none, h.called) := if_neg hm
      rw [frameForShim, hconsider, Exec.ok_bind, if_neg (not_not_intro rfl), halloc]
      rfl
  · left
    refine ⟨fun hlooked => hkind (Except.ok.inj (hconsider.symm.trans hlooked.1)), true, h, ?_⟩
    rw [frameForShim, hconsider, Exec.ok_bind, if_pos hkind]
    rfl

theorem tapRun_step (hdebug : pf.ndebug = false) (hpool : r.tap.xNbPool = none)
    (hread : op.Read) :
    (¬ op.Looked ∧ r.step pf op = .ok ⟨r.tap.step op, op.address r.shim, r.posted⟩) ∨
      (op.Looked ∧ r.step pf op = .error .assertion) := by
  cases op with
  | frame h env buffer len =>
    rcases frameForShim_cases hdebug hpool hread with ⟨hno, b, h', hrun⟩ | ⟨hyes, hrun⟩
    · refine Or.inl ⟨hno, ?_⟩
      rw [TapRun.step, xNetworkInterfaceInput, hrun]
      simp only [Exec.ok_bind, pure_bind, Option.toList_none, List.append_nil]
      rfl
    · refine Or.inr ⟨hyes, ?_⟩
      rw [TapRun.step, xNetworkInterfaceInput, hrun]
      rfl
  | initialise opened flags rand xNbPool => exact Or.inl ⟨id, rfl⟩
  | connect spawn => exact Or.inl ⟨id, rfl⟩
  | disconnect => exact Or.inl ⟨id, rfl⟩
  | link ifi_flags spawn => exact Or.inl ⟨id, rfl⟩
  | ended fd => exact Or.inl ⟨id, rfl⟩

theorem tapRun_from (hdebug : pf.ndebug = false) (hpool : r.tap.xNbPool = none)
    (hread : ∀ op ∈ ops, op.Read) :
    ((∀ op ∈ ops, ¬ op.Looked) ∧
      ops.foldlM (TapRun.step pf) r =
        .ok ⟨ops.foldl TapInterface.step r.tap, ops.foldl TapOp.address r.shim, r.posted⟩) ∨
    ((∃ op ∈ ops, op.Looked) ∧ ops.foldlM (TapRun.step pf) r = .error .assertion) := by
  induction ops generalizing r with
  | nil => exact Or.inl ⟨fun _ hop => absurd hop List.not_mem_nil, rfl⟩
  | cons op ops ih =>
    rw [List.foldlM_cons]
    rcases tapRun_step hdebug hpool (hread op List.mem_cons_self) with ⟨hno, hstep⟩ | ⟨hyes, hstep⟩
    · have hpool' : (r.tap.step op).xNbPool = none := (step_xNbPool r.tap op).trans hpool
      rw [hstep, Exec.ok_bind]
      rcases ih (r := ⟨r.tap.step op, op.address r.shim, r.posted⟩)
        hpool'
        (fun op' hop' => hread op' (List.mem_cons_of_mem op hop')) with
        ⟨hnone, hrun⟩ | ⟨⟨op', hop', hlooked⟩, hrun⟩
      · exact Or.inl ⟨List.forall_mem_cons.mpr ⟨hno, hnone⟩, hrun⟩
      · exact Or.inr ⟨⟨op', List.mem_cons_of_mem op hop', hlooked⟩, hrun⟩
    · rw [hstep]
      exact Or.inr ⟨⟨op, List.mem_cons_self, hyes⟩, rfl⟩

/-- Only the address of the shim changes. -/
theorem foldl_address (d : ShimData) (ops : List TapOp) :
    ∃ xPhyDev, ops.foldl TapOp.address d = { d with xPhyDev := xPhyDev } := by
  induction ops generalizing d with
  | nil => exact ⟨d.xPhyDev, rfl⟩
  | cons op ops ih =>
    obtain ⟨xPhyDev, hops⟩ := ih (TapOp.address d op)
    refine ⟨xPhyDev, hops.trans ?_⟩
    cases op with
    | initialise opened flags rand xNbPool => cases opened <;> rfl
    | connect spawn => rfl
    | disconnect => rfl
    | link ifi_flags spawn => rfl
    | ended fd => rfl
    | frame h env buffer len => rfl

/-- Whatever is done with the interface, and whichever pool the shim hands in, no frame gets to
the shim: but for its address its data stay as they are, nothing is posted, and the first frame
which the stack looks at ends the program. -/
theorem tap_hands_over_nothing (hdebug : pf.ndebug = false) (d : ShimData) (ops : List TapOp)
    (hread : ∀ op ∈ ops, op.Read) :
    ((∀ op ∈ ops, ¬ op.Looked) ∧ ∃ tap xPhyDev,
      ops.foldlM (TapRun.step pf) ⟨.start, d, []⟩ =
        .ok ⟨tap, { d with xPhyDev := xPhyDev }, []⟩) ∨
    ((∃ op ∈ ops, op.Looked) ∧
      ops.foldlM (TapRun.step pf) ⟨.start, d, []⟩ = .error .assertion) := by
  rcases tapRun_from (r := ⟨.start, d, []⟩) hdebug rfl hread with ⟨hno, hrun⟩ | hyes
  · obtain ⟨xPhyDev, haddress⟩ := foldl_address d ops
    exact Or.inl ⟨hno, _, xPhyDev, haddress ▸ hrun⟩
  · exact Or.inr hyes

/-- The buffer of a read thread with a RINA frame. -/
def exampleReadBuffer : Bytes := List.replicate 12 0 ++ ([0xD1, 0xF0] ++ List.replicate 1500 0)

theorem exampleReadBuffer_length : exampleReadBuffer.length = TAP_MTU + sizeofEthernetHeader := by
  rw [exampleReadBuffer, List.length_append, List.length_append, List.length_replicate,
    List.length_replicate]
  rfl

theorem exampleReadBuffer_considered :
    eConsiderFrameForProcessing exampleReadBuffer = .ok .eProcessBuffer := by
  have hslice : slice exampleReadBuffer 12 2 = some [0xD1, 0xF0] := by
    rw [slice, exampleReadBuffer_length, if_pos (by decide), exampleReadBuffer,
      List.drop_left' List.length_replicate]
    rfl
  rw [eConsiderFrameForProcessing, hslice, inBounds_some, Exec.ok_bind]
  rfl

/-- The pool which the shim hands in is of no use to the first RINA frame. -/
theorem tap_hands_over_nothing_rina :
    ([.initialise true (some 1) id 7, .connect ⟨true, true⟩,
      .frame exampleDuHeap exampleSurroundings exampleReadBuffer 20] : List TapOp).foldlM
        (TapRun.step ⟨false, false⟩) ⟨.start, exampleShim, []⟩ = .error .assertion := by
  refine ((tap_hands_over_nothing rfl exampleShim _ ?_).resolve_left fun hno => ?_).2
  · refine List.forall_mem_cons.mpr ⟨trivial, List.forall_mem_cons.mpr ⟨trivial,
      List.forall_mem_singleton.mpr ⟨exampleReadBuffer_length, ?_⟩⟩⟩
    rw [exampleReadBuffer_length]
    decide
  · exact hno.1 (.frame _ _ _ _) (List.mem_cons_of_mem _ (List.mem_cons_of_mem _
      List.mem_cons_self)) ⟨exampleReadBuffer_considered, rfl⟩

/-! ### The read threads -/

def TapInterface.Up (s : TapInterface) : Prop := s.nCurrentIffFlags &&& IFF_UP ≠ 0

instance (s : TapInterface) : Decidable s.Up := inferInstanceAs (Decidable (_ ≠ _))

/-- There is at most one read thread, which the next message about the link reaches; while the
interface is connected and down there is none. -/
structure TapInterface.OneReader (s : TapInterface) : Prop where
  reachable : ∀ fd ∈ s.readers, s.nTapThreadFD = some fd
  single : s.readers.length ≤ 1
  down : s.xIsInterfaceConnected = true → ¬ s.Up → s.readers = []

/-- The interface is initialised and connected only while there is no read thread. -/
def TapInterface.Idle (s : TapInterface) : TapOp → Prop
  | .initialise _ _ _ _ => s.readers = []
  | .connect _ => s.readers = []
  | _ => True

instance (s : TapInterface) : (op : TapOp) → Decidable (s.Idle op)
  | .initialise _ _ _ _ => inferInstanceAs (Decidable (s.readers = []))
  | .connect _ => inferInstanceAs (Decidable (s.readers = []))
  | .disconnect => .isTrue trivial
  | .link _ _ => .isTrue trivial
  | .ended _ => .isTrue trivial
  | .frame _ _ _ _ => .isTrue trivial

theorem and_IFF_UP (x : BitVec 32) : x &&& IFF_UP = 0 ∨ x &&& IFF_UP = 1 := by
  have hmod : (x &&& IFF_UP).toNat = x.toNat % 2 := by
    rw [BitVec.toNat_and]
    exact Nat.and_one_is_mod x.toNat
  rcases Nat.mod_two_eq_zero_or_one x.toNat with hzero | hone
  · exact Or.inl (BitVec.eq_of_toNat_eq (hmod.trans hzero))
  · exact Or.inr (BitVec.eq_of_toNat_eq (hmod.trans hone))

theorem checkFlags_iff (s : TapInterface) :
    prvLinuxTapCheckFlags s.nCurrentIffFlags IFF_UP = true ↔ s.Up := by
  rw [prvLinuxTapCheckFlags, TapInterface.Up]
  rcases and_IFF_UP s.nCurrentIffFlags with hzero | hone
  · rw [hzero]
    decide
  · rw [hone]
    decide

namespace TapInterface.OneReader

theorem start : TapInterface.start.OneReader where
  reachable fd hfd := by cases hfd
  single := Nat.zero_le 1
  down _ _ := rfl

/-- The only read thread is one which was just started, if it could be. -/
theorem spawned (hnone : s.readers = []) (hup : s.Up) (spawn : Spawn) :
    (prvLinuxTapStartReadThread s spawn).2.OneReader ∧
      (prvLinuxTapStartReadThread s spawn).2.Up ∧
      (prvLinuxTapStartReadThread s spawn).2.xIsInterfaceConnected = s.xIsInterfaceConnected := by
  obtain ⟨piped, created⟩ := spawn
  cases piped with
  | false =>
    refine ⟨⟨fun fd hfd => ?_, ?_, fun _ _ => hnone⟩, hup, rfl⟩
    · have hfd : fd ∈ s.readers := hfd
      rw [hnone] at hfd
      cases hfd
    · exact hnone ▸ Nat.zero_le 1
  | true =>
    refine ⟨⟨fun fd hfd => ?_, ?_, fun _ hdown => absurd hup hdown⟩, hup, rfl⟩
    · simp only [prvLinuxTapStartReadThread, hnone] at hfd ⊢
      cases created <;> simp_all
    · simp only [prvLinuxTapStartReadThread, hnone]
      cases created <;> simp

theorem connect (h : s.OneReader) (hnone : s.readers = []) (spawn : Spawn) :
    (xNetworkInterfaceConnect s spawn).2.OneReader := by
  rw [xNetworkInterfaceConnect]
  by_cases hup : prvLinuxTapCheckFlags s.nCurrentIffFlags IFF_UP = true
  · obtain ⟨hone, hup', -⟩ := spawned hnone ((checkFlags_iff s).mp hup) spawn
    rw [if_pos hup]
    rcases hspawn : prvLinuxTapStartReadThread s spawn with ⟨started, s'⟩
    rw [hspawn] at hone hup'
    cases started with
    | false => exact hone
    | true => exact ⟨hone.reachable, hone.single, fun _ hdown => absurd hup' hdown⟩
  · rw [if_neg hup]
    exact ⟨h.reachable, h.single, fun _ _ => hnone⟩

/-- Only a change of the link while the interface is connected starts or ends a read thread. -/
theorem link (h : s.OneReader) (ifi_flags : BitVec 32) (spawn : Spawn) :
    (prvLinuxTapParseNewLinkMsg s ifi_flags spawn).OneReader := by
  have hsame : s.xIsInterfaceConnected = false →
      ({ s with nCurrentIffFlags := ifi_flags } : TapInterface).OneReader := fun hoff =>
    ⟨h.reachable, h.single, fun hon _ => by
      have hon : s.xIsInterfaceConnected = true := hon
      rw [hoff] at hon
      cases hon⟩
  cases hconnected : s.xIsInterfaceConnected with
  | false =>
    simp only [prvLinuxTapParseNewLinkMsg, vNetworkNotifyIFUp, vNetworkNotifyIFDown, hconnected,
      Bool.false_eq_true, if_false, ite_self]
    simpa only [hconnected] using hsame hconnected
  | true =>
    by_cases hnew : ifi_flags &&& IFF_UP = 0
    · by_cases hold : s.nCurrentIffFlags &&& IFF_UP = 0
      · -- down as before
        simp only [prvLinuxTapParseNewLinkMsg, hnew, hold, ne_eq, not_true_eq_false, false_and,
          and_false, if_false]
        exact ⟨h.reachable, h.single, fun _ _ => h.down hconnected (not_not_intro hold)⟩
      · -- the read thread is told to leave
        simp only [prvLinuxTapParseNewLinkMsg, vNetworkNotifyIFDown, hnew, hold, hconnected, ne_eq,
          not_true_eq_false, not_false_eq_true, and_self, if_false, if_true]
        have hgone : s.readers.filter (fun fd => decide (¬ some fd = s.nTapThreadFD)) = [] := by
          rw [List.filter_eq_nil_iff]
          intro fd hfd
          simp [h.reachable fd hfd]
        refine ⟨fun fd hfd => ?_, ?_, fun _ _ => hgone⟩
        · have hfd : fd ∈ s.readers.filter (fun fd => decide (¬ some fd = s.nTapThreadFD)) := hfd
          rw [hgone] at hfd
          cases hfd
        · exact hgone ▸ Nat.zero_le 1
    · by_cases hold : s.nCurrentIffFlags &&& IFF_UP = 0
      · -- a read thread is started
        have hnone : s.readers = [] := h.down hconnected (not_not_intro hold)
        simp only [prvLinuxTapParseNewLinkMsg, vNetworkNotifyIFUp, hnew, hold, hconnected, ne_eq,
          not_true_eq_false, not_false_eq_true, and_self, if_false, if_true]
        have hspawned :=
          (@spawned { s with nCurrentIffFlags := ifi_flags } hnone hnew spawn).1
        simpa only [hconnected] using hspawned
      · -- up as before
        simp only [prvLinuxTapParseNewLinkMsg, hnew, hold, ne_eq, not_false_eq_true, false_and,
          and_false, if_false]
        exact ⟨h.reachable, h.single, fun _ hdown => absurd hnew hdown⟩

theorem ended (h : s.OneReader) (fd : ℕ) :
    ({ s with readers := s.readers.filter (· ≠ fd) } : TapInterface).OneReader where
  reachable fd' hfd := h.reachable fd' (List.mem_of_mem_filter hfd)
  single := (List.length_filter_le _ _).trans h.single
  down hon hdown := by
    have hnone : s.readers = [] := h.down hon hdown
    simp [hnone]

theorem step (h : s.OneReader) (op : TapOp) (hidle : s.Idle op) : (s.step op).OneReader := by
  cases op with
  | initialise opened flags rand xNbPool =>
    have hnone : s.readers = [] := hidle
    cases opened with
    | false => exact h
    | true => exact ⟨h.reachable, h.single, fun _ _ => hnone⟩
  | connect spawn => exact h.connect hidle spawn
  | disconnect => exact ⟨h.reachable, h.single, fun hon => by cases hon⟩
  | link ifi_flags spawn => exact h.link ifi_flags spawn
  | ended fd => exact h.ended fd
  | frame h' env buffer len => exact h

end TapInterface.OneReader

end RinaSense.NetworkInterface
