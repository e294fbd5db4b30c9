import RinaSense.Efcp.Write

/-!
# Sequence number rollover

A sender and a receiver over a channel which neither loses nor reorders. The sender
counts its PDUs in 32 bits, and the receiver compares what arrives with its left window
edge as plain numbers.
-/

namespace RinaSense.Efcp

open Common Rmt Library.Memory

/-- Both ends of a connection, the channel between them, the payloads written so far and
those which were delivered to the upper layer. -/
structure Link where
  sender : DtpSv
  channel : List (Pci × Bytes)
  receiver : DtpSv
  written : List Bytes
  delivered : List Bytes
  arrived : ℕ

def Link.fresh : Link := ⟨vDtpStateVectorInit, [], vDtpStateVectorInit, [], [], 0⟩

inductive LinkAct
  | write (payload : Bytes)
  | arrive
deriving DecidableEq, Repr

variable (conn : Connection)

def Link.write (s : Link) (payload : Bytes) : Link :=
  let sv := s.sender.consume
  { s with
    sender := sv
    channel := s.channel ++ [(dtpHeader conn payload.length sv, payload)]
    written := s.written ++ [payload] }

/-- The oldest PDU of the channel arrives, if there is one. -/
def Link.arrive (s : Link) : Link :=
  match s.channel with
  | [] => s
  | (q, payload) :: rest =>
    let out := xDtpReceive s.receiver q.xSequenceNumber q.xFlags
    { s with
      channel := rest
      receiver := out.sv
      delivered := if out.posted then s.delivered ++ [payload] else s.delivered
      arrived := s.arrived + 1 }

def Link.step (s : Link) : LinkAct → Link
  | .write payload => s.write conn payload
  | .arrive => s.arrive

def Link.run (acts : List LinkAct) : Link := acts.foldl (Link.step conn) Link.fresh

/-- Every payload written was delivered once, in the order of writing, or is still on
its way. -/
def Link.DeliversAll (s : Link) : Prop := s.delivered ++ s.channel.map Prod.snd = s.written

/-- The PDUs of consecutive writes, from the number `n` on. -/
def stamped : ℕ → List Bytes → List (Pci × Bytes)
  | _, [] => []
  | n, d :: ds =>
    (dtpHeader conn d.length { vDtpStateVectorInit with xNextSeqNumberToSend := n.toUInt32 }, d) ::
      stamped (n + 1) ds

theorem stamped_append (n : ℕ) (ds : List Bytes) (d : Bytes) :
    stamped conn n (ds ++ [d]) = stamped conn n ds ++ [(dtpHeader conn d.length
      { vDtpStateVectorInit with xNextSeqNumberToSend := (n + ds.length).toUInt32 }, d)] := by
  induction ds generalizing n with
  | nil => rfl
  | cons d' ds ih =>
    have hn : n + 1 + ds.length = n + (ds.length + 1) := by omega
    simp [stamped, ih, hn]

theorem stamped_payloads (n : ℕ) (ds : List Bytes) :
    (stamped conn n ds).map Prod.snd = ds := by
  induction ds generalizing n with
  | nil => rfl
  | cons d ds ih => simp [stamped, ih]

/-- Before the first PDU the receiver waits for a data run; afterwards its left window
edge is the number of PDUs which arrived. -/
def ReceiverAt (sv : DtpSv) (k : ℕ) : Prop :=
  if k = 0 then sv.xDrfRequired = true
  else sv.xDrfRequired = false ∧ sv.xRcvLeftWindowEdge.toNat = k

/-- The state of a link after the PDUs of `done` arrived and while those of `rest` are on
their way. Up to the rollover everything was delivered, and from then on never again. -/
structure LinkAt (s : Link) (done rest : List Bytes) : Prop where
  written : s.written = done ++ rest
  channel : s.channel = stamped conn (done.length + 1) rest
  arrived : s.arrived = done.length
  sender : s.sender =
    { vDtpStateVectorInit with xNextSeqNumberToSend := s.written.length.toUInt32 }
  before : done.length < 2 ^ 32 → s.delivered = done ∧ ReceiverAt s.receiver done.length
  after : 2 ^ 32 ≤ done.length → s.delivered.length < done.length

theorem linkAt_fresh : LinkAt conn Link.fresh [] [] where
  written := rfl
  channel := rfl
  arrived := rfl
  sender := rfl
  before := fun _ => ⟨rfl, rfl⟩
  after := by simp

variable {conn}

theorem LinkAt.write {s : Link} {done rest : List Bytes} (hs : LinkAt conn s done rest)
    (d : Bytes) : LinkAt conn (s.write conn d) done (rest ++ [d]) where
  written := by simp [Link.write, hs.written]
  channel := by
    have hlen : (done ++ rest).length + 1 = done.length + 1 + rest.length := by
      rw [List.length_append]
      omega
    simp only [Link.write, hs.channel, stamped_append, hs.sender, hs.written, DtpSv.consume,
      ← hlen]
    simp
  arrived := hs.arrived
  sender := by simp [Link.write, hs.sender, DtpSv.consume]
  before := hs.before
  after := hs.after

/-- What a receiver does with the PDU number `k + 1` after the first `k` ones. -/
theorem ReceiverAt.next {sv : DtpSv} {k : ℕ} (h : ReceiverAt sv k) (hk : k + 1 < 2 ^ 32) :
    (xDtpReceive sv (k + 1).toUInt32 PDU_FLAGS_DATA_RUN).posted = true ∧
      ReceiverAt (xDtpReceive sv (k + 1).toUInt32 PDU_FLAGS_DATA_RUN).sv (k + 1) := by
  have hseq : (k + 1).toUInt32.toNat = k + 1 := by
    simp only [Nat.toUInt32, UInt32.toNat_ofNat']
    omega
  unfold ReceiverAt at h
  split_ifs at h with h0
  · subst h0
    rw [xDtpReceive_dataRun h (by decide)]
    exact ⟨rfl, rfl, rfl⟩
  · obtain ⟨hdrf, hedge⟩ := h
    have hgt : ¬ (k + 1).toUInt32 ≤ sv.xRcvLeftWindowEdge := by
      rw [UInt32.le_iff_toNat_le, hseq, hedge]
      omega
    have hnext : (k + 1).toUInt32 = sv.xRcvLeftWindowEdge + 1 := by
      apply UInt32.toNat_inj.mp
      rw [hseq, UInt32.toNat_add, hedge]
      simp only [UInt32.toNat_one]
      omega
    rw [xDtpReceive_inOrder hdrf hgt hnext]
    exact ⟨rfl, hdrf, hseq⟩

/-- The PDU with the number `2 ^ 32` carries a zero and is taken for a duplicate. -/
theorem ReceiverAt.rollover {sv : DtpSv} {k : ℕ} (h : ReceiverAt sv k) (hk : k + 1 = 2 ^ 32) :
    (xDtpReceive sv (k + 1).toUInt32 PDU_FLAGS_DATA_RUN).posted = false := by
  have hseq : (k + 1).toUInt32 = 0 := by
    rw [hk]
    rfl
  have h0 : k ≠ 0 := by omega
  rw [ReceiverAt, if_neg h0] at h
  rw [hseq, xDtpReceive_duplicate h.1 (UInt32.zero_le)]

theorem LinkAt.arrive {s : Link} {done rest : List Bytes} {d : Bytes}
    (hs : LinkAt conn s done (d :: rest)) : LinkAt conn s.arrive (done ++ [d]) rest := by
  have hlen : (done ++ [d]).length = done.length + 1 := by simp
  let out := xDtpReceive s.receiver (done.length + 1).toUInt32 PDU_FLAGS_DATA_RUN
  have hcode : s.arrive = { s with
      channel := stamped conn (done.length + 1 + 1) rest
      receiver := out.sv
      delivered := if out.posted then s.delivered ++ [d] else s.delivered
      arrived := s.arrived + 1 } := by
    unfold Link.arrive
    rw [hs.channel]
    rfl
  rw [hcode]
  constructor
  · simp [hs.written]
  · rw [hlen]
  · rw [hlen, hs.arrived]
  · exact hs.sender
  · intro hlt
    rw [hlen] at hlt ⊢
    obtain ⟨hdel, hrecv⟩ := hs.before (Nat.lt_of_succ_lt hlt)
    obtain ⟨hposted, hrecv'⟩ := hrecv.next hlt
    refine ⟨?_, hrecv'⟩
    change (if out.posted then s.delivered ++ [d] else s.delivered) = _
    rw [if_pos hposted, hdel]
  · intro hle
    rw [hlen] at hle ⊢
    change (if out.posted then s.delivered ++ [d] else s.delivered).length < _
    rcases Nat.lt_or_ge done.length (2 ^ 32) with hlt | hge
    · obtain ⟨hdel, hrecv⟩ := hs.before hlt
      have hnot : out.posted = false := hrecv.rollover (by omega)
      rw [hnot, hdel]
      exact Nat.lt_succ_self _
    · have hless := hs.after hge
      split_ifs
      · rw [List.length_append, List.length_singleton]
        exact Nat.succ_lt_succ hless
      · exact Nat.lt_succ_of_lt hless

theorem LinkAt.step {s : Link} {done rest : List Bytes} (hs : LinkAt conn s done rest)
    (act : LinkAct) : ∃ done' rest', LinkAt conn (s.step conn act) done' rest' := by
  cases act with
  | write d => exact ⟨done, rest ++ [d], hs.write d⟩
  | arrive =>
    cases rest with
    | nil =>
      have hempty : s.arrive = s := by
        unfold Link.arrive
        rw [hs.channel]
        rfl
      exact ⟨done, [], by rw [Link.step, hempty]; exact hs⟩
    | cons d rest => exact ⟨done ++ [d], rest, hs.arrive⟩

theorem linkAt_run (conn : Connection) (acts : List LinkAct) :
    ∃ done rest, LinkAt conn (Link.run conn acts) done rest := by
  unfold Link.run
  induction acts using List.reverseRecOn with
  | nil => exact ⟨[], [], linkAt_fresh conn⟩
  | append_singleton acts act ih =>
    obtain ⟨done, rest, hs⟩ := ih
    rw [List.foldl_append]
    exact hs.step act

/-- Up to the rollover nothing is lost, and from then on something always is. -/
theorem LinkAt.deliversAll_iff {s : Link} {done rest : List Bytes}
    (hs : LinkAt conn s done rest) : s.DeliversAll ↔ s.arrived < 2 ^ 32 := by
  rw [Link.DeliversAll, hs.channel, stamped_payloads, hs.written, hs.arrived]
  constructor
  · intro h
    by_contra hge
    have hless := hs.after (Nat.le_of_not_lt hge)
    have hlen := congrArg List.length h
    rw [List.length_append, List.length_append] at hlen
    omega
  · intro hlt
    rw [(hs.before hlt).1]

/-- In every run, the PDUs written are delivered once and in order exactly while fewer
than `2 ^ 32` of them have arrived. -/
theorem link_deliversAll_iff (conn : Connection) (acts : List LinkAct) :
    (Link.run conn acts).DeliversAll ↔ (Link.run conn acts).arrived < 2 ^ 32 := by
  obtain ⟨done, rest, hs⟩ := linkAt_run conn acts
  exact hs.deliversAll_iff

theorem run_writes_channel (conn : Connection) (n : ℕ) (s : Link) :
    ((List.replicate n (LinkAct.write [])).foldl (Link.step conn) s).channel.length =
        s.channel.length + n ∧
      ((List.replicate n (LinkAct.write [])).foldl (Link.step conn) s).arrived = s.arrived := by
  induction n generalizing s with
  | zero => exact ⟨rfl, rfl⟩
  | succ n ih =>
    obtain ⟨hlen, harr⟩ := ih (s.write conn [])
    rw [List.replicate_succ, List.foldl_cons]
    refine ⟨hlen.trans ?_, harr⟩
    simp only [Link.write, List.length_append, List.length_singleton]
    omega

theorem run_arrivals_arrived (conn : Connection) {n : ℕ} {s : Link} (h : n ≤ s.channel.length) :
    ((List.replicate n LinkAct.arrive).foldl (Link.step conn) s).arrived = s.arrived + n := by
  induction n generalizing s with
  | zero => rfl
  | succ n ih =>
    cases hc : s.channel with
    | nil =>
      rw [hc] at h
      cases h
    | cons p rest =>
      obtain ⟨q, payload⟩ := p
      rw [hc, List.length_cons] at h
      have hrest : s.arrive.channel = rest ∧ s.arrive.arrived = s.arrived + 1 := by
        unfold Link.arrive
        rw [hc]
        exact ⟨rfl, rfl⟩
      rw [List.replicate_succ, List.foldl_cons, Link.step,
        ih (by rw [hrest.1]; exact Nat.le_of_succ_le_succ h), hrest.2]
      omega

/-- As many writes as there are sequence numbers, and then the arrival of all of them. -/
def rolloverRun : List LinkAct :=
  List.replicate (2 ^ 32) (.write []) ++ List.replicate (2 ^ 32) .arrive

theorem rolloverRun_loses : ¬ (Link.run exampleConnection rolloverRun).DeliversAll := by
  obtain ⟨done, rest, hs⟩ := linkAt_run exampleConnection rolloverRun
  rw [hs.deliversAll_iff, Link.run, rolloverRun, List.foldl_append]
  obtain ⟨hlen, harr⟩ := run_writes_channel exampleConnection (2 ^ 32) Link.fresh
  rw [run_arrivals_arrived exampleConnection (by rw [hlen]; exact Nat.le_add_left _ _), harr]
  exact Nat.not_lt.mpr (Nat.le_add_left _ _)

end RinaSense.Efcp
