import Mathlib.Algebra.GroupWithZero.Nat
import RinaSense.Rmt.Ports

/-!
# Sending on an N-1 port

`xRmtSendPortId` gives a data unit to the write of the IPCP below and counts it. That write is
whatever the operations of the IPCP hold, and the table of ports is the list which a search
walks.
-/

namespace RinaSense.Rmt

open Common Library.Runs

variable (pf : Platform) {σ δ : Type}

/-- The write of an IPCP, unless it has none: it finds the rest of the system as it is. -/
abbrev DuWrite (σ δ : Type) := IpcpPtr → Option (σ → PortId → δ → Exec (Bool × σ))

/-- The ports of the RMT beside the rest of the system. -/
structure PortSystem (σ : Type) where
  ports : List N1Port
  world : σ

def PortSystem.prvRmtPortFind (s : PortSystem σ) (unPort : PortId) : Option N1Port :=
  s.ports.find? fun pxPort => pxPort.unPort = unPort

/-- The port which is found is changed in place. -/
def PortSystem.changePort (s : PortSystem σ) (unPort : PortId) (f : N1Port → N1Port) :
    PortSystem σ :=
  { s with
    ports := s.ports.replaceF fun pxPort =>
      if pxPort.unPort = unPort then some (f pxPort) else none }

/-- The statistics of a transmission. -/
def stats_inc_tx (bytes : UInt32) (pxN1Port : N1Port) : N1Port :=
  { pxN1Port with txPdus := pxN1Port.txPdus + 1, txBytes := pxN1Port.txBytes + bytes }

def xRmtN1PortWriteDu (duWrite : DuWrite σ δ) (world : σ) (pxN1Port : N1Port) (pxDu : δ) :
    Exec (Bool × σ) := do
  let pxN1Ipcp ← deref pxN1Port.pxN1Ipcp
  rsAssert pf (duWrite pxN1Ipcp).isSome
  let write ← deref (duWrite pxN1Ipcp)
  let (xStatus, world) ← write world pxN1Port.unPort pxDu
  if xStatus = false then return (false, world) else return (true, world)

/-- What a call returns and leaves, and what the write has answered if it was asked. -/
structure SentDu (σ : Type) where
  ret : Bool
  written : Option Bool
  rmt : PortSystem σ

def N1Port.xMustEnqueue (pxN1Port : N1Port) : Bool :=
  pxN1Port.plen != 0 || pxN1Port.uxBusy || pxN1Port.eState == .eN1_PORT_STATE_DISABLED

def N1Port.erred (p : N1Port) : N1Port := { p with errPdus := p.errPdus + 1 }

def N1Port.busy (p : N1Port) : N1Port := { p with uxBusy := true }

def N1Port.sent (ret : Bool) (p : N1Port) : N1Port :=
  stats_inc_tx (if ret then 1 else 0) { p with uxBusy := false }

/-- The policy is always to send. The boolean of the write is counted as the bytes which were
sent, and the result is success whatever it was. -/
def xRmtSendPortId (duWrite : DuWrite σ δ) (pxRmt : PortSystem σ) (unPort : PortId) (pxDu : δ) :
    Exec (SentDu σ) :=
  match pxRmt.prvRmtPortFind unPort with
  | none => .ok ⟨false, none, pxRmt⟩
  | some pxN1Port =>
    if pxN1Port.xMustEnqueue then
      .ok ⟨false, none, pxRmt.changePort unPort .erred⟩
    else do
      let pxRmt := pxRmt.changePort unPort .busy
      let (ret, world) ← xRmtN1PortWriteDu pf duWrite pxRmt.world pxN1Port pxDu
      return ⟨true, some ret, { pxRmt with world := world }.changePort unPort (.sent ret)⟩

/-! ### Sequences of sends -/

/-- The RMT, with the data units which the IPCPs below have accepted on each port. -/
structure Sends (σ δ : Type) where
  rmt : PortSystem σ
  accepted : PortId → List δ

def Sends.start (rmt : PortSystem σ) : Sends σ δ := ⟨rmt, fun _ => []⟩

def Sends.step (duWrite : DuWrite σ δ) (s : Sends σ δ) (send : PortId × δ) :
    Option (Sends σ δ) :=
  (xRmtSendPortId pf duWrite s.rmt send.1 send.2).toOption.map fun out =>
    ⟨out.rmt, if out.written = some true then
      Function.update s.accepted send.1 (s.accepted send.1 ++ [send.2]) else s.accepted⟩

/-- The call returns true only if the data unit was accepted. -/
def ReportsSend (duWrite : DuWrite σ δ) (s : Sends σ δ) (send : PortId × δ) : Prop :=
  ∀ out, xRmtSendPortId pf duWrite s.rmt send.1 send.2 = .ok out → out.ret = true →
    out.written = some true

/-- The transmit counters of a port. -/
structure TxStats where
  txPdus : UInt32
  txBytes : UInt32
deriving DecidableEq, Repr

def N1Port.tx (p : N1Port) : TxStats := ⟨p.txPdus, p.txBytes⟩

def PortSystem.tx (s : PortSystem σ) (unPort : PortId) : Option TxStats :=
  (s.prvRmtPortFind unPort).map N1Port.tx

/-- The counters have grown by the number and the size of the data units. -/
def TxStats.Grown (xDuLen : δ → ℕ) (c₀ c : TxStats) (dus : List δ) : Prop :=
  c.txPdus.toNat = c₀.txPdus.toNat + dus.length ∧
    c.txBytes.toNat = c₀.txBytes.toNat + (dus.map xDuLen).sum

/-- The counters of every port have grown by what was accepted on it since the start. -/
def CountsSends (xDuLen : δ → ℕ) (start : PortSystem σ) (s : Sends σ δ) : Prop :=
  ∀ unPort, ∀ c₀ ∈ start.tx unPort, ∃ c, s.rmt.tx unPort = some c ∧
    c₀.Grown xDuLen c (s.accepted unPort)

/-- If the port is ready, the IPCP accepts the data unit, which has one byte, and the counters
have room for it. -/
def Fits (duWrite : DuWrite σ δ) (xDuLen : δ → ℕ) (s : Sends σ δ) (send : PortId × δ) : Prop :=
  ∀ p ∈ s.rmt.prvRmtPortFind send.1, p.xMustEnqueue = false →
    (∃ world, xRmtN1PortWriteDu pf duWrite s.rmt.world p send.2 = .ok (true, world)) ∧
      xDuLen send.2 = 1 ∧ p.txPdus.toNat + 1 < 2 ^ 32 ∧ p.txBytes.toNat + 1 < 2 ^ 32

variable {pf} {duWrite : DuWrite σ δ} {xDuLen : δ → ℕ} {s s' : Sends σ δ} {send : PortId × δ}
  {rmt start : PortSystem σ} {unPort : PortId} {p : N1Port} {pxDu : δ}

/-! ### One send -/

/-- A change of a port which keeps its identifier. -/
theorem find_changePort {f : N1Port → N1Port} (hf : ∀ p, (f p).unPort = p.unPort) (u : PortId) :
    (rmt.changePort unPort f).prvRmtPortFind u =
      if u = unPort then (rmt.prvRmtPortFind u).map f else rmt.prvRmtPortFind u := by
  obtain ⟨ports, world⟩ := rmt
  simp only [PortSystem.changePort, PortSystem.prvRmtPortFind]
  induction ports with
  | nil => simp
  | cons p ports ih =>
    rw [List.replaceF_cons]
    by_cases hp : p.unPort = unPort
    · simp only [hp, if_true]
      by_cases hu : u = unPort
      · simp [hu, hp, hf]
      · have hne : ¬ unPort = u := fun h => hu h.symm
        simp [hu, hp, hf, hne]
    · simp only [hp, if_false]
      by_cases hp' : p.unPort = u
      · have hu : ¬ u = unPort := fun h => hp (hp'.trans h)
        simp [hp', hu]
      · simpa [hp'] using ih

theorem tx_changePort (f : N1Port → N1Port) {g : TxStats → TxStats}
    (hf : ∀ p, (f p).unPort = p.unPort) (hg : ∀ p, (f p).tx = g p.tx) (u : PortId) :
    (rmt.changePort unPort f).tx u = if u = unPort then (rmt.tx u).map g else rmt.tx u := by
  unfold PortSystem.tx
  rw [find_changePort hf]
  split
  · rw [Option.map_map, Option.map_map]
    congr 1
    funext p
    exact hg p
  · rfl

theorem tx_changePort_same (f : N1Port → N1Port) (hf : ∀ p, (f p).unPort = p.unPort)
    (hg : ∀ p, (f p).tx = p.tx) (u : PortId) : (rmt.changePort unPort f).tx u = rmt.tx u := by
  rw [tx_changePort f (g := id) hf hg, Option.map_id]
  exact ite_self _

/-- Without a port, or with one on which the data unit would have to wait, nothing is sent. -/
theorem sendPort_refused (h : ∀ p ∈ rmt.prvRmtPortFind unPort, p.xMustEnqueue = true) :
    ∃ rmt', xRmtSendPortId pf duWrite rmt unPort pxDu = .ok ⟨false, none, rmt'⟩ ∧
      ∀ u, rmt'.tx u = rmt.tx u := by
  unfold xRmtSendPortId
  cases hfind : rmt.prvRmtPortFind unPort with
  | none => exact ⟨rmt, rfl, fun _ => rfl⟩
  | some port =>
    have henqueue : port.xMustEnqueue = true := h port hfind
    simp only [henqueue, if_true]
    exact ⟨_, rfl, tx_changePort_same .erred (fun _ => rfl) (fun _ => rfl)⟩

/-- A port which is ready counts one data unit, and one byte if the write accepted it. -/
theorem sendPort_tried {b : Bool} {world : σ} (hfind : rmt.prvRmtPortFind unPort = some p)
    (hready : p.xMustEnqueue = false)
    (hwrite : xRmtN1PortWriteDu pf duWrite rmt.world p pxDu = .ok (b, world)) :
    ∃ rmt', xRmtSendPortId pf duWrite rmt unPort pxDu = .ok ⟨true, some b, rmt'⟩ ∧
      ∀ u, rmt'.tx u = if u = unPort then
        (rmt.tx u).map fun c => ⟨c.txPdus + 1, c.txBytes + if b then 1 else 0⟩ else rmt.tx u := by
  unfold xRmtSendPortId
  have hworld : ∀ f, (rmt.changePort unPort f).world = rmt.world := fun _ => rfl
  simp only [hfind, hready, Bool.false_eq_true, if_false, hworld, hwrite, Exec.ok_bind]
  refine ⟨_, rfl, fun u => ?_⟩
  -- The mark of the port while it writes plays no part in its counters.
  have hbusy : PortSystem.tx ⟨(rmt.changePort unPort .busy).ports, world⟩ u = rmt.tx u :=
    tx_changePort_same .busy (fun _ => rfl) (fun _ => rfl) u
  rw [← hbusy]
  exact tx_changePort (.sent b) (fun _ => rfl) (fun _ => rfl) u

/-- The cases of a send which comes back. -/
theorem sends_step_cases (hstep : s.step pf duWrite send = some s') :
    (∀ p ∈ s.rmt.prvRmtPortFind send.1, p.xMustEnqueue = true) ∧
        ReportsSend pf duWrite s send ∧ s'.accepted = s.accepted ∧
        (∀ u, s'.rmt.tx u = s.rmt.tx u) ∨
      ∃ p b world, s.rmt.prvRmtPortFind send.1 = some p ∧ p.xMustEnqueue = false ∧
        xRmtN1PortWriteDu pf duWrite s.rmt.world p send.2 = .ok (b, world) ∧
        (ReportsSend pf duWrite s send ↔ b = true) ∧
        s'.accepted = (if b then Function.update s.accepted send.1
          (s.accepted send.1 ++ [send.2]) else s.accepted) ∧
        ∀ u, s'.rmt.tx u = if u = send.1 then
          (s.rmt.tx u).map fun c => ⟨c.txPdus + 1, c.txBytes + if b then 1 else 0⟩
            else s.rmt.tx u := by
  obtain ⟨out, hout, rfl⟩ := Exec.toOption_map_eq_some hstep
  by_cases hwait : ∀ p ∈ s.rmt.prvRmtPortFind send.1, p.xMustEnqueue = true
  · obtain ⟨rmt', hcall, htx⟩ := sendPort_refused hwait
    rw [hcall] at hout
    cases hout
    refine Or.inl ⟨hwait, fun out' hout' hret => ?_, rfl, htx⟩
    rw [hcall] at hout'
    cases hout'
    cases hret
  · push Not at hwait
    obtain ⟨p, hfind, hready⟩ := hwait
    have hready : p.xMustEnqueue = false := eq_false_of_ne_true hready
    cases hwrite : xRmtN1PortWriteDu pf duWrite s.rmt.world p send.2 with
    | error t =>
      have hworld : ∀ f, (s.rmt.changePort send.1 f).world = s.rmt.world := fun _ => rfl
      have hfind' : s.rmt.prvRmtPortFind send.1 = some p := hfind
      simp [xRmtSendPortId, hfind', hready, hworld, hwrite] at hout
    | ok answer =>
      obtain ⟨b, world⟩ := answer
      obtain ⟨rmt', hcall, htx⟩ := sendPort_tried hfind hready hwrite
      rw [hcall] at hout
      cases hout
      refine Or.inr ⟨p, b, world, hfind, hready, hwrite, ?_, by simp, htx⟩
      constructor
      · intro h
        exact Option.some.inj (h _ hcall rfl)
      · intro hb out' hout' _
        rw [hcall] at hout'
        cases hout'
        rw [hb]

/-! ### The counters -/

/-- A counter grows by one, and not when it is full. -/
theorem toNat_succ_iff (x : UInt32) (n : ℕ) :
    (x + 1).toNat = x.toNat + n ↔ n = 1 ∧ x.toNat + 1 < 2 ^ 32 := by
  have hx := x.toNat_lt
  have hsucc : (x + 1).toNat = (x.toNat + 1) % 2 ^ 32 := UInt32.toNat_add x 1
  rw [hsucc]
  omega

/-- Counting one more data unit is right only for one which was accepted and has one byte. -/
theorem TxStats.Grown.sent_iff {c₀ c : TxStats} {dus : List δ} (h : c₀.Grown xDuLen c dus)
    (b : Bool) (pxDu : δ) :
    c₀.Grown xDuLen ⟨c.txPdus + 1, c.txBytes + if b then 1 else 0⟩
        (if b then dus ++ [pxDu] else dus) ↔
      b = true ∧ xDuLen pxDu = 1 ∧ c.txPdus.toNat + 1 < 2 ^ 32 ∧ c.txBytes.toNat + 1 < 2 ^ 32 := by
  obtain ⟨hpdus, hbytes⟩ := h
  unfold TxStats.Grown
  cases b with
  | false =>
    have hcount := toNat_succ_iff c.txPdus 0
    simp only [Bool.false_eq_true, if_false, false_and, iff_false, not_and]
    intro hsame
    omega
  | true =>
    have hcount := toNat_succ_iff c.txPdus 1
    have hsize := toNat_succ_iff c.txBytes (xDuLen pxDu)
    simp only [if_true, List.length_append, List.length_singleton, List.map_append, List.map_cons,
      List.map_nil, List.sum_append, List.sum_cons, List.sum_nil, Nat.add_zero, true_and,
      ← Nat.add_assoc, ← hpdus, ← hbytes]
    tauto

/-- The ports are those of the start. -/
def SamePorts (start : PortSystem σ) (s : Sends σ δ) : Prop :=
  ∀ u, (s.rmt.tx u).isSome = (start.tx u).isSome

theorem SamePorts.step (h : SamePorts start s) (hstep : s.step pf duWrite send = some s') :
    SamePorts start s' := by
  intro u
  rcases sends_step_cases hstep with ⟨-, -, -, htx⟩ | ⟨p, b, world, -, -, -, -, -, htx⟩
  · rw [htx, h u]
  · rw [htx, ← h u]
    split
    · rw [Option.isSome_map]
    · rfl

/-- A send keeps the counters right exactly when it fits. -/
theorem CountsSends.step_iff (hports : SamePorts start s) (h : CountsSends xDuLen start s)
    (hstep : s.step pf duWrite send = some s') :
    CountsSends xDuLen start s' ↔ Fits pf duWrite xDuLen s send := by
  rcases sends_step_cases hstep with ⟨hwait, -, haccepted, htx⟩ |
    ⟨p, b, world, hfind, hready, hwrite, -, haccepted, htx⟩
  · refine iff_of_true ?_ ?_
    · intro u c₀ hc₀
      obtain ⟨c, hc, hgrown⟩ := h u c₀ hc₀
      exact ⟨c, by rw [htx, hc], by rwa [haccepted]⟩
    · intro p hp hready
      rw [hwait p hp] at hready
      cases hready
  · have hfits : Fits pf duWrite xDuLen s send ↔ b = true ∧ xDuLen send.2 = 1 ∧
        p.txPdus.toNat + 1 < 2 ^ 32 ∧ p.txBytes.toNat + 1 < 2 ^ 32 := by
      simp [Fits, hfind, hready, hwrite]
    have hp : s.rmt.tx send.1 = some p.tx := by rw [PortSystem.tx, hfind, Option.map_some]
    obtain ⟨c₀, hc₀⟩ : ∃ c₀, start.tx send.1 = some c₀ := by
      rw [← Option.isSome_iff_exists, ← hports, hp]
      rfl
    obtain ⟨c, hc, hgrown⟩ := h send.1 c₀ hc₀
    obtain rfl : p.tx = c := Option.some.inj (hp.symm.trans hc)
    have hnew : s'.rmt.tx send.1 = some ⟨p.txPdus + 1, p.txBytes + if b then 1 else 0⟩ := by
      rw [htx, if_pos rfl, hp]
      rfl
    have hdus : s'.accepted send.1 =
        if b then s.accepted send.1 ++ [send.2] else s.accepted send.1 := by
      rw [haccepted]
      cases b <;> simp
    have hsent := hgrown.sent_iff b send.2
    rw [hfits]
    constructor
    · intro h'
      obtain ⟨c', hc', hgrown'⟩ := h' send.1 c₀ hc₀
      rw [hnew] at hc'
      cases hc'
      rw [hdus] at hgrown'
      exact hsent.mp hgrown'
    · intro hfit u c₁ hc₁
      by_cases hu : u = send.1
      · subst hu
        rw [hc₀] at hc₁
        cases hc₁
        refine ⟨_, hnew, ?_⟩
        rw [hdus]
        exact hsent.mpr hfit
      · obtain ⟨c₂, hc₂, hgrown₂⟩ := h u c₁ hc₁
        refine ⟨c₂, by rw [htx, if_neg hu, hc₂], ?_⟩
        rw [haccepted]
        split
        · rwa [Function.update_of_ne hu]
        · exact hgrown₂

theorem Fits.reports (h : Fits pf duWrite xDuLen s send)
    (hstep : s.step pf duWrite send = some s') :
    ReportsSend pf duWrite s send := by
  rcases sends_step_cases hstep with ⟨-, hreports, -⟩ | ⟨p, b, world, hfind, hready, hwrite, hb, -⟩
  · exact hreports
  · obtain ⟨⟨world', hwrite'⟩, -⟩ := h p hfind hready
    rw [hwrite] at hwrite'
    cases hwrite'
    exact hb.mpr rfl

/-- In a sequence of sends every call returns true only for a data unit which was accepted and
the counters of every port are right throughout exactly when every data unit given to a port
which is ready is accepted, has one byte and leaves room in the counters. -/
theorem sends_counted_iff {sends : List (PortId × δ)} {t : Sends σ δ}
    (hrun : sends.foldlM (Sends.step pf duWrite) (Sends.start start) = some t) :
    (GuardedSteps (Sends.step pf duWrite) (ReportsSend pf duWrite) (Sends.start start) sends ∧
        Throughout (Sends.step pf duWrite) (CountsSends xDuLen start) (Sends.start start) sends) ↔
      GuardedSteps (Sends.step pf duWrite) (Fits pf duWrite xDuLen) (Sends.start start) sends := by
  have hinv : ∀ s send s', SamePorts start s → Sends.step pf duWrite s send = some s' →
      SamePorts start s' := fun _ _ _ hports hstep => hports.step hstep
  have hcounts : Throughout (Sends.step pf duWrite) (CountsSends xDuLen start) (Sends.start start)
      sends ↔ GuardedSteps (Sends.step pf duWrite) (Fits pf duWrite xDuLen) (Sends.start start)
        sends :=
    throughout_iff hinv (fun _ _ _ hports h hstep => h.step_iff hports hstep) (fun _ => rfl)
      (fun _ c₀ hc₀ => ⟨c₀, hc₀, rfl, rfl⟩) hrun
  rw [hcounts, and_iff_right_iff_imp]
  intro hfits
  rw [guardedSteps_iff_forall] at hfits ⊢
  intro js send hjs s hs out hout
  obtain ⟨s', hstep⟩ : ∃ s', s.step pf duWrite send = some s' :=
    ⟨_, by rw [Sends.step, hout]; rfl⟩
  exact (hfits js send hjs s hs).reports hstep out hout

/-! ### One port above an IPCP which takes what is not empty -/

def exampleN1Port : N1Port := PortTable.newPort 7 (some 0)

def exampleWrite : DuWrite Unit Library.Memory.Bytes :=
  fun _ => some fun world _ pxDu => .ok (!pxDu.isEmpty, world)

/-- Two data units of one byte each. -/
theorem sends_counted_single : ∃ t,
    [((7 : PortId), [65]), (7, [66])].foldlM (Sends.step ⟨false, false⟩ exampleWrite)
      (Sends.start ⟨[exampleN1Port], ()⟩) = some t ∧
    GuardedSteps (Sends.step ⟨false, false⟩ exampleWrite) (ReportsSend ⟨false, false⟩ exampleWrite)
      (Sends.start ⟨[exampleN1Port], ()⟩) [(7, [65]), (7, [66])] ∧
    Throughout (Sends.step ⟨false, false⟩ exampleWrite)
      (CountsSends List.length ⟨[exampleN1Port], ()⟩) (Sends.start ⟨[exampleN1Port], ()⟩)
      [(7, [65]), (7, [66])] := by
  refine ⟨_, rfl, (sends_counted_iff rfl).mpr ⟨?_, ?_, trivial⟩⟩
  · rintro p hp -
    cases hp
    exact ⟨⟨(), rfl⟩, rfl, by decide, by decide⟩
  · rintro p hp -
    cases hp
    exact ⟨⟨(), rfl⟩, rfl, by decide, by decide⟩

/-- A data unit which the write refuses is reported as sent and counted. One of three bytes is
accepted and counted as one byte. -/
theorem refused_counted :
    (∃ out, xRmtSendPortId ⟨false, false⟩ exampleWrite ⟨[exampleN1Port], ()⟩ 7 [] = .ok out ∧
        out.ret = true ∧ out.written = some false ∧ out.rmt.tx 7 = some ⟨1, 0⟩) ∧
      (∃ out, xRmtSendPortId ⟨false, false⟩ exampleWrite ⟨[exampleN1Port], ()⟩ 7 [65, 66, 67] =
        .ok out ∧ out.written = some true ∧ out.rmt.tx 7 = some ⟨1, 1⟩) ∧
      ¬ ReportsSend ⟨false, false⟩ exampleWrite (Sends.start ⟨[exampleN1Port], ()⟩) (7, []) ∧
      ¬ Throughout (Sends.step ⟨false, false⟩ exampleWrite)
        (CountsSends List.length ⟨[exampleN1Port], ()⟩) (Sends.start ⟨[exampleN1Port], ()⟩)
        [(7, [65, 66, 67])] := by
  refine ⟨⟨_, rfl, rfl, rfl, rfl⟩, ⟨_, rfl, rfl, rfl⟩, fun h => ?_, fun h => ?_⟩
  · have hwritten := h _ rfl rfl
    cases hwritten
  · obtain ⟨c, hc, -, hbytes⟩ := h [(7, [65, 66, 67])] (List.prefix_refl _) _ rfl 7 ⟨0, 0⟩ rfl
    cases hc
    exact absurd hbytes (by decide)

end RinaSense.Rmt
