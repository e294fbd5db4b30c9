import RinaSense.Common.Links
import RinaSense.Efcp.Write
import RinaSense.Rmt.Delivery
import RinaSense.Rmt.SendPort

/-!
# What a send reports

`xDtpPduSend` with the stage to which it gives its PDU: the ports below the RMT, or the
container of the same IPC process. The write has the same function without it.
-/

namespace RinaSense.Efcp

open Common Rmt Library.Memory

variable (pf : Platform) {σ : Type}

/-- Where a PDU goes: to the RMT, nowhere when its header could not be cut off, or to the
container, which accepts it or not. -/
inductive NextStage
  | rmt
  | nowhere
  | container (accepted : Bool)
deriving DecidableEq, Repr

/-- The result of a send, with what it leaves above and below the RMT. -/
structure Sent (σ : Type) where
  ret : Bool
  next : NextStage
  ip : Ipcp
  n1 : Sends σ NbPtr

/-- Whatever ports there are below, none of them gets the PDU. -/
def xRmtSendBelow (pxRmt : Bool) (n1 : Sends σ NbPtr) (_ : NbPtr) :
    Exec (Bool × Sends σ NbPtr) := do
  let sent ← xRmtSend pf pxRmt
  return (sent, n1)

/-- The container tells of its success, which is taken for a failure, and the other result is
false as well. -/
def xDtpPduSendOn (ip : Ipcp) (n1 : Sends σ NbPtr) (e : EfcpPtr) (pxDu : NbPtr) :
    Exec (Sent σ) := do
  rsAssert pf (ip.efcps e).pxRmt
  let xSource := (← PCI_GET pf ip.heap pxDu .PCI_ADDR_SRC).toUInt8
  let xDestination := (← PCI_GET pf ip.heap pxDu .PCI_ADDR_DST).toUInt8
  if xSource ≠ xDestination then
    let (sent, n1) ← xRmtSendBelow pf (ip.efcps e).pxRmt n1 pxDu
    if sent = false then return ⟨false, .rmt, ip, n1⟩ else return ⟨true, .rmt, ip, n1⟩
  else
    let destCepId := (← PCI_GET pf ip.heap pxDu .PCI_CONN_DST_ID).toUInt8
    let (cut, heap) ← xDuDecap pf ip.heap sizeofPci pxDu
    let ip := { ip with heap := heap, dispatch := .nothing }
    if ¬ cut then return ⟨false, .nowhere, ip, n1⟩
    let (accepted, ip) ← xEfcpContainerReceive pf ip destCepId pxDu
    if accepted then return ⟨false, .container accepted, ip, n1⟩
    else return ⟨false, .container accepted, ip, n1⟩

/-- The next stage has taken the PDU over: a port below has it now, or the container has
accepted it. -/
def TakenOver (n1 : Sends σ NbPtr) (pxDu : NbPtr) (out : Sent σ) : Prop :=
  match out.next with
  | .rmt => ∃ unPort, out.n1.accepted unPort = n1.accepted unPort ++ [pxDu]
  | .nowhere => False
  | .container accepted => accepted = true

/-- The netbuf is there and not freed. -/
def LiveNetbuf (h : Heap) (pxDu : NbPtr) : Prop :=
  ∃ nb, h.netbufs pxDu = some nb ∧ nb.xFreed = false

/-- The send returns true exactly if the PDU was taken over. Otherwise the PDU, which was live,
is released; a second release would not come back. -/
def ReportsPduSend (ip : Ipcp) (n1 : Sends σ NbPtr) (e : EfcpPtr) (pxDu : NbPtr) : Prop :=
  ∃ out, xDtpPduSendOn pf ip n1 e pxDu = .ok out ∧
    (out.ret = true ↔ TakenOver n1 pxDu out) ∧
    (out.ret = false → LiveNetbuf ip.heap pxDu ∧ ¬ LiveNetbuf out.ip.heap pxDu)

variable {pf} {ip ip' : Ipcp} {n1 : Sends σ NbPtr} {e : EfcpPtr} {du q : NbPtr} {b : Bool}
  {h h' : Heap}

/-- The loopback without the stage. -/
theorem loopback_eq (ip : Ipcp) (n1 : Sends σ NbPtr) (du : NbPtr) :
    Except.map (fun out : Sent σ => (out.ret, out.ip)) (do
      let destCepId := (← PCI_GET pf ip.heap du .PCI_CONN_DST_ID).toUInt8
      let (cut, heap) ← xDuDecap pf ip.heap sizeofPci du
      let ip := { ip with heap := heap, dispatch := .nothing }
      if ¬ cut then return ⟨false, .nowhere, ip, n1⟩
      let (accepted, ip) ← xEfcpContainerReceive pf ip destCepId du
      if accepted then return ⟨false, .container accepted, ip, n1⟩
      else return ⟨false, .container accepted, ip, n1⟩) =
    Except.map (fun out : Written => (out.ret, out.ip)) (do
      let destCepId := (← PCI_GET pf ip.heap du .PCI_CONN_DST_ID).toUInt8
      let (cut, heap) ← xDuDecap pf ip.heap sizeofPci du
      let ip := { ip with heap := heap, dispatch := .nothing }
      if ¬ cut then return ⟨false, none, ip⟩
      let (_, ip) ← xEfcpContainerReceive pf ip destCepId du
      return ⟨false, none, ip⟩) := by
  cases PCI_GET pf ip.heap du .PCI_CONN_DST_ID with
  | error t => rfl
  | ok cep =>
    simp only [Exec.ok_bind]
    cases xDuDecap pf ip.heap sizeofPci du with
    | error t => rfl
    | ok decap =>
      obtain ⟨cut, heap⟩ := decap
      simp only [Exec.ok_bind]
      cases cut with
      | false => rfl
      | true =>
        cases hreceive : xEfcpContainerReceive pf { ip with heap := heap, dispatch := .nothing }
          cep.toUInt8 du with
        | error t => simp [Except.map]
        | ok received =>
          obtain ⟨accepted, ip'⟩ := received
          cases accepted <;> simp [Except.map, pure, Except.pure]

/-- The function which the write uses is this one without the stage. -/
theorem xDtpPduSendOn_eq (ip : Ipcp) (n1 : Sends σ NbPtr) (e : EfcpPtr) (du : NbPtr) :
    (xDtpPduSendOn pf ip n1 e du).map (fun out => (out.ret, out.ip)) =
      (xDtpPduSend pf ip e du).map fun out => (out.ret, out.ip) := by
  unfold xDtpPduSendOn xDtpPduSend xRmtSendBelow xRmtSend
  cases rsAssert pf (ip.efcps e).pxRmt with
  | error t => rfl
  | ok u =>
    simp only [Exec.ok_bind]
    cases PCI_GET pf ip.heap du .PCI_ADDR_SRC with
    | error t => rfl
    | ok src =>
      simp only [Exec.ok_bind]
      cases PCI_GET pf ip.heap du .PCI_ADDR_DST with
      | error t => rfl
      | ok dst =>
        simp only [Exec.ok_bind]
        by_cases hremote : src.toUInt8 ≠ dst.toUInt8
        · rw [if_pos hremote, if_pos hremote]
          rfl
        · rw [if_neg hremote, if_neg hremote]
          exact loopback_eq ip n1 du

/-! ### Nothing is released -/

theorem LiveNetbuf.set {p : NbPtr} {nb : Netbuf} (hq : LiveNetbuf h q) (hnb : nb.xFreed = false) :
    LiveNetbuf (h.setNetbuf p (some nb)) q := by
  by_cases hp : q = p
  · subst hp
    exact ⟨nb, Heap.setNetbuf_self _ _ _, hnb⟩
  · obtain ⟨nb', hnb', hlive⟩ := hq
    exact ⟨nb', by rw [Heap.setNetbuf_of_ne _ _ hp, hnb'], hlive⟩

theorem splitLoop_live {eType : NetBufType} {fuel n : ℕ} {start : Option NbPtr}
    (hq : LiveNetbuf h q) (hrun : splitLoop eType h fuel start n = .ok (b, h')) :
    LiveNetbuf h' q := by
  rcases splitLoop_ends hrun with rfl | rfl | ⟨p, nb, k, -, hlive, rfl⟩
  · exact hq
  · exact hq
  · have hnew : LiveNetbuf (h.withNetbuf (nb.behind eType k)) q := hq.set rfl
    exact hnew.set hlive

theorem xDuDecap_live (hq : LiveNetbuf h q) (hrun : xDuDecap pf h sizeofPci du = .ok (b, h')) :
    LiveNetbuf h' q := by
  obtain ⟨ty, -, hrun⟩ := Exec.bind_eq_ok.mp hrun
  obtain ⟨_, -, hrun⟩ := Exec.bind_eq_ok.mp hrun
  obtain ⟨nb, -, hrun⟩ := Exec.bind_eq_ok.mp hrun
  exact splitLoop_live hq hrun

theorem xDtpReceiveDu_heap (hrun : xDtpReceiveDu pf ip e du = .ok (b, ip')) :
    ip'.heap = ip.heap := by
  obtain ⟨dispatch, seq, flags, fa, rfl⟩ := xDtpReceiveDu_cases pf hrun
  rfl

/-- The container frees no netbuf, whether it accepts the PDU or not. -/
theorem xEfcpContainerReceive_netbufs {xCepId : CepId}
    (hrun : xEfcpContainerReceive pf ip xCepId du = .ok (b, ip')) :
    ip'.heap.netbufs = ip.heap.netbufs := by
  have hleak : (pvRsMemAlloc ip.heap 8).2.netbufs = ip.heap.netbufs := by
    unfold pvRsMemAlloc
    split <;> rfl
  unfold xEfcpContainerReceive at hrun
  split at hrun
  · cases hrun
    rfl
  · cases hfind : imapLookup ip.xEfcpImapTable xCepId with
    | none =>
      simp only [pxEfcpImapFind, hfind] at hrun
      cases hrun
      exact hleak
    | some e =>
      simp only [pxEfcpImapFind, hfind] at hrun
      split at hrun
      · cases hrun
        exact hleak
      · obtain ⟨ip₁, hlearn, hrun⟩ := Exec.bind_eq_ok.mp hrun
        obtain ⟨ty, -, hrun⟩ := Exec.bind_eq_ok.mp hrun
        have hheap := (learnDestination_ports hlearn).1
        dsimp only at hrun
        split at hrun
        · cases hrun
          rw [hheap]
          exact hleak
        · rw [xDtpReceiveDu_heap hrun, hheap]
          exact hleak

/-- A send which comes back has given the PDU to no port and returned true, or has returned
false and released nothing. -/
theorem xDtpPduSendOn_cases {out : Sent σ} (hrun : xDtpPduSendOn pf ip n1 e du = .ok out) :
    out.next = .rmt ∧ out.ret = true ∧ out.n1 = n1 ∨
      out.ret = false ∧ (LiveNetbuf ip.heap du → LiveNetbuf out.ip.heap du) := by
  obtain ⟨_, -, hrun⟩ := Exec.bind_eq_ok.mp hrun
  obtain ⟨src, -, hrun⟩ := Exec.bind_eq_ok.mp hrun
  obtain ⟨dst, -, hrun⟩ := Exec.bind_eq_ok.mp hrun
  dsimp only at hrun
  split at hrun
  · obtain ⟨⟨sent, n1'⟩, hbelow, hrun⟩ := Exec.bind_eq_ok.mp hrun
    obtain ⟨sent', hsent, hbelow⟩ := Exec.bind_eq_ok.mp hbelow
    obtain ⟨_, -, hsent⟩ := Exec.bind_eq_ok.mp hsent
    cases hsent
    cases hbelow
    cases hrun
    exact Or.inl ⟨rfl, rfl, rfl⟩
  · obtain ⟨cep, -, hrun⟩ := Exec.bind_eq_ok.mp hrun
    obtain ⟨⟨cut, heap⟩, hdecap, hrun⟩ := Exec.bind_eq_ok.mp hrun
    have hcut : LiveNetbuf ip.heap du → LiveNetbuf heap du := fun hq => xDuDecap_live hq hdecap
    dsimp only at hrun
    split at hrun
    · cases hrun
      exact Or.inr ⟨rfl, hcut⟩
    · obtain ⟨⟨accepted, ip₁⟩, hreceive, hrun⟩ := Exec.bind_eq_ok.mp hrun
      have hkept : LiveNetbuf ip.heap du → LiveNetbuf ip₁.heap du := by
        intro hq
        rw [LiveNetbuf, xEfcpContainerReceive_netbufs hreceive]
        exact hcut hq
      dsimp only at hrun
      split at hrun
      · cases hrun
        exact Or.inr ⟨rfl, hkept⟩
      · cases hrun
        exact Or.inr ⟨rfl, hkept⟩

/-- No send reports what became of its PDU. -/
theorem pduSend_never_reports (ip : Ipcp) (n1 : Sends σ NbPtr) (e : EfcpPtr) (pxDu : NbPtr) :
    ¬ ReportsPduSend pf ip n1 e pxDu := by
  rintro ⟨out, hrun, hret, hreleased⟩
  rcases xDtpPduSendOn_cases hrun with ⟨hnext, htrue, hn1⟩ | ⟨hfalse, hkept⟩
  · have htaken := hret.mp htrue
    rw [TakenOver, hnext, hn1] at htaken
    obtain ⟨unPort, hsame⟩ := htaken
    simp at hsame
  · obtain ⟨hlive, hgone⟩ := hreleased hfalse
    exact hgone (hkept hlive)

/-! ### One port and one connection -/

def exampleSends : Sends Unit NbPtr := Sends.start ⟨[PortTable.newPort 7 (some 0)], ()⟩

/-- A PDU for this IPC process is accepted by its container and the send returns false. One for
another address goes to no port and the send returns true. -/
theorem accepted_reported_false :
    (∃ out, xDtpPduSendOn ⟨false, false⟩
        (receivingIpcp { exampleHeader with xSource := 1 }.toBytes) exampleSends 0 1 = .ok out ∧
      out.ret = false ∧ out.next = .container true) ∧
      (∃ out, xDtpPduSendOn ⟨false, false⟩ (receivingIpcp exampleHeader.toBytes) exampleSends 0 1 =
        .ok out ∧ out.ret = true ∧ out.n1.accepted 7 = []) ∧
      ¬ ReportsPduSend ⟨false, false⟩ (receivingIpcp { exampleHeader with xSource := 1 }.toBytes)
        exampleSends 0 1 := by
  refine ⟨⟨_, rfl, rfl, rfl⟩, ⟨_, rfl, rfl, rfl⟩, ?_⟩
  rintro ⟨out, hout, hret, -⟩
  cases hout
  cases hret.mpr rfl

end RinaSense.Efcp
