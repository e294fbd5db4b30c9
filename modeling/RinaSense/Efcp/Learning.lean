import RinaSense.Library.Runs
import RinaSense.Rmt.Delivery

/-!
# The destination CEP-id of a connection

What a sequence of received PDUs makes of the CEP-id to which a connection sends. The header of
a PDU is what the container reads at the start of the netbuf, whoever has put it there.
-/

namespace RinaSense.Efcp

open Common Rmt Library.Memory Library.Runs

variable (pf : Platform)

def Ipcp.destination (ip : Ipcp) (e : EfcpPtr) : CepId :=
  (ip.efcps e).pxConnection.xDestinationCepId

/-- A PDU which is given to the container with the CEP-id, in the memory as it is then. -/
structure Arrival where
  heap : Heap
  xCepId : CepId
  pxDu : NbPtr
  pdu : Bytes
  bytesAt : BytesAt heap pxDu pdu
  fresh : heap.Fresh

def Arrival.pci (a : Arrival) : Pci := Pci.ofBytes a.pdu

def Ipcp.receive (ip : Ipcp) (a : Arrival) : Exec (Bool × Ipcp) :=
  xEfcpContainerReceive pf { ip with heap := a.heap, dispatch := .nothing } a.xCepId a.pxDu

/-- A PDU is received, unless the call does not come back. -/
def Ipcp.arrive (ip : Ipcp) (a : Arrival) : Option Ipcp :=
  (ip.receive pf a).toOption.map fun out => out.2

/-- The PDU is a DT PDU for the live instance. -/
def Arrival.IsDtFor (a : Arrival) (e : EfcpPtr) (ip : Ipcp) : Prop :=
  selects ip a.xCepId = some e ∧ (ip.efcps e).xState ≠ .eEfcpDeallocated ∧
    a.pci.xType = PDU_TYPE_DT

instance (a : Arrival) (e : EfcpPtr) (ip : Ipcp) : Decidable (a.IsDtFor e ip) :=
  inferInstanceAs (Decidable (_ ∧ _))

/-- Along the sequence a destination which is set is kept, and one which is not becomes the
source CEP-id of a DT PDU for the connection which is accepted. -/
structure LearnsOnce (e : EfcpPtr) (ip : Ipcp) (as : List Arrival) : Prop where
  kept : ∀ js ks, js ++ ks <+: as → ∀ t u, js.foldlM (Ipcp.arrive pf) ip = some t →
    ks.foldlM (Ipcp.arrive pf) t = some u → t.destination e ≠ CEP_ID_WRONG →
      u.destination e = t.destination e
  learned : ∀ js a, js ++ [a] <+: as → ∀ t u, js.foldlM (Ipcp.arrive pf) ip = some t →
    t.receive pf a = .ok (true, u) → t.destination e = CEP_ID_WRONG → a.IsDtFor e t →
      u.destination e = a.pci.xConnSource

/-- The data transfer protocol does not take the PDU for a duplicate. -/
def DtpSv.Takes (sv : DtpSv) (p : Pci) : Prop :=
  sv.xDrfRequired = true ∨ sv.xRcvLeftWindowEdge < p.xSequenceNumber

instance (sv : DtpSv) (p : Pci) : Decidable (sv.Takes p) := inferInstanceAs (Decidable (_ ∨ _))

/-- A DT PDU for a connection with a destination carries that as its destination CEP-id. For one
without a destination it is a duplicate or has no valid source CEP-id. -/
def Agrees (e : EfcpPtr) (ip : Ipcp) (a : Arrival) : Prop :=
  a.IsDtFor e ip →
    if ip.destination e = CEP_ID_WRONG then
      (ip.efcps e).xDtpStateVector.Takes a.pci → a.pci.xConnSource = CEP_ID_WRONG
    else a.pci.xConnDestination = ip.destination e

instance (e : EfcpPtr) (ip : Ipcp) (a : Arrival) : Decidable (Agrees e ip a) := by
  unfold Agrees
  infer_instance

variable {pf} {ip ip' : Ipcp} {e e' : EfcpPtr} {du : NbPtr} {m : Bytes} {b : Bool} {a : Arrival}
  {as : List Arrival}

/-! ### One PDU -/

theorem xDtpReceive_ret {sv : DtpSv} (p : Pci) :
    (xDtpReceive sv p.xSequenceNumber p.xFlags).ret = true ↔ sv.Takes p := by
  unfold DtpSv.Takes
  cases hdrf : sv.xDrfRequired with
  | true =>
    by_cases hf : p.xFlags &&& PDU_FLAGS_DATA_RUN = 0
    · simp [xDtpReceive_noDataRun hdrf hf]
    · simp [xDtpReceive_dataRun hdrf hf]
  | false =>
    by_cases hle : p.xSequenceNumber ≤ sv.xRcvLeftWindowEdge
    · simp [xDtpReceive_duplicate hdrf hle, hle]
    · simp only [Bool.false_eq_true, false_or, UInt32.not_le.mp hle, iff_true]
      by_cases hn : p.xSequenceNumber = sv.xRcvLeftWindowEdge + 1
      · rw [xDtpReceive_inOrder hdrf hle hn]
      · rw [xDtpReceive_gap hdrf hle hn]

@[simp] theorem setEfcp_destination_self (efcp : EfcpInstance) :
    (ip.setEfcp e efcp).destination e = efcp.pxConnection.xDestinationCepId := by
  simp [Ipcp.destination, Ipcp.setEfcp]

/-- A new state vector leaves the connection of the instance. -/
theorem setEfcp_destination {ip₀ : Ipcp} (hefcps : ip₀.efcps = ip.efcps) (sv : DtpSv)
    (e' : EfcpPtr) :
    (ip₀.setEfcp e { ip.efcps e with xDtpStateVector := sv }).destination e' =
      ip.destination e' := by
  by_cases he : e' = e
  · subst he
    rw [setEfcp_destination_self]
    rfl
  · simp [Ipcp.destination, Ipcp.setEfcp, he, hefcps]

theorem xDtpReceiveDu_destination (hrun : xDtpReceiveDu pf ip e du = .ok (b, ip'))
    (e' : EfcpPtr) : ip'.destination e' = ip.destination e' := by
  obtain ⟨dispatch, seq, flags, fa, rfl⟩ := xDtpReceiveDu_cases pf hrun
  exact setEfcp_destination rfl _ e'

theorem xDtpReceiveDu_ret (hm : BytesAt ip.heap du m)
    (hrun : xDtpReceiveDu pf ip e du = .ok (b, ip')) :
    b = (xDtpReceive (ip.efcps e).xDtpStateVector (Pci.ofBytes m).xSequenceNumber
      (Pci.ofBytes m).xFlags).ret := by
  by_cases hlen : m.length < sizeofPci
  · rw [xDtpReceiveDu_short pf hm hlen] at hrun
    cases hrun
  · obtain ⟨ip₁, hspec, -⟩ := xDtpReceiveDu_spec pf (e := e) hm (Nat.le_of_not_lt hlen)
    rw [hspec] at hrun
    cases hrun
    rfl

theorem xEfcpReceive_destination (hrun : xEfcpReceive pf ip e du = .ok (b, ip'))
    (e' : EfcpPtr) : ip'.destination e' = ip.destination e' := by
  obtain ⟨ty, -, hrun⟩ := Exec.bind_eq_ok.mp hrun
  dsimp only at hrun
  split at hrun
  · cases hrun
    rfl
  · exact xDtpReceiveDu_destination hrun e'

/-- What the connection takes over is the destination CEP-id of the PDU. -/
theorem learnDestination_destination (hm : BytesAt ip.heap du m)
    (hrun : learnDestination pf ip e du = .ok ip') (e' : EfcpPtr) :
    ip'.destination e' =
      if e' = e ∧ (Pci.ofBytes m).xType = PDU_TYPE_DT ∧ ip.destination e ≠ CEP_ID_WRONG then
        (Pci.ofBytes m).xConnDestination
      else ip.destination e' := by
  obtain ⟨ty, htype, hrun⟩ := Exec.bind_eq_ok.mp hrun
  obtain rfl := hm.get_eq htype
  change (if (Pci.ofBytes m).xType = PDU_TYPE_DT ∧ ip.destination e ≠ CEP_ID_WRONG then _
    else _) = _ at hrun
  by_cases hset : (Pci.ofBytes m).xType = PDU_TYPE_DT ∧ ip.destination e ≠ CEP_ID_WRONG
  · rw [if_pos hset] at hrun
    obtain ⟨cep, hcep, hrun⟩ := Exec.bind_eq_ok.mp hrun
    obtain rfl := hm.get_eq hcep
    cases hrun
    by_cases he : e' = e
    · subst he
      rw [if_pos ⟨rfl, hset⟩, setEfcp_destination_self]
      rfl
    · rw [if_neg (fun h => he h.1)]
      simp [Ipcp.destination, Ipcp.setEfcp, he]
  · rw [if_neg hset] at hrun
    cases hrun
    rw [if_neg fun h => hset h.2]

/-- A PDU goes through the instance for which it is, if there is a live one. -/
theorem receive_cases (hrun : ip.receive pf a = .ok (b, ip')) :
    (∃ e ip₀ ip₁, selects ip a.xCepId = some e ∧ (ip.efcps e).xState ≠ .eEfcpDeallocated ∧
        learnDestination pf ip₀ e a.pxDu = .ok ip₁ ∧
        xEfcpReceive pf ip₁ e a.pxDu = .ok (b, ip') ∧ ip₀.efcps = ip.efcps ∧
        BytesAt ip₀.heap a.pxDu a.pdu) ∨
      ip'.efcps = ip.efcps ∧
        ∀ e, selects ip a.xCepId = some e → (ip.efcps e).xState = .eEfcpDeallocated := by
  unfold Ipcp.receive xEfcpContainerReceive at hrun
  by_cases hok : is_cep_id_ok a.xCepId = true
  · rw [if_neg (not_not_intro hok)] at hrun
    cases hfind : imapLookup ip.xEfcpImapTable a.xCepId with
    | none =>
      simp only [pxEfcpImapFind, hfind] at hrun
      cases hrun
      exact Or.inr ⟨rfl, by simp [selects, hfind]⟩
    | some e =>
      have hsel : selects ip a.xCepId = some e := by simp [selects, hok, hfind]
      simp only [pxEfcpImapFind, hfind] at hrun
      by_cases hst : (ip.efcps e).xState = .eEfcpDeallocated
      · rw [if_pos hst] at hrun
        cases hrun
        refine Or.inr ⟨rfl, fun e' he' => ?_⟩
        rw [hsel] at he'
        cases he'
        exact hst
      · rw [if_neg hst] at hrun
        obtain ⟨ip₁, hlearn, hrun⟩ := Exec.bind_eq_ok.mp hrun
        exact Or.inl ⟨e, _, ip₁, hsel, hst, hlearn, hrun, rfl, a.bytesAt.leak a.fresh 8⟩
  · rw [if_pos hok] at hrun
    cases hrun
    exact Or.inr ⟨rfl, by simp [selects, hok]⟩

/-- What a PDU which is received does to the destination of every connection. -/
theorem receive_destination (hrun : ip.receive pf a = .ok (b, ip')) (e : EfcpPtr) :
    ip'.destination e =
      if a.IsDtFor e ip ∧ ip.destination e ≠ CEP_ID_WRONG then a.pci.xConnDestination
      else ip.destination e := by
  rcases receive_cases hrun with ⟨e₀, ip₀, ip₁, hsel, hst, hlearn, hrest, hefcps, hm⟩ |
    ⟨hefcps, hdead⟩
  · have hsame : ∀ e', ip₀.destination e' = ip.destination e' := fun e' => by
      rw [Ipcp.destination, Ipcp.destination, hefcps]
    have hiff : a.IsDtFor e ip ↔ e = e₀ ∧ (Pci.ofBytes a.pdu).xType = PDU_TYPE_DT := by
      unfold Arrival.IsDtFor
      rw [hsel]
      constructor
      · rintro ⟨he, -, htype⟩
        exact ⟨(Option.some.inj he).symm, htype⟩
      · rintro ⟨rfl, htype⟩
        exact ⟨rfl, hst, htype⟩
    rw [xEfcpReceive_destination hrest, learnDestination_destination hm hlearn, hsame, hsame]
    by_cases he : e = e₀
    · subst he
      simp only [hiff, true_and]
      rfl
    · rw [if_neg (fun h => he h.1), if_neg (fun h => he (hiff.mp h.1).1)]
  · have hnot : ¬ a.IsDtFor e ip := fun h => h.2.1 (hdead e h.1)
    rw [if_neg fun h => hnot h.1, Ipcp.destination, hefcps]
    rfl

/-- A DT PDU is accepted if it is not a duplicate. -/
theorem receive_ret (hrun : ip.receive pf a = .ok (b, ip')) (hdt : a.IsDtFor e ip) :
    b = true ↔ (ip.efcps e).xDtpStateVector.Takes a.pci := by
  rcases receive_cases hrun with ⟨e₀, ip₀, ip₁, hsel, -, hlearn, hrest, hefcps, hm⟩ |
    ⟨-, hdead⟩
  · obtain rfl : e₀ = e := Option.some.inj (hsel.symm.trans hdt.1)
    obtain ⟨hheap, -, hsv, -⟩ := learnDestination_ports hlearn
    have hm₁ : BytesAt ip₁.heap a.pxDu a.pdu := by rwa [hheap]
    obtain ⟨ty, htype, hrest⟩ := Exec.bind_eq_ok.mp hrest
    obtain rfl := hm₁.get_eq htype
    have hty : (fieldOf a.pdu .PCI_TYPE).toUInt8 = PDU_TYPE_DT := hdt.2.2
    have hdata : ¬ pdu_type_is_control (fieldOf a.pdu .PCI_TYPE).toUInt8 = true := by
      rw [hty]
      decide
    rw [if_neg hdata] at hrest
    rw [xDtpReceiveDu_ret hm₁ hrest, hsv, hefcps]
    exact xDtpReceive_ret a.pci
  · exact absurd (hdead e hdt.1) hdt.2.1

/-- A PDU keeps a destination which is set, and gives its source CEP-id to a connection without
one which accepts it, exactly when it agrees with what is there. -/
theorem receive_learns_iff (hrun : ip.receive pf a = .ok (b, ip')) :
    ((ip.destination e ≠ CEP_ID_WRONG → ip'.destination e = ip.destination e) ∧
      (b = true → ip.destination e = CEP_ID_WRONG → a.IsDtFor e ip →
        ip'.destination e = a.pci.xConnSource)) ↔ Agrees e ip a := by
  unfold Agrees
  rw [receive_destination hrun e]
  by_cases hdt : a.IsDtFor e ip
  · have hret := receive_ret hrun hdt
    by_cases hset : ip.destination e = CEP_ID_WRONG
    · simp [hdt, hset, hret, eq_comm]
    · simp [hdt, hset]
  · simp [hdt]

/-! ### A sequence of PDUs -/

/-- Every PDU of a sequence which is received, with the states before and after it. -/
theorem arrive_prefix {js : List Arrival} {t : Ipcp}
    (hrun : as.foldlM (Ipcp.arrive pf) ip = some ip') (hjs : js ++ [a] <+: as)
    (ht : js.foldlM (Ipcp.arrive pf) ip = some t) :
    ∃ b u, t.receive pf a = .ok (b, u) ∧ [a].foldlM (Ipcp.arrive pf) t = some u := by
  obtain ⟨rest, rfl⟩ := hjs
  rw [List.append_assoc, List.foldlM_append, ht] at hrun
  change ([a] ++ rest).foldlM (Ipcp.arrive pf) t = some ip' at hrun
  rw [List.singleton_append, List.foldlM_cons] at hrun
  cases ha : Ipcp.arrive pf t a with
  | none => simp [ha] at hrun
  | some u =>
    obtain ⟨⟨b, u'⟩, hok, rfl⟩ := Exec.toOption_map_eq_some ha
    exact ⟨b, u', hok, by simp [ha]⟩

/-- The destination of a connection is written once, by the first PDU which is accepted,
in a sequence of PDUs exactly when each of them agrees with what is there. -/
theorem learnsOnce_iff (hrun : as.foldlM (Ipcp.arrive pf) ip = some ip') :
    LearnsOnce pf e ip as ↔ GuardedSteps (Ipcp.arrive pf) (Agrees e) ip as := by
  rw [guardedSteps_iff_forall]
  constructor
  · intro h js a hjs t ht
    obtain ⟨b, u, hok, hu⟩ := arrive_prefix hrun hjs ht
    refine (receive_learns_iff hok).mp ⟨?_, ?_⟩
    · exact h.kept js [a] hjs t u ht hu
    · rintro rfl
      exact h.learned js a hjs t u ht hok
  · intro h
    refine ⟨fun js ks hks t u ht hu hset => ?_, fun js a hjs t u ht hok => ?_⟩
    · -- From the state which is reached on, every PDU keeps the destination.
      have hguard : GuardedSteps (Ipcp.arrive pf) (Agrees e) t ks := by
        refine guardedSteps_iff_forall.mpr fun ls a hls t' ht' => ?_
        refine h (js ++ ls) a ?_ t' ?_
        · rw [List.append_assoc]
          exact (List.prefix_append_right_inj js).mpr hls |>.trans hks
        · rw [List.foldlM_append, ht]
          exact ht'
      refine foldlM_invariant (I := fun u => u.destination e = t.destination e) ?_ rfl hguard hu
      intro s a s' hs hagrees hstep
      obtain ⟨⟨b, s''⟩, hok, rfl⟩ := Exec.toOption_map_eq_some hstep
      have hkept := ((receive_learns_iff hok).mpr hagrees).1
      rw [hs] at hkept
      exact hkept hset
    · exact ((receive_learns_iff hok).mpr (h js a hjs t ht)).2 rfl

/-! ### A connection with the source CEP-id 3 -/

theorem exampleHeap_bytesAt (eType : NetBufType) (bs : Bytes) :
    BytesAt (exampleHeap eType bs) 1 bs :=
  ⟨exampleNetbuf eType bs.length, ⟨0, 0⟩, [], rfl, rfl, rfl, by simp [exampleHeap], rfl⟩

/-- A PDU for the connection. -/
def exampleArrival (q : Pci) : Arrival where
  heap := exampleHeap .NB_RINA_PCI q.toBytes
  xCepId := q.xConnDestination
  pxDu := 1
  pdu := q.toBytes
  bytesAt := exampleHeap_bytesAt _ _
  fresh := exampleHeap_fresh _ _

/-- The connection has the destination CEP-id. -/
def ipcpTowards (xDestinationCepId : CepId) : Ipcp :=
  (receivingIpcp []).setEfcp 0 { (receivingIpcp []).efcps 0 with
    pxConnection := { exampleConnection with xDestinationCepId := xDestinationCepId } }

/-- Two PDUs between connections whose CEP-ids are the same at both ends. -/
theorem learnsOnce_same : ∃ ip',
    [exampleArrival exampleHeader,
      exampleArrival { exampleHeader with xSequenceNumber := 6 }].foldlM (Ipcp.arrive ⟨false, false⟩) (ipcpTowards 3) = some ip' ∧
    LearnsOnce ⟨false, false⟩ 0 (ipcpTowards 3)
      [exampleArrival exampleHeader, exampleArrival { exampleHeader with xSequenceNumber := 6 }] :=
  ⟨_, rfl, (learnsOnce_iff rfl).mpr (by decide)⟩

/-- A PDU with the source CEP-id 4 turns the destination 4 into 3, its destination, and leaves a
connection without a destination as it was. -/
theorem destination_overwritten :
    (∃ ip', (ipcpTowards 4).receive ⟨false, false⟩ (exampleArrival exampleHeader) =
        .ok (true, ip') ∧ (ipcpTowards 4).destination 0 = 4 ∧ ip'.destination 0 = 3) ∧
      (∃ ip', (ipcpTowards CEP_ID_WRONG).receive ⟨false, false⟩ (exampleArrival exampleHeader) =
        .ok (true, ip') ∧ ip'.destination 0 = CEP_ID_WRONG) ∧
      exampleHeader.xConnSource = 4 ∧
      ¬ LearnsOnce ⟨false, false⟩ 0 (ipcpTowards 4) [exampleArrival exampleHeader] ∧
      ¬ LearnsOnce ⟨false, false⟩ 0 (ipcpTowards CEP_ID_WRONG) [exampleArrival exampleHeader] := by
  refine ⟨⟨_, rfl, rfl, rfl⟩, ⟨_, rfl, rfl⟩, rfl, fun h => ?_, fun h => ?_⟩
  · have hkept := h.kept [] [exampleArrival exampleHeader] (List.prefix_refl _) _ _ rfl rfl
      (by decide)
    exact absurd hkept (by decide)
  · have hlearned := h.learned [] (exampleArrival exampleHeader) (List.prefix_refl _) _ _ rfl rfl
      rfl (by decide)
    exact absurd hlearned (by decide)

end RinaSense.Efcp
