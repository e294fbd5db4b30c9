import RinaSense.Rmt.Arrival

/-!
# The end of a PDU

Whether `xRmtReceive` comes back from a PDU, and whether every netbuf of the PDU was then freed or
waits with one flow. The netbuf behind the header has no owner when a stage above refuses it.
-/

namespace RinaSense.Rmt

open Common Efcp RinaSense.Flow Library.Memory

variable (pf : Platform) (fnRibInput : Ipcp → Bytes → PortId → Exec (Bool × Ipcp))

/-- None of the waiting packets is of the chain. -/
def Apart (fa : FlowAllocator) (d : Ledger) (c : NbPtr) : Prop :=
  ∀ p, ∀ q ∈ fa.waiting p, d.chain q ≠ some c

/-- The RIB daemon handles a message without a trap of the netbufs, and without touching the
chain of the PDU in which the message came. -/
def RibKeeps : Prop :=
  ∀ ip d c bs port b ip', Reached pf ⟨ip.heap, d⟩ → ¬ d.Over c → Apart ip.xFA d c →
    fnRibInput ip bs port = .ok (b, ip') →
    ∃ d', Ran pf ⟨ip.heap, d⟩ ⟨ip'.heap, d'⟩ ∧
      (∀ q, d'.chain q = some c ↔ d.chain q = some c) ∧
      (∀ q, d.chain q = some c → d'.live q = d.live q) ∧ Apart ip'.xFA d' c

/-- The RIB daemon comes back with `b` from the bytes behind the header. -/
def RibResult (ip : Ipcp) (du : NbPtr) (port : PortId) (bs : Bytes) (b : Bool) : Prop :=
  ∃ ip₁ data ip₂, unwrapPdu pf ip du port = .ok (ip₁, data) ∧
    fnRibInput ip₁ (bs.drop sizeofPci) port = .ok (b, ip₂)

/-- The stage which gets the PDU has a payload to look at, and comes back from it. -/
structure Bearable (ip : Ipcp) (du : NbPtr) (port : PortId) (bs slack : Bytes) : Prop where
  mgmt : toMgmt ip.xRmt (Pci.ofBytes bs) = true → sizeofPci < bs.length ∧ pf.ndebug = false ∧
    ∃ b, RibResult pf fnRibInput ip du port bs b
  dt : toDt ip.xRmt (Pci.ofBytes bs) = true → sizeofPci < bs.length ∧
    (rereadOutcome ip (bs.drop sizeofPci ++ slack)).isSome = true

/-- The netbuf was freed, or it is one packet of one flow. -/
def Settled (d : Ledger) (fa : FlowAllocator) (q : NbPtr) : Prop :=
  (d.live q = false ∧ ∀ p, q ∉ fa.waiting p) ∨
    (d.live q = true ∧
      ∃ p, (fa.waiting p).count q = 1 ∧ ∀ p', p' ≠ p → q ∉ fa.waiting p')

/-- The code comes back, and in between it has freed no netbuf twice and settled those of the
chain `c`. -/
def AccountsFor (ip : Ipcp) (d : Ledger) (c : NbPtr) (out : Exec (Bool × Ipcp)) : Prop :=
  ∃ b ip' d', out = .ok (b, ip') ∧ Ran pf ⟨ip.heap, d⟩ ⟨ip'.heap, d'⟩ ∧
    ∀ q, d'.chain q = some c → Settled d' ip'.xFA q

/-- The stage which gets the PDU takes its payload, and a PDU which none gets has no payload. -/
def Taken (ip : Ipcp) (du : NbPtr) (port : PortId) (bs slack : Bytes) : Prop :=
  let q := Pci.ofBytes bs
  let m := bs.drop sizeofPci ++ slack
  if toMgmt ip.xRmt q then
    sizeofPci < bs.length ∧ pf.ndebug = false ∧ RibResult pf fnRibInput ip du port bs true
  else if toDt ip.xRmt q then
    sizeofPci < bs.length ∧ (rereadOutcome ip m).isSome = true ∧ (postsTo ip m).isSome = true
  else bs.length = sizeofPci

variable {pf fnRibInput} {ip ip' : Ipcp} {d d' : Ledger} {fa : FlowAllocator} {c du p q : NbPtr}
  {port : PortId} {bs slack : Bytes} {h : Heap} {nb : Netbuf}

/-! ### The last netbuf of a chain -/

/-- One netbuf of the chain is left, and it waits with no flow. -/
structure OneLeft (d : Ledger) (fa : FlowAllocator) (c p : NbPtr) : Prop where
  chain : d.chain p = some c
  live : d.live p = true
  alone : ∀ q, d.chain q = some c → q ≠ p → d.live q = false
  apart : Apart fa d c

theorem Arrived.oneLeft (a : Arrived pf ip d du c port bs slack) : OneLeft d ip.xFA c du where
  chain := a.chain
  live := a.live
  alone := a.alone
  apart p q hq hqc := by
    obtain ⟨c', hc', hne⟩ := a.waiting p q hq
    exact hne (Option.some.inj (hc'.symm.trans hqc))

theorem OneLeft.not_over (o : OneLeft d fa c p) : ¬ d.Over c := Ledger.not_over o.live o.chain

theorem OneLeft.free (o : OneLeft d fa c p) (hq : d.chain q = some c) :
    Settled (d.leave p) fa q := by
  refine Or.inl ⟨?_, fun p' hp' => o.apart p' q hp' hq⟩
  change Function.update d.live p false q = false
  by_cases hqp : q = p
  · rw [hqp, Function.update_self]
  · rw [Function.update_of_ne hqp]
    exact o.alone q hq hqp

/-- What does not touch the chain leaves the netbuf where it is. -/
theorem OneLeft.keep {fa' : FlowAllocator} (o : OneLeft d fa c p)
    (hchain : ∀ q, d'.chain q = some c ↔ d.chain q = some c)
    (hlive : ∀ q, d.chain q = some c → d'.live q = d.live q) (hapart : Apart fa' d' c) :
    OneLeft d' fa' c p where
  chain := (hchain p).mpr o.chain
  live := (hlive p o.chain).trans o.live
  alone q hq hqp := (hlive q ((hchain q).mp hq)).trans (o.alone q ((hchain q).mp hq) hqp)
  apart := hapart

/-- A packet is put once, wherever in the list it goes. -/
theorem count_insertAfterFirst (l : List NbPtr) (hp : p ∉ l) :
    (RsList.insertAfterFirst p l).count p = 1 := by
  rw [(RsList.insertAfterFirst_perm p l).count_eq, List.count_cons_self,
    List.count_eq_zero_of_not_mem hp]

theorem OneLeft.put (o : OneLeft d fa c p) (f : FaiPtr) (hq : d.chain q = some c) :
    Settled d (fa.put f p) q := by
  by_cases hqp : q = p
  · subst hqp
    refine Or.inr ⟨o.live, f, ?_, fun p' hp' => ?_⟩
    · rw [FlowAllocator.waiting_put, if_pos rfl]
      exact count_insertAfterFirst _ fun hin => o.apart f q hin hq
    · rw [FlowAllocator.waiting_put, if_neg hp']
      exact fun hin => o.apart p' q hin hq
  · refine Or.inl ⟨o.alone q hq hqp, fun p' => ?_⟩
    rw [FlowAllocator.waiting_put]
    split
    · intro hin
      rcases List.mem_cons.mp ((RsList.insertAfterFirst_perm p _).mem_iff.mp hin) with hin | hin
      · exact hqp hin
      · exact o.apart f q hin hq
    · exact fun hin => o.apart p' q hin hq

/-- A netbuf which is in the memory and waits nowhere is leaked, whatever the ledger says. -/
theorem leaked (hi : NbState.Inv pf ⟨h, d⟩) (hq : h.netbufs q = some nb)
    (hlive : nb.xFreed = false) (hfirst : nb.pxFirst = c) (hw : ∀ p, q ∉ fa.waiting p) :
    ¬ ∀ q, d.chain q = some c → Settled d fa q := by
  intro hall
  obtain ⟨c', hc'⟩ := hi.known q nb hq
  have hmark := hi.marks q nb hq
  rw [hlive, Eq.comm, Bool.not_eq_false'] at hmark
  have hcc : nb.pxFirst = c' := hi.first q nb c' hq hmark hc'
  rw [hfirst] at hcc
  rcases hall q (hcc ▸ hc') with ⟨hdead, -⟩ | ⟨-, p, hcount, -⟩
  · have hdead : d.live q = false := hdead
    have hmark : d.live q = true := hmark
    rw [hmark] at hdead
    cases hdead
  · rw [List.count_eq_zero_of_not_mem (hw p)] at hcount
    cases hcount

theorem OneLeft.leaked (o : OneLeft d fa c p) (hi : NbState.Inv pf ⟨h, d⟩)
    (hi' : NbState.Inv pf ⟨h, d'⟩) : ¬ ∀ q, d'.chain q = some c → Settled d' fa q := by
  obtain ⟨nb, -, hnb, hlive, -⟩ := hi.live_netbuf o.live
  exact Rmt.leaked hi' hnb hlive (hi.first p nb c hnb o.live o.chain)
    fun p' hp' => o.apart p' p hp' o.chain

/-! ### The three ends -/

theorem Arrived.oneLeft_payload (a : Arrived pf ip d du c port bs slack) :
    OneLeft ((d.cut du ip.heap.brk).leave du) ip.xFA c ip.heap.brk := by
  have hnew : ip.heap.brk ≠ du := Nat.ne_of_gt (a.inv.below du c a.chain).1
  have hchain : ∀ q, ((d.cut du ip.heap.brk).leave du).chain q =
      if q = ip.heap.brk then some c else d.chain q := fun q => by
    rw [← a.chain]
    exact d.cut_chain du ip.heap.brk q
  refine ⟨by rw [hchain, if_pos rfl], ?_, fun q hq hqn => ?_, fun p q hq => ?_⟩
  · change Function.update (Function.update d.live ip.heap.brk true) du false ip.heap.brk = true
    rw [Function.update_of_ne hnew, Function.update_self]
  · rw [hchain, if_neg hqn] at hq
    change Function.update (Function.update d.live ip.heap.brk true) du false q = false
    by_cases hqd : q = du
    · rw [hqd, Function.update_self]
    · rw [Function.update_of_ne hqd, Function.update_of_ne hqn]
      exact a.alone q hq hqd
  · obtain ⟨c', hc', hne⟩ := a.waiting p q hq
    rw [hchain, if_neg (Nat.ne_of_lt (a.inv.below q c' hc').1), hc']
    exact fun hc => hne (Option.some.inj hc)

section Runs

variable (fnRibInput)

theorem Arrived.headerOnly_run (a : Arrived pf ip d du c port bs slack)
    (hp : PassesRmt ip port bs) (hlen : bs.length = sizeofPci) :
    ∃ n h', xRmtReceive pf (xRibIncoming pf fnRibInput) ip du port =
        dispatchPdu pf fnRibInput (counted ip port n h') (Pci.ofBytes bs) port none ∧
      Ran pf ⟨ip.heap, d⟩ ⟨h', d.leave du⟩ := by
  obtain ⟨nb, ptr, r⟩ := a.pdu
  obtain ⟨n, h', hun, hran⟩ := a.unwrap_headerOnly hlen
  refine ⟨n, h', ?_, hran⟩
  rw [xRmtReceive_passed r a.portOk hp, hun, Exec.ok_bind]

theorem Arrived.payload_run (a : Arrived pf ip d du c port bs slack) (hp : PassesRmt ip port bs)
    {nb : Netbuf} {ptr : Ptr} (r : ReceivedPdu ip.heap du nb ptr bs slack)
    (hlen : sizeofPci < bs.length) :
    ∃ n, xRmtReceive pf (xRibIncoming pf fnRibInput) ip du port =
        dispatchPdu pf fnRibInput (counted ip port n (bareHeap ip.heap du nb ptr))
          (Pci.ofBytes bs) port (some ip.heap.brk) ∧
      unwrapPdu pf ip du port =
        .ok (counted ip port n (bareHeap ip.heap du nb ptr), some ip.heap.brk) ∧
      Ran pf ⟨ip.heap, d⟩ ⟨bareHeap ip.heap du nb ptr, (d.cut du ip.heap.brk).leave du⟩ := by
  obtain ⟨n, hun, hran⟩ := a.unwrap_payload r hlen (hp.cut (Nat.ne_of_gt hlen))
  refine ⟨n, ?_, hun, hran⟩
  rw [xRmtReceive_passed r a.portOk hp, hun, Exec.ok_bind]

end Runs

theorem ribResult_iff {ip₁ : Ipcp} {data : Option NbPtr} {b : Bool}
    (hun : unwrapPdu pf ip du port = .ok (ip₁, data)) :
    RibResult pf fnRibInput ip du port bs b ↔
      ∃ ip₂, fnRibInput ip₁ (bs.drop sizeofPci) port = .ok (b, ip₂) := by
  constructor
  · rintro ⟨ip₁', data', ip₂, hun', hrib⟩
    rw [hun] at hun'
    cases hun'
    exact ⟨ip₂, hrib⟩
  · rintro ⟨ip₂, hrib⟩
    exact ⟨ip₁, data, ip₂, hun, hrib⟩

/-- The PDU ends in a trap if the stage which gets it cannot bear it. -/
theorem Arrived.traps (a : Arrived pf ip d du c port bs slack) (hp : PassesRmt ip port bs)
    (hb : ¬ Bearable pf fnRibInput ip du port bs slack) :
    ∃ t, xRmtReceive pf (xRibIncoming pf fnRibInput) ip du port = .error t := by
  obtain ⟨nb, ptr, r⟩ := a.pdu
  by_cases hlen : sizeofPci < bs.length
  · obtain ⟨n, hrun, hun, -⟩ := a.payload_run fnRibInput hp r hlen
    rw [hrun]
    by_cases hm : toMgmt ip.xRmt (Pci.ofBytes bs) = true
    · rw [dispatchPdu_mgmt (by exact hm)]
      cases hdebug : pf.ndebug with
      | true => exact ⟨_, xRmtProcessMgmtPdu_ndebug hdebug⟩
      | false =>
        rw [r.mgmt hp.long rfl a.portOk hdebug]
        cases hrib : fnRibInput (counted ip port n (bareHeap ip.heap du nb ptr))
            (bs.drop sizeofPci) port with
        | error t => exact ⟨t, rfl⟩
        | ok out =>
          refine absurd ⟨fun _ => ⟨hlen, hdebug, out.1, ?_⟩, fun hdt => ?_⟩ hb
          · exact (ribResult_iff hun).mpr ⟨out.2, hrib⟩
          · rw [toMgmt_not_toDt hm] at hdt
            cases hdt
    · by_cases hdt : toDt ip.xRmt (Pci.ofBytes bs) = true
      · rw [dispatchPdu_dt (by exact hdt)]
        have hends : EndsAs (xRmtProcessDtPdu pf
            (counted ip port n (bareHeap ip.heap du nb ptr)) port (some ip.heap.brk))
            (rereadOutcome ip (bs.drop sizeofPci ++ slack)) :=
          xRmtProcessDtPdu_spec (r.rest hp.long) r.bareHeap_fresh rfl a.portOk
        cases hre : rereadOutcome ip (bs.drop sizeofPci ++ slack) with
        | none =>
          rw [hre] at hends
          exact ⟨_, hends⟩
        | some out => exact absurd ⟨fun hm' => absurd hm' hm, fun _ => ⟨hlen, by rw [hre]; rfl⟩⟩ hb
      · exact absurd ⟨fun hm' => absurd hm' hm, fun hdt' => absurd hdt' hdt⟩ hb
  · have heq : bs.length = sizeofPci := Nat.le_antisymm (Nat.le_of_not_lt hlen) hp.long
    obtain ⟨n, h', hrun, -⟩ := a.headerOnly_run fnRibInput hp heq
    rw [hrun]
    by_cases hm : toMgmt ip.xRmt (Pci.ofBytes bs) = true
    · rw [dispatchPdu_mgmt (by exact hm)]
      exact xRmtProcessMgmtPdu_none a.portOk _
    · by_cases hdt : toDt ip.xRmt (Pci.ofBytes bs) = true
      · rw [dispatchPdu_dt (by exact hdt)]
        exact xRmtProcessDtPdu_none a.portOk
      · exact absurd ⟨fun hm' => absurd hm' hm, fun hdt' => absurd hdt' hdt⟩ hb

theorem SearchLeak.ran {s : NbState} {h' : Heap} (hi : s.Inv pf) (hb : GivenBelow s)
    (hs : SearchLeak s.heap h') : Ran pf s ⟨h', s.ledger⟩ := by
  rcases hs with rfl | rfl
  · exact Ran.refl s
  · exact Ran.other (leaves_alloc hi.fresh hb 8)

/-- A data PDU which can be borne is delivered to the flow it posts to, if it posts to one. -/
theorem Arrived.dt_run (a : Arrived pf ip d du c port bs slack)
    (fnRibInput : Ipcp → Bytes → PortId → Exec (Bool × Ipcp)) (hp : PassesRmt ip port bs)
    (hlen : sizeofPci < bs.length) (hdt : toDt ip.xRmt (Pci.ofBytes bs) = true)
    (hre : (rereadOutcome ip (bs.drop sizeofPci ++ slack)).isSome) :
    ∃ b ip', xRmtReceive pf (xRibIncoming pf fnRibInput) ip du port = .ok (b, ip') ∧
      ip'.xFA = ip.xFA.deliver ip.heap.brk (postsTo ip (bs.drop sizeofPci ++ slack)) ∧
      Ran pf ⟨ip.heap, d⟩ ⟨ip'.heap, (d.cut du ip.heap.brk).leave du⟩ := by
  obtain ⟨nb, ptr, r⟩ := a.pdu
  obtain ⟨n, hrun, hun, hran⟩ := a.payload_run fnRibInput hp r hlen
  obtain ⟨out, hout⟩ := Option.isSome_iff_exists.mp hre
  obtain ⟨ip', hcode, -⟩ : EndsAs (xRmtProcessDtPdu pf
      (counted ip port n (bareHeap ip.heap du nb ptr)) port (some ip.heap.brk)) (some out) :=
    hout ▸ xRmtProcessDtPdu_spec (r.rest hp.long) r.bareHeap_fresh rfl a.portOk
  obtain ⟨hheap, hfa⟩ := xRmtProcessDtPdu_delivers (r.rest hp.long) r.bareHeap_fresh hcode
  have hreach := a.reached.ran hran
  refine ⟨out.2, ip', ?_, hfa,
    hran.trans (SearchLeak.ran hreach.inv hreach.givenBelow hheap)⟩
  rw [hrun, dispatchPdu_dt (by exact hdt)]
  exact hcode

/-- Every netbuf of the PDU is settled if the stage which gets it takes it. -/
theorem Arrived.settles (a : Arrived pf ip d du c port bs slack) (hrib : RibKeeps pf fnRibInput)
    (hp : PassesRmt ip port bs) (ht : Taken pf fnRibInput ip du port bs slack) :
    AccountsFor pf ip d c (xRmtReceive pf (xRibIncoming pf fnRibInput) ip du port) := by
  obtain ⟨nb, ptr, r⟩ := a.pdu
  rw [Taken] at ht
  by_cases hm : toMgmt ip.xRmt (Pci.ofBytes bs) = true
  · rw [if_pos hm] at ht
    obtain ⟨hlen, hdebug, hres⟩ := ht
    obtain ⟨n, hrun, hun, hran⟩ := a.payload_run fnRibInput hp r hlen
    obtain ⟨ip₂, hcode⟩ := (ribResult_iff hun).mp hres
    have o := a.oneLeft_payload
    obtain ⟨d₂, hran₂, hchain, hlive, hapart⟩ :=
      hrib (counted ip port n (bareHeap ip.heap du nb ptr)) _ c _ _ _ _ (a.reached.ran hran)
        o.not_over o.apart hcode
    have o₂ : OneLeft d₂ ip₂.xFA c ip.heap.brk := o.keep hchain hlive hapart
    obtain ⟨h', hfree, hran₃⟩ := Ran.free ((a.reached.ran (hran.trans hran₂)).inv) o₂.live
    have hfree : vNetBufFree pf ip₂.heap ip.heap.brk = .ok h' := hfree
    refine ⟨true, { ip₂ with heap := h' }, d₂.leave ip.heap.brk, ?_,
      (hran.trans hran₂).trans hran₃, fun q hq => o₂.free hq⟩
    rw [hrun, dispatchPdu_mgmt (by exact hm), r.mgmt hp.long rfl a.portOk hdebug, hcode,
      Exec.ok_bind]
    dsimp only
    rw [if_pos rfl, hfree]
    rfl
  rw [if_neg hm] at ht
  by_cases hdt : toDt ip.xRmt (Pci.ofBytes bs) = true
  · rw [if_pos hdt] at ht
    obtain ⟨hlen, hre, hposts⟩ := ht
    obtain ⟨f, hf⟩ := Option.isSome_iff_exists.mp hposts
    obtain ⟨b, ip', hrun, hfa, hran⟩ := a.dt_run fnRibInput hp hlen hdt hre
    refine ⟨b, ip', (d.cut du ip.heap.brk).leave du, hrun, hran, fun q hq => ?_⟩
    rw [hfa, hf]
    exact a.oneLeft_payload.put f hq
  · rw [if_neg hdt] at ht
    obtain ⟨n, h', hrun, hran⟩ := a.headerOnly_run fnRibInput hp ht
    refine ⟨false, counted ip port n h', d.leave du, ?_, hran, fun q hq => a.oneLeft.free hq⟩
    rw [hrun, dispatchPdu_nowhere]
    · exact eq_false_of_ne_true hm
    · exact eq_false_of_ne_true hdt

/-- A netbuf of the PDU has no owner any more. -/
def Leaks (pf : Platform) (c : NbPtr) (out : Exec (Bool × Ipcp)) : Prop :=
  ∃ b ip', out = .ok (b, ip') ∧ ∀ d', NbState.Inv pf ⟨ip'.heap, d'⟩ →
    ¬ ∀ q, d'.chain q = some c → Settled d' ip'.xFA q

/-- What is not taken is leaked. -/
theorem Arrived.leaks (a : Arrived pf ip d du c port bs slack) (hrib : RibKeeps pf fnRibInput)
    (hp : PassesRmt ip port bs) (hb : Bearable pf fnRibInput ip du port bs slack)
    (ht : ¬ Taken pf fnRibInput ip du port bs slack) :
    Leaks pf c (xRmtReceive pf (xRibIncoming pf fnRibInput) ip du port) := by
  obtain ⟨nb, ptr, r⟩ := a.pdu
  have o := a.oneLeft_payload
  rw [Taken] at ht
  by_cases hm : toMgmt ip.xRmt (Pci.ofBytes bs) = true
  · rw [if_pos hm] at ht
    obtain ⟨hlen, hdebug, b, hres⟩ := hb.mgmt hm
    obtain ⟨n, hrun, hun, hran⟩ := a.payload_run fnRibInput hp r hlen
    have hfalse : b = false := eq_false_of_ne_true fun htrue =>
      ht ⟨hlen, hdebug, htrue ▸ hres⟩
    obtain ⟨ip₂, hcode⟩ := (ribResult_iff hun).mp hres
    obtain ⟨d₂, hran₂, hchain, hlive, hapart⟩ :=
      hrib (counted ip port n (bareHeap ip.heap du nb ptr)) _ c _ _ _ _ (a.reached.ran hran)
        o.not_over o.apart hcode
    refine ⟨false, ip₂, ?_, fun d' hi' => (o.keep hchain hlive hapart).leaked
      (a.reached.ran (hran.trans hran₂)).inv hi'⟩
    rw [hrun, dispatchPdu_mgmt (by exact hm), r.mgmt hp.long rfl a.portOk hdebug, hcode,
      Exec.ok_bind, hfalse]
    rfl
  rw [if_neg hm] at ht
  by_cases hdt : toDt ip.xRmt (Pci.ofBytes bs) = true
  · rw [if_pos hdt] at ht
    obtain ⟨hlen, hre⟩ := hb.dt hdt
    have hnone : postsTo ip (bs.drop sizeofPci ++ slack) = none := by
      rw [← Option.isNone_iff_eq_none, ← Option.not_isSome, Bool.not_eq_true']
      exact eq_false_of_ne_true fun hposts => ht ⟨hlen, hre, hposts⟩
    obtain ⟨b, ip', hrun, hfa, hran⟩ := a.dt_run fnRibInput hp hlen hdt hre
    rw [hnone] at hfa
    refine ⟨b, ip', hrun, fun d' hi' => ?_⟩
    rw [hfa]
    exact o.leaked (a.reached.ran hran).inv hi'
  · rw [if_neg hdt] at ht
    have hlen : sizeofPci < bs.length := Nat.lt_of_le_of_ne hp.long (Ne.symm ht)
    obtain ⟨n, hrun, -, hran⟩ := a.payload_run fnRibInput hp r hlen
    refine ⟨false, counted ip port n (bareHeap ip.heap du nb ptr), ?_, fun d' hi' =>
      o.leaked (a.reached.ran hran).inv hi'⟩
    rw [hrun, dispatchPdu_nowhere]
    · exact eq_false_of_ne_true hm
    · exact eq_false_of_ne_true hdt

theorem Arrived.refused (a : Arrived pf ip d du c port bs slack) (hp : ¬ PassesRmt ip port bs) :
    Leaks pf c (xRmtReceive pf (xRibIncoming pf fnRibInput) ip du port) := by
  obtain ⟨nb, ptr, r⟩ := a.pdu
  obtain ⟨ip', hrun, hfa, nb', hnb, hlive, hfirst⟩ := xRmtReceive_refused r a.portOk hp
  refine ⟨false, ip', hrun, fun d' hi' => ?_⟩
  rw [hfa]
  exact leaked hi' hnb hlive (hfirst.trans (a.first r)) fun p hin =>
    a.oneLeft.apart p du hin a.chain

theorem Taken.bearable (ht : Taken pf fnRibInput ip du port bs slack) :
    Bearable pf fnRibInput ip du port bs slack := by
  rw [Taken] at ht
  constructor
  · intro hm
    rw [if_pos hm] at ht
    exact ⟨ht.1, ht.2.1, true, ht.2.2⟩
  · intro hdt
    have hm : ¬ toMgmt ip.xRmt (Pci.ofBytes bs) = true := fun hm => by
      rw [toMgmt_not_toDt hm] at hdt
      cases hdt
    rw [if_neg hm, if_pos hdt] at ht
    exact ⟨ht.1, ht.2.1⟩

theorem Leaks.not_accountsFor {out : Exec (Bool × Ipcp)} (hl : Leaks pf c out)
    (hi : NbState.Inv pf ⟨ip.heap, d⟩) : ¬ AccountsFor pf ip d c out := by
  rintro ⟨b, ip', d', hout, hran, hall⟩
  obtain ⟨b', ip'', hout', hno⟩ := hl
  rw [hout] at hout'
  cases hout'
  exact hno d' (hran.inv hi) hall

/-- The code comes back from a PDU exactly if the PDU does not get past the checks, or the stage
which gets it can bear it. -/
theorem xRmtReceive_returns_iff (a : Arrived pf ip d du c port bs slack)
    (hrib : RibKeeps pf fnRibInput) :
    (∃ out, xRmtReceive pf (xRibIncoming pf fnRibInput) ip du port = .ok out) ↔
      (PassesRmt ip port bs → Bearable pf fnRibInput ip du port bs slack) := by
  constructor
  · rintro ⟨out, hout⟩ hp
    by_contra hb
    obtain ⟨t, ht⟩ := a.traps hp hb
    rw [ht] at hout
    cases hout
  · intro hpb
    by_cases hp : PassesRmt ip port bs
    · by_cases ht : Taken pf fnRibInput ip du port bs slack
      · obtain ⟨b, ip', d', hout, -⟩ := a.settles hrib hp ht
        exact ⟨_, hout⟩
      · obtain ⟨b, ip', hout, -⟩ := a.leaks hrib hp (hpb hp) ht
        exact ⟨_, hout⟩
    · obtain ⟨b, ip', hout, -⟩ : Leaks pf c
          (xRmtReceive pf (xRibIncoming pf fnRibInput) ip du port) := a.refused hp
      exact ⟨_, hout⟩

/-- Every netbuf of the PDU is accounted for exactly if the PDU gets past the checks and the stage
which gets it takes it. -/
theorem xRmtReceive_accounts_iff (a : Arrived pf ip d du c port bs slack)
    (hrib : RibKeeps pf fnRibInput) :
    AccountsFor pf ip d c (xRmtReceive pf (xRibIncoming pf fnRibInput) ip du port) ↔
      PassesRmt ip port bs ∧ Taken pf fnRibInput ip du port bs slack := by
  constructor
  · intro hacc
    by_cases hp : PassesRmt ip port bs
    · refine ⟨hp, ?_⟩
      by_contra ht
      by_cases hb : Bearable pf fnRibInput ip du port bs slack
      · exact (a.leaks hrib hp hb ht).not_accountsFor a.inv hacc
      · obtain ⟨t, htrap⟩ := a.traps hp hb
        obtain ⟨b, ip', d', hout, -⟩ := hacc
        rw [htrap] at hout
        cases hout
    · exact absurd hacc ((a.refused hp).not_accountsFor a.inv)
  · rintro ⟨hp, ht⟩
    exact a.settles hrib hp ht

/-! ### A PDU in the first netbuf of a program -/

/-- The PDU `bs` in the netbuf 1, which `pxNetBufNew` has just made. -/
def arrivingIpcp (bs : Bytes) : Ipcp :=
  { receivingIpcp bs with heap := (exampleHeap .NB_RINA_PCI bs).called }

def arrivingLedger : Ledger := Ledger.empty.enter 1 ⟨0, 0⟩ (some .vNetBufFreeNormal)

theorem arrivingIpcp_reached (hbs : bs ≠ []) :
    Reached ⟨false, false⟩ ⟨(arrivingIpcp bs).heap, arrivingLedger⟩ := by
  let h₀ : Heap := { exampleHeap .NB_RINA_PCI bs with netbufs := fun _ => none, brk := 1 }
  have hf : h₀.Fresh := fun a ha => by
    have h0 : a ≠ 0 := Nat.ne_of_gt ha
    exact ⟨rfl, by simp [h₀, exampleHeap, h0]⟩
  have hsize : (bs.length != 0) = true := by
    simpa using hbs
  refine ⟨h₀, hf, fun _ => rfl, Ran.op (.new (some 0) .NB_RINA_PCI ⟨0, 0⟩ bs.length
    (some .vNetBufFreeNormal)) ⟨rfl, ?_, rfl, ?_⟩ ?_⟩
  · rw [hsize, rsAssert_true]
  · exact ⟨by simp [h₀, exampleHeap], fun _ => rfl, fun hm => by cases hm⟩
  · simp only [NbState.step, pxNetBufNew, Option.isSome_some, hsize, rsAssert_true, Exec.ok_bind]
    rfl

theorem arrivingIpcp_arrived (hbs : bs ≠ []) :
    Arrived ⟨false, false⟩ (arrivingIpcp bs) arrivingLedger 1 1 1 bs [] where
  reached := arrivingIpcp_reached hbs
  live := rfl
  chain := rfl
  alone q hq hne := absurd (by
    have hchain : Function.update (fun _ => none) 1 (some 1) q = some (1 : NbPtr) := hq
    by_contra hc
    rw [Function.update_of_ne hc] at hchain
    cases hchain) hne
  pdu :=
    ⟨exampleNetbuf .NB_RINA_PCI bs.length, ⟨0, 0⟩,
      { netbuf := by simp [arrivingIpcp, exampleHeap, Heap.called]
        live := rfl
        eType := rfl
        size := rfl
        last := rfl
        buf := rfl
        bytes := ⟨[], by simp [arrivingIpcp, exampleHeap, Heap.called], rfl⟩
        chain := ⟨[], rfl, by simp [arrivingIpcp, exampleHeap, Heap.called]⟩
        fresh := exampleHeap_fresh _ _ }⟩
  portOk := by decide
  waiting p q hq := by cases hq

/-- A RIB daemon which takes every message and does nothing else. -/
def takeAll (ip : Ipcp) (_ : Bytes) (_ : PortId) : Exec (Bool × Ipcp) := .ok (true, ip)

theorem takeAll_keeps (pf : Platform) : RibKeeps pf takeAll := by
  intro ip d c bs port b ip' _ _ hapart hrun
  cases hrun
  exact ⟨d, Ran.refl _, fun _ => Iff.rfl, fun _ _ => rfl, hapart⟩

/-- A data PDU which carries a copy of its header. -/
def copyPdu : Bytes := exampleHeader.toBytes ++ exampleHeader.toBytes

theorem xRmtReceive_returns_copy :
    ∃ out, xRmtReceive ⟨false, false⟩ (xRibIncoming ⟨false, false⟩ takeAll) (arrivingIpcp copyPdu)
      1 1 = .ok out :=
  (xRmtReceive_returns_iff (arrivingIpcp_arrived (by decide)) (takeAll_keeps _)).mpr fun _ =>
    ⟨fun hm => absurd hm (by decide), fun _ => by decide⟩

/-- A data PDU which is only a header. -/
theorem header_asserts :
    Arrived ⟨false, false⟩ (arrivingIpcp exampleHeader.toBytes) arrivingLedger 1 1 1
        exampleHeader.toBytes [] ∧
      ¬ ∃ out, xRmtReceive ⟨false, false⟩ (xRibIncoming ⟨false, false⟩ takeAll)
        (arrivingIpcp exampleHeader.toBytes) 1 1 = .ok out := by
  have a := @arrivingIpcp_arrived exampleHeader.toBytes (by decide)
  have hp : PassesRmt (arrivingIpcp exampleHeader.toBytes) 1 exampleHeader.toBytes :=
    ⟨rfl, by decide, fun _ => rfl, by decide, by decide, by decide⟩
  refine ⟨a, ?_⟩
  rintro ⟨out, hout⟩
  obtain ⟨t, ht⟩ : ∃ t, xRmtReceive ⟨false, false⟩ (xRibIncoming ⟨false, false⟩ takeAll)
      (arrivingIpcp exampleHeader.toBytes) 1 1 = .error t :=
    a.traps hp fun hb => absurd (hb.dt (by decide)).1 (by decide)
  rw [ht] at hout
  cases hout

/-- A management PDU of one byte. -/
def mgmtPdu : Bytes := { exampleHeader with xType := PDU_TYPE_MGMT }.toBytes ++ [7]

theorem xRmtReceive_accounts_mgmt :
    AccountsFor ⟨false, false⟩ (arrivingIpcp mgmtPdu) arrivingLedger 1
      (xRmtReceive ⟨false, false⟩ (xRibIncoming ⟨false, false⟩ takeAll) (arrivingIpcp mgmtPdu)
        1 1) := by
  have hp : PassesRmt (arrivingIpcp mgmtPdu) 1 mgmtPdu :=
    ⟨rfl, by decide, fun _ => rfl, by decide, by decide, by decide⟩
  refine (xRmtReceive_accounts_iff (arrivingIpcp_arrived (by decide))
    (takeAll_keeps _)).mpr ⟨hp, ?_⟩
  rw [Taken, if_pos (by decide)]
  exact ⟨by decide, rfl, _, _, _, rfl, rfl⟩

/-- A data PDU for another address, with a payload. -/
def strayPdu : Bytes := { exampleHeader with xDestination := 9 }.toBytes ++ temperature

theorem strayPdu_leaked :
    Arrived ⟨false, false⟩ (arrivingIpcp strayPdu) arrivingLedger 1 1 1 strayPdu [] ∧
      ¬ AccountsFor ⟨false, false⟩ (arrivingIpcp strayPdu) arrivingLedger 1
        (xRmtReceive ⟨false, false⟩ (xRibIncoming ⟨false, false⟩ takeAll) (arrivingIpcp strayPdu)
          1 1) := by
  have a := @arrivingIpcp_arrived strayPdu (by decide)
  have hp : PassesRmt (arrivingIpcp strayPdu) 1 strayPdu :=
    ⟨rfl, by decide, fun _ => rfl, by decide, by decide, by decide⟩
  have hmgmt : ¬ toMgmt (arrivingIpcp strayPdu).xRmt (Pci.ofBytes strayPdu) = true := by decide
  have hdt : ¬ toDt (arrivingIpcp strayPdu).xRmt (Pci.ofBytes strayPdu) = true := by decide
  refine ⟨a, Leaks.not_accountsFor (a.leaks (takeAll_keeps _) hp
    ⟨fun hm => absurd hm hmgmt, fun hd => absurd hd hdt⟩ fun ht => ?_) a.inv⟩
  rw [Taken, if_neg hmgmt, if_neg hdt] at ht
  exact absurd ht (by decide)

end RinaSense.Rmt
