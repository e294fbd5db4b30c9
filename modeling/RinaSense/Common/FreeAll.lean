import RinaSense.Common.Lifecycle
import RinaSense.Common.Appending

/-!
# Freeing the rest of a chain

`vNetBufFreeAll` on the chains of programs which make, split, append and free netbufs. Its loop
reads the next netbuf before it frees one, but the last netbuf in use takes the whole chain with
it. A freed netbuf behind that one is read after its release.
-/

namespace RinaSense.Common

open Library.Handover Library.Memory Library.Runs

instance (h : Heap) (q : NbPtr) : Decidable (h.InUse q) := decidable_of_iff _ Heap.inUse_iff.symm

variable (pf : Platform)

/-- The steps of a program in which any netbuf may stand for the chain which is appended. -/
def NbState.act (s : NbState) : NbOp → Option NbState
  | .append pxNbLeft pxNbRight =>
    (vNetBufAppend pf s.heap pxNbLeft pxNbRight).toOption.map fun h =>
      ⟨h, (Option.map₂ s.ledger.join (s.ledger.chain pxNbLeft)
        (s.ledger.chain pxNbRight)).getD s.ledger⟩
  | .new xPool eType pxBuf unSz pfnFree => s.step pf (.new xPool eType pxBuf unSz pfnFree)
  | .split pxNb eType unSz => s.step pf (.split pxNb eType unSz)
  | .free pxNb => s.step pf (.free pxNb)
  | .other h => s.step pf (.other h)

/-- The contract of a call. Netbufs in use of two chains are appended. -/
def Allowed (s : NbState) : NbOp → Prop
  | .append pxNbLeft pxNbRight =>
    s.ledger.live pxNbLeft = true ∧ s.ledger.live pxNbRight = true ∧
      s.ledger.chain pxNbLeft ≠ s.ledger.chain pxNbRight
  | .new xPool eType pxBuf unSz pfnFree => Permitted pf s (.new xPool eType pxBuf unSz pfnFree)
  | .split pxNb eType unSz => Permitted pf s (.split pxNb eType unSz)
  | .free pxNb => Permitted pf s (.free pxNb)
  | .other h => Permitted pf s (.other h)

/-- No netbuf in use stands in front of the right one of an append. -/
def Clean (s : NbState) : NbOp → Prop
  | .append _ pxNbRight => ∀ right l₁ l₂, s.heap.netbufs pxNbRight = some right →
      NbLinks s.heap (some right.pxFirst) (l₁ ++ pxNbRight :: l₂) none → ∀ q ∈ l₁, ¬ s.heap.InUse q
  | _ => True

/-- `vNetBufFreeAll` reads nothing that was released and comes to the heap to which one
`vNetBufFree` for each netbuf in use of the chain leads. -/
def FreesEach (h : Heap) (p : NbPtr) (l : List NbPtr) : Prop :=
  ∃ h', vNetBufFreeAll pf h p = .ok h' ∧
    (l.filter fun q => h.InUse q).foldlM (vNetBufFree pf) h = .ok h'

/-- A freed netbuf has no part of its buffer. It stands in the chain from its first netbuf on,
which is only the rest of its chain when that was appended later. -/
structure Spent (s : NbState) (p : NbPtr) (nb : Netbuf) : Prop where
  unSz : nb.unSz = 0
  pxBuf : nb.pxBuf = none
  links : ∃ l, NbLinks s.heap (some nb.pxFirst) l none ∧ p ∈ l ∧
    ∀ q ∈ l, s.ledger.chain q = s.ledger.chain p

structure NbState.Traced (s : NbState) : Prop where
  inv : s.Inv pf
  spent : ∀ p nb, s.heap.netbufs p = some nb → nb.xFreed = true → Spent s p nb

variable {pf} {s s' : NbState} {h h' : Heap} {p q r c c' last : NbPtr} {nb : Netbuf}
  {start : Option NbPtr} {l l' : List NbPtr}

theorem NbState.Inv.inUse_iff (hi : s.Inv pf) : s.heap.InUse q ↔ s.ledger.live q = true := by
  constructor
  · rintro ⟨nb, hnb, hfreed⟩
    exact hi.live_of_netbuf hnb hfreed
  · intro hlive
    obtain ⟨nb, -, hnb, hfreed, -⟩ := hi.live_netbuf hlive
    exact ⟨nb, hnb, hfreed⟩

/-- Two chains which meet are the same from there on. -/
theorem NbLinks.rest (hl : NbLinks h start l none) (hq : NbLinks h (some q) (q :: l') none)
    (hql : q ∈ l) : ∃ l₁, l = l₁ ++ q :: l' := by
  obtain ⟨l₁, l₂, rfl⟩ := List.append_of_mem hql
  obtain ⟨mid, -, hback⟩ := links_append.mp hl
  obtain ⟨rfl, -⟩ := id hback
  exact ⟨l₁, by rw [hback.unique hq]⟩

/-- Two chains which meet end with the same netbuf. -/
theorem NbLinks.ends (hl : NbLinks h start l none) (hl' : NbLinks h (some c) (l' ++ [last]) none)
    (hql : q ∈ l) (hq : q ∈ l' ++ [last]) : ∃ l₁, l = l₁ ++ [last] := by
  obtain ⟨l₁, l₂, heq⟩ := List.append_of_mem hq
  obtain ⟨mid, -, hback⟩ := links_append.mp (heq ▸ hl')
  obtain ⟨rfl, -⟩ := id hback
  obtain ⟨l₃, rfl⟩ := hl.rest hback hql
  have hlast : (q :: l₂).getLast? = some last := by
    rw [← List.getLast?_append_of_ne_nil l₁ (List.cons_ne_nil q l₂), ← heq,
      List.getLast?_append_of_ne_nil l' (List.cons_ne_nil last [])]
    rfl
  obtain ⟨l₄, hl₄⟩ := List.getLast?_eq_some_iff.mp hlast
  exact ⟨l₃ ++ l₄, by rw [hl₄, List.append_assoc]⟩

/-! ### Steps -/

/-- A freed netbuf depends on the links of its chain only. -/
theorem Spent.congr (hs : Spent s p nb)
    (hsame : ∀ q, s.ledger.chain q = s.ledger.chain p → (∃ nb, s.heap.netbufs q = some nb) →
      (s'.heap.netbufs q).map (·.pxNext) = (s.heap.netbufs q).map (·.pxNext) ∧
        s'.ledger.chain q = s.ledger.chain q) : Spent s' p nb where
  unSz := hs.unSz
  pxBuf := hs.pxBuf
  links := by
    obtain ⟨l, hl, hpl, hchain⟩ := hs.links
    have hboth := fun q hq => hsame q (hchain q hq) (hl.netbuf q hq)
    refine ⟨l, hl.congr fun q hq => (hboth q hq).1, hpl, fun q hq => ?_⟩
    rw [(hboth q hq).2, (hboth p hpl).2, hchain q hq]

theorem NbState.Traced.leaves (ht : s.Traced pf) (hl : Leaves s h) :
    NbState.Traced pf ⟨h, s.ledger⟩ where
  inv := ht.inv.leaves hl
  spent p nb hp hfreed :=
    (ht.spent p nb (hl.netbufs ▸ hp) hfreed).congr fun q _ _ => ⟨by rw [hl.netbufs], rfl⟩

theorem NbState.Traced.called (ht : s.Traced pf) :
    NbState.Traced pf ⟨s.heap.called, s.ledger⟩ :=
  ht.leaves ⟨ht.inv.fresh, Nat.le_refl _, rfl, fun _ _ => ⟨rfl, rfl, fun _ h => h⟩⟩

theorem NbState.Traced.new (ht : s.Traced pf) {xPool : Option PoolPtr} {eType : NetBufType}
    {pxBuf : Ptr} {unSz : ℕ} {pfnFree : Option FreeMethod}
    (hperm : Permitted pf s (.new xPool eType pxBuf unSz pfnFree)) :
    ∃ s', s.step pf (.new xPool eType pxBuf unSz pfnFree) = some s' ∧ s'.Traced pf := by
  obtain ⟨s', hstep, rfl | rfl⟩ := NbState.new_cases hperm
  · exact ⟨_, hstep, ht.called⟩
  · refine ⟨_, hstep, ht.inv.new hperm.2.2.1 hperm.2.2.2 rfl rfl rfl rfl rfl,
      fun p nb hp hfreed => ?_⟩
    have hpb : p ≠ s.heap.brk := by
      rintro rfl
      have hself := (Heap.withNetbuf_self _ _).symm.trans hp
      cases hself
      cases hfreed
    rw [Heap.withNetbuf_of_ne _ _ hpb] at hp
    refine (ht.spent p nb hp hfreed).congr fun q _ ⟨nb', hq⟩ => ?_
    have hqb : q ≠ s.heap.brk := Nat.ne_of_lt (ht.inv.fresh.lt_of_netbuf hq)
    exact ⟨by rw [Heap.withNetbuf_of_ne _ _ hqb], Function.update_of_ne hqb _ _⟩

/-- A freed netbuf keeps its place when another one of its chain is cut. -/
theorem Spent.cut {pxNb : NbPtr} {nb' : Netbuf} {eType : NetBufType} {k : ℕ} (hs : Spent s p nb)
    (hf : s.heap.Fresh) (hq : s.heap.netbufs q = some nb')
    (hqc : s.ledger.chain q = s.ledger.chain pxNb) :
    Spent ⟨splitHeap s.heap q nb' eType k, s.ledger.cut pxNb s.heap.brk⟩ p nb := by
  have hold : ∀ x, (∃ nb, s.heap.netbufs x = some nb) → x ≠ s.heap.brk := fun x ⟨nb, hx⟩ =>
    Nat.ne_of_lt (hf.lt_of_netbuf hx)
  have hchain : ∀ x, x ≠ s.heap.brk →
      (s.ledger.cut pxNb s.heap.brk).chain x = s.ledger.chain x := fun x hx =>
    Function.update_of_ne hx _ _
  obtain ⟨l, hl, hpl, hlc⟩ := hs.links
  by_cases hql : q ∈ l
  · obtain ⟨l₁, l₂, rfl⟩ := List.append_of_mem hql
    refine ⟨hs.unSz, hs.pxBuf, _, links_split hf hl hl.nodup hq, ?_, fun x hx => ?_⟩
    · exact (perm_cut l₁ l₂ q s.heap.brk).mem_iff.mpr (List.mem_cons_of_mem _ hpl)
    · have hpb := hold p (hl.netbuf p hpl)
      rcases List.mem_cons.mp ((perm_cut l₁ l₂ q s.heap.brk).mem_iff.mp hx) with rfl | hx
      · change (s.ledger.cut pxNb s.heap.brk).chain s.heap.brk = _
        rw [Ledger.cut_chain, if_pos rfl, ← hqc, hlc q hql]
        exact (hchain p hpb).symm
      · exact (hchain x (hold x (hl.netbuf x hx))).trans ((hlc x hx).trans (hchain p hpb).symm)
  · refine ⟨hs.unSz, hs.pxBuf, l, hl.congr fun x hx => ?_, hpl, fun x hx => ?_⟩
    · rw [splitHeap_of_ne (hold x (hl.netbuf x hx)) fun heq : x = q => hql (heq ▸ hx)]
    · exact (hchain x (hold x (hl.netbuf x hx))).trans
        ((hlc x hx).trans (hchain p (hold p (hl.netbuf p hpl))).symm)

theorem NbState.Traced.split (ht : s.Traced pf) {pxNb : NbPtr} (eType : NetBufType) (unSz : ℕ)
    (hlive : s.ledger.live pxNb = true) :
    ∃ s', s.step pf (.split pxNb eType unSz) = some s' ∧ s'.Traced pf := by
  obtain ⟨s', hstep, heq | rfl | ⟨q, nb', k, c, hq, hfreed, hqc, hc, rfl⟩⟩ :=
    ht.inv.split_cases eType unSz hlive
  · exact ⟨s', hstep, heq ▸ ht⟩
  · exact ⟨_, hstep, ht.called⟩
  · refine ⟨_, hstep, ht.inv.cut hq (ht.inv.live_of_netbuf hq hfreed) hqc hc,
      fun p nb hp hdead => ?_⟩
    have hqb : q ≠ s.heap.brk := Nat.ne_of_lt (ht.inv.fresh.lt_of_netbuf hq)
    have hpb : p ≠ s.heap.brk := by
      rintro rfl
      have hself := (splitHeap_new hqb).symm.trans hp
      cases hself
      cases hdead
    have hpq : p ≠ q := by
      rintro rfl
      have hself := (Heap.setNetbuf_self _ _ _).symm.trans hp
      cases hself
      rw [hfreed] at hdead
      cases hdead
    exact (ht.spent p nb ((splitHeap_of_ne hpb hpq).symm.trans hp) hdead).cut ht.inv.fresh hq
      (hqc.trans hc.symm)

theorem NbState.Traced.free (ht : s.Traced pf) (hp : s.ledger.live p = true)
    (hc : s.ledger.chain p = some c) (hcode : vNetBufFree pf s.heap p = .ok h') :
    NbState.Traced pf ⟨h', s.ledger.leave p⟩ := by
  obtain ⟨h'', hcode', hinv, hcases⟩ := ht.inv.free_cases hp hc
  rw [hcode, Except.ok.injEq] at hcode'
  subst hcode'
  refine ⟨hinv, fun q nb hq hfreed => ?_⟩
  rcases hcases with ⟨-, nb₀, kept, hnb₀, rfl⟩ | ⟨hover, hother⟩
  · have hnexts : ∀ x, ((s.heap.setNetbuf p (some (nb₀.left kept))).netbufs x).map (·.pxNext) =
        (s.heap.netbufs x).map (·.pxNext) := fun x => by
      by_cases hxp : x = p
      · rw [hxp, Heap.setNetbuf_self, hnb₀]
        rfl
      · rw [Heap.setNetbuf_of_ne _ _ hxp]
    by_cases hqp : q = p
    · subst hqp
      rw [Heap.setNetbuf_self] at hq
      cases hq
      obtain ⟨l, hl, -, hmem⟩ := ht.inv.links q c hp hc
      refine ⟨rfl, rfl, l, ?_, (hmem q).mpr hc, fun x hx => ((hmem x).mp hx).trans hc.symm⟩
      rw [← ht.inv.first q nb₀ c hnb₀ hp hc] at hl
      exact hl.congr fun x _ => hnexts x
    · rw [Heap.setNetbuf_of_ne _ _ hqp] at hq
      exact (ht.spent q nb hq hfreed).congr fun x _ _ => ⟨hnexts x, rfl⟩
  · have hqc : s.ledger.chain q ≠ some c := fun hqc => by
      rw [hinv.gone c hover q hqc] at hq
      cases hq
    rw [hother q hqc] at hq
    refine (ht.spent q nb hq hfreed).congr fun x hx _ => ⟨?_, rfl⟩
    rw [hother x fun hxc => hqc (hx.symm.trans hxc)]

/-- The netbufs in front of the right one are freed, so that its whole chain is appended. -/
theorem NbState.Inv.append_joining (hi : s.Inv pf) (hp : s.ledger.live p = true)
    (hr : s.ledger.live r = true) (hne : s.ledger.chain p ≠ s.ledger.chain r)
    (hclean : Clean s (.append p r)) :
    ∃ h' c c' last l l', vNetBufAppend pf s.heap p r = .ok h' ∧ s.ledger.chain p = some c ∧
      s.ledger.chain r = some c' ∧ Joining s h' c c' last l l' := by
  obtain ⟨c, hc⟩ := hi.entered p hp
  obtain ⟨c', hc'⟩ := hi.entered r hr
  obtain ⟨left, -, hleft, hfreed, -⟩ := hi.live_netbuf hp
  obtain ⟨right, -, hright, -, -⟩ := hi.live_netbuf hr
  have hfirst : left.pxFirst = c := hi.first p left c hleft hp hc
  have hfirst' : right.pxFirst = c' := hi.first r right c' hright hr hc'
  have hcc : c ≠ c' := by
    rintro rfl
    exact hne (hc.trans hc'.symm)
  obtain ⟨l, hl, hnodup, hmem⟩ := hi.links p c hp hc
  obtain ⟨l', hl', hnodup', hmem'⟩ := hi.links r c' hr hc'
  obtain ⟨l, last, rfl⟩ : ∃ pre last, l = pre ++ [last] := by
    rcases List.eq_nil_or_concat l with rfl | ⟨pre, last, rfl⟩
    · cases (hmem p).mpr hc
    · exact ⟨pre, last, List.concat_eq_append⟩
  have hdisj : ∀ q ∈ l', q ∉ l ++ [last] := fun q hq hq' =>
    hcc (Option.some.inj (((hmem q).mp hq').symm.trans ((hmem' q).mp hq)))
  obtain ⟨l₁, l₂, rfl⟩ := List.append_of_mem ((hmem' r).mpr hc')
  obtain ⟨mid, -, hback⟩ := links_append.mp hl'
  obtain ⟨rfl, -⟩ := id hback
  obtain ⟨h', hcode, ha⟩ := vNetBufAppend_from pf hi.fresh hleft
    (by rw [hfreed]; exact rsAssert_true pf) (hfirst ▸ hl) hright hback
    fun q hq => hdisj q (List.mem_append_right l₁ hq)
  have ha' := ha.front (hclean right l₁ l₂ hright (hfirst' ▸ hl')) fun q hq =>
    ⟨fun hmem => (List.nodup_append.mp hnodup').2.2 q hq q hmem rfl, by
      rintro rfl
      exact hdisj q (List.mem_append_left _ hq) (by simp)⟩
  rw [hfirst, hfirst'] at ha'
  exact ⟨h', c, c', last, l, _, hcode, hc, hc', hcc, hl, hnodup, hmem, hl', hnodup', hmem', ha'⟩

/-- A freed netbuf of the left chain has the right one behind it, and one of the right chain
keeps its first netbuf. -/
theorem Joining.spent (hu : Joining s h' c c' last l l')
    (hspent : ∀ p nb, s.heap.netbufs p = some nb → nb.xFreed = true → Spent s p nb)
    (hp : h'.netbufs p = some nb) (hfreed : nb.xFreed = true) :
    Spent ⟨h', s.ledger.join c c'⟩ p nb := by
  have hjoin : ∀ q, s.ledger.chain q = some c ∨ s.ledger.chain q = some c' →
      (s.ledger.join c c').chain q = some c := fun q hq =>
    (Ledger.join_chain_eq hu.ne q).mpr (Or.inl ⟨rfl, hq⟩)
  by_cases hpr : s.ledger.chain p = some c'
  · have hpl' := (hu.mem' p).mpr hpr
    have hright := hu.appended.right p hpl'
    rw [hp, eq_comm, Option.map_eq_some_iff] at hright
    obtain ⟨nb₀, hp₀, rfl⟩ := hright
    have hfreed₀ : nb₀.xFreed = true := by
      have htag := congrArg (fun t => t.2.1) (Netbuf.relink_tag c nb₀)
      exact htag.symm.trans hfreed
    rw [Netbuf.relink_of_freed hfreed₀]
    obtain ⟨hsz, hbuf, m, hm, hpm, hchain⟩ := hspent p nb₀ hp₀ hfreed₀
    refine ⟨hsz, hbuf, m, hm.congr fun q hq => ?_, hpm, fun q hq => ?_⟩
    · rw [hu.appended.right q ((hu.mem' q).mpr ((hchain q hq).trans hpr)), Option.map_map]
      exact congrFun (congrArg Option.map (funext fun nb => Netbuf.relink_pxNext c nb)) _
    · exact (hjoin q (Or.inr ((hchain q hq).trans hpr))).trans (hjoin p (Or.inr hpr)).symm
  · have hpl' : p ∉ l' := fun hmem => hpr ((hu.mem' p).mp hmem)
    by_cases hpc : s.ledger.chain p = some c
    · obtain ⟨nb₀, hp₀, hfreed₀, hfirst, hsz, hbuf⟩ : ∃ nb₀, s.heap.netbufs p = some nb₀ ∧
          nb₀.xFreed = true ∧ nb₀.pxFirst = nb.pxFirst ∧ nb₀.unSz = nb.unSz ∧
          nb₀.pxBuf = nb.pxBuf := by
        by_cases hplast : p = last
        · subst hplast
          have hhung := hu.appended.hung
          rw [hp, eq_comm, Option.map_eq_some_iff] at hhung
          obtain ⟨nb₀, hp₀, rfl⟩ := hhung
          exact ⟨nb₀, hp₀, hfreed, rfl, rfl, rfl⟩
        · exact ⟨nb, (hu.appended.other p hpl' hplast).symm.trans hp, hfreed, rfl, rfl, rfl⟩
      have hs := hspent p nb₀ hp₀ hfreed₀
      obtain ⟨m, hm, hpm, hchain⟩ := hs.links
      have hml : ∀ q ∈ m, q ∈ l ++ [last] := fun q hq => (hu.mem q).mpr ((hchain q hq).trans hpc)
      obtain ⟨m, rfl⟩ := hm.ends hu.left hpm (hml p hpm)
      refine ⟨hsz.symm.trans hs.unSz, hbuf.symm.trans hs.pxBuf, m ++ [last] ++ l', ?_,
        List.mem_append_left l' hpm, fun q hq => ?_⟩
      · rw [← hfirst]
        exact hu.appended.links hm hm.nodup hu.right fun q hq hmem =>
          hu.disjoint q hq (hml q hmem)
      · refine Eq.trans (hjoin q ?_) (hjoin p (Or.inl hpc)).symm
        rcases List.mem_append.mp hq with hq | hq
        · exact Or.inl ((hchain q hq).trans hpc)
        · exact Or.inr ((hu.mem' q).mp hq)
    · have hother : ∀ q, s.ledger.chain q = s.ledger.chain p → h'.netbufs q = s.heap.netbufs q := by
        intro q hq
        refine hu.appended.other q (fun hmem => ?_) ?_
        · exact hpr (hq.symm.trans ((hu.mem' q).mp hmem))
        · rintro rfl
          exact hpc (hq.symm.trans ((hu.mem q).mp (by simp)))
      have hspentp := hspent p nb ((hother p rfl).symm.trans hp) hfreed
      refine hspentp.congr fun q hq _ => ⟨by rw [hother q hq], ?_⟩
      exact if_neg fun hqr => hpr (hq.symm.trans hqr)

theorem NbState.Traced.act (ht : s.Traced pf) {op : NbOp} (hop : Allowed pf s op ∧ Clean s op) :
    ∃ s', s.act pf op = some s' ∧ s'.Traced pf := by
  obtain ⟨hallowed, hclean⟩ := hop
  cases op with
  | new xPool eType pxBuf unSz pfnFree => exact ht.new hallowed
  | split pxNb eType unSz => exact ht.split eType unSz hallowed
  | free pxNb =>
    obtain ⟨c, hc⟩ := ht.inv.entered pxNb hallowed
    obtain ⟨h', hcode, -⟩ := ht.inv.free_cases hallowed hc
    refine ⟨⟨h', s.ledger.leave pxNb⟩, ?_, ht.free hallowed hc hcode⟩
    rw [NbState.act, NbState.step, hcode]
    rfl
  | append pxNbLeft pxNbRight =>
    obtain ⟨hp, hr, hne⟩ := hallowed
    obtain ⟨h', c, c', last, l, l', hcode, hc, hc', hu⟩ :=
      ht.inv.append_joining hp hr hne hclean
    refine ⟨⟨h', s.ledger.join c c'⟩, ?_, ht.inv.join hu hp hc hr hc',
      fun q nb hq hfreed => hu.spent ht.spent hq hfreed⟩
    rw [NbState.act, hcode, hc, hc']
    rfl
  | other h => exact ⟨_, rfl, ht.leaves hallowed⟩

theorem traced_empty (hf : h.Fresh) (hnone : ∀ p, h.netbufs p = none) :
    NbState.Traced pf ⟨h, .empty⟩ where
  inv := inv_empty hf hnone
  spent p nb hp := by
    rw [hnone p] at hp
    cases hp

theorem clean_of_first (hr : s.heap.netbufs r = some nb) (hfirst : nb.pxFirst = r) :
    Clean s (.append p r) := by
  intro right l₁ l₂ hright hl q hq
  rw [hr, Option.some.injEq] at hright
  subst hright
  rw [hfirst] at hl
  cases l₁ with
  | nil => cases hq
  | cons x l₁ =>
    have hnodup := hl.nodup
    obtain ⟨hx, -⟩ := hl
    cases hx
    exact absurd (List.mem_append_right l₁ List.mem_cons_self) (List.nodup_cons.mp hnodup).1

/-! ### The loop -/

theorem Netbuf.left_self (hfreed : nb.xFreed = true) (hsz : nb.unSz = 0) (hbuf : nb.pxBuf = none) :
    nb.left nb.pxBufStart = nb := by
  cases nb
  simp_all [Netbuf.left]

theorem Heap.setNetbuf_same (hp : h.netbufs p = some nb) : h.setNetbuf p (some nb) = h := by
  rw [Heap.setNetbuf, ← hp, Function.update_eq_self]

/-- Freeing a netbuf again changes nothing while one behind it is in use. -/
theorem NbState.Traced.free_spent (ht : s.Traced pf) (hp : s.heap.netbufs p = some nb)
    (hfreed : nb.xFreed = true) (hl : NbLinks s.heap (some p) (p :: l) none) (hrl : r ∈ l)
    (hr : s.ledger.live r = true) : vNetBufFree pf s.heap p = .ok s.heap := by
  have hdead : ¬ s.ledger.live p = true := fun hlive => by
    rw [ht.inv.marks p nb hp, hlive] at hfreed
    cases hfreed
  have hrp : r ≠ p := by
    rintro rfl
    exact hdead hr
  have hs := ht.spent p nb hp hfreed
  obtain ⟨m, hm, hpm, -⟩ := hs.links
  obtain ⟨m₁, rfl⟩ := hm.rest hl hpm
  have hrm : r ∈ m₁ ++ p :: l := List.mem_append_right m₁ (List.mem_cons_of_mem p hrl)
  have hsame : s.heap.setNetbuf p (some (nb.left nb.pxBufStart)) = s.heap := by
    rw [Netbuf.left_self hfreed hs.unSz hs.pxBuf, Heap.setNetbuf_same hp]
  cases hstart : nb.pxBufStart with
  | none =>
    rw [hstart] at hsame
    rw [vNetBufFree_again pf ht.inv.fresh hp hstart hm hm.nodup hpm hrm hrp
      (ht.inv.inUse_iff.mpr hr), hsame]
  | some ptr =>
    obtain ⟨kept, fully, hkept, hfully, hcode⟩ :=
      vNetBufFree_spec pf ht.inv.fresh hp hstart hm hm.nodup hpm
    have hopen : ¬ fully = true := fun hall => by
      obtain ⟨nb', hnb', hlive⟩ := ht.inv.inUse_iff.mpr hr
      rw [hfully.mp hall r hrm hrp nb' hnb'] at hlive
      cases hlive
    have hheld : s.heap.held p = some ptr := (Heap.held_of_some hp).trans hstart
    rw [hcode, if_neg hopen]
    cases kept with
    | none =>
      obtain ⟨q, hqp, hq⟩ := hkept
      by_cases hqm : q ∈ m₁ ++ p :: l
      · exact absurd (ht.inv.sound.unique hheld hdead ((if_pos hqm).symm.trans hq)) hqp
      · cases (if_neg hqm).symm.trans hq
    | some b =>
      rw [hkept.1, ← hstart, hsame]

theorem freeAllLoop_cons {fuel : ℕ} (hp : h.netbufs p = some nb)
    (hfree : vNetBufFree pf h p = .ok h') :
    freeAllLoop pf h (fuel + 1) (some p) = freeAllLoop pf h' fuel nb.pxNext := by
  rw [freeAllLoop, Heap.netbuf_of_some hp, Exec.ok_bind, hfree, Exec.ok_bind]

/-- A loop which comes to a netbuf that was released with the chain reads it. -/
theorem freeAllLoop_released {h₁ : Heap} (fuel : ℕ) (hl : NbLinks h start l none)
    (hgone : ∀ x ∈ l, h₁.netbufs x = none) :
    (∃ h', freeAllLoop pf h₁ fuel start = .ok h' ∧ (pure h₁ : Exec Heap) = .ok h') ↔ l = [] := by
  cases l with
  | nil =>
    have hend : start = none := hl
    refine iff_of_true ⟨h₁, ?_, rfl⟩ rfl
    rw [hend, freeAllLoop]
  | cons x l =>
    obtain ⟨rfl, -⟩ := hl
    refine iff_of_false ?_ (List.cons_ne_nil x l)
    rintro ⟨h', hrun, -⟩
    cases fuel with
    | zero => cases hrun
    | succ fuel =>
      rw [freeAllLoop, Heap.netbuf, hgone x List.mem_cons_self] at hrun
      cases hrun

theorem last_inUse_iff (hin : h.InUse p) (hdead : ∀ x ∈ l, ¬ h.InUse x) :
    (∃ last, (p :: l).getLast? = some last ∧ h.InUse last) ↔ l = [] := by
  constructor
  · rintro ⟨last, hlast, hlive⟩
    rcases List.mem_cons.mp (List.mem_of_getLast? hlast) with rfl | hmem
    · by_contra hne
      obtain ⟨x, m, rfl⟩ := List.exists_cons_of_ne_nil hne
      exact hdead last (List.mem_of_getLast? hlast) hlive
    · exact absurd hlive (hdead last hmem)
  · rintro rfl
    exact ⟨p, rfl, hin⟩

/-- From a place of the chain on, in front of which all netbufs are freed. -/
theorem NbState.Traced.freeAllLoop_iff {fuel : ℕ} (ht : s.Traced pf)
    (hl : NbLinks s.heap start l none) (hsub : ∀ q ∈ l, s.ledger.chain q = some c)
    (hall : ∀ q, s.ledger.chain q = some c → s.ledger.live q = true → q ∈ l)
    (hopen : ¬ s.ledger.Over c) (hfuel : l.length ≤ fuel) :
    (∃ h', freeAllLoop pf s.heap fuel start = .ok h' ∧
        (l.filter fun q => s.heap.InUse q).foldlM (vNetBufFree pf) s.heap = .ok h') ↔
      ∃ last, l.getLast? = some last ∧ s.heap.InUse last := by
  induction l generalizing s start fuel with
  | nil =>
    obtain ⟨q, hqc, hq⟩ := Ledger.exists_live hopen
    cases hall q hqc hq
  | cons p l ih =>
    have hself := hl
    obtain ⟨rfl, nb, hp, hrest⟩ := hl
    obtain ⟨hpl, -⟩ := List.nodup_cons.mp hself.nodup
    obtain ⟨fuel, rfl⟩ := Nat.exists_eq_succ_of_ne_zero (Nat.ne_of_gt
      (Nat.lt_of_lt_of_le (Nat.succ_pos l.length) hfuel))
    have hpc := hsub p List.mem_cons_self
    have hmore : l ≠ [] → ((p :: l).getLast? = l.getLast?) := fun hne => by
      obtain ⟨x, m, rfl⟩ := List.exists_cons_of_ne_nil hne
      rfl
    by_cases hlive : s.ledger.live p = true
    · obtain ⟨h₁, hcode, -, hcases⟩ := ht.inv.free_cases hlive hpc
      have ht₁ := ht.free hlive hpc hcode
      have hin : s.heap.InUse p := ht.inv.inUse_iff.mpr hlive
      rw [freeAllLoop_cons hp hcode, List.filter_cons_of_pos (by simpa using hin), List.foldlM_cons,
        hcode, Exec.ok_bind]
      rcases hcases with ⟨hopen₁, nb₀, kept, hnb₀, rfl⟩ | ⟨hover, -⟩
      · have hsame : ∀ x, x ≠ p →
            (s.heap.setNetbuf p (some (nb₀.left kept))).netbufs x = s.heap.netbufs x :=
          fun x hx => Heap.setNetbuf_of_ne _ _ hx
        have hne : ∀ x ∈ l, x ≠ p := fun x hx heq => hpl (heq ▸ hx)
        have huse : ∀ x ∈ l, ((s.heap.setNetbuf p (some (nb₀.left kept))).InUse x ↔
            s.heap.InUse x) := fun x hx => by rw [Heap.InUse, Heap.InUse, hsame x (hne x hx)]
        have hall₁ : ∀ q, s.ledger.chain q = some c → (s.ledger.leave p).live q = true → q ∈ l :=
          fun q hqc hq => by
            obtain ⟨hqp, hq⟩ := (Ledger.leave_live _ p q).mp hq
            exact (List.mem_cons.mp (hall q hqc hq)).resolve_left hqp
        obtain ⟨x, hxc, hx⟩ := Ledger.exists_live hopen₁
        have hloop := ih ht₁ (hrest.congr fun x hx => by rw [hsame x (hne x hx)])
          (fun q hq => hsub q (List.mem_cons_of_mem p hq)) hall₁ hopen₁
          (Nat.le_of_succ_le_succ hfuel)
        rw [hmore (List.ne_nil_of_mem (hall₁ x hxc hx))]
        refine Iff.trans ?_ (hloop.trans (exists_congr fun last => and_congr_right fun hlast =>
          huse last (List.mem_of_getLast? hlast)))
        rw [List.filter_congr fun x hx => decide_eq_decide.mpr (huse x hx)]
      · have hgone : ∀ x ∈ l, h₁.netbufs x = none := fun x hx =>
          ht₁.inv.gone c hover x (hsub x (List.mem_cons_of_mem p hx))
        have hdead : ∀ x ∈ l, ¬ s.heap.InUse x := fun x hx hlive' => by
          have hx' := hover x (hsub x (List.mem_cons_of_mem p hx))
          rw [(Ledger.leave_live _ p x).mpr
            ⟨fun heq => hpl (heq ▸ hx), ht.inv.inUse_iff.mp hlive'⟩] at hx'
          cases hx'
        rw [List.filter_eq_nil_iff.mpr fun x hx => by simpa using hdead x hx, List.foldlM_nil,
          last_inUse_iff hin hdead]
        exact freeAllLoop_released fuel hrest hgone
    · have hfreed : nb.xFreed = true := by
        rw [ht.inv.marks p nb hp, eq_false_of_ne_true hlive]
        rfl
      have hnot : ¬ s.heap.InUse p := mt ht.inv.inUse_iff.mp hlive
      have hall₁ : ∀ q, s.ledger.chain q = some c → s.ledger.live q = true → q ∈ l :=
        fun q hqc hq => (List.mem_cons.mp (hall q hqc hq)).resolve_left fun heq => hlive (heq ▸ hq)
      obtain ⟨x, hxc, hx⟩ := Ledger.exists_live hopen
      have hxl := hall₁ x hxc hx
      rw [freeAllLoop_cons hp (ht.free_spent hp hfreed hself hxl hx),
        List.filter_cons_of_neg (by simpa using hnot), hmore (List.ne_nil_of_mem hxl)]
      exact ih ht hrest (fun q hq => hsub q (List.mem_cons_of_mem p hq)) hall₁ hopen
        (Nat.le_of_succ_le_succ hfuel)

/-- A call on a chain from which some netbufs were freed does what the frees of the others do if
and only if the last netbuf of the chain is in use. -/
theorem vNetBufFreeAll_frees_each_iff {h : Heap} (hf : h.Fresh) (hnone : ∀ p, h.netbufs p = none)
    {ops : List NbOp} (hg : GuardedSteps (NbState.act pf)
      (fun s op => Allowed pf s op ∧ Clean s op) ⟨h, .empty⟩ ops) :
    ∃ s, ops.foldlM (NbState.act pf) ⟨h, .empty⟩ = some s ∧
      ∀ p, s.ledger.live p = true → ∃ nb l, s.heap.netbufs p = some nb ∧
        NbLinks s.heap (some nb.pxFirst) l none ∧
        (∀ q, q ∈ l ↔ s.ledger.chain q = s.ledger.chain p) ∧
        (FreesEach pf s.heap p l ↔ ∃ last, l.getLast? = some last ∧ s.heap.InUse last) := by
  obtain ⟨s, hrun, ht⟩ := foldlM_returns (I := NbState.Traced pf)
    (fun s op ht hop => ht.act hop) (traced_empty hf hnone) hg
  refine ⟨s, hrun, fun p hp => ?_⟩
  obtain ⟨c, hc⟩ := ht.inv.entered p hp
  obtain ⟨nb, -, hnb, -, -⟩ := ht.inv.live_netbuf hp
  have hfirst : nb.pxFirst = c := ht.inv.first p nb c hnb hp hc
  obtain ⟨l, hl, hnodup, hmem⟩ := ht.inv.links p c hp hc
  refine ⟨nb, l, hnb, hfirst ▸ hl, by rwa [hc], ?_⟩
  have hloop := ht.freeAllLoop_iff hl (fun q hq => (hmem q).mp hq)
    (fun q hq _ => (hmem q).mpr hq) (Ledger.not_over hp hc) (ht.inv.fresh.length_le hl hnodup)
  rw [FreesEach, vNetBufFreeAll, Heap.netbuf_of_some hnb, Exec.ok_bind, hfirst]
  exact hloop

/-- Two netbufs in one chain, of which one is freed. -/
def partlyFreed (pxNb : NbPtr) : List NbOp :=
  [.new (some 0) .NB_RINA_DATA ⟨0, 0⟩ 4 (some .vNetBufFreeNormal),
    .new (some 0) .NB_RINA_DATA ⟨1, 0⟩ 4 (some .vNetBufFreeNormal), .append 2 3, .free pxNb]

theorem first_freed :
    ∃ s, (partlyFreed 2).foldlM (NbState.act ⟨false, false⟩) ⟨bufferHeap, .empty⟩ = some s ∧
      ∀ p, s.ledger.live p = true → ∃ nb l, s.heap.netbufs p = some nb ∧
        NbLinks s.heap (some nb.pxFirst) l none ∧
        (∀ q, q ∈ l ↔ s.ledger.chain q = s.ledger.chain p) ∧
        (FreesEach ⟨false, false⟩ s.heap p l ↔
          ∃ last, l.getLast? = some last ∧ s.heap.InUse last) :=
  vNetBufFreeAll_frees_each_iff bufferHeap_fresh (fun _ => rfl)
    ⟨⟨⟨rfl, rfl, rfl, rfl, fun _ => rfl, fun hm => nomatch hm⟩, trivial⟩,
      ⟨⟨rfl, rfl, rfl, rfl, fun _ => rfl, fun hm => nomatch hm⟩, trivial⟩,
      ⟨⟨rfl, rfl, fun hc => nomatch hc⟩, clean_of_first rfl rfl⟩, ⟨rfl, trivial⟩, trivial⟩

/-- With the last netbuf freed, a call on the first one reads it after its release. -/
theorem last_freed : ∃ s, (partlyFreed 3).foldlM (NbState.act ⟨false, false⟩)
      ⟨bufferHeap, .empty⟩ = some s ∧ s.ledger.live 2 = true ∧
    NbLinks s.heap (some 2) [2, 3] none ∧
    vNetBufFreeAll ⟨false, false⟩ s.heap 2 = .error .outOfBounds ∧
    ¬ FreesEach ⟨false, false⟩ s.heap 2 [2, 3] := by
  refine ⟨_, rfl, rfl, ⟨rfl, _, rfl, rfl, _, rfl, rfl⟩, rfl, ?_⟩
  rintro ⟨h', hrun, -⟩
  cases hrun

end RinaSense.Common
