import RinaSense.Library.Runs
import RinaSense.Shim.Arp826

/-!
# Address resolution between two shims

Two shims on one wire which ask for each other's applications. Frames on their way are
delivered in any order. A reply makes its receiver map its own address, the target of
the reply, so no run teaches a shim an address of the other one.
-/

namespace RinaSense.Shim

open Common Library.Memory Library.Filler Library.Runs

/-- An address under which an application can be registered. -/
structure AppAddress where
  gpa : GPA
  first : ∃ b bs, gpa.pucAddress = b :: bs ∧ b ≠ 0
  length_le : gpa.uxLength ≤ 255

/-- An application of a shim with the hardware address of the shim. -/
structure Registration where
  pa : AppAddress
  ha : GHA

structure ShimNode where
  regs : List Registration
  pxArp : ARP
  h : Heap
  /-- The pool of the netbufs in which frames arrive. -/
  xNbPool : PoolPtr

inductive Side
  | A
  | B
deriving DecidableEq, Repr

def Side.other : Side → Side
  | .A => .B
  | .B => .A

/-- Both shims and the frames on their way to each of them. -/
structure Net where
  node : Side → ShimNode
  inbox : Side → List ArpFrame

def Net.put (s : Net) (x : Side) (n : ShimNode) : Net :=
  { s with node := Function.update s.node x n }

def Net.send (s : Net) (x : Side) (frames : List ArpFrame) : Net :=
  { s with inbox := Function.update s.inbox x (s.inbox x ++ frames) }

def Net.take (s : Net) (x : Side) (i : ℕ) : Net :=
  { s with inbox := Function.update s.inbox x ((s.inbox x).eraseIdx i) }

/-- A shim asks for an address with one of its own as the source, or a frame arrives. -/
inductive ArpAct
  | request (x : Side) (i : ℕ) (target : AppAddress)
  | deliver (x : Side) (i : ℕ)

variable (pf : Platform)

def Net.exec (s : Net) : ArpAct → Exec Net
  | .request x i target =>
    match (s.node x).regs[i]? with
    | none => .ok s
    | some r => do
      let n := s.node x
      let (frame, h) ← xARPResolveGPA pf n.h n.pxArp target.gpa r.pa.gpa r.ha
      return (s.put x { n with h := h }).send x.other frame.toList
  | .deliver x i =>
    match (s.inbox x)[i]? with
    | none => .ok s
    | some frame => do
      let n := s.node x
      let (back, pxArp, h) ← handleEthernetArp pf n.h n.pxArp n.xNbPool frame
      return ((s.take x i).put x { n with pxArp := pxArp, h := h }).send x.other back.toList

/-- A step which ends in a trap ends the run. -/
def Net.step (s : Net) (a : ArpAct) : Option Net := (s.exec pf a).toOption

theorem AppAddress.key_ne (p : AppAddress) : p.gpa.key ≠ [] := by
  rcases p.first with ⟨b, bs, hp, hb⟩
  rw [GPA.key, hp]
  exact cut_ne_nil hb

theorem AppAddress.ne_nil (p : AppAddress) : p.gpa.pucAddress ≠ [] := by
  rcases p.first with ⟨b, bs, hp, -⟩
  rw [hp]
  exact List.cons_ne_nil b bs

def Registration.key (r : Registration) : Bytes := r.pa.gpa.key

/-- The row of an application. -/
def Registration.row (r : Registration) : ARPCacheRow :=
  .live ⟨strip 0 r.pa.gpa.pucAddress⟩ r.ha

theorem strip_ne_nil {xs : Bytes} (h : cut 0 xs ≠ []) : strip 0 xs ≠ [] := by
  intro hnil
  rw [← cut_strip, hnil] at h
  exact h rfl

theorem Registration.hasKey_row {regs : List Registration} {key : Bytes}
    (h : key ∈ regs.map Registration.key) : HasKey (regs.map Registration.row) key := by
  rcases List.mem_map.mp h with ⟨r, hr, rfl⟩
  exact ⟨⟨strip 0 r.pa.gpa.pucAddress⟩, r.ha, List.mem_map.mpr ⟨r, hr, rfl⟩, cut_strip 0 _,
    strip_ne_nil r.pa.key_ne⟩

/-- Registering an application appends its row to those which are there. -/
theorem xARPAddApplication_row {h h' : Heap} (hm : h.MemoryAvailable) {pxARP pxARP' : ARP}
    {regs : List Registration} {k : ℕ} {r : Registration} {hndl : Int}
    (hrows : pxARP.pxCache.pxRows = regs.map Registration.row ++ List.replicate (k + 1) .empty)
    (hadd : xARPAddApplication pf h pxARP r.pa.gpa r.ha = .ok (hndl, pxARP', h')) :
    pxARP'.pxCache.pxRows =
      (regs ++ [r]).map Registration.row ++ List.replicate k .empty := by
  rcases Exec.bind_eq_ok.mp hadd with ⟨⟨n, cache, h₁⟩, hcache, hret⟩
  cases hret
  have hfill : fillRow r.row pxARP.pxCache.pxRows =
      some (regs.map Registration.row ++ r.row :: List.replicate k .empty) := by
    have hvalid : ∀ q ∈ regs.map Registration.row, q.ucValid ≠ 0 := by
      intro q hq
      rcases List.mem_map.mp hq with ⟨r', -, rfl⟩
      exact (by decide : (1 : UInt8) ≠ 0)
    rw [hrows, fillRow_append_valid hvalid, List.replicate_succ]
    rfl
  have hrows' := (xARPCacheAdd_rows pf hm (strip_ne_nil r.pa.key_ne) hcache).2
  have hrow : ARPCacheRow.live ⟨strip 0 r.pa.gpa.pucAddress⟩ r.ha = r.row := rfl
  rw [hrow, hfill, Option.getD_some] at hrows'
  rw [hrows', List.map_append, List.map_singleton, List.append_assoc, List.singleton_append]

/-! ### The invariant -/

/-- A cache of a shim which registered `regs`. Behind the rows of the applications, every
row repeats the address of one of them. -/
structure ShimNode.Inv (regs : List Registration) (n : ShimNode) : Prop where
  regs_eq : n.regs = regs
  memory : ArpMemory n.pxArp n.h
  rows : ∃ rest, n.pxArp.pxCache.pxRows = regs.map Registration.row ++ rest ∧
    ∀ r ∈ rest, r = .empty ∨ ∃ pa ha, r = .live pa ha ∧ pa.pucAddress ≠ [] ∧
      pa.key ∈ regs.map Registration.key

/-- A frame on its way to a shim which registered `regs` from one which registered
`peerRegs`. A request has an address of its sender as the source, and a reply one of its
receiver as the target. -/
inductive FrameTo (regs peerRegs : List Registration) (f : ArpFrame) : Prop
  | request (sha tha : MACAddress) (spa tpa : Bytes)
      (harp : f.arp = arpPacket ARP_REQUEST sha spa tha tpa)
      (hlen : tpa.length = spa.length) (hmax : spa.length < 256) (htarget : cut 0 tpa ≠ [])
      (hsource : cut 0 spa ∈ peerRegs.map Registration.key)
  | reply (sha tha : MACAddress) (spa tpa : Bytes)
      (harp : f.arp = arpPacket ARP_REPLY sha spa tha tpa)
      (hlen : tpa.length = spa.length) (hmax : spa.length < 256)
      (htarget : cut 0 tpa ∈ regs.map Registration.key)

structure Net.Inv (regs : Side → List Registration) (s : Net) : Prop where
  node : ∀ x, (s.node x).Inv (regs x)
  inbox : ∀ x, ∀ f ∈ s.inbox x, FrameTo (regs x) (regs x.other) f

theorem key_ne_nil_of_mem {regs : List Registration} {key : Bytes}
    (h : key ∈ regs.map Registration.key) : key ≠ [] := by
  rcases List.mem_map.mp h with ⟨r, -, rfl⟩
  exact r.pa.key_ne

theorem ShimNode.Inv.complete {regs : List Registration} {n : ShimNode} (hn : n.Inv regs) :
    ∀ r ∈ n.pxArp.pxCache.pxRows, r.Complete := by
  rcases hn.rows with ⟨rest, hrows, hrest⟩
  intro r hr
  rw [hrows] at hr
  rcases List.mem_append.mp hr with hr | hr
  · rcases List.mem_map.mp hr with ⟨reg, -, rfl⟩
    exact ARPCacheRow.complete_live (strip_ne_nil reg.pa.key_ne) _
  · rcases hrest r hr with rfl | ⟨pa, ha, rfl, hpa, -⟩
    · exact ARPCacheRow.complete_empty
    · exact ARPCacheRow.complete_live hpa ha

/-- What a shim finds is what it registered. -/
theorem ShimNode.Inv.lookup {regs : List Registration} {n : ShimNode} (hn : n.Inv regs)
    (q : GPA) :
    lookupResult q n.pxArp.pxCache.pxRows = lookupResult q (regs.map Registration.row) := by
  rcases hn.rows with ⟨rest, hrows, hrest⟩
  rw [hrows]
  apply lookupResult_append
  intro r hr hage pa hpa
  rcases hrest r hr with rfl | ⟨pa', ha, rfl, -, hkey⟩
  · exact absurd rfl hage
  · cases hpa
    exact Registration.hasKey_row hkey

theorem Side.other_other (x : Side) : x.other.other = x := by
  cases x <;> rfl

/-- A frame put out by a shim is a frame to the other one. -/
theorem Net.Inv.send {regs : Side → List Registration} {s : Net} (hs : s.Inv regs) (x : Side)
    {frames : List ArpFrame} (hf : ∀ f ∈ frames, FrameTo (regs x) (regs x.other) f) :
    (s.send x frames).Inv regs where
  node := hs.node
  inbox y f hy := by
    by_cases hyx : y = x
    · subst hyx
      simp only [Net.send, Function.update_self, List.mem_append] at hy
      exact hy.elim (hs.inbox y f) (hf f)
    · simp only [Net.send, ne_eq, hyx, not_false_eq_true, Function.update_of_ne] at hy
      exact hs.inbox y f hy

theorem Net.Inv.put {regs : Side → List Registration} {s : Net} (hs : s.Inv regs) (x : Side)
    {n : ShimNode} (hn : n.Inv (regs x)) : (s.put x n).Inv regs where
  node y := by
    by_cases hyx : y = x
    · subst hyx
      simpa [Net.put] using hn
    · simpa [Net.put, hyx] using hs.node y
  inbox := hs.inbox

theorem Net.Inv.take {regs : Side → List Registration} {s : Net} (hs : s.Inv regs) (x : Side)
    (i : ℕ) : (s.take x i).Inv regs where
  node := hs.node
  inbox y f hy := by
    by_cases hyx : y = x
    · subst hyx
      simp only [Net.take, Function.update_self] at hy
      exact hs.inbox y f (List.mem_of_mem_eraseIdx hy)
    · simp only [Net.take, ne_eq, hyx, not_false_eq_true, Function.update_of_ne] at hy
      exact hs.inbox y f hy

/-- The heap of a shim may change as long as its supply does not. -/
theorem ShimNode.Inv.withHeap {regs : List Registration} {n : ShimNode} (hn : n.Inv regs)
    {h : Heap} (hs : n.h.SameSupply h) : ({ n with h := h } : ShimNode).Inv regs where
  regs_eq := hn.regs_eq
  memory := hn.memory.sameSupply hs
  rows := hn.rows

/-! ### Runs -/

/-- The frame of a request asks for the target on behalf of the registration. -/
theorem requestFrame_to {regs peerRegs : List Registration} {r : Registration}
    (hr : r ∈ peerRegs) (target : AppAddress) (h : Heap)
    (hfit : target.gpa.uxLength ≤ r.pa.gpa.uxLength) :
    FrameTo regs peerRegs (requestFrame pf h r.pa.gpa target.gpa r.ha) := by
  have htarget : cut 0 (target.gpa.pucAddress ++ requestTail pf h r.pa.gpa target.gpa) ≠ [] := by
    rcases target.first with ⟨b, bs, hp, hb⟩
    rw [hp, List.cons_append]
    exact cut_ne_nil hb
  exact .request r.ha.xAddress xBroadcastHa.xAddress r.pa.gpa.pucAddress _ rfl
    (requestTail_length pf hfit) (Nat.lt_succ_of_le r.pa.length_le) htarget
    (List.mem_map.mpr ⟨r, hr, rfl⟩)

/-- The answer to a request goes to the application which asked. -/
theorem replyFrame_to {regs peerRegs : List Registration} (eth : EthernetHeader)
    {spa tpa : Bytes} (m : GHA) (hlen : tpa.length = spa.length) (hmax : spa.length < 256)
    (hsource : cut 0 spa ∈ regs.map Registration.key) :
    FrameTo regs peerRegs (replyFrame eth spa tpa m) := by
  have htpa : (cut 0 tpa).length ≤ spa.length := hlen ▸ cut_length_le 0 tpa
  have hpadT := pad_length (f := (0 : UInt8)) htpa
  have hpadS := pad_length (f := (0 : UInt8)) (cut_length_le 0 spa)
  refine .reply m.xAddress eth.xSourceAddress (pad 0 spa.length (cut 0 tpa))
    (pad 0 spa.length (cut 0 spa)) rfl ?_ ?_ ?_
  · rw [hpadS, hpadT]
  · rw [hpadT]
    exact hmax
  · rw [cut_pad, cut_cut]
    exact hsource

theorem Net.Inv.request {regs : Side → List Registration} {s s' : Net} (hs : s.Inv regs)
    {x : Side} {i : ℕ} {target : AppAddress}
    (hexec : s.exec pf (.request x i target) = .ok s') : s'.Inv regs := by
  unfold Net.exec at hexec
  cases hr : (s.node x).regs[i]? with
  | none =>
    simp only [hr] at hexec
    cases hexec
    exact hs
  | some r =>
    simp only [hr] at hexec
    have hn := hs.node x
    have hmem : r ∈ regs x.other.other := by
      rw [Side.other_other, ← hn.regs_eq]
      exact List.mem_of_getElem? hr
    have hok : (!xIsGPAOK target.gpa || !xIsGHAOK r.ha || !xIsGPAOK r.pa.gpa) = false := by
      simp [(xIsGPAOK_iff _).mpr target.ne_nil, (xIsGPAOK_iff _).mpr r.pa.ne_nil, xIsGHAOK_all]
    rw [xARPResolveGPA, hok] at hexec
    by_cases hfit : target.gpa.uxLength ≤ r.pa.gpa.uxLength
    · rcases vARPSendRequest_fits pf hn.memory r.ha r.pa.ne_nil target.ne_nil hfit with
        ⟨h', hsend, hsupply⟩
      simp only [hsend, Bool.false_eq_true, if_false, Exec.ok_bind] at hexec
      cases hexec
      apply (hs.put x (hn.withHeap hsupply)).send
      intro f hf
      cases List.mem_singleton.mp hf
      exact requestFrame_to pf hmem target _ hfit
    · simp only [vARPSendRequest_overflow pf hn.memory r.ha r.pa.ne_nil target.ne_nil hfit,
        Bool.false_eq_true, if_false, Exec.error_bind] at hexec
      cases hexec

/-- A new row for an address of the shim itself keeps the invariant. -/
theorem ShimNode.Inv.add {regs : List Registration} {n : ShimNode} (hn : n.Inv regs)
    {pa : GPA} {ha : GHA} {r : Int} {cache : ARPCache} {k : ℕ} {h' : Heap}
    (hpa : pa.key ∈ regs.map Registration.key)
    (hadd : xARPCacheAdd pf (n.h.afterCalls k) n.pxArp.pxCache pa ha = .ok (r, cache, h')) :
    ({ n with pxArp := { n.pxArp with pxCache := cache }, h := h' } : ShimNode).Inv regs := by
  have hstrip := strip_ne_nil (key_ne_nil_of_mem hpa)
  rcases xARPCacheAdd_rows pf (hn.memory.available.afterCalls k) hstrip hadd with
    ⟨⟨k', rfl⟩, hcache⟩
  have hsupply := (n.h.sameSupply_afterCalls k).trans ((n.h.afterCalls k).sameSupply_afterCalls k')
  have hmem := hn.memory.sameSupply hsupply
  refine ⟨hn.regs_eq, ⟨hmem.available, hmem.arpPool, hmem.ethPool⟩, ?_⟩
  rcases hn.rows with ⟨rest, hrows, hrest⟩
  have hvalid : ∀ q ∈ regs.map Registration.row, q.ucValid ≠ 0 := by
    intro q hq
    rcases List.mem_map.mp hq with ⟨r', -, rfl⟩
    exact (by decide : (1 : UInt8) ≠ 0)
  rw [hrows, fillRow_append_valid hvalid] at hcache
  cases hfill : fillRow (.live ⟨strip 0 pa.pucAddress⟩ ha) rest with
  | none =>
    rw [hfill, Option.map_none, Option.getD_none] at hcache
    exact ⟨rest, hcache, hrest⟩
  | some rest' =>
    rw [hfill, Option.map_some, Option.getD_some] at hcache
    refine ⟨rest', hcache, ?_⟩
    intro q hq
    rcases mem_fillRow hfill hq with rfl | hq
    · refine Or.inr ⟨_, ha, rfl, hstrip, ?_⟩
      rw [GPA.key, cut_strip]
      exact hpa
    · exact hrest q hq

theorem Net.Inv.deliver {regs : Side → List Registration} {s s' : Net} (hs : s.Inv regs)
    {x : Side} {i : ℕ} (hexec : s.exec pf (.deliver x i) = .ok s') : s'.Inv regs := by
  unfold Net.exec at hexec
  cases hf : (s.inbox x)[i]? with
  | none =>
    simp only [hf] at hexec
    cases hexec
    exact hs
  | some f =>
    simp only [hf] at hexec
    have hn := hs.node x
    have hmem := hn.memory
    cases hs.inbox x f (List.mem_of_getElem? hf) with
    | request sha tha spa tpa harp hlen hmax htarget hsource =>
      have hspa : spa ≠ [] := by
        intro hnil
        rw [hnil] at hsource
        exact key_ne_nil_of_mem hsource rfl
      rcases handleEthernetArp_request pf (s.node x).xNbPool hmem hn.complete harp hspa hlen hmax
        htarget with ⟨h', hhandle, hsupply⟩
      simp only [hhandle, Exec.ok_bind] at hexec
      cases hexec
      apply ((hs.take x i).put x (hn.withHeap hsupply)).send
      intro g hg
      rcases Option.map_eq_some_iff.mp (Option.mem_toList.mp hg) with ⟨m, -, rfl⟩
      exact replyFrame_to f.eth m hlen hmax hsource
    | reply sha tha spa tpa harp hlen hmax htarget =>
      have hspa : spa ≠ [] := by
        intro hnil
        rw [hnil, List.length_nil] at hlen
        rw [List.length_eq_zero_iff.mp hlen] at htarget
        exact key_ne_nil_of_mem htarget rfl
      rcases handleEthernetArp_reply pf (s.node x).xNbPool (s.node x).pxArp
        hmem.available harp hspa hlen hmax with ⟨k, hhandle⟩
      rw [hhandle] at hexec
      rcases Exec.bind_eq_ok.mp hexec with ⟨⟨back, arp, h'⟩, hadd, hret⟩
      rcases Exec.bind_eq_ok.mp hadd with ⟨⟨r, cache, h''⟩, hcache, hback⟩
      cases hback
      cases hret
      have hkey : (GPA.mk (cut 0 tpa)).key ∈ (regs x).map Registration.key := by
        rw [GPA.key, cut_cut]
        exact htarget
      apply ((hs.take x i).put x (hn.add pf hkey hcache)).send
      simp

/-- Every step keeps the invariant. -/
theorem Net.Inv.exec {regs : Side → List Registration} {s s' : Net} (hs : s.Inv regs)
    (a : ArpAct) (hexec : s.exec pf a = .ok s') : s'.Inv regs := by
  cases a with
  | request x i target => exact hs.request pf hexec
  | deliver x i => exact hs.deliver pf hexec

theorem Net.step_eq_some {s s' : Net} {a : ArpAct} :
    s.step pf a = some s' ↔ s.exec pf a = .ok s' := by
  cases h : s.exec pf a <;> simp [Net.step, h, Except.toOption]

/-- Every run keeps the invariant. -/
theorem Net.Inv.run {regs : Side → List Registration} {s s' : Net} (hs : s.Inv regs)
    {acts : List ArpAct} (hrun : acts.foldlM (Net.step pf) s = some s') : s'.Inv regs :=
  foldlM_preserves (fun _ a _ hi hst => hi.exec pf a ((Net.step_eq_some pf).mp hst)) hs hrun

/-- A shim whose cache holds its own applications and nothing else. -/
structure ShimNode.Fresh (n : ShimNode) : Prop where
  memory : ArpMemory n.pxArp n.h
  rows : ∃ k, n.pxArp.pxCache.pxRows =
    n.regs.map Registration.row ++ List.replicate k .empty

/-- Two fresh shims and an empty wire. -/
structure Net.Fresh (s : Net) : Prop where
  node : ∀ x, (s.node x).Fresh
  inbox : ∀ x, s.inbox x = []

theorem Net.Fresh.inv {s : Net} (hs : s.Fresh) : s.Inv fun x => (s.node x).regs where
  node x := by
    rcases (hs.node x).rows with ⟨k, hrows⟩
    refine ⟨rfl, (hs.node x).memory, _, hrows, ?_⟩
    intro r hr
    exact Or.inl (List.eq_of_mem_replicate hr)
  inbox x f hf := by
    rw [hs.inbox x] at hf
    cases hf

/-- A lookup of `q` in the cache of the shim finds the hardware address `m`. -/
def ShimNode.Maps (n : ShimNode) (q : GPA) (m : GHA) : Prop :=
  ∃ h, eARPCacheLookupGPA pf n.h n.pxArp.pxCache q = .ok (.eARPCacheHit, some m, h)

theorem ShimNode.Inv.maps_iff {regs : List Registration} {n : ShimNode} (hn : n.Inv regs)
    (q : GPA) (m : GHA) :
    n.Maps pf q m ↔ lookupResult q (regs.map Registration.row) = some m := by
  rcases eARPCacheLookupGPA_available pf hn.complete q hn.memory.available with ⟨k, hlookup⟩
  rw [ShimNode.Maps, hlookup, hn.lookup q]
  constructor
  · rintro ⟨h, heq⟩
    cases hres : lookupResult q (regs.map Registration.row) with
    | none =>
      rw [hres] at heq
      cases heq
    | some m' =>
      rw [hres] at heq
      cases heq
      rfl
  · intro hres
    exact ⟨_, by rw [hres]; rfl⟩

/-- No run changes what a shim finds. -/
theorem Net.Fresh.maps_iff {s s' : Net} (hs : s.Fresh) {acts : List ArpAct}
    (hrun : acts.foldlM (Net.step pf) s = some s') (x : Side) (q : GPA) (m : GHA) :
    (s'.node x).Maps pf q m ↔ (s.node x).Maps pf q m :=
  (((hs.inv.run pf hrun).node x).maps_iff pf q m).trans ((hs.inv.node x).maps_iff pf q m).symm

/-- The application `p` of `B` is resolved at `A`, and `B` has learnt nothing wrong about
the application `r` of `A` on the way from `s` to `s'`. -/
structure Resolved (s s' : Net) (p r : Registration) : Prop where
  target : (s'.node .A).Maps pf p.pa.gpa p.ha
  source : ∀ g, (s'.node .B).Maps pf r.pa.gpa g → (s.node .B).Maps pf r.pa.gpa g ∨ g = r.ha

/-- After any run, requests and their replies included, an application of `B` is resolved
at `A` exactly when `A` found its hardware address before. -/
theorem resolved_iff {s s' : Net} (hs : s.Fresh) {acts : List ArpAct}
    (hrun : acts.foldlM (Net.step pf) s = some s') {p r : Registration} :
    Resolved pf s s' p r ↔ (s.node .A).Maps pf p.pa.gpa p.ha := by
  constructor
  · intro hres
    exact (hs.maps_iff pf hrun .A _ _).mp hres.target
  · intro hmaps
    exact ⟨(hs.maps_iff pf hrun .A _ _).mpr hmaps,
      fun g hg => Or.inl ((hs.maps_iff pf hrun .B _ _).mp hg)⟩

/-! ### One exchange -/

def exampleRegistration : Side → Registration
  | .A => ⟨⟨⟨[65]⟩, ⟨65, [], rfl, by decide⟩, by decide⟩, ⟨.MAC_ADDR_802_3, exampleMac 1⟩⟩
  | .B => ⟨⟨⟨[66]⟩, ⟨66, [], rfl, by decide⟩, by decide⟩, ⟨.MAC_ADDR_802_3, exampleMac 2⟩⟩

/-- Two shims with one application each. -/
def exampleNet : Net where
  node x :=
    { regs := [exampleRegistration x]
      pxArp := exampleArp [(exampleRegistration x).row, .empty, .empty, .empty]
      h := exampleArpHeap
      xNbPool := 0 }
  inbox _ := []

theorem exampleNet_fresh : exampleNet.Fresh where
  node _ := ⟨exampleArpHeap_memory _, 3, rfl⟩
  inbox _ := rfl

/-- `A` asks for the application of `B`, `B` answers, and the answer arrives. -/
def exampleExchange : List ArpAct :=
  [.request .A 0 (exampleRegistration .B).pa, .deliver .B 0, .deliver .A 0]

/-- After the exchange `A` still finds its own application. -/
theorem resolved_own : ∃ s, exampleExchange.foldlM (Net.step ⟨false, false⟩) exampleNet = some s ∧
    Resolved ⟨false, false⟩ exampleNet s (exampleRegistration .A) (exampleRegistration .B) := by
  have hrun : ∃ s, exampleExchange.foldlM (Net.step ⟨false, false⟩) exampleNet = some s :=
    ⟨_, rfl⟩
  rcases hrun with ⟨s, hrun⟩
  exact ⟨s, hrun, (resolved_iff ⟨false, false⟩ exampleNet_fresh hrun).mpr ⟨_, rfl⟩⟩

/-- The request of `A` reaches `B` and the reply of `B` reaches `A`, which then still does
not know the application of `B`. -/
theorem exchange_unresolved : ∃ s₁ s₂ s₃,
    exampleNet.step ⟨false, false⟩ (.request .A 0 (exampleRegistration .B).pa) = some s₁ ∧
    (s₁.inbox .B).length = 1 ∧ s₁.step ⟨false, false⟩ (.deliver .B 0) = some s₂ ∧
    (s₂.inbox .A).length = 1 ∧ s₂.step ⟨false, false⟩ (.deliver .A 0) = some s₃ ∧
    s₃.inbox .A = [] ∧ ¬ Resolved ⟨false, false⟩ exampleNet s₃ (exampleRegistration .B)
      (exampleRegistration .A) := by
  refine ⟨_, _, _, rfl, rfl, rfl, rfl, rfl, rfl, ?_⟩
  rintro ⟨⟨h, hmaps⟩, -⟩
  cases hmaps

end RinaSense.Shim
