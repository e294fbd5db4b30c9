import RinaSense.Flow.Allocator
import RinaSense.Library.Runs
import RinaSense.Library.Threads
import Mathlib.Algebra.BigOperators.Fin

/-!
# Concurrent readers and posters of one flow

The length test of `RINA_flow_read` is made outside any mutex, the removal is made
under the mutex of the API and the insertion of `xFlowAllocatorDuPost` under the mutex
of the flow allocator. Packets are numbered in the order in which their posts begin.
-/

namespace RinaSense.Flow.Concurrent

open Common.RsList Library.Runs Library.Threads

/-- Where a thread is in `RINA_flow_read` or in `xFlowAllocatorDuPost`. -/
inductive Phase
  | idle
  /-- The reader found a packet count other than zero. -/
  | passed
  | inRead
  /-- The reader holds the owner of the first item, null for an empty list. -/
  | took (owner : Option ℕ)
  | removed
  /-- The reader used the link of a null owner. -/
  | fault
  | inPost (packet : ℕ)
  | inserted
deriving DecidableEq, Repr

/-- Inside the section of `RINA_flow_read` which updates the list. -/
def Phase.reading : Phase → Bool
  | .inRead | .took _ | .removed => true
  | _ => false

/-- Inside the section of `xFlowAllocatorDuPost` which updates the list. -/
def Phase.posting : Phase → Bool
  | .inPost _ | .inserted => true
  | _ => false

/-- The packet which a reader counts on since its length test. -/
def Phase.claim : Phase → ℕ
  | .passed | .inRead | .took _ => 1
  | _ => 0

variable {N : ℕ}

/-- A flow with `N` threads, its waiting packets and the packets which reads removed. -/
structure State (N : ℕ) where
  phase : Fin N → Phase
  mux : Option (Fin N)
  xMux : Option (Fin N)
  xListWaitingPackets : List ℕ
  nextPacket : ℕ
  returned : List ℕ

def State.init (N : ℕ) : State N where
  phase := fun _ => .idle
  mux := none
  xMux := none
  xListWaitingPackets := []
  nextPacket := 0
  returned := []

def State.setPhase (s : State N) (t : Fin N) (ph : Phase) : State N :=
  { s with phase := Function.update s.phase t ph }

/-- The packets which readers past their length test still have to remove. -/
def State.claims (s : State N) : ℕ := ∑ t, (s.phase t).claim

inductive Act (N : ℕ)
  | test (t : Fin N)
  | enterRead (t : Fin N)
  | take (t : Fin N)
  | remove (t : Fin N)
  | leaveRead (t : Fin N)
  | enterPost (t : Fin N)
  | insert (t : Fin N)
  | leavePost (t : Fin N)
deriving DecidableEq, Repr

/-- A step of a thread, if the thread is at that place and the mutex is free. -/
def State.step (s : State N) : Act N → Option (State N)
  | .test t =>
    match s.phase t with
    | .idle =>
      if s.xListWaitingPackets.length = 0 then some s else some (s.setPhase t .passed)
    | _ => none
  | .enterRead t =>
    match s.phase t, s.mux with
    | .passed, none => some { s.setPhase t .inRead with mux := some t }
    | _, _ => none
  | .take t =>
    match s.phase t with
    | .inRead => some (s.setPhase t (.took s.xListWaitingPackets.head?))
    | _ => none
  | .remove t =>
    match s.phase t with
    | .took (some x) =>
      some { s.setPhase t .removed with
        xListWaitingPackets := s.xListWaitingPackets.erase x
        returned := s.returned ++ [x] }
    | .took none => some (s.setPhase t .fault)
    | _ => none
  | .leaveRead t =>
    match s.phase t with
    | .removed => some { s.setPhase t .idle with mux := none }
    | _ => none
  | .enterPost t =>
    match s.phase t, s.xMux with
    | .idle, none =>
      some { s.setPhase t (.inPost s.nextPacket) with
        xMux := some t
        nextPacket := s.nextPacket + 1 }
    | _, _ => none
  | .insert t =>
    match s.phase t with
    | .inPost x =>
      some { s.setPhase t .inserted with
        xListWaitingPackets := insertAfterFirst x s.xListWaitingPackets }
    | _ => none
  | .leavePost t =>
    match s.phase t with
    | .inserted => some { s.setPhase t .idle with xMux := none }
    | _ => none

/-- Readers and posters enter only while no thread of the other kind is inside, and a
reader passes its length test only when a packet is left for it. -/
def Undisturbed (s : State N) : Act N → Prop
  | .test _ => s.xListWaitingPackets.length = 0 ∨ s.claims < s.xListWaitingPackets.length
  | .enterRead _ => ∀ t, (s.phase t).posting = false
  | .enterPost _ => ∀ t, (s.phase t).reading = false
  | _ => True

instance (s : State N) : ∀ a, Decidable (Undisturbed s a)
  | .test _ => inferInstanceAs (Decidable (_ ∨ _))
  | .enterRead _ => inferInstanceAs (Decidable (∀ t, (s.phase t).posting = false))
  | .enterPost _ => inferInstanceAs (Decidable (∀ t, (s.phase t).reading = false))
  | .take _ | .remove _ | .leaveRead _ | .insert _ | .leavePost _ => .isTrue trivial

/-- No packet is returned twice, no owner is taken out of an empty list, and at most one
thread is inside the sections which update the list. -/
structure Safe (s : State N) : Prop where
  returnedOnce : s.returned.Nodup
  noEmptyTake : ∀ t, s.phase t ≠ .took none
  exclusive : ∀ t u, ((s.phase t).reading || (s.phase t).posting) = true →
    ((s.phase u).reading || (s.phase u).posting) = true → t = u

/-- The invariant of undisturbed runs. -/
structure Inv (s : State N) : Prop where
  reading : ∀ t, (s.phase t).reading = true → s.mux = some t
  posting : ∀ t, (s.phase t).posting = true → s.xMux = some t
  apart : ∀ t u, (s.phase t).reading = true → (s.phase u).posting = false
  claimed : s.claims ≤ s.xListWaitingPackets.length
  took : ∀ t o, s.phase t = .took o → o ≠ none ∧ s.xListWaitingPackets.head? = o
  nodup : (s.returned ++ s.xListWaitingPackets).Nodup
  begun : ∀ x ∈ s.returned ++ s.xListWaitingPackets, x < s.nextPacket
  fresh : ∀ t x, s.phase t = .inPost x →
    x < s.nextPacket ∧ x ∉ s.returned ++ s.xListWaitingPackets

theorem State.phase_setPhase (s : State N) (t u : Fin N) (ph : Phase) :
    (s.setPhase t ph).phase u = if u = t then ph else s.phase u := by
  simp [State.setPhase, Function.update_apply]

theorem State.claims_setPhase (s : State N) (t : Fin N) (ph : Phase) :
    (s.setPhase t ph).claims + (s.phase t).claim = s.claims + ph.claim :=
  tally_update Phase.claim s.phase t ph

theorem inv_init : Inv (State.init N) where
  reading := by simp [State.init, Phase.reading]
  posting := by simp [State.init, Phase.posting]
  apart := by simp [State.init, Phase.reading]
  claimed := by simp [State.init, State.claims, Phase.claim]
  took := by simp [State.init]
  nodup := by simp [State.init]
  begun := by simp [State.init]
  fresh := by simp [State.init]

theorem Inv.reading_unique {s : State N} (h : Inv s) {t u : Fin N}
    (ht : (s.phase t).reading = true) (hu : (s.phase u).reading = true) : t = u :=
  Option.some.inj ((h.reading t ht).symm.trans (h.reading u hu))

theorem Inv.posting_unique {s : State N} (h : Inv s) {t u : Fin N}
    (ht : (s.phase t).posting = true) (hu : (s.phase u).posting = true) : t = u :=
  Option.some.inj ((h.posting t ht).symm.trans (h.posting u hu))

theorem Inv.safe {s : State N} (h : Inv s) : Safe s where
  returnedOnce := (List.nodup_append.mp h.nodup).1
  noEmptyTake := fun t ht => (h.took t none ht).1 rfl
  exclusive := by
    intro t u ht hu
    rw [Bool.or_eq_true] at ht hu
    rcases ht with ht | ht
    · rcases hu with hu | hu
      · exact h.reading_unique ht hu
      · exact absurd hu (by simp [h.apart t u ht])
    · rcases hu with hu | hu
      · exact absurd ht (by simp [h.apart u t hu])
      · exact h.posting_unique ht hu

/-- A waiting packet is left for every reader past its length test. -/
theorem Inv.nonempty {s : State N} (h : Inv s) {t : Fin N} (ht : (s.phase t).claim = 1) :
    s.xListWaitingPackets ≠ [] := by
  intro hnil
  have hle : (s.phase t).claim ≤ s.claims := le_tally Phase.claim s.phase t
  have hclaimed := h.claimed
  rw [hnil, List.length_nil] at hclaimed
  rw [ht] at hle
  omega

theorem step_test {s s' : State N} {t : Fin N} (h : s.step (.test t) = some s') :
    s.phase t = .idle ∧ (s.xListWaitingPackets.length = 0 ∧ s' = s ∨
      s.xListWaitingPackets.length ≠ 0 ∧ s' = s.setPhase t .passed) := by
  cases hph : s.phase t <;> simp only [State.step, hph] at h <;> try cases h
  refine ⟨rfl, ?_⟩
  by_cases hlen : s.xListWaitingPackets.length = 0
  · rw [if_pos hlen] at h
    exact Or.inl ⟨hlen, (Option.some.inj h).symm⟩
  · rw [if_neg hlen] at h
    exact Or.inr ⟨hlen, (Option.some.inj h).symm⟩

theorem step_enterRead {s s' : State N} {t : Fin N} (h : s.step (.enterRead t) = some s') :
    s.phase t = .passed ∧ s.mux = none ∧
      s' = { s.setPhase t .inRead with mux := some t } := by
  cases hph : s.phase t <;> cases hm : s.mux <;> simp only [State.step, hph, hm] at h <;>
    try cases h
  exact ⟨rfl, rfl, rfl⟩

theorem step_take {s s' : State N} {t : Fin N} (h : s.step (.take t) = some s') :
    s.phase t = .inRead ∧ s' = s.setPhase t (.took s.xListWaitingPackets.head?) := by
  cases hph : s.phase t <;> simp only [State.step, hph] at h <;> try cases h
  exact ⟨rfl, rfl⟩

theorem step_remove {s s' : State N} {t : Fin N} (h : s.step (.remove t) = some s') :
    (∃ x, s.phase t = .took (some x) ∧ s' = { s.setPhase t .removed with
        xListWaitingPackets := s.xListWaitingPackets.erase x
        returned := s.returned ++ [x] }) ∨
      s.phase t = .took none ∧ s' = s.setPhase t .fault := by
  cases hph : s.phase t with
  | took o =>
    cases o with
    | none =>
      simp only [State.step, hph, Option.some.injEq] at h
      exact Or.inr ⟨rfl, h.symm⟩
    | some x =>
      simp only [State.step, hph, Option.some.injEq] at h
      exact Or.inl ⟨x, rfl, h.symm⟩
  | _ => simp [State.step, hph] at h

theorem step_leaveRead {s s' : State N} {t : Fin N} (h : s.step (.leaveRead t) = some s') :
    s.phase t = .removed ∧ s' = { s.setPhase t .idle with mux := none } := by
  cases hph : s.phase t <;> simp only [State.step, hph] at h <;> try cases h
  exact ⟨rfl, rfl⟩

theorem step_enterPost {s s' : State N} {t : Fin N} (h : s.step (.enterPost t) = some s') :
    s.phase t = .idle ∧ s.xMux = none ∧ s' = { s.setPhase t (.inPost s.nextPacket) with
      xMux := some t
      nextPacket := s.nextPacket + 1 } := by
  cases hph : s.phase t <;> cases hm : s.xMux <;> simp only [State.step, hph, hm] at h <;>
    try cases h
  exact ⟨rfl, rfl, rfl⟩

theorem step_insert {s s' : State N} {t : Fin N} (h : s.step (.insert t) = some s') :
    ∃ x, s.phase t = .inPost x ∧ s' = { s.setPhase t .inserted with
      xListWaitingPackets := insertAfterFirst x s.xListWaitingPackets } := by
  cases hph : s.phase t <;> simp only [State.step, hph] at h <;> try cases h
  exact ⟨_, rfl, rfl⟩

theorem step_leavePost {s s' : State N} {t : Fin N} (h : s.step (.leavePost t) = some s') :
    s.phase t = .inserted ∧ s' = { s.setPhase t .idle with xMux := none } := by
  cases hph : s.phase t <;> simp only [State.step, hph] at h <;> try cases h
  exact ⟨rfl, rfl⟩

/-- A thread which stays outside both sections only matters by its claim. -/
theorem Inv.outside {s : State N} (h : Inv s) {t : Fin N} {ph : Phase}
    (hph : ph = .idle ∨ ph = .passed)
    (hclaim : s.claims + ph.claim ≤ s.xListWaitingPackets.length + (s.phase t).claim) :
    Inv (s.setPhase t ph) where
  reading u hu := by
    rw [s.phase_setPhase] at hu
    split_ifs at hu with htu
    · rcases hph with rfl | rfl <;> cases hu
    · exact h.reading u hu
  posting u hu := by
    rw [s.phase_setPhase] at hu
    split_ifs at hu with htu
    · rcases hph with rfl | rfl <;> cases hu
    · exact h.posting u hu
  apart u v hu := by
    rw [s.phase_setPhase] at hu ⊢
    split_ifs at hu with htu
    · rcases hph with rfl | rfl <;> cases hu
    · split_ifs with htv
      · rcases hph with rfl | rfl <;> rfl
      · exact h.apart u v hu
  claimed := by
    have hsum := s.claims_setPhase t ph
    change (s.setPhase t ph).claims ≤ s.xListWaitingPackets.length
    omega
  took u o hu := by
    rw [s.phase_setPhase] at hu
    split_ifs at hu with htu
    · rcases hph with rfl | rfl <;> cases hu
    · exact h.took u o hu
  nodup := h.nodup
  begun := h.begun
  fresh u x hu := by
    rw [s.phase_setPhase] at hu
    split_ifs at hu with htu
    · rcases hph with rfl | rfl <;> cases hu
    · exact h.fresh u x hu

theorem Inv.test {s s' : State N} {t : Fin N} (h : Inv s) (hg : Undisturbed s (.test t))
    (hst : s.step (.test t) = some s') : Inv s' := by
  obtain ⟨hph, ⟨hlen, rfl⟩ | ⟨hlen, rfl⟩⟩ := step_test hst
  · exact h
  · refine h.outside (Or.inr rfl) ?_
    have hlt := hg.resolve_left hlen
    rw [hph]
    simp only [Phase.claim]
    omega

theorem Inv.enterRead {s s' : State N} {t : Fin N} (h : Inv s)
    (hg : Undisturbed s (.enterRead t)) (hst : s.step (.enterRead t) = some s') : Inv s' := by
  obtain ⟨hph, hmux, rfl⟩ := step_enterRead hst
  have hsum := s.claims_setPhase t .inRead
  simp only [hph, Phase.claim] at hsum
  constructor
  case reading =>
    intro u hu
    simp only [s.phase_setPhase] at hu
    split_ifs at hu with htu
    · rw [htu]
    · have := h.reading u hu
      rw [hmux] at this
      cases this
  case posting =>
    intro u hu
    simp only [s.phase_setPhase] at hu
    split_ifs at hu with htu
    · cases hu
    · exact h.posting u hu
  case apart =>
    intro u v hu
    simp only [s.phase_setPhase]
    split_ifs with htv
    · rfl
    · exact hg v
  case claimed =>
    have := h.claimed
    change (s.setPhase t .inRead).claims ≤ s.xListWaitingPackets.length
    omega
  case took =>
    intro u o hu
    simp only [s.phase_setPhase] at hu
    split_ifs at hu with htu
    exact h.took u o hu
  case nodup => exact h.nodup
  case begun => exact h.begun
  case fresh =>
    intro u x hu
    simp only [s.phase_setPhase] at hu
    split_ifs at hu with htu
    exact h.fresh u x hu

theorem Inv.take {s s' : State N} {t : Fin N} (h : Inv s)
    (hst : s.step (.take t) = some s') : Inv s' := by
  obtain ⟨hph, rfl⟩ := step_take hst
  have hne : s.xListWaitingPackets ≠ [] := h.nonempty (by rw [hph]; rfl)
  have hreading : (s.phase t).reading = true := by rw [hph]; rfl
  have hsum := s.claims_setPhase t (.took s.xListWaitingPackets.head?)
  simp only [hph, Phase.claim] at hsum
  constructor
  case reading =>
    intro u hu
    simp only [s.phase_setPhase] at hu
    split_ifs at hu with htu
    · rw [htu]
      exact h.reading t hreading
    · exact h.reading u hu
  case posting =>
    intro u hu
    simp only [s.phase_setPhase] at hu
    split_ifs at hu with htu
    · cases hu
    · exact h.posting u hu
  case apart =>
    intro u v hu
    simp only [s.phase_setPhase] at hu ⊢
    split_ifs with htv
    · rfl
    · exact h.apart t v hreading
  case claimed =>
    have := h.claimed
    change (s.setPhase t _).claims ≤ s.xListWaitingPackets.length
    omega
  case took =>
    intro u o hu
    simp only [s.phase_setPhase] at hu
    split_ifs at hu with htu
    · cases hu
      exact ⟨by simpa using hne, rfl⟩
    · exact h.took u o hu
  case nodup => exact h.nodup
  case begun => exact h.begun
  case fresh =>
    intro u x hu
    simp only [s.phase_setPhase] at hu
    split_ifs at hu with htu
    exact h.fresh u x hu

theorem Inv.remove {s s' : State N} {t : Fin N} (h : Inv s)
    (hst : s.step (.remove t) = some s') : Inv s' := by
  obtain ⟨x, hph, rfl⟩ | ⟨hph, -⟩ := step_remove hst
  · obtain ⟨rest, hrest⟩ : ∃ rest, s.xListWaitingPackets = x :: rest := by
      have hhead := (h.took t _ hph).2
      cases hl : s.xListWaitingPackets with
      | nil => simp [hl] at hhead
      | cons y ys =>
        rw [hl] at hhead
        cases hhead
        exact ⟨ys, rfl⟩
    have herase : s.xListWaitingPackets.erase x = rest := by simp [hrest]
    have hreading : (s.phase t).reading = true := by rw [hph]; rfl
    have hall : s.returned ++ [x] ++ rest = s.returned ++ s.xListWaitingPackets := by
      rw [hrest, List.append_assoc, List.singleton_append]
    have hsum := s.claims_setPhase t .removed
    simp only [hph, Phase.claim] at hsum
    constructor
    case reading =>
      intro u hu
      simp only [s.phase_setPhase] at hu
      split_ifs at hu with htu
      · rw [htu]
        exact h.reading t hreading
      · exact h.reading u hu
    case posting =>
      intro u hu
      simp only [s.phase_setPhase] at hu
      split_ifs at hu with htu
      · cases hu
      · exact h.posting u hu
    case apart =>
      intro u v hu
      simp only [s.phase_setPhase]
      split_ifs with htv
      · rfl
      · exact h.apart t v hreading
    case claimed =>
      have hclaimed := h.claimed
      rw [hrest, List.length_cons] at hclaimed
      change (s.setPhase t .removed).claims ≤ (s.xListWaitingPackets.erase x).length
      rw [herase]
      omega
    case took =>
      intro u o hu
      simp only [s.phase_setPhase] at hu
      split_ifs at hu with htu
      have huread : (s.phase u).reading = true := by rw [hu]; rfl
      exact absurd (h.reading_unique huread hreading) htu
    case nodup =>
      simp only [herase, hall]
      exact h.nodup
    case begun =>
      simp only [herase, hall]
      exact h.begun
    case fresh =>
      intro u y hu
      simp only [s.phase_setPhase] at hu
      split_ifs at hu with htu
      simp only [herase, hall]
      exact h.fresh u y hu
  · exact absurd rfl (h.took t none hph).1

theorem Inv.leaveRead {s s' : State N} {t : Fin N} (h : Inv s)
    (hst : s.step (.leaveRead t) = some s') : Inv s' := by
  obtain ⟨hph, rfl⟩ := step_leaveRead hst
  have hreading : (s.phase t).reading = true := by rw [hph]; rfl
  have hout : Inv (s.setPhase t .idle) := by
    refine h.outside (Or.inl rfl) ?_
    have := h.claimed
    simp only [hph, Phase.claim]
    omega
  refine ⟨?_, hout.posting, hout.apart, hout.claimed, hout.took, hout.nodup, hout.begun,
    hout.fresh⟩
  intro u hu
  simp only [s.phase_setPhase] at hu
  split_ifs at hu with htu
  · cases hu
  · exact absurd (h.reading_unique hu hreading) htu

theorem Inv.enterPost {s s' : State N} {t : Fin N} (h : Inv s)
    (hg : Undisturbed s (.enterPost t)) (hst : s.step (.enterPost t) = some s') : Inv s' := by
  obtain ⟨hph, hmux, rfl⟩ := step_enterPost hst
  have hsum := s.claims_setPhase t (.inPost s.nextPacket)
  simp only [hph, Phase.claim] at hsum
  constructor
  case reading =>
    intro u hu
    simp only [s.phase_setPhase] at hu
    split_ifs at hu with htu
    · cases hu
    · exact h.reading u hu
  case posting =>
    intro u hu
    simp only [s.phase_setPhase] at hu
    split_ifs at hu with htu
    · rw [htu]
    · have := h.posting u hu
      rw [hmux] at this
      cases this
  case apart =>
    intro u v hu
    simp only [s.phase_setPhase] at hu
    split_ifs at hu with htu
    · cases hu
    · rw [hg u] at hu
      cases hu
  case claimed =>
    have := h.claimed
    change (s.setPhase t _).claims ≤ s.xListWaitingPackets.length
    omega
  case took =>
    intro u o hu
    simp only [s.phase_setPhase] at hu
    split_ifs at hu with htu
    exact h.took u o hu
  case nodup => exact h.nodup
  case begun => exact fun x hx => Nat.lt_succ_of_lt (h.begun x hx)
  case fresh =>
    intro u x hu
    simp only [s.phase_setPhase] at hu
    split_ifs at hu with htu
    · cases hu
      exact ⟨Nat.lt_succ_self _, fun hmem => Nat.lt_irrefl _ (h.begun _ hmem)⟩
    · exact ⟨Nat.lt_succ_of_lt (h.fresh u x hu).1, (h.fresh u x hu).2⟩

theorem Inv.insert {s s' : State N} {t : Fin N} (h : Inv s)
    (hst : s.step (.insert t) = some s') : Inv s' := by
  obtain ⟨x, hph, rfl⟩ := step_insert hst
  have hposting : (s.phase t).posting = true := by rw [hph]; rfl
  have hperm : (s.returned ++ insertAfterFirst x s.xListWaitingPackets).Perm
      (x :: (s.returned ++ s.xListWaitingPackets)) :=
    ((insertAfterFirst_perm x s.xListWaitingPackets).append_left s.returned).trans
      List.perm_middle
  have hsum := s.claims_setPhase t .inserted
  simp only [hph, Phase.claim] at hsum
  constructor
  case reading =>
    intro u hu
    simp only [s.phase_setPhase] at hu
    split_ifs at hu with htu
    · cases hu
    · exact h.reading u hu
  case posting =>
    intro u hu
    simp only [s.phase_setPhase] at hu
    split_ifs at hu with htu
    · rw [htu]
      exact h.posting t hposting
    · exact h.posting u hu
  case apart =>
    intro u v hu
    simp only [s.phase_setPhase] at hu
    split_ifs at hu with htu
    · cases hu
    · have := h.apart u t hu
      rw [hposting] at this
      cases this
  case claimed =>
    have := h.claimed
    change (s.setPhase t .inserted).claims ≤
      (insertAfterFirst x s.xListWaitingPackets).length
    rw [insertAfterFirst_length]
    omega
  case took =>
    intro u o hu
    simp only [s.phase_setPhase] at hu
    split_ifs at hu with htu
    have := h.apart u t (by rw [hu]; rfl)
    rw [hposting] at this
    cases this
  case nodup =>
    exact hperm.nodup_iff.mpr (List.nodup_cons.mpr ⟨(h.fresh t x hph).2, h.nodup⟩)
  case begun =>
    intro y hy
    rcases List.mem_cons.mp (hperm.mem_iff.mp hy) with rfl | hy
    · exact (h.fresh t y hph).1
    · exact h.begun y hy
  case fresh =>
    intro u y hu
    simp only [s.phase_setPhase] at hu
    split_ifs at hu with htu
    have huposting : (s.phase u).posting = true := by rw [hu]; rfl
    exact absurd (h.posting_unique huposting hposting) htu

theorem Inv.leavePost {s s' : State N} {t : Fin N} (h : Inv s)
    (hst : s.step (.leavePost t) = some s') : Inv s' := by
  obtain ⟨hph, rfl⟩ := step_leavePost hst
  have hposting : (s.phase t).posting = true := by rw [hph]; rfl
  have hout : Inv (s.setPhase t .idle) := by
    refine h.outside (Or.inl rfl) ?_
    have := h.claimed
    simp only [hph, Phase.claim]
    omega
  refine ⟨hout.reading, ?_, hout.apart, hout.claimed, hout.took, hout.nodup, hout.begun,
    hout.fresh⟩
  intro u hu
  simp only [s.phase_setPhase] at hu
  split_ifs at hu with htu
  · cases hu
  · exact absurd (h.posting_unique hu hposting) htu

theorem Inv.step {s s' : State N} {a : Act N} (h : Inv s) (hg : Undisturbed s a)
    (hst : s.step a = some s') : Inv s' := by
  cases a with
  | test t => exact h.test hg hst
  | enterRead t => exact h.enterRead hg hst
  | take t => exact h.take hst
  | remove t => exact h.remove hst
  | leaveRead t => exact h.leaveRead hst
  | enterPost t => exact h.enterPost hg hst
  | insert t => exact h.insert hst
  | leavePost t => exact h.leavePost hst

/-- The state after a sequence of steps which are all enabled. -/
def State.run (s : State N) (acts : List (Act N)) : Option (State N) :=
  acts.foldlM State.step s

/-- Every state of an undisturbed run of any number of threads is safe. -/
theorem safe_of_undisturbed (acts : List (Act N)) {s : State N}
    (hg : GuardedSteps State.step Undisturbed (State.init N) acts)
    (hrun : (State.init N).run acts = some s) : Safe s :=
  (foldlM_invariant (fun _ _ _ hi hu hst => Inv.step hi hu hst) inv_init hg hrun).safe

/-- A packet posted by one thread and read by another before a third one posts. -/
theorem safe_post_read_post :
    ∃ s, (State.init 3).run [.enterPost 0, .insert 0, .leavePost 0, .test 1, .enterRead 1,
        .take 1, .remove 1, .leaveRead 1, .enterPost 2, .insert 2, .leavePost 2] = some s ∧
      Safe s :=
  ⟨_, rfl, safe_of_undisturbed [.enterPost 0, .insert 0, .leavePost 0, .test 1, .enterRead 1,
    .take 1, .remove 1, .leaveRead 1, .enterPost 2, .insert 2, .leavePost 2] (by decide) rfl⟩

/-- Two readers which both saw the only packet, of which the second takes from an empty
list, and a reader which enters while a poster is inside. -/
theorem unsafe_runs :
    (∃ s, (State.init 3).run [.enterPost 0, .insert 0, .leavePost 0, .test 1, .test 2,
        .enterRead 1, .take 1, .remove 1, .leaveRead 1, .enterRead 2, .take 2] = some s ∧
      s.phase 2 = .took none ∧ ¬ Safe s) ∧
    (∃ s, (State.init 3).run [.enterPost 0, .insert 0, .leavePost 0, .test 1, .enterPost 2,
        .enterRead 1] = some s ∧
      s.phase 1 = .inRead ∧ s.phase 2 = .inPost 1 ∧ ¬ Safe s) := by
  constructor
  · refine ⟨_, rfl, by decide, fun hsafe => hsafe.noEmptyTake 2 (by decide)⟩
  · refine ⟨_, rfl, by decide, by decide, fun hsafe => ?_⟩
    exact absurd (hsafe.exclusive 1 2 (by decide) (by decide)) (by decide)

end RinaSense.Flow.Concurrent
