import RinaSense.Queue.Accounting

/-!
# The places of a bounded queue

A receiver posts its place before its item is back in the pool, so a sender may take that
place and find the pool at its cap. The place which it took is then gone.
-/

namespace RinaSense.Queue

open Library.Runs Library.Threads

variable {α : Type} {n : ℕ} {params : RsQueueParams} {s s' : State α n} {a : Act α n}

/-- No send comes back for lack of memory, and every place is free, on the list or held by
a thread. -/
structure State.PlacesKept (params : RsQueueParams) (s : State α n) : Prop where
  allocated : ∀ t, (s.phase t).outOfMemory = false
  accounted : s.queue.xSemPlaces + s.queue.xQueueList.length + s.heldPlaces =
    params.unMaxItemCount

/-- When a sender asks the pool, fewer receivers are between the post of their place and the
release of their item than there are free places and senders about to ask. -/
def Spare (s : State α n) : Act α n → Prop
  | .run t =>
    match s.phase t with
    | .alloc _ _ =>
      tally Phase.freeing s.phase < s.queue.xSemPlaces + tally Phase.allocating s.phase
    | _ => True
  | _ => True

instance (s : State α n) : ∀ a, Decidable (Spare s a)
  | .call _ _ _ _ | .fail _ => .isTrue trivial
  | .run t =>
    match h : s.phase t with
    | .alloc _ _ =>
      decidable_of_iff (tally Phase.freeing s.phase <
        s.queue.xSemPlaces + tally Phase.allocating s.phase) (by simp [Spare, h])
    | .idle | .enter _ | .test _ | .wait _ _ _ | .asleep _ _ _ | .lock _ _ | .list _ _
    | .unlock _ _ | .post _ _ | .free _ _ | .leave _ _ | .returned _ _ =>
      .isTrue (by simp [Spare, h])

/-- The places are kept exactly as long as the pool has refused no send. -/
theorem placesKept_iff_refusals (h : Inv params s) (hb : params.bounded = true) :
    s.PlacesKept params ↔ s.refusals = 0 := by
  have hplaces := h.places hb
  constructor
  · intro hk
    have := hk.accounted
    omega
  · intro hzero
    refine ⟨fun t => ?_, by omega⟩
    by_contra ho
    have := h.refused t (by simpa using ho)
    omega

/-- While the places are kept the pool refuses a sender exactly when too many receivers
still have to release their items. -/
theorem refused_iff (h : Inv params s) (hb : params.bounded = true) (hzero : s.refusals = 0)
    (t : Fin n) : (s.phase t).refused s.queue = 0 ↔ Spare s (.run t) := by
  cases hp : s.phase t with
  | alloc nb x =>
    have hpool := h.pool
    have hplaces := h.places hb
    have hcap := h.uiMaxNumRes
    have hpos : 0 < params.unMaxItemCount := of_decide_eq_true (Bool.and_eq_true_iff.mp hb).2
    simp only [State.heldPool] at hpool
    simp only [State.heldPlaces] at hplaces
    simp only [Phase.refused, Spare, hp]
    cases hr : s.queue.xPool.pxRsrcAlloc with
    | some xPool =>
      have := (ItemPool.pxRsrcAlloc_eq_some.mp hr).1
      refine iff_of_true rfl ?_
      omega
    | none =>
      refine iff_of_false (by simp) fun hlt => ?_
      have hsome := ItemPool.pxRsrcAlloc_eq_some.mpr
        ⟨.inr (show s.queue.xPool.uiNumInUse < s.queue.xPool.uiMaxNumRes by omega), rfl⟩
      rw [hr] at hsome
      cases hsome
  | _ => exact iff_of_true rfl (by simp [Spare, hp])

theorem placesKept_step (h : Inv params s) (hb : params.bounded = true)
    (hk : s.PlacesKept params) (hst : s.step a = some s') :
    s'.PlacesKept params ↔ Spare s a := by
  have hzero := (placesKept_iff_refusals h hb).mp hk
  rw [placesKept_iff_refusals (h.step hst) hb]
  rcases step_cases hst with ⟨t, p, rfl, -, hrun⟩ | ⟨t, xMutex, q, p, rfl, -, -, rfl⟩
  · refine iff_of_true hzero ?_
    cases a with
    | run u => exact absurd rfl (hrun u)
    | _ => trivial
  · rw [← refused_iff h hb hzero t]
    change s.refusals + (s.phase t).refused s.queue = 0 ↔ _
    omega

/-- In every interleaving of senders and receivers the places are accounted for and no
sender which has a place is refused an item if and only if, whenever a sender asks the
pool, the receivers which still have to release an item are fewer than the places which
are free or for which an item is still to be asked. -/
theorem placesKept_iff (hblock : params.xBlock = true) (hN : 0 < params.unMaxItemCount)
    {q : RsQueue α} (hq : xRsQueueInit params = .ok q) {acts : List (Act α n)}
    (hrun : acts.foldlM State.step (State.init q n) = some s) :
    Throughout State.step (State.PlacesKept params) (State.init q n) acts ↔
      GuardedSteps State.step Spare (State.init q n) acts := by
  have hb : params.bounded = true := by simp [RsQueueParams.bounded, hblock, hN]
  have hinit : Inv params (State.init q n) := inv_init hq
  refine throughout_iff (fun _ _ _ h hst => Inv.step h hst)
    (fun _ _ _ h hk hst => placesKept_step h hb hk hst) hinit ?_ hrun
  exact (placesKept_iff_refusals hinit hb).mpr rfl

/-- Two items through a queue of one, the second sent when the first is released. -/
theorem placesKept_alternating :
    Throughout State.step (State.PlacesKept ⟨1, true⟩)
      (State.init ⟨[], ⟨1, 0⟩, 0, 1, ⟨1, true⟩⟩ 2)
      (Act.runs 0 (.send 7) 6 ++ Act.runs 1 .receive 6 ++ Act.runs 0 (.send 8) 6) :=
  (placesKept_iff rfl Nat.one_pos rfl rfl).mpr (by decide)

/-- A sender comes between the post and the release of a receiver. Its send fails, and when
the receiver is done the queue of one has no item, no place and no thread inside. -/
theorem place_lost :
    ∃ s, (Act.runs 0 (.send 7) 6 ++ Act.runs 1 .receive 5 ++ Act.runs 0 (.send 8) 2 ++
        [Act.run 1]).foldlM State.step (State.init ⟨[], ⟨1, 0⟩, 0, 1, ⟨1, true⟩⟩ 2) = some s ∧
      s.phase 0 = .returned .ERR_OOM none ∧ s.phase 1 = .returned .SUCCESS (some 7) ∧
      s.queue.xQueueList = [] ∧ s.queue.xSemPlaces = 0 ∧ ¬ s.PlacesKept ⟨1, true⟩ :=
  ⟨_, rfl, rfl, rfl, rfl, rfl, fun h => absurd (h.allocated 0) (by decide)⟩

end RinaSense.Queue
