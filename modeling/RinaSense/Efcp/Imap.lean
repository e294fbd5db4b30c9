import RinaSense.Efcp.Connections

/-!
# The instance map

The instance map of an EFCP container as a finite map from CEP-ids to instances, under any
sequence of additions, removals and searches.
-/

namespace RinaSense.Efcp

open Common

/-- A call on the map. -/
inductive ImapOp
  | add (xCepId : CepId) (pxEfcp : EfcpPtr)
  | remove (xCepId : CepId)
  | find (xCepIdKey : CepId)
deriving DecidableEq, Repr

/-- The table after a call. -/
def imapStep (rows : List EfcpImapRow) : ImapOp → List EfcpImapRow
  | .add xCepId pxEfcp => (xEfcpImapAdd rows xCepId pxEfcp).2
  | .remove xCepId => (xEfcpImapRemove rows xCepId).2
  | .find xCepIdKey => markValid xCepIdKey rows

/-- What the map is to hold: the instances last added and not removed since, and the CEP-id
of the last addition. -/
structure FiniteMap where
  instances : CepId → Option EfcpPtr
  last : Option CepId

def FiniteMap.empty : FiniteMap := ⟨fun _ => none, none⟩

def FiniteMap.step (m : FiniteMap) : ImapOp → FiniteMap
  | .add xCepId pxEfcp =>
    ⟨Function.update m.instances xCepId (some pxEfcp), some xCepId⟩
  | .remove xCepId => { m with instances := Function.update m.instances xCepId none }
  | .find _ => m

/-- Every search finds what the map holds. -/
def Represents (rows : List EfcpImapRow) (m : FiniteMap) : Prop :=
  ∀ xCepIdKey, imapLookup rows xCepIdKey = m.instances xCepIdKey

/-- No instance is held but, perhaps, the one which was added last. -/
def FiniteMap.OnlyLast (m : FiniteMap) : Prop :=
  ∀ xCepId, (m.instances xCepId).isSome → m.last = some xCepId

/-- What the table holds of a map is in the first row: the instance which was added last,
unless it was removed. -/
def Tracks (rows : List EfcpImapRow) (m : FiniteMap) : Prop :=
  ∃ key top, Front rows key top ∧
    ∀ xCepId, (if xCepId = key then top else none) =
      if m.last = some xCepId then m.instances xCepId else none

variable {rows : List EfcpImapRow} {m : FiniteMap}

theorem tracks_create : Tracks xEfcpImapCreate .empty :=
  ⟨0, none, front_create, fun xCepId => by simp [FiniteMap.empty]⟩

theorem Tracks.lookup (h : Tracks rows m) (xCepIdKey : CepId) :
    imapLookup rows xCepIdKey =
      if m.last = some xCepIdKey then m.instances xCepIdKey else none := by
  rcases h with ⟨key, top, hfront, hsame⟩
  rw [hfront.lookup, hsame]

theorem Tracks.step (h : Tracks rows m) (op : ImapOp) :
    Tracks (imapStep rows op) (m.step op) := by
  rcases h with ⟨key, top, hfront, hsame⟩
  cases op with
  | add xCepId e =>
    rcases hfront.add xCepId e with ⟨rows', hadd, hfront'⟩
    refine ⟨xCepId, some e, by rwa [imapStep, hadd], fun k => ?_⟩
    by_cases hk : k = xCepId
    · simp [FiniteMap.step, hk]
    · simp [FiniteMap.step, hk, Ne.symm hk]
  | remove xCepId =>
    refine ⟨_, _, hfront.remove xCepId, fun k => ?_⟩
    have hk := hsame k
    by_cases hkey : xCepId = key
    · -- the row is cleared
      by_cases hkx : k = xCepId
      · simp [FiniteMap.step, hkey, hkx]
      · have hne : k ≠ key := fun he => hkx (he.trans hkey.symm)
        simp only [hne, if_false] at hk
        simp [FiniteMap.step, hkey, hne, ← hk]
    · -- the row is of another instance
      by_cases hkx : k = xCepId
      · simp [FiniteMap.step, hkey, hkx]
      · simpa [FiniteMap.step, hkey, hkx] using hk
  | find xCepIdKey => exact ⟨key, top, hfront.markValid xCepIdKey, hsame⟩

theorem Tracks.run (h : Tracks rows m) (ops : List ImapOp) :
    Tracks (ops.foldl imapStep rows) (ops.foldl FiniteMap.step m) := by
  induction ops generalizing rows m with
  | nil => exact h
  | cons op ops ih => exact ih (h.step op)

theorem Tracks.represents_iff (h : Tracks rows m) : Represents rows m ↔ m.OnlyLast := by
  simp only [Represents, FiniteMap.OnlyLast, h.lookup]
  refine forall_congr' fun xCepId => ?_
  by_cases hlast : m.last = some xCepId
  · simp [hlast]
  · cases m.instances xCepId <;> simp [hlast]

/-- After any sequence of additions, removals and searches on a new table every search finds
what was last added under its CEP-id and not removed since, if and only if nothing but the
last addition is there. -/
theorem represents_iff_onlyLast (ops : List ImapOp) :
    Represents (ops.foldl imapStep xEfcpImapCreate) (ops.foldl FiniteMap.step .empty) ↔
      (ops.foldl FiniteMap.step .empty).OnlyLast :=
  (tracks_create.run ops).represents_iff

/-- Of two instances the first is no longer found. -/
theorem first_instance_lost :
    let rows := [ImapOp.add 1 10, .add 2 20].foldl imapStep xEfcpImapCreate
    let m := [ImapOp.add 1 10, .add 2 20].foldl FiniteMap.step .empty
    m.instances 1 = some 10 ∧ imapLookup rows 1 = none ∧ ¬ Represents rows m :=
  ⟨rfl, rfl, fun h => absurd (h 1) (by decide)⟩

end RinaSense.Efcp
