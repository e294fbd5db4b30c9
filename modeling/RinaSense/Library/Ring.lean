import Mathlib.Data.List.Chain
import Mathlib.Logic.Function.Basic
import Mathlib.Tactic.Common

/-!
# Circular doubly linked lists

Nodes carry a nullable previous and a nullable next link. A ring is a head together
with the nodes met between it and its next occurrence. Linking a node in after
another and unlinking a node act on the list of nodes as insertion and deletion.
-/

namespace RinaSense.Library.Circular

variable {α : Type*} [DecidableEq α]

structure Links (α : Type*) where
  prev : α → Option α
  next : α → Option α

def Links.setNext (L : Links α) (a : α) (b : Option α) : Links α :=
  { L with next := Function.update L.next a b }

def Links.setPrev (L : Links α) (a : α) (b : Option α) : Links α :=
  { L with prev := Function.update L.prev a b }

/-- A node linked to itself on both sides. -/
def Links.initHead (L : Links α) (h : α) : Links α :=
  (L.setPrev h (some h)).setNext h (some h)

/-- Linking `x` in after `p`; undefined when `p` has no next node. -/
def Links.add (L : Links α) (p x : α) : Option (Links α) :=
  match L.next p with
  | none => none
  | some n =>
    some ((((L.setNext x (some n)).setPrev n (some x)).setNext p (some x)).setPrev x (some p))

/-- Unlinking a node, which is left with null links. -/
def Links.remove (L : Links α) (x : α) : Links α :=
  match L.next x, L.prev x with
  | some n, some p => (((L.setNext p (some n)).setPrev n (some p)).setPrev x none).setNext x none
  | _, _ => (L.setPrev x none).setNext x none

def Adj (L : Links α) (a b : α) : Prop := L.next a = some b ∧ L.prev b = some a

/-- The nodes `l` between two occurrences of the head `h`. -/
structure IsRing (L : Links α) (h : α) (l : List α) : Prop where
  nodup : (h :: l).Nodup
  chain : List.IsChain (Adj L) (h :: l ++ [h])

omit [DecidableEq α] in
theorem isChain_congr {L L' : Links α} {l : List α}
    (hnext : ∀ u ∈ l.dropLast, L'.next u = L.next u)
    (hprev : ∀ v ∈ l.tail, L'.prev v = L.prev v)
    (h : List.IsChain (Adj L) l) : List.IsChain (Adj L') l := by
  induction l with
  | nil => exact List.IsChain.nil
  | cons a l ih =>
    cases l with
    | nil => exact List.IsChain.singleton a
    | cons b l =>
      rw [List.isChain_cons_cons] at h ⊢
      refine ⟨⟨?_, ?_⟩, ih ?_ ?_ h.2⟩
      · rw [hnext a (by simp)]; exact h.1.1
      · rw [hprev b (by simp)]; exact h.1.2
      · intro u hu
        exact hnext u (by simp only [List.dropLast_cons_cons, List.mem_cons]; exact Or.inr hu)
      · intro v hv
        exact hprev v (by simpa using Or.inr hv)

theorem isRing_initHead (L : Links α) (h : α) : IsRing (L.initHead h) h [] where
  nodup := by simp
  chain := by simp [Adj, Links.initHead, Links.setNext, Links.setPrev]

omit [DecidableEq α] in
/-- The head of a nonempty ring is followed by its first node. -/
theorem IsRing.next_head {L : Links α} {h : α} {l : List α} (r : IsRing L h l) :
    L.next h = some (l.head?.getD h) := by
  have hc := r.chain
  cases l with
  | nil =>
    simp only [List.nil_append, List.cons_append, List.isChain_cons_cons] at hc
    exact hc.1.1
  | cons x l =>
    simp only [List.cons_append, List.isChain_cons_cons] at hc
    exact hc.1.1

omit [DecidableEq α] in
/-- The head of a nonempty ring is preceded by its last node. -/
theorem IsRing.prev_head {L : Links α} {h : α} {l : List α} (r : IsRing L h l) :
    L.prev h = some (l.getLast?.getD h) := by
  have hc := r.chain
  rw [List.isChain_append] at hc
  have hlast : (h :: l).getLast? = some (l.getLast?.getD h) := by
    rw [List.getLast?_cons]
  exact (hc.2.2 _ hlast h rfl).2

omit [DecidableEq α] in
/-- The links on both sides of the gap between `xs` and `ys` only depend on the
nodes away from the gap. -/
theorem segments_congr {L : Links α} (L' : Links α) {h p n x : α} {xs ys : List α}
    (hnd : (h :: (xs ++ ys)).Nodup) (hx : x ∉ h :: (xs ++ ys))
    (hp : (h :: xs).getLast? = some p) (hn : (ys ++ [h]).head? = some n)
    (hnext : ∀ u, u ≠ p → u ≠ x → L'.next u = L.next u)
    (hprev : ∀ v, v ≠ n → v ≠ x → L'.prev v = L.prev v)
    (hA : List.IsChain (Adj L) (h :: xs)) (hB : List.IsChain (Adj L) (ys ++ [h])) :
    List.IsChain (Adj L') (h :: xs) ∧ List.IsChain (Adj L') (ys ++ [h]) := by
  have hpmem : p ∈ h :: xs := List.mem_of_getLast? hp
  have hnmem : n ∈ ys ++ [h] := List.mem_of_head? hn
  have hpdrop : p ∉ (h :: xs).dropLast := by
    have hnd' : (h :: xs).Nodup := hnd.sublist (by simp)
    rw [← List.dropLast_append_getLast? p hp, List.nodup_append] at hnd'
    intro hmem
    exact hnd'.2.2 p hmem p (by simp) rfl
  have hntail : n ∉ (ys ++ [h]).tail := by
    cases ys with
    | nil => simp
    | cons y ys =>
      simp only [List.cons_append, List.head?_cons, Option.some.injEq] at hn
      subst hn
      simp only [List.nodup_cons, List.mem_append, List.mem_cons, List.nodup_append] at hnd
      simp only [List.cons_append, List.tail_cons, List.mem_append, List.mem_singleton]
      grind
  simp only [List.mem_cons, List.mem_append, not_or] at hx
  simp only [List.nodup_cons, List.mem_append, List.nodup_append, not_or] at hnd
  constructor
  · refine isChain_congr (fun u hu => hnext u ?_ ?_) (fun v hv => hprev v ?_ ?_) hA
    · exact fun hup => hpdrop (hup ▸ hu)
    · have := List.dropLast_subset _ hu
      grind
    · simp only [List.mem_append, List.mem_singleton] at hnmem
      simp only [List.tail_cons] at hv
      grind
    · simp only [List.tail_cons] at hv
      grind
  · refine isChain_congr (fun u hu => hnext u ?_ ?_) (fun v hv => hprev v ?_ ?_) hB
    · simp only [List.dropLast_concat] at hu
      grind
    · simp only [List.dropLast_concat] at hu
      grind
    · exact fun hvn => hntail (hvn ▸ hv)
    · have := List.mem_of_mem_tail hv
      grind

omit [DecidableEq α] in
private theorem isChain_cycle {R : α → α → Prop} {h x : α} {xs ys : List α} :
    List.IsChain R (h :: (xs ++ x :: ys) ++ [h]) ↔
      List.IsChain R (h :: xs) ∧ (∀ a ∈ (h :: xs).getLast?, R a x) ∧
        (∀ b ∈ (ys ++ [h]).head?, R x b) ∧ List.IsChain R (ys ++ [h]) := by
  have hcyc : h :: (xs ++ x :: ys) ++ [h] = (h :: xs) ++ (x :: (ys ++ [h])) := by simp
  have hcons : List.IsChain R (x :: (ys ++ [h])) ↔
      (∀ b ∈ (ys ++ [h]).head?, R x b) ∧ List.IsChain R (ys ++ [h]) := List.isChain_cons
  rw [hcyc, List.isChain_append, hcons]
  constructor
  · rintro ⟨hA, hB, hlink⟩
    exact ⟨hA, fun a ha => hlink a ha x rfl, hB⟩
  · rintro ⟨hA, hlink, hB⟩
    refine ⟨hA, hB, fun a ha b hb => ?_⟩
    cases hb
    exact hlink a ha

omit [DecidableEq α] in
private theorem exists_head (h : α) (ys : List α) : ∃ n, (ys ++ [h]).head? = some n := by
  cases ys <;> simp

/-- Linking a new node in behind the nodes `xs` inserts it there. -/
theorem IsRing.add {L : Links α} {h p x : α} (xs ys : List α) (r : IsRing L h (xs ++ ys))
    (hp : (h :: xs).getLast? = some p) (hx : x ∉ h :: (xs ++ ys)) :
    ∃ L', L.add p x = some L' ∧ IsRing L' h (xs ++ x :: ys) := by
  obtain ⟨n, hn⟩ := exists_head h ys
  obtain ⟨hA, hB, hpn⟩ : List.IsChain (Adj L) (h :: xs) ∧ List.IsChain (Adj L) (ys ++ [h]) ∧
      Adj L p n := by
    have hc := r.chain
    rw [← List.cons_append, List.append_assoc, List.isChain_append] at hc
    exact ⟨hc.1, hc.2.1, hc.2.2 p hp n hn⟩
  have hpmem : p ∈ h :: xs := List.mem_of_getLast? hp
  have hnmem : n ∈ ys ++ [h] := List.mem_of_head? hn
  have hxp : x ≠ p := by rintro rfl; grind
  have hxn : x ≠ n := by rintro rfl; grind
  let L' := (((L.setNext x (some n)).setPrev n (some x)).setNext p (some x)).setPrev x (some p)
  obtain ⟨hA', hB'⟩ := segments_congr L' r.nodup hx hp hn
    (fun u hup hux => by simp [L', Links.setNext, Links.setPrev, hup, hux])
    (fun v hvn hvx => by simp [L', Links.setNext, Links.setPrev, hvn, hvx]) hA hB
  refine ⟨L', by rw [Links.add, hpn.1], ?_, ?_⟩
  · have hperm : (h :: (xs ++ x :: ys)).Perm (x :: h :: (xs ++ ys)) :=
      (List.Perm.cons h List.perm_middle).trans (List.Perm.swap x h (xs ++ ys))
    exact hperm.nodup_iff.mpr (List.nodup_cons.mpr ⟨hx, r.nodup⟩)
  · refine isChain_cycle.mpr ⟨hA', fun a ha => ?_, fun b hb => ?_, hB'⟩
    · rw [hp] at ha
      cases ha
      simp [L', Adj, Links.setNext, Links.setPrev]
    · rw [hn] at hb
      cases hb
      simp [L', Adj, Links.setNext, Links.setPrev, hxp, hxn.symm]

/-- Unlinking a node deletes it from the ring. -/
theorem IsRing.remove {L : Links α} {h x : α} {xs ys : List α}
    (r : IsRing L h (xs ++ x :: ys)) : IsRing (L.remove x) h (xs ++ ys) := by
  obtain ⟨n, hn⟩ := exists_head h ys
  obtain ⟨p, hp⟩ : ∃ p, (h :: xs).getLast? = some p := ⟨_, List.getLast?_cons⟩
  obtain ⟨hA, hpx, hxn, hB⟩ := isChain_cycle.mp r.chain
  have hperm : (h :: (xs ++ x :: ys)).Perm (x :: h :: (xs ++ ys)) :=
    (List.Perm.cons h List.perm_middle).trans (List.Perm.swap x h (xs ++ ys))
  obtain ⟨hx, hnd⟩ := List.nodup_cons.mp (hperm.nodup_iff.mp r.nodup)
  have hpmem : p ∈ h :: xs := List.mem_of_getLast? hp
  have hnmem : n ∈ ys ++ [h] := List.mem_of_head? hn
  have hxp' : x ≠ p := by rintro rfl; grind
  have hxn' : x ≠ n := by rintro rfl; grind
  have hrem : L.remove x =
      (((L.setNext p (some n)).setPrev n (some p)).setPrev x none).setNext x none := by
    rw [Links.remove, (hxn n hn).1, (hpx p hp).2]
  obtain ⟨hA', hB'⟩ := segments_congr (L.remove x) hnd hx hp hn
    (fun u hup hux => by rw [hrem]; simp [Links.setNext, Links.setPrev, hup, hux])
    (fun v hvn hvx => by rw [hrem]; simp [Links.setNext, Links.setPrev, hvn, hvx]) hA hB
  refine ⟨hnd, ?_⟩
  rw [← List.cons_append, List.append_assoc, List.isChain_append]
  refine ⟨hA', hB', ?_⟩
  intro a ha b hb
  rw [hp] at ha
  rw [hn] at hb
  cases ha
  cases hb
  rw [hrem]
  simp [Adj, Links.setNext, Links.setPrev, hxp'.symm, hxn'.symm]

/-- Linking `x` in behind `p` writes to `x`, to `p` and to the node behind `p`. -/
theorem Links.add_frame {L L' : Links α} {p x a : α} (hadd : L.add p x = some L') (hx : a ≠ x) :
    (a ≠ p → L'.next a = L.next a) ∧ (L.next p ≠ some a → L'.prev a = L.prev a) := by
  rw [Links.add] at hadd
  cases hn : L.next p with
  | none => simp [hn] at hadd
  | some n =>
    simp only [hn, Option.some.injEq] at hadd
    subst hadd
    refine ⟨fun hp => ?_, fun hna => ?_⟩
    · simp [Links.setNext, Links.setPrev, hp, hx]
    · have hne : a ≠ n := fun h => hna (by rw [h])
      simp [Links.setNext, Links.setPrev, hne, hx]

/-- Unlinking `x` writes to `x` and to the nodes next to it. -/
theorem Links.remove_frame {L : Links α} {x a : α} (hx : a ≠ x) :
    (L.prev x ≠ some a → (L.remove x).next a = L.next a) ∧
      (L.next x ≠ some a → (L.remove x).prev a = L.prev a) := by
  rw [Links.remove]
  cases hn : L.next x with
  | none => simp [Links.setNext, Links.setPrev, hx]
  | some n =>
    cases hp : L.prev x with
    | none => simp [Links.setNext, Links.setPrev, hx]
    | some p =>
      refine ⟨fun hpa => ?_, fun hna => ?_⟩
      · have hne : a ≠ p := fun h => hpa (by rw [h])
        simp [Links.setNext, Links.setPrev, hne, hx]
      · have hne : a ≠ n := fun h => hna (by rw [h])
        simp [Links.setNext, Links.setPrev, hne, hx]

end RinaSense.Library.Circular
