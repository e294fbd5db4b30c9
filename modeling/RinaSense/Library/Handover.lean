import Mathlib.Tactic.Common

/-!
# Shared things which pass from holder to holder

Several holders may share a thing. One that leaves lets go of what it holds if somebody else
holds it too, and otherwise keeps it. Then nothing is ever lost, and once everybody has left
each thing has a single holder, who can dispose of it.
-/

namespace RinaSense.Library.Handover

variable {α β : Type*} {live live' : α → Prop} {held held' : α → Option β} {a n : α} {b : β}

/-- Who is still there holds something, and who shares a thing is still there. -/
structure Sound (live : α → Prop) (held : α → Option β) : Prop where
  holds : ∀ a, live a → ∃ b, held a = some b
  shares : ∀ a a' b, held a = some b → held a' = some b → a = a' ∨ live a ∧ live a'

/-- Once a holder has left, nobody else holds what it kept. -/
theorem Sound.unique (hs : Sound live held) (ha : held a = some b) (hleft : ¬ live a) {a' : α}
    (ha' : held a' = some b) : a' = a := by
  rcases hs.shares a a' b ha ha' with rfl | ⟨hlive, -⟩
  · rfl
  · exact absurd hlive hleft

theorem Sound.congr (hs : Sound live held) (hlive : ∀ a, live' a ↔ live a)
    (hheld : ∀ a, held' a = held a) : Sound live' held' := by
  obtain rfl : live' = live := funext fun a => propext (hlive a)
  obtain rfl : held' = held := funext hheld
  exact hs

/-- Holders which have left may lose what they kept. -/
theorem Sound.release (hs : Sound live held) (hlive : ∀ a, live a → held' a = held a)
    (hheld : ∀ a b, held' a = some b → held a = some b) : Sound live held' where
  holds a ha := by
    rw [hlive a ha]
    exact hs.holds a ha
  shares a a' b ha ha' := hs.shares a a' b (hheld a b ha) (hheld a' b ha')

/-- A new holder of something that nobody holds. -/
theorem Sound.enter (hs : Sound live held) (hnone : held n = none) (hfree : ∀ a, held a ≠ some b)
    (hlive : ∀ a, live' a ↔ a = n ∨ live a) (hself : held' n = some b)
    (hother : ∀ a, a ≠ n → held' a = held a) : Sound live' held' where
  holds a ha := by
    by_cases hn : a = n
    · exact ⟨b, hn ▸ hself⟩
    · rw [hother a hn]
      exact hs.holds a (((hlive a).mp ha).resolve_left hn)
  shares a a' c hc hc' := by
    by_cases hn : a = n
    · subst hn
      rw [hself] at hc
      cases hc
      by_cases hn' : a' = a
      · exact Or.inl hn'.symm
      · rw [hother a' hn'] at hc'
        exact absurd hc' (hfree a')
    · rw [hother a hn] at hc
      by_cases hn' : a' = n
      · subst hn'
        rw [hself] at hc'
        cases hc'
        exact absurd hc (hfree a)
      · rw [hother a' hn'] at hc'
        rcases hs.shares a a' c hc hc' with heq | ⟨hl, hl'⟩
        · exact Or.inl heq
        · exact Or.inr ⟨(hlive a).mpr (Or.inr hl), (hlive a').mpr (Or.inr hl')⟩

/-- Two groups of holders which share nothing with each other. -/
theorem Sound.union {live₁ : α → Prop} {held₁ : α → Option β} (hs : Sound live held)
    (hs₁ : Sound live₁ held₁) (hlive : ∀ a, live' a ↔ live a ∨ live₁ a)
    (hheld : ∀ a b, held' a = some b ↔ held a = some b ∨ held₁ a = some b)
    (hapart : ∀ a a' b, held a = some b → held₁ a' ≠ some b) : Sound live' held' where
  holds a ha := by
    rcases (hlive a).mp ha with h | h
    · obtain ⟨b, hb⟩ := hs.holds a h
      exact ⟨b, (hheld a b).mpr (Or.inl hb)⟩
    · obtain ⟨b, hb⟩ := hs₁.holds a h
      exact ⟨b, (hheld a b).mpr (Or.inr hb)⟩
  shares a a' b hb hb' := by
    rw [hlive, hlive]
    rcases (hheld a b).mp hb with hb | hb
    · rcases (hheld a' b).mp hb' with hb' | hb'
      · exact (hs.shares a a' b hb hb').imp_right fun h => ⟨Or.inl h.1, Or.inl h.2⟩
      · exact absurd hb' (hapart a a' b hb)
    · rcases (hheld a' b).mp hb' with hb' | hb'
      · exact absurd hb (hapart a' a b hb')
      · exact (hs₁.shares a a' b hb hb').imp_right fun h => ⟨Or.inr h.1, Or.inr h.2⟩

/-- A new holder of something that somebody who is there holds. -/
theorem Sound.share (hs : Sound live held) (ha : live a) (hab : held a = some b)
    (hnone : held n = none) (hlive : ∀ a, live' a ↔ a = n ∨ live a) (hself : held' n = some b)
    (hother : ∀ a, a ≠ n → held' a = held a) : Sound live' held' where
  holds a' ha' := by
    by_cases hn : a' = n
    · exact ⟨b, hn ▸ hself⟩
    · rw [hother a' hn]
      exact hs.holds a' (((hlive a').mp ha').resolve_left hn)
  shares x y c hx hy := by
    have hlives : ∀ z, z ≠ n → held' z = some b → live' z := by
      intro z hz hzb
      rw [hother z hz] at hzb
      rcases hs.shares z a b hzb hab with rfl | ⟨hl, -⟩
      · exact (hlive z).mpr (Or.inr ha)
      · exact (hlive z).mpr (Or.inr hl)
    have hn : live' n := (hlive n).mpr (Or.inl rfl)
    by_cases hxn : x = n
    · subst hxn
      rw [hself] at hx
      cases hx
      by_cases hyx : y = x
      · exact Or.inl hyx.symm
      · exact Or.inr ⟨hn, hlives y hyx hy⟩
    · by_cases hyn : y = n
      · subst hyn
        rw [hself] at hy
        cases hy
        exact Or.inr ⟨hlives x hxn hx, hn⟩
      · rw [hother x hxn] at hx
        rw [hother y hyn] at hy
        rcases hs.shares x y c hx hy with heq | ⟨hl, hl'⟩
        · exact Or.inl heq
        · exact Or.inr ⟨(hlive x).mpr (Or.inr hl), (hlive y).mpr (Or.inr hl')⟩

/-- What the holder `a` of `b` keeps when it leaves. -/
def Kept (held : α → Option β) (a : α) (b : β) : Option β → Prop
  | none => ∃ a', a' ≠ a ∧ held a' = some b
  | some c => c = b ∧ ∀ a', a' ≠ a → held a' ≠ some b

section Leave

variable (hs : Sound live held) (hab : held a = some b) (hlive : ∀ x, live' x ↔ x ≠ a ∧ live x)
  (hkept : Kept held a b (held' a)) (hother : ∀ x, x ≠ a → held' x = held x)

include hs hab hlive hkept hother in
theorem Sound.leave : Sound live' held' where
  holds x hx := by
    obtain ⟨hxa, hl⟩ := (hlive x).mp hx
    rw [hother x hxa]
    exact hs.holds x hl
  shares x y c hx hy := by
    -- What the one that leaves keeps is held by nobody else.
    have halone : ∀ z, z ≠ a → held' a = some c → held' z = some c → False := by
      intro z hz hac hzc
      rw [hac] at hkept
      rw [hother z hz] at hzc
      obtain ⟨rfl, hnobody⟩ := hkept
      exact hnobody z hz hzc
    by_cases hxa : x = a
    · subst hxa
      by_cases hyx : y = x
      · exact Or.inl hyx.symm
      · exact (halone y hyx hx hy).elim
    · by_cases hya : y = a
      · subst hya
        exact (halone x hxa hy hx).elim
      · rw [hother x hxa] at hx
        rw [hother y hya] at hy
        rcases hs.shares x y c hx hy with heq | ⟨hl, hl'⟩
        · exact Or.inl heq
        · exact Or.inr ⟨(hlive x).mpr ⟨hxa, hl⟩, (hlive y).mpr ⟨hya, hl'⟩⟩

include hab hkept hother in
/-- Nothing is lost. -/
theorem held_leave (c : β) : (∃ x, held' x = some c) ↔ ∃ x, held x = some c := by
  constructor
  · rintro ⟨x, hx⟩
    by_cases hxa : x = a
    · subst hxa
      rw [hx] at hkept
      exact ⟨x, hkept.1 ▸ hab⟩
    · exact ⟨x, hother x hxa ▸ hx⟩
  · rintro ⟨x, hx⟩
    by_cases hxa : x = a
    · subst hxa
      rw [hab] at hx
      cases hx
      cases hk : held' x with
      | none =>
        rw [hk] at hkept
        obtain ⟨y, hyx, hy⟩ := hkept
        exact ⟨y, (hother y hyx).trans hy⟩
      | some d =>
        rw [hk] at hkept
        exact ⟨x, hk.trans (congrArg some hkept.1)⟩
    · exact ⟨x, (hother x hxa).trans hx⟩

end Leave

end RinaSense.Library.Handover
