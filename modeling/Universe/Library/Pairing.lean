import Std.Data.ExtTreeMap

/-!
# Two maps that are inverse to each other

A pair is inserted into both maps when neither of its sides is in use, and it is
erased from both.  Whatever is kept so is a bijection between the keys of the
maps.
-/

namespace Pairing

open Std (ExtTreeMap)

variable {α β : Type} [Ord α] [Std.TransOrd α] [Ord β] [Std.TransOrd β]
  {forward : ExtTreeMap α β} {backward : ExtTreeMap β α}

/-- Every entry of one map is an entry of the other one. -/
def Inverse (forward : ExtTreeMap α β) (backward : ExtTreeMap β α) : Prop :=
  ∀ (key : α) (value : β),
    forward[key]? = some value ↔ backward[value]? = some key

namespace Inverse

theorem empty : Inverse (∅ : ExtTreeMap α β) ∅ := by
  intro key value
  simp

/-- A value has one key. -/
theorem injective (inverse : Inverse forward backward) {first second : α}
    {value : β} (here : forward[first]? = some value)
    (there : forward[second]? = some value) : first = second := by
  have same := ((inverse first value).mp here).symm.trans
    ((inverse second value).mp there)
  exact Option.some.inj same

variable [Std.LawfulEqOrd α] [Std.LawfulEqOrd β]

theorem insert (inverse : Inverse forward backward) {key : α} {value : β}
    (newKey : forward[key]? = none) (newValue : backward[value]? = none) :
    Inverse (forward.insert key value) (backward.insert value key) := by
  intro otherKey otherValue
  rw [ExtTreeMap.getElem?_insert, ExtTreeMap.getElem?_insert]
  by_cases sameKey : key = otherKey
  · subst sameKey
    rw [if_pos Std.ReflCmp.compare_self]
    by_cases sameValue : value = otherValue
    · subst sameValue
      rw [if_pos Std.ReflCmp.compare_self]
      simp
    · rw [if_neg (by simpa using sameValue)]
      refine ⟨fun taken => absurd (Option.some.inj taken) sameValue, ?_⟩
      intro taken
      rw [(inverse key otherValue).mpr taken] at newKey
      cases newKey
  · rw [if_neg (by simpa using sameKey)]
    by_cases sameValue : value = otherValue
    · subst sameValue
      rw [if_pos Std.ReflCmp.compare_self]
      refine ⟨?_, fun taken => absurd (Option.some.inj taken) sameKey⟩
      intro taken
      rw [(inverse otherKey value).mp taken] at newValue
      cases newValue
    · rw [if_neg (by simpa using sameValue)]
      exact inverse otherKey otherValue

theorem erase (inverse : Inverse forward backward) {key : α} {value : β}
    (pair : forward[key]? = some value) :
    Inverse (forward.erase key) (backward.erase value) := by
  intro otherKey otherValue
  rw [ExtTreeMap.getElem?_erase, ExtTreeMap.getElem?_erase]
  by_cases sameKey : key = otherKey
  · subst sameKey
    rw [if_pos Std.ReflCmp.compare_self]
    by_cases sameValue : value = otherValue
    · subst sameValue
      rw [if_pos Std.ReflCmp.compare_self]
      simp
    · rw [if_neg (by simpa using sameValue)]
      refine ⟨fun taken => (by cases taken), ?_⟩
      intro taken
      rw [(inverse key otherValue).mpr taken] at pair
      exact absurd (Option.some.inj pair).symm sameValue
  · rw [if_neg (by simpa using sameKey)]
    by_cases sameValue : value = otherValue
    · subst sameValue
      rw [if_pos Std.ReflCmp.compare_self]
      refine ⟨?_, fun taken => (by cases taken)⟩
      intro taken
      exact absurd (inverse.injective pair taken) sameKey
    · rw [if_neg (by simpa using sameValue)]
      exact inverse otherKey otherValue

end Inverse

end Pairing
