import Covered.Lib.UnorderedMap

/-!
# Departures from a store

A loop takes entries out of a store and collects them in a table. `Departed before after gone` says
that the table is the difference of the store before the loop and after it: an entry either is still
there with its value, or is in the table with the value it had. The store is known by its lookup
function, so that it may be made of several containers.
-/

set_option autoImplicit false

namespace Covered.Lib

universe u v

variable {κ : Type u} {ν : Type v} [DecidableEq κ]

/-- The table holds the entries that have left the store; the others have kept their values. -/
def Departed (before after : κ → Option ν) (gone : UnorderedMap κ ν) : Prop :=
  ∀ k, (after k = before k ∧ gone.lookup k = none) ∨ (after k = none ∧ gone.lookup k = before k)

namespace Departed

variable {before after after' : κ → Option ν} {gone : UnorderedMap κ ν} {k : κ} {v : ν}

theorem refl (before : κ → Option ν) : Departed before before ∅ := fun _ => .inl ⟨rfl, rfl⟩

theorem congr (h : Departed before after gone) (hsame : ∀ k, after' k = after k) :
    Departed before after' gone := by
  intro k
  rw [hsame k]
  exact h k

/-- An entry leaves the store and enters the table. -/
theorem remove (h : Departed before after gone) (k : κ) (hpresent : after k = some v)
    (hafter : ∀ i, after' i = if i = k then none else after i) :
    Departed before after' (UnorderedMap.insertNew gone k v) := by
  intro i
  rw [hafter i, UnorderedMap.lookup_insertNew]
  by_cases hi : i = k
  · rw [if_pos hi, if_pos hi, hi]
    rcases h k with ⟨hsame, hnone⟩ | ⟨hnone, -⟩
    · rw [hnone, Option.none_or, ← hsame, hpresent]
      exact .inr ⟨rfl, rfl⟩
    · rw [hnone] at hpresent
      cases hpresent
  · rw [if_neg hi, if_neg hi, Option.or_none]
    exact h i

/-- The table is exactly what was in the store before and is not in it after. -/
theorem lookup_iff (h : Departed before after gone) :
    gone.lookup k = some v ↔ before k = some v ∧ after k = none := by
  rcases h k with ⟨hsame, hnone⟩ | ⟨hnone, hlookup⟩
  · rw [hnone, hsame]
    refine iff_of_false (Option.some_ne_none v).symm ?_
    rintro ⟨hsome, hnone⟩
    rw [hsome] at hnone
    cases hnone
  · rw [hlookup]
    exact (and_iff_left hnone).symm

end Departed

end Covered.Lib
