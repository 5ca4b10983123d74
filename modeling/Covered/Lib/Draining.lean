import Mathlib.Algebra.Order.Ring.Nat
import Covered.Lib.Checked

/-!
# Draining a store

A store loses one element with every call of `remove`, which fails once there is none. What an
element leaves behind may still count for the size of the store, so that the loop that removes
elements as long as the size exceeds a bound may run out of elements before it is over.

`Emptied remove count s t` says that `t` is left after all elements of `s` were removed. The loop
ends iff what is left does not exceed the bound (`Drains.ends_iff`).
-/

set_option autoImplicit false

namespace Covered.Lib

open Lib.Checked

universe u

variable {σ : Type u} {remove : σ → Option σ} {count size : σ → Nat} {P : σ → Prop} {s t : σ}
  {c : Nat}

/-- The state that is left when all elements were removed. -/
def Emptied (remove : σ → Option σ) (count : σ → Nat) (s t : σ) : Prop :=
  Relation.ReflTransGen (fun a b => remove a = some b) s t ∧ count t = 0

/-- As long as there are elements one is removed, and the size does not grow. -/
structure Drains (P : σ → Prop) (remove : σ → Option σ) (count size : σ → Nat) : Prop where
  removes : ∀ s, P s → count s ≠ 0 →
    ∃ t, remove s = some t ∧ P t ∧ count t < count s ∧ size t ≤ size s
  fails : ∀ s, P s → count s = 0 → remove s = none

namespace Drains

/-- A removal that does not fail keeps the invariant and lowers the number of elements. -/
theorem of_remove (h : Drains P remove count size) (hs : P s) (hremove : remove s = some t) :
    P t ∧ count t < count s ∧ size t ≤ size s := by
  by_cases hcount : count s = 0
  · rw [h.fails s hs hcount] at hremove
    cases hremove
  · obtain ⟨u, hu, hP, hlt, hle⟩ := h.removes s hs hcount
    rw [hremove] at hu
    cases hu
    exact ⟨hP, hlt, hle⟩

/-- All elements can be removed. -/
theorem exists_emptied (h : Drains P remove count size) (hs : P s) :
    ∃ t, Emptied remove count s t ∧ P t ∧ size t ≤ size s := by
  induction hn : count s using Nat.strong_induction_on generalizing s with
  | _ n ih =>
    by_cases hcount : count s = 0
    · exact ⟨s, ⟨.refl, hcount⟩, hs, le_refl _⟩
    · obtain ⟨t, hremove, hP, hlt, hle⟩ := h.removes s hs hcount
      obtain ⟨u, ⟨hrest, hzero⟩, hu, hle'⟩ := ih (count t) (hn ▸ hlt) hP rfl
      exact ⟨u, ⟨.head hremove hrest, hzero⟩, hu, hle'.trans hle⟩

/-- The loop that removes elements as long as the size exceeds a bound ends iff what is left when
all elements were removed does not exceed it. -/
theorem ends_iff (h : Drains P remove count size) (hs : P s) :
    (∃ fuel t, whileLoop (fun s => decide (size s > c)) remove fuel s = some t) ↔
      ∃ t, Emptied remove count s t ∧ size t ≤ c := by
  constructor
  · rintro ⟨fuel, t, hloop⟩
    induction fuel generalizing s with
    | zero =>
      rw [whileLoop] at hloop
      split at hloop
      · cases hloop
      · next hsmall =>
        rw [decide_eq_true_iff, not_lt] at hsmall
        obtain ⟨u, hu, -, hle⟩ := h.exists_emptied hs
        exact ⟨u, hu, hle.trans hsmall⟩
    | succ fuel ih =>
      rw [whileLoop] at hloop
      split at hloop
      · obtain ⟨u, hremove, hrest⟩ := bind_eq_some_iff.1 hloop
        obtain ⟨v, ⟨hsteps, hzero⟩, hle⟩ := ih (h.of_remove hs hremove).1 hrest
        exact ⟨v, ⟨.head hremove hsteps, hzero⟩, hle⟩
      · next hsmall =>
        rw [decide_eq_true_iff, not_lt] at hsmall
        obtain ⟨u, hu, -, hle⟩ := h.exists_emptied hs
        exact ⟨u, hu, hle.trans hsmall⟩
  · rintro ⟨t, ⟨hsteps, -⟩, hle⟩
    induction hsteps using Relation.ReflTransGen.head_induction_on with
    | refl => exact ⟨0, t, by rw [whileLoop, if_neg (by simpa using hle)]⟩
    | head hremove _ ih =>
      obtain ⟨fuel, u, hloop⟩ := ih (h.of_remove hs hremove).1
      rename_i a b _
      by_cases hlarge : size a > c
      · refine ⟨fuel + 1, u, ?_⟩
        rw [whileLoop, if_pos (decide_eq_true hlarge), hremove, Option.bind_some, hloop]
      · exact ⟨0, a, by rw [whileLoop, if_neg (by simpa using hlarge)]⟩

variable (bytes : σ → Nat)

/-- What is left of a store from which every element takes its own bytes along. -/
theorem size_emptied (h : Drains P remove count size) (hempty : ∀ s, count s = 0 → bytes s = 0)
    (hbytes : ∀ s t, P s → remove s = some t →
      ∃ w, size t = size s - w ∧ bytes s = bytes t + w)
    (hs : P s) (ht : Emptied remove count s t) : size t = size s - bytes s := by
  obtain ⟨hsteps, hzero⟩ := ht
  induction hsteps using Relation.ReflTransGen.head_induction_on with
  | refl => rw [hempty t hzero, Nat.sub_zero]
  | head hremove _ ih =>
    obtain ⟨w, hsize, hsum⟩ := hbytes _ _ hs hremove
    rw [ih (h.of_remove hs hremove).1, hsize, hsum, Nat.sub_sub, Nat.add_comm w]

/-- What is left of a store from which every element takes at least its own bytes along. -/
theorem size_emptied_le (h : Drains P remove count size)
    (hbytes : ∀ s t, P s → remove s = some t → size t + bytes s ≤ size s + bytes t)
    (hempty : ∀ s, count s = 0 → bytes s = 0)
    (hs : P s) (ht : Emptied remove count s t) : size t + bytes s ≤ size s := by
  obtain ⟨hsteps, hzero⟩ := ht
  induction hsteps using Relation.ReflTransGen.head_induction_on with
  | refl => exact (hempty t hzero).symm ▸ le_refl (size t)
  | head hremove _ ih =>
    have hrest := ih (h.of_remove hs hremove).1
    have hone := hbytes _ _ hs hremove
    omega

end Drains

end Covered.Lib
