import Mathlib.Algebra.Order.Ring.Nat
import Mathlib.Algebra.BigOperators.Group.List.Basic

/-!
# The shortest prefix of a required size

A loop that goes through a list and stops as soon as the elements it has taken reach a required
size takes `shortestPrefix size required l`, the shortest prefix of that size, or the whole list if
that is too small.

What is taken does not depend on the part of the list behind it (`shortestPrefix_of_isPrefix`), and
it can be taken in two goes (`shortestPrefix_append`).
-/

set_option autoImplicit false

namespace Covered.Lib

open List

universe u v w

variable {α : Type u} (size : α → Nat)

/-- The elements up to the first one with which their sizes reach the required size. -/
def shortestPrefix : Nat → List α → List α
  | _, [] => []
  | required, a :: rest =>
      if required = 0 then [] else a :: shortestPrefix (required - size a) rest

variable {size} {required : Nat} {l l' : List α}

@[simp] theorem shortestPrefix_nil : shortestPrefix size required [] = [] := rfl

@[simp] theorem shortestPrefix_zero : shortestPrefix size 0 l = [] := by
  cases l with
  | nil => rfl
  | cons a rest => rw [shortestPrefix, if_pos rfl]

theorem shortestPrefix_cons (a : α) (h : required ≠ 0) :
    shortestPrefix size required (a :: l) = a :: shortestPrefix size (required - size a) l := by
  rw [shortestPrefix, if_neg h]

variable {β : Type v}

theorem map_eq_of_forall₂ {γ : Type w} {f : α → γ} {g : β → γ} {R : α → β → Prop}
    {bs : List β} (hR : ∀ a b, R a b → f a = g b) (h : List.Forall₂ R l bs) :
    l.map f = bs.map g := by
  induction h with
  | nil => rfl
  | cons hab _ ih => rw [map_cons, map_cons, hR _ _ hab, ih]

theorem forall₂_shortestPrefix {size' : β → Nat} {R : α → β → Prop} {bs : List β}
    (hsize : ∀ a b, R a b → size a = size' b) (h : List.Forall₂ R l bs) :
    List.Forall₂ R (shortestPrefix size required l) (shortestPrefix size' required bs) := by
  induction h generalizing required with
  | nil => exact .nil
  | cons hab _ ih =>
    by_cases hzero : required = 0
    · rw [hzero, shortestPrefix_zero, shortestPrefix_zero]
      exact .nil
    · rw [shortestPrefix_cons _ hzero, shortestPrefix_cons _ hzero, hsize _ _ hab]
      exact .cons hab ih

theorem shortestPrefix_eq_nil_iff :
    shortestPrefix size required l = [] ↔ required = 0 ∨ l = [] := by
  cases l with
  | nil => exact iff_of_true rfl (.inr rfl)
  | cons a rest =>
    by_cases h : required = 0
    · rw [h, shortestPrefix_zero]
      exact iff_of_true rfl (.inl rfl)
    · rw [shortestPrefix_cons a h]
      refine iff_of_false (cons_ne_nil _ _) ?_
      rintro (hzero | hnil)
      · exact h hzero
      · exact cons_ne_nil _ _ hnil

theorem shortestPrefix_isPrefix : shortestPrefix size required l <+: l := by
  induction l generalizing required with
  | nil => exact prefix_refl []
  | cons a rest ih =>
    by_cases h : required = 0
    · rw [h, shortestPrefix_zero]
      exact nil_prefix
    · rw [shortestPrefix_cons a h]
      exact (prefix_cons_inj a).2 ih

/-- What is taken reaches the required size iff the list does. -/
theorem le_sum_shortestPrefix_iff :
    required ≤ ((shortestPrefix size required l).map size).sum ↔ required ≤ (l.map size).sum := by
  induction l generalizing required with
  | nil => rfl
  | cons a rest ih =>
    by_cases h : required = 0
    · rw [h]
      exact iff_of_true (Nat.zero_le _) (Nat.zero_le _)
    · rw [shortestPrefix_cons a h, map_cons, map_cons, sum_cons, sum_cons]
      have key := @ih (required - size a)
      omega

/-- A list that is too small is taken as a whole, and what is missing is taken from what follows. -/
theorem shortestPrefix_append (l' : List α) (h : (l.map size).sum < required) :
    shortestPrefix size required (l ++ l') =
      l ++ shortestPrefix size (required - (l.map size).sum) l' := by
  induction l generalizing required with
  | nil => rw [nil_append, nil_append, map_nil, sum_nil, Nat.sub_zero]
  | cons a rest ih =>
    rw [map_cons, sum_cons] at h ⊢
    rw [cons_append, shortestPrefix_cons a (by omega), ih (by omega), Nat.sub_sub]
    rfl

/-- A prefix that is large enough is all that is looked at. -/
theorem shortestPrefix_of_isPrefix (hinitial : l <+: l') (h : required ≤ (l.map size).sum) :
    shortestPrefix size required l' = shortestPrefix size required l := by
  obtain ⟨rest, rfl⟩ := hinitial
  induction l generalizing required with
  | nil =>
    have hzero : required = 0 := Nat.le_zero.1 h
    rw [hzero, shortestPrefix_zero, shortestPrefix_zero]
  | cons a front ih =>
    by_cases hzero : required = 0
    · rw [hzero, shortestPrefix_zero, shortestPrefix_zero]
    · rw [map_cons, sum_cons] at h
      rw [cons_append, shortestPrefix_cons a hzero, shortestPrefix_cons a hzero,
        ih (by omega)]

theorem shortestPrefix_of_sum_lt (h : (l.map size).sum < required) :
    shortestPrefix size required l = l := by
  have key := shortestPrefix_append [] h
  rwa [append_nil, shortestPrefix_nil, append_nil] at key

/-- A shorter prefix does not reach the required size. -/
theorem sum_lt_of_isPrefix_shortestPrefix (h : l' <+: shortestPrefix size required l)
    (hne : l' ≠ shortestPrefix size required l) : (l'.map size).sum < required := by
  induction l generalizing required l' with
  | nil => exact absurd (prefix_nil.1 h) hne
  | cons a rest ih =>
    by_cases hzero : required = 0
    · rw [hzero, shortestPrefix_zero] at h hne
      exact absurd (prefix_nil.1 h) hne
    · rw [shortestPrefix_cons a hzero] at h hne
      cases l' with
      | nil => exact Nat.pos_of_ne_zero hzero
      | cons b front =>
        obtain ⟨rfl, hfront⟩ := cons_prefix_cons.1 h
        have hlt := ih hfront fun heq => hne (heq ▸ rfl)
        rw [map_cons, sum_cons]
        omega

end Covered.Lib
