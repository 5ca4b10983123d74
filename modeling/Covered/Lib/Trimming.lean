import Mathlib.Data.List.Basic

/-!
# Trimming a list

A loop removes the elements of a list one after the other, in an order that is given by their keys,
until what is left is within a bound. The weight of what is left need not be a sum: it is any
function of the list.

`Trimmed` says what such a loop does, with the removed keys as the shortest sufficient prefix of the
order. It holds when the loop stops (`Trimmed.done`) and comes back from the rest of the loop to one
more pass (`Trimmed.pass`).
-/

set_option autoImplicit false

namespace Covered.Lib

universe u v

variable {α : Type u} {κ : Type v} [DecidableEq κ]

/-- The elements whose keys are not removed. -/
def without (key : α → κ) (removed : List κ) (l : List α) : List α :=
  l.filter fun a => decide (key a ∉ removed)

/-- The removed keys are the shortest prefix of the order without which the list is within the
bound. -/
structure Trimmed (key : α → κ) (weight : List α → Nat) (bound : Nat) (l : List α)
    (order removed : List κ) (kept : List α) : Prop where
  isPrefix : removed <+: order
  kept_eq : kept = without key removed l
  within : weight kept ≤ bound
  shortest : ∀ front, front <+: order → weight (without key front l) ≤ bound → removed <+: front

section Trimmed

variable {key : α → κ} {weight : List α → Nat} {bound : Nat} {l kept : List α}
  {order removed : List κ} {k : κ}

theorem without_nil (key : α → κ) (l : List α) : without key [] l = l := by
  simp [without]

theorem without_cons (key : α → κ) (k : κ) (removed : List κ) (l : List α) :
    without key (k :: removed) l = without key removed (l.filter fun a => decide (key a ≠ k)) := by
  simp only [without, List.filter_filter]
  apply List.filter_congr
  intro a _
  simp [List.mem_cons, not_or, Bool.and_comm]

/-- A list within the bound is left as it is. -/
theorem Trimmed.done (order : List κ) (h : weight l ≤ bound) :
    Trimmed key weight bound l order [] l where
  isPrefix := List.nil_prefix
  kept_eq := (without_nil key l).symm
  within := h
  shortest _ _ _ := List.nil_prefix

/-- A list that exceeds the bound loses the first key of the order. -/
theorem Trimmed.pass (hlarge : bound < weight l)
    (h : Trimmed key weight bound (l.filter fun a => decide (key a ≠ k)) order removed kept) :
    Trimmed key weight bound l (k :: order) (k :: removed) kept where
  isPrefix := (List.prefix_cons_inj k).2 h.isPrefix
  kept_eq := by
    rw [without_cons]
    exact h.kept_eq
  within := h.within
  shortest front hfront hweight := by
    cases front with
    | nil =>
      -- the list itself exceeds the bound
      rw [without_nil] at hweight
      exact absurd hweight (Nat.not_le.2 hlarge)
    | cons k' front =>
      obtain ⟨rfl, hrest⟩ := List.cons_prefix_cons.1 hfront
      rw [without_cons] at hweight
      exact (List.prefix_cons_inj k').2 (h.shortest front hrest hweight)

theorem Trimmed.mem_iff (h : Trimmed key weight bound l order removed kept) (a : α) :
    a ∈ kept ↔ a ∈ l ∧ key a ∉ removed := by
  rw [h.kept_eq, without, List.mem_filter, decide_eq_true_eq]

end Trimmed

end Covered.Lib
