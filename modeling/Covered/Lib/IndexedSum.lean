import Mathlib.Algebra.BigOperators.Group.Finset.Basic

/-!
# Sums over places

What a system holds is a sum over its places: a list that is changed at one index, or a family of
which one member is replaced. The lemmas say how the sum changes with the place, without
subtraction, so that they hold in every commutative monoid. A fold stays if the place has no part in
what changes.
-/

set_option autoImplicit false

namespace Covered.Lib.IndexedSum

universe u v

variable {α : Type u} {M : Type v} [AddCommMonoid M] {f : α → M} {l : List α} {i : Nat} {a : α}

theorem perm_cons_eraseIdx (h : l[i]? = some a) : l.Perm (a :: l.eraseIdx i) := by
  obtain ⟨hlt, heq⟩ := List.getElem?_eq_some_iff.1 h
  subst heq
  exact (List.getElem_cons_eraseIdx_perm hlt).symm

/-- An element that is taken out carries its share away. -/
theorem sum_eraseIdx (h : l[i]? = some a) :
    (l.map f).sum = f a + ((l.eraseIdx i).map f).sum := by
  rw [((perm_cons_eraseIdx h).map f).sum_eq, List.map_cons, List.sum_cons]

/-- An element that is replaced exchanges its share. -/
theorem sum_set (h : l[i]? = some a) (b : α) :
    ((l.set i b).map f).sum = f b + ((l.eraseIdx i).map f).sum := by
  obtain ⟨hlt, -⟩ := List.getElem?_eq_some_iff.1 h
  have hperm : (l.set i b).Perm (b :: l.eraseIdx i) := List.set_perm_cons_eraseIdx hlt b
  rw [(hperm.map f).sum_eq, List.map_cons, List.sum_cons]

section Fold

variable {β : Type v} {g : β → α → β} {a' : α}

/-- An element without effect can be removed. -/
theorem foldl_eraseIdx_of_id (hid : ∀ b, g b a = b) (ha : l[i]? = some a) (b : β) :
    (l.eraseIdx i).foldl g b = l.foldl g b := by
  obtain ⟨hlt, rfl⟩ := List.getElem?_eq_some_iff.1 ha
  conv_rhs => rw [← List.take_append_drop i l, List.drop_eq_getElem_cons hlt]
  rw [List.eraseIdx_eq_take_drop_succ, List.foldl_append, List.foldl_append, List.foldl_cons, hid]

/-- An element can be replaced by one with the same effect. -/
theorem foldl_set_of_eq (heq : ∀ b, g b a' = g b a) (ha : l[i]? = some a) (b : β) :
    (l.set i a').foldl g b = l.foldl g b := by
  obtain ⟨hlt, rfl⟩ := List.getElem?_eq_some_iff.1 ha
  conv_rhs => rw [← List.take_append_drop i l, List.drop_eq_getElem_cons hlt]
  rw [List.set_eq_take_append_cons_drop, if_pos hlt, List.foldl_append, List.foldl_append,
    List.foldl_cons, List.foldl_cons, heq]

end Fold

theorem mem_set_or {b c : α} (h : c ∈ l.set i b) : c = b ∨ c ∈ l := by
  rcases List.mem_or_eq_of_mem_set h with hmem | heq
  · exact .inr hmem
  · exact .inl heq

section Family

variable {ι : Type u} [Fintype ι] [DecidableEq ι] {g : ι → α}

theorem sum_family (j : ι) : ∑ k, f (g k) = f (g j) + ∑ k ∈ Finset.univ.erase j, f (g k) :=
  (Finset.add_sum_erase _ _ (Finset.mem_univ j)).symm

/-- A member of a family that is replaced exchanges its share. -/
theorem sum_update (j : ι) (b : α) :
    ∑ k, f (Function.update g j b k) = f b + ∑ k ∈ Finset.univ.erase j, f (g k) := by
  rw [sum_family j, Function.update_self]
  congr 1
  apply Finset.sum_congr rfl
  intro k hk
  rw [Function.update_of_ne (Finset.ne_of_mem_erase hk)]

end Family

end Covered.Lib.IndexedSum
