import Mathlib.Algebra.BigOperators.Group.Finset.Piecewise
import Covered.Lib.SortBy

/-!
# The topmost elements of a finite set

A subset is topmost if no element outside it has a larger value than one of it. With ties there are
several topmost subsets of a size, but they all have the same sum (`Topmost.sum_eq`). The end of a
list in ascending order is topmost (`topmost_drop`).
-/

set_option autoImplicit false

namespace Covered.Lib

open Lib.SortBy

universe u v

variable {α : Type u} {κ : Type v} [DecidableEq α]

/-- The subset `S` of `U` has the largest values of `f`. -/
structure Topmost [LE κ] (f : α → κ) (U S : Finset α) : Prop where
  subset : S ⊆ U
  le : ∀ a ∈ S, ∀ b ∈ U, b ∉ S → f b ≤ f a

/-- Topmost subsets of the same size have the same sum. -/
theorem Topmost.sum_eq [AddCommMonoid κ] [PartialOrder κ] {f : α → κ} {U S T : Finset α}
    (hS : Topmost f U S) (hT : Topmost f U T) (hcard : S.card = T.card) :
    ∑ a ∈ S, f a = ∑ a ∈ T, f a := by
  -- what one of them has and the other has not is all of one value
  have hvalue : ∀ a ∈ S \ T, ∀ b ∈ T \ S, f a = f b := by
    intro a ha b hb
    rw [Finset.mem_sdiff] at ha hb
    apply le_antisymm
    · exact hT.le b hb.1 a (hS.subset ha.1) ha.2
    · exact hS.le a ha.1 b (hT.subset hb.1) hb.2
  have hsdiff : (S \ T).card = (T \ S).card := Finset.card_sdiff_comm hcard
  have hrest : ∑ a ∈ S \ T, f a = ∑ b ∈ T \ S, f b := by
    rcases (T \ S).eq_empty_or_nonempty with hempty | ⟨b, hb⟩
    · rw [hempty, Finset.card_empty, Finset.card_eq_zero] at hsdiff
      rw [hempty, hsdiff]
    · obtain ⟨a, ha⟩ : (S \ T).Nonempty := by
        rw [← Finset.card_pos, hsdiff]
        exact Finset.card_pos.2 ⟨b, hb⟩
      calc ∑ a ∈ S \ T, f a = (S \ T).card • f b :=
            Finset.sum_eq_card_nsmul fun a ha => hvalue a ha b hb
        _ = (T \ S).card • f a := by rw [hsdiff, hvalue a ha b hb]
        _ = ∑ b ∈ T \ S, f b :=
            (Finset.sum_eq_card_nsmul fun b hb => (hvalue a ha b hb).symm).symm
  rw [← Finset.sum_inter_add_sum_sdiff S T f, ← Finset.sum_inter_add_sum_sdiff T S f,
    Finset.inter_comm, hrest]

/-- The end of an ascending list is topmost among its elements. -/
theorem topmost_drop [LinearOrder κ] {f : α → κ} {l : List α} (hl : Ascending f l) (n : Nat) :
    Topmost f l.toFinset (l.drop n).toFinset := by
  constructor
  · intro a ha
    rw [List.mem_toFinset] at ha ⊢
    exact List.mem_of_mem_drop ha
  · intro a ha b hb hnot
    rw [List.mem_toFinset] at ha hb hnot
    rw [← List.take_append_drop n l] at hl hb
    have hfront : b ∈ l.take n := by
      rcases List.mem_append.1 hb with hfront | hend
      · exact hfront
      · exact absurd hend hnot
    exact (List.pairwise_append.1 hl).2.2 b hfront a ha

end Covered.Lib
