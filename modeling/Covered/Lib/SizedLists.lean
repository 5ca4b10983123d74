import Mathlib.Algebra.Order.BigOperators.Group.Finset
import Covered.Lib.PlaceTable

/-!
# Families of lists with byte counters

A cache that is divided into segments has one list and one byte counter for each segment, and its
elements say which segment they are in. `SizedLists` says that the elements are right about it and
that the counters are the sums of the weights. An element leaves a list with `SizedLists.erase` and
enters one with `SizedLists.pushFront`; each also says what happens to the sum over all segments.
-/

set_option autoImplicit false

namespace Covered.Lib

open LinkedList Function

universe u v

section

variable {α : Type u} {ι : Type v}

/-- The weight of the elements of all lists. -/
def totalBytes (w : α → Nat) (ids : Finset ι) (lists : ι → LinkedList α) : Nat :=
  ∑ i ∈ ids, (lists i).bytes w

/-- Every element knows its list, which is one of those named, and the counters are the sums of the
weights. -/
structure SizedLists (w : α → Nat) (idOf : α → ι) (ids : Finset ι) (lists : ι → LinkedList α)
    (sizes : ι → Nat) : Prop where
  mem : ∀ i it a, (lists i).get it = some a → idOf a = i ∧ i ∈ ids
  size : ∀ i, sizes i = (lists i).bytes w

namespace SizedLists

variable {w : α → Nat} {idOf : α → ι} {ids : Finset ι} {lists : ι → LinkedList α}
  {sizes : ι → Nat} {i : ι} {it : Nat} {a : α}

theorem empty : SizedLists w idOf ids (fun _ => empty) fun _ => 0 := by
  refine ⟨fun i it a hget => ?_, fun i => rfl⟩
  rw [get_empty] at hget
  cases hget

theorem le_size (h : SizedLists w idOf ids lists sizes) (hget : (lists i).get it = some a) :
    w a ≤ sizes i := by
  rw [h.size i]
  exact le_bytes w hget

theorem size_le_total (h : SizedLists w idOf ids lists sizes) (hi : i ∈ ids) :
    sizes i ≤ totalBytes w ids lists := by
  rw [h.size i, totalBytes]
  exact Finset.single_le_sum (f := fun j => (lists j).bytes w) (fun _ _ => Nat.zero_le _) hi

/-- Where every element weighs something, a list without bytes is empty. -/
theorem size_eq_zero_iff (h : SizedLists w idOf ids lists sizes) (hw : ∀ a, 0 < w a) :
    sizes i = 0 ↔ (lists i).toList = [] := by
  rw [h.size i]
  exact bytes_eq_zero_iff hw

variable [DecidableEq ι]

/-- An element leaves its list. -/
theorem erase (h : SizedLists w idOf ids lists sizes) (hget : (lists i).get it = some a) :
    SizedLists w idOf ids (update lists i ((lists i).erase it))
      (update sizes i (sizes i - w a)) := by
  have hbytes := bytes_erase w hget
  constructor
  · intro j it' b hb
    rw [update_apply] at hb
    split at hb
    · next hj =>
      rw [get_erase] at hb
      split at hb
      · cases hb
      · exact h.mem j it' b (hj ▸ hb)
    · exact h.mem j it' b hb
  · intro j
    rw [update_apply, update_apply]
    split
    · rw [h.size i]
      omega
    · exact h.size j

theorem totalBytes_erase (w : α → Nat) (hi : i ∈ ids) (hget : (lists i).get it = some a) :
    totalBytes w ids (update lists i ((lists i).erase it)) + w a =
      totalBytes w ids lists := by
  have hbytes := bytes_erase w hget
  have hrest : ∀ j ∈ ids.erase i,
      (update lists i ((lists i).erase it) j).bytes w = (lists j).bytes w := by
    intro j hj
    rw [update_of_ne (Finset.ne_of_mem_erase hj)]
  rw [totalBytes, totalBytes, ← Finset.add_sum_erase ids _ hi, ← Finset.add_sum_erase ids _ hi,
    Finset.sum_congr rfl hrest, update_self]
  omega

theorem total_erase (h : SizedLists w idOf ids lists sizes) (hget : (lists i).get it = some a) :
    totalBytes w ids (update lists i ((lists i).erase it)) + w a =
      totalBytes w ids lists :=
  totalBytes_erase w (h.mem i it a hget).2 hget

/-- An element enters the list that it names. -/
theorem pushFront (h : SizedLists w idOf ids lists sizes) (hi : idOf a ∈ ids) :
    SizedLists w idOf ids (update lists (idOf a) ((lists (idOf a)).pushFront a))
      (update sizes (idOf a) (sizes (idOf a) + w a)) := by
  constructor
  · intro j it' b hb
    rw [update_apply] at hb
    split at hb
    · next hj =>
      rw [get_pushFront] at hb
      split at hb
      · cases hb
        exact ⟨hj.symm, hj ▸ hi⟩
      · exact h.mem j it' b (hj ▸ hb)
    · exact h.mem j it' b hb
  · intro j
    rw [update_apply, update_apply]
    split
    · rw [h.size]
      exact (bytes_insertAt w 0).symm
    · exact h.size j

theorem total_pushFront (w : α → Nat) (lists : ι → LinkedList α) (hi : idOf a ∈ ids) :
    totalBytes w ids (update lists (idOf a) ((lists (idOf a)).pushFront a)) =
      totalBytes w ids lists + w a := by
  have hbytes : ((lists (idOf a)).pushFront a).bytes w = (lists (idOf a)).bytes w + w a :=
    bytes_insertAt w 0
  have hrest : ∀ j ∈ ids.erase (idOf a),
      (update lists (idOf a) ((lists (idOf a)).pushFront a) j).bytes w =
        (lists j).bytes w := by
    intro j hj
    rw [update_of_ne (Finset.ne_of_mem_erase hj)]
  rw [totalBytes, totalBytes, ← Finset.add_sum_erase ids _ hi, ← Finset.add_sum_erase ids _ hi,
    Finset.sum_congr rfl hrest, update_self, hbytes]
  omega

end SizedLists

end

end Covered.Lib
