import Mathlib.Data.List.Basic
import Mathlib.Order.MinMax

/-!
# Shared counters

Each key has a list of cells, cells are counters, and several keys may have the same cell, also a
key more than once. The reading of a key is the least of its counters, and a top value if that is
less.

`Covers` says that no counter is below the number that belongs to a key of the cell. An increment of
all the counters of a key keeps it if none of them is lost, and so does a monotone change of all
counters; both change the numbers of the keys in the same way.
-/

set_option autoImplicit false

namespace Covered.Lib.SharedCounters

universe u v

variable {κ : Type u} {ι : Type v}

/-- The least of the counters, at most `top`. -/
def reading (top : Nat) (cells : List ι) (counters : ι → Nat) : Nat :=
  cells.foldl (fun count i => min count (counters i)) top

theorem le_reading_iff {top m : Nat} {cells : List ι} {counters : ι → Nat} :
    m ≤ reading top cells counters ↔ m ≤ top ∧ ∀ i ∈ cells, m ≤ counters i := by
  induction cells generalizing top with
  | nil => simp [reading]
  | cons i rest ih =>
    have hstep : reading top (i :: rest) counters = reading (min top (counters i)) rest counters :=
      rfl
    rw [hstep, ih, List.forall_mem_cons, le_min_iff, and_assoc]

theorem reading_le_top (top : Nat) (cells : List ι) (counters : ι → Nat) :
    reading top cells counters ≤ top :=
  (le_reading_iff.1 le_rfl).1

/-- No counter of a key is below the number of the key. -/
def Covers (cells : κ → List ι) (counters : ι → Nat) (number : κ → Nat) : Prop :=
  ∀ k, ∀ i ∈ cells k, number k ≤ counters i

namespace Covers

variable {cells : κ → List ι} {counters counters' : ι → Nat} {number number' : κ → Nat}

theorem le_reading (h : Covers cells counters number) (top : Nat) (k : κ) :
    min (number k) top ≤ reading top (cells k) counters := by
  refine le_reading_iff.2 ⟨min_le_right _ _, ?_⟩
  intro i hi
  exact (min_le_left _ _).trans (h k i hi)

/-- The numbers of the other keys are as they were, and no counter has become less. -/
theorem update [DecidableEq κ] (h : Covers cells counters number)
    (hle : ∀ i, counters i ≤ counters' i) {k : κ} {m : Nat}
    (hk : ∀ i ∈ cells k, m ≤ counters' i) :
    Covers cells counters' (Function.update number k m) := by
  intro k' i hi
  by_cases hkk : k' = k
  · subst hkk
    rw [Function.update_self]
    exact hk i hi
  · rw [Function.update_of_ne hkk]
    exact (h k' i hi).trans (hle i)

/-- A monotone change of all counters and numbers. -/
theorem map (h : Covers cells counters number) {f : Nat → Nat} (hf : Monotone f) :
    Covers cells (fun i => f (counters i)) (fun k => f (number k)) :=
  fun k i hi => hf (h k i hi)

theorem mono (h : Covers cells counters number) (hle : ∀ k, number' k ≤ number k) :
    Covers cells counters number' :=
  fun k i hi => (hle k).trans (h k i hi)

end Covers

end Covered.Lib.SharedCounters
