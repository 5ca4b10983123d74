import Mathlib.Data.Nat.ModEq

/-!
# Positions in a ring

A ring has `n` positions; the one after `i` is `(i + 1) % n`. The elements from `tail` up to before
`head` are at the positions `slot n tail k` for `k` below `distance n tail head`. At most `n - 1`
elements can be told apart from none in this way.
-/

set_option autoImplicit false

namespace Covered.Lib.CircularIndex

variable {n tail head i j k : Nat}

/-- The position `k` after `tail`. -/
def slot (n tail k : Nat) : Nat := (tail + k) % n

/-- How far `head` is after `tail`. -/
def distance (n tail head : Nat) : Nat :=
  if tail ≤ head then head - tail else head + n - tail

theorem slot_lt (hn : 0 < n) (tail k : Nat) : slot n tail k < n := Nat.mod_lt _ hn

theorem slot_zero (htail : tail < n) : slot n tail 0 = tail := Nat.mod_eq_of_lt htail

/-- Counting from the next position. -/
theorem slot_next (n tail k : Nat) : slot n ((tail + 1) % n) k = slot n tail (k + 1) := by
  rw [slot, slot, Nat.mod_add_mod, Nat.add_right_comm, Nat.add_assoc tail k 1]

theorem slot_inj (hi : i < n) (hj : j < n) (h : slot n tail i = slot n tail j) : i = j :=
  (Nat.ModEq.add_left_cancel' tail h).eq_of_lt_of_lt hi hj

theorem distance_lt (htail : tail < n) (hhead : head < n) : distance n tail head < n := by
  rw [distance]
  split <;> omega

theorem slot_distance (htail : tail < n) (hhead : head < n) :
    slot n tail (distance n tail head) = head := by
  rw [slot, distance]
  split
  · next hle =>
    rw [Nat.add_sub_cancel' hle, Nat.mod_eq_of_lt hhead]
  · have hsum : tail + (head + n - tail) = head + n := by omega
    rw [hsum, Nat.add_mod_right, Nat.mod_eq_of_lt hhead]

/-- The distance is the only one within the ring that leads to the head. -/
theorem eq_distance (htail : tail < n) (hk : k < n) (h : slot n tail k = head) :
    k = distance n tail head := by
  have hhead : head < n := h ▸ slot_lt (by omega) tail k
  exact slot_inj hk (distance_lt htail hhead) (h.trans (slot_distance htail hhead).symm)

/-- The head after one more element. -/
theorem next_slot (n tail k : Nat) : (slot n tail k + 1) % n = slot n tail (k + 1) := by
  rw [slot, slot, Nat.mod_add_mod, Nat.add_assoc]

/-- The position after the last one that the ring can hold is the first one. -/
theorem next_slot_eq_tail_iff (htail : tail < n) (hk : k < n) :
    (slot n tail k + 1) % n = tail ↔ k + 1 = n := by
  rw [next_slot]
  constructor
  · intro h
    by_contra hne
    have hzero := slot_inj (j := 0) (show k + 1 < n by omega) (by omega)
      (h.trans (slot_zero htail).symm)
    omega
  · intro h
    rw [h, slot, Nat.add_mod_right, Nat.mod_eq_of_lt htail]

theorem distance_eq_zero_iff (head : Nat)
    (htail : tail < n) : distance n tail head = 0 ↔ tail = head := by
  rw [distance]
  split <;> omega

end Covered.Lib.CircularIndex
