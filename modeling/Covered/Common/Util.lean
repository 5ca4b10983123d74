import Covered.Lib.Checked
import Covered.Lib.Rounding

/-!
# Keys, addresses and checked arithmetic

The value types that every component shares: `Key` and `NetworkAddr`, and the helpers of the
utility class that the modelled functions call. Unsigned 64-bit values are natural numbers below
`2 ^ 64`; the checked addition ends the process on overflow, the checked subtraction clamps to `0`.
Popularities and rewards are rational numbers; operations on them that decide something are rounded.
-/

set_option autoImplicit false

namespace Covered.Common

open Lib.Checked

/-- A general key of variable length. -/
structure Key where
  keystr : List UInt8
deriving DecidableEq, Repr

/-- Number of bytes of the key. -/
def Key.getKeyLength (key : Key) : Nat := key.keystr.length

/-- Bytes of the key in a message: its length and its characters. -/
def Key.getKeyPayloadSize (key : Key) : Nat := 4 + key.getKeyLength

/-- A valid network address; a default-constructed one is invalid and is never sent. -/
structure NetworkAddr where
  ipstr : List UInt8
  port : UInt16
deriving DecidableEq, Repr

/-- Bytes of an address counted for the cache capacity. -/
def NetworkAddr.getSizeForCapacity (addr : NetworkAddr) : Nat := addr.ipstr.length + 2

/-- Blocked edges and finish-block messages are looked up by address and key. -/
instance : LawfulBEq (NetworkAddr × Key) := inferInstance

/-- Number of 64-bit unsigned values. -/
def uint64Limit : Nat := 2 ^ 64

/-- Checked 64-bit addition: an overflow ends the process. -/
def uint64Add (a b : Nat) : Option Nat := do
  let results := (a + b) % uint64Limit
  require (¬ (results < a ∨ results < b))
  return results

/-- Checked 64-bit subtraction: an underflow gives `0`. -/
def uint64Minus (a b : Nat) : Nat :=
  let results := (a + (uint64Limit - b % uint64Limit)) % uint64Limit
  if results > a then 0 else results

variable {a b : Nat}

theorem uint64Add_eq (h : a + b < uint64Limit) : uint64Add a b = some (a + b) := by
  have hmod : (a + b) % uint64Limit = a + b := Nat.mod_eq_of_lt h
  simp [uint64Add, hmod, require]

theorem uint64Add_eq_some {c : Nat} (h : uint64Add a b = some c) : c = a + b := by
  have hlt : (a + b) % uint64Limit < uint64Limit := Nat.mod_lt _ (by decide)
  simp only [uint64Add, bind_eq_some_iff, require_eq_some_iff] at h
  obtain ⟨-, hno, h⟩ := h
  rw [pure_eq_some_iff] at h
  rcases Nat.lt_or_ge (a + b) uint64Limit with hsum | hsum
  · rw [Nat.mod_eq_of_lt hsum] at h
    exact h.symm
  · -- a wrapped sum is smaller than one of the summands
    exfalso
    apply hno
    have hdiv := Nat.div_add_mod (a + b) uint64Limit
    have hpos : 1 ≤ (a + b) / uint64Limit := (Nat.one_le_div_iff (by decide)).2 hsum
    have hmul : uint64Limit * 1 ≤ uint64Limit * ((a + b) / uint64Limit) :=
      Nat.mul_le_mul_left _ hpos
    omega

theorem uint64Add_lt {c : Nat} (h : uint64Add a b = some c) : c < uint64Limit := by
  simp only [uint64Add, bind_eq_some_iff] at h
  obtain ⟨-, -, h⟩ := h
  rw [pure_eq_some_iff] at h
  rw [← h]
  exact Nat.mod_lt _ (by decide)

theorem uint64Add_eq_none (h : uint64Limit ≤ a + b) : uint64Add a b = none := by
  cases hadd : uint64Add a b with
  | none => rfl
  | some c =>
    have hlt := uint64Add_lt hadd
    rw [uint64Add_eq_some hadd] at hlt
    exact absurd hlt (Nat.not_lt.2 h)

theorem uint64Minus_eq (ha : a < uint64Limit) (hb : b ≤ a) :
    uint64Minus a b = a - b := by
  have hmod : b % uint64Limit = b := Nat.mod_eq_of_lt (by omega)
  have hsub : (a + (uint64Limit - b)) % uint64Limit = a - b := by
    have hsum : a + (uint64Limit - b) = (a - b) + uint64Limit := by omega
    rw [hsum, Nat.add_mod_right, Nat.mod_eq_of_lt (by omega)]
  simp only [uint64Minus, hmod, hsub]
  rw [if_neg (by omega)]

theorem uint64Minus_of_lt (hb : b < uint64Limit) (h : a < b) :
    uint64Minus a b = 0 := by
  have hmod : b % uint64Limit = b := Nat.mod_eq_of_lt hb
  have hwrap : (a + (uint64Limit - b)) % uint64Limit = a + (uint64Limit - b) :=
    Nat.mod_eq_of_lt (by omega)
  simp only [uint64Minus, hmod, hwrap]
  rw [if_pos (by omega)]

/-- On 64-bit values the checked subtraction is the one of natural numbers. -/
theorem uint64Minus_eq_sub (ha : a < uint64Limit) (hb : b < uint64Limit) :
    uint64Minus a b = a - b := by
  rcases Nat.lt_or_ge a b with hlt | hle
  · rw [uint64Minus_of_lt hb hlt, Nat.sub_eq_zero_of_le (Nat.le_of_lt hlt)]
  · exact uint64Minus_eq ha hle

/-- A subtraction that the code clamps is that of natural numbers. -/
theorem clamped_sub (n a : Nat) : (if n ≤ a then 0 else n - a) = n - a := by
  split
  · omega
  · rfl

theorem uint64Minus_le (a b : Nat) : uint64Minus a b ≤ a := by
  simp only [uint64Minus]
  split
  · exact Nat.zero_le a
  · omega

/-- Number of requests of a key, local or redirected. -/
abbrev Popularity := ℚ

/-- Reward of caching an object. -/
abbrev Reward := ℚ

/-- Change of a reward. -/
abbrev DeltaReward := ℚ

/-- The tolerance of approximate comparisons: the double nearest to `0.1`. -/
def doubleIota : ℚ := 3602879701896397 / 36028797018963968

/-- Equality up to the tolerance. -/
def isApproxEqual (a b : ℚ) : Bool :=
  if a ≥ b then decide (a - b ≤ doubleIota) else decide (b - a ≤ doubleIota)

/-- Comparison up to the tolerance. -/
def isApproxLargerEqual (a b : ℚ) : Bool :=
  if a > b then true else isApproxEqual a b

theorem isApproxLargerEqual_of_le {a b : ℚ} (h : b ≤ a) : isApproxLargerEqual a b = true := by
  unfold isApproxLargerEqual
  rcases lt_or_eq_of_le h with hlt | rfl
  · rw [if_pos hlt]
  · have hself : b - b ≤ doubleIota := by
      rw [sub_self]
      decide +kernel
    rw [if_neg (lt_irrefl b), isApproxEqual, if_pos (le_refl b)]
    exact decide_eq_true hself

/-- Subtraction of popularities, with `0` instead of a negative result. -/
def popularityNonegMinus (r : Lib.Rounding) (a b : Popularity) : Popularity :=
  let c := r (a - b)
  if c < 0 then 0 else c

theorem popularityNonegMinus_exact {a b : Popularity} (h : b ≤ a) :
    popularityNonegMinus .exact a b = a - b :=
  if_neg (not_lt.2 (sub_nonneg.2 h))

end Covered.Common
