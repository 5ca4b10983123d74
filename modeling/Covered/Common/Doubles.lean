import Mathlib.Data.Rat.Defs

/-!
# Double-precision numbers

Where a decision of the program depends on rounded arithmetic, its `double` is a type with the
operations that the program uses and with no law about them: whatever is proved holds for the
rounding of every platform. An expression keeps the order of operations that it has in the source.
-/

set_option autoImplicit false

namespace Covered.Common

/-- The operations on `double` and its conversions; `truncate` is the conversion to an integer. -/
class Doubles (F : Type) extends Add F, Sub F, Mul F, Div F, Neg F where
  ofRat : ℚ → F
  truncate : F → Int
  exp : F → F
  log2 : F → F
  pow : F → F → F
  fabs : F → F
  lt : F → F → Bool
  eq : F → F → Bool

namespace Doubles

variable {F : Type} [Doubles F]

/-- Conversion of an integer. -/
def ofInt (n : Int) : F := ofRat n

def ofNat (n : Nat) : F := ofRat n

def le (a b : F) : Bool := lt a b || eq a b

/-- `x != x`. -/
def isNan (x : F) : Bool := !eq x x

/-- Rational arithmetic with rough versions of the other functions. -/
@[reducible]
def rationals : Doubles ℚ where
  ofRat x := x
  truncate x := x.floor
  exp x := 1 + x
  log2 x := x
  pow x _ := x
  fabs x := if x < 0 then -x else x
  lt x y := decide (x < y)
  eq x y := decide (x = y)

end Doubles

end Covered.Common
