import Mathlib

/-!
# XRat — rationals with NaN and the infinities

The number line floating-point code compares on, without rounding: the
rationals, two infinities, and a NaN that is below nothing and above
nothing. Comparison is a `Bool`, so a program's own branch on it runs.
-/

namespace Lib

/-- A rational, an infinity or NaN. -/
inductive XRat where
  | finite (q : ℚ)
  | posInf
  | negInf
  | nan
  deriving DecidableEq

namespace XRat

/-- `x < y` as IEEE comparison decides it: false as soon as a NaN takes part. -/
def lt : XRat → XRat → Bool
  | .finite a, .finite b => decide (a < b)
  | .finite _, .posInf => true
  | .negInf, .finite _ => true
  | .negInf, .posInf => true
  | _, _ => false

/-- `x >= y`, which a NaN makes false as well. -/
def ge : XRat → XRat → Bool
  | .finite a, .finite b => decide (b ≤ a)
  | .finite _, .negInf => true
  | .posInf, .nan => false
  | .posInf, _ => true
  | .negInf, .negInf => true
  | _, _ => false

instance : OfNat XRat 0 := ⟨.finite 0⟩

/-- Not being below is being at least, except for a NaN. -/
theorem ge_iff_not_lt {x y : XRat} :
    x.ge y = true ↔ x.lt y = false ∧ x ≠ .nan ∧ y ≠ .nan := by
  cases x <;> cases y <;> simp [ge, lt]

end XRat

end Lib
