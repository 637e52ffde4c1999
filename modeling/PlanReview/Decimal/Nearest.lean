import PlanReview.Decimal.Binary

/-!
# The nearest double

The bits of the positive doubles count up with their values : after the largest double with one
exponent field comes the smallest one with the next. So a fraction is rounded by counting how many
units of the last place fit into it, and a count that overflows its exponent field lands on the
right bits by itself.
-/

namespace PlanReview.Decimal

/-- The bits of positive infinity; those of every finite double are below. -/
def infinityBits : Nat := 2047 * pow2 52

/-- The bits of the double nearest to `n / d`, of two the one whose bits are even. -/
def nearestBits (n d : Nat) : Nat :=
  let units := n * pow2 1074
  let shift := (units / d).log2 - 52
  min infinityBits (shift * pow2 52 + roundDiv units (d * pow2 shift))

/-- The double with the given sign and the other bits of its magnitude. -/
def signed (negative : Bool) (bits : Nat) : Float :=
  Float.ofBits (UInt64.ofNat (if negative then bits + pow2 63 else bits))

end PlanReview.Decimal
