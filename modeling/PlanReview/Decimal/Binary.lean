/-!
# Doubles as integers

A finite double is `± mantissa · 2 ^ exponent`. Everything that prints or rounds a double
starts from this form and works on natural numbers, so no rounding of its own comes in.
-/

namespace PlanReview.Decimal

/-- The power `2 ^ n`. -/
def pow2 (n : Nat) : Nat := Nat.pow 2 n

/-- The power `10 ^ n`. -/
def pow10 (n : Nat) : Nat := Nat.pow 10 n

/-- The value `± mantissa · 2 ^ exponent`; `narrow` says that the next smaller double is only
half as far away as the next larger one. -/
structure Binary where
  negative : Bool
  mantissa : Nat
  exponent : Int
  narrow : Bool
  deriving Repr, DecidableEq

/-- What a double stands for. -/
inductive Reading where
  | nan
  | infinite (negative : Bool)
  | finite (value : Binary)

/-- The sign, exponent and fraction fields of a double, read as a number. -/
def Reading.ofFloat (x : Float) : Reading :=
  let bits : Nat := x.toBits.toNat
  let negative := bits / pow2 63 == 1
  let biased : Nat := bits / pow2 52 % pow2 11
  let fraction : Nat := bits % pow2 52
  if biased = 2047 then
    if fraction = 0 then .infinite negative else .nan
  else if biased = 0 then
    .finite ⟨negative, fraction, -1074, false⟩
  else
    .finite ⟨negative, fraction + pow2 52, (biased : Int) - 1075, fraction == 0 && 1 < biased⟩

/-- `a / b` rounded to the nearest integer, a half to the even neighbour. -/
def roundDiv (a b : Nat) : Nat :=
  let q := a / b
  let r := a % b
  if 2 * r < b then q
  else if b < 2 * r then q + 1
  else if q % 2 = 0 then q else q + 1

/-- The magnitude `mantissa · 2 ^ exponent · 10 ^ places`, rounded to an integer. -/
def Binary.scaled (x : Binary) (places : Nat) : Nat :=
  roundDiv (x.mantissa * pow2 x.exponent.toNat * pow10 places) (pow2 (-x.exponent).toNat)

/-- Whether the value has no fractional part. -/
def Binary.isWhole (x : Binary) : Bool :=
  x.mantissa * pow2 x.exponent.toNat % pow2 (-x.exponent).toNat == 0

/-- The value without its fractional part. -/
def Binary.truncate (x : Binary) : Int :=
  let n : Nat := x.mantissa * pow2 x.exponent.toNat / pow2 (-x.exponent).toNat
  if x.negative then -n else n

end PlanReview.Decimal
