import PlanReview.Decimal.Binary

/-!
# The shortest decimal that reads back

Every double stands for the interval of reals that round to it. `shortest` looks for a decimal
in that interval with as few digits as possible : for one digit, then two, and so on up to
seventeen, it tests the two neighbours of the value on the grid of that many digits. The first
grid with a hit wins, and of two hits the nearer one.
-/

namespace PlanReview.Decimal

/-- The value `digits · 10 ^ exponent`. -/
structure Scaled where
  digits : Nat
  exponent : Int
  deriving Repr, DecidableEq

/-- The interval around a value and the grid of step `10 ^ exponent`, all scaled by the same
power of two and of ten to natural numbers. -/
structure Grid where
  low : Nat
  value : Nat
  high : Nat
  step : Nat
  closed : Bool

/-- The grid of step `10 ^ p` over a positive double. -/
def Grid.of (x : Binary) (p : Int) : Grid :=
  let unit := pow2 x.exponent.toNat * pow10 (-p).toNat
  { low := (4 * x.mantissa - (if x.narrow then 1 else 2)) * unit
    value := 4 * x.mantissa * unit
    high := (4 * x.mantissa + 2) * unit
    step := 4 * pow10 p.toNat * pow2 (-x.exponent).toNat
    closed := x.mantissa % 2 == 0 }

/-- Whether the `k`-th point of the grid rounds to the value. -/
def Grid.hits (g : Grid) (k : Nat) : Bool :=
  if g.closed then g.low ≤ k * g.step && k * g.step ≤ g.high
  else g.low < k * g.step && k * g.step < g.high

/-- The neighbour of the value on the grid that rounds to it, the nearer one if both do. -/
def Grid.hit? (g : Grid) : Option Nat :=
  let k := g.value / g.step
  let r := g.value % g.step
  match g.hits k, g.hits (k + 1) with
  | true, true =>
    if 2 * r < g.step then some k
    else if g.step < 2 * r then some (k + 1)
    else if k % 2 = 0 then some k else some (k + 1)
  | true, false => some k
  | false, true => some (k + 1)
  | false, false => none

/-- Whether `10 ^ e` is at most the magnitude of `x`. -/
def Binary.atLeastPower (x : Binary) (e : Int) : Bool :=
  pow10 e.toNat * pow2 (-x.exponent).toNat ≤ x.mantissa * pow2 x.exponent.toNat * pow10 (-e).toNat

/-- The exponent `e` with `10 ^ e ≤ x < 10 ^ (e + 1)`, for a positive `x`. -/
def Binary.magnitude (x : Binary) : Int :=
  let guess := ((x.mantissa.log2 : Int) + x.exponent) * 30103 / 100000
  if x.atLeastPower (guess + 1) then guess + 1
  else if x.atLeastPower guess then guess
  else guess - 1

/-- The decimal without trailing zeros in its digits, looking at most `fuel` of them. -/
def trimZeros : Nat → Scaled → Scaled
  | 0, d => d
  | fuel + 1, d =>
    if d.digits % 10 = 0 && d.digits != 0 then trimZeros fuel ⟨d.digits / 10, d.exponent + 1⟩
    else d

/-- The first grid with a hit, from `count` digits on and trying `tries` grids. -/
def searchGrids (x : Binary) (magnitude : Int) : Nat → Nat → Scaled
  | 0, _ => ⟨0, 0⟩
  | tries + 1, count =>
    let p := magnitude - count + 1
    match (Grid.of x p).hit? with
    | some k => ⟨k, p⟩
    | none => searchGrids x magnitude tries (count + 1)

/-- The decimal of fewest digits that reads back as the magnitude of `x`; zero for zero. -/
def shortest (x : Binary) : Scaled :=
  if x.mantissa = 0 then ⟨0, 0⟩ else trimZeros 20 (searchGrids x x.magnitude 18 1)

end PlanReview.Decimal
