import PlanReview.Decimal.Shortest

/-!
# Writing numbers

`FloatNotation` records the choices that a text format makes for a double : which exponents
are written positionally and what an exponent looks like. `fixed` writes a chosen number of
decimal places, rounded exactly.
-/

namespace PlanReview.Decimal

/-- The choices a format makes for a double. Exponents from `low` up to but not including
`high` are written positionally. -/
structure FloatNotation where
  low : Int
  high : Int
  /-- What stands between the `e` and a positive exponent. -/
  plus : String
  /-- The least number of digits of an exponent. -/
  exponentWidth : Nat
  nan : String
  infinity : String
  negativeInfinity : String

/-- The exponent part of the notation. -/
def FloatNotation.exponentText (style : FloatNotation) (e : Int) : String :=
  let digits := toString e.natAbs
  let padding := String.ofList (List.replicate (style.exponentWidth - digits.length) '0')
  "e" ++ (if e < 0 then "-" else style.plus) ++ padding ++ digits

/-- The digits `ds` with the point after the first `point` of them; a point before or after
all digits is reached with zeros. -/
def placePoint (ds : List Char) (point : Int) : String :=
  let whole := if point ≤ 0 then ['0'] else ds.take point.toNat
  let gap := List.replicate (point.toNat - ds.length) '0'
  let lead := List.replicate (-point).toNat '0'
  let fraction := lead ++ ds.drop point.toNat
  String.ofList (whole ++ gap ++ '.' :: (if fraction.isEmpty then ['0'] else fraction))

/-- The text of a double with the fewest digits that read back. -/
def FloatNotation.write (style : FloatNotation) (x : Float) : String :=
  match Reading.ofFloat x with
  | .nan => style.nan
  | .infinite negative => if negative then style.negativeInfinity else style.infinity
  | .finite b =>
    let d := shortest b
    let ds := (toString d.digits).toList
    let e := d.exponent + ds.length - 1
    let sign := if b.negative then "-" else ""
    if style.low ≤ e && e < style.high then sign ++ placePoint ds (e + 1)
    else
      let mantissa :=
        match ds with
        | c :: [] => [c]
        | c :: cs => c :: '.' :: cs
        | [] => []
      sign ++ String.ofList mantissa ++ style.exponentText e

/-- The notation of texts that people and other programs read. -/
def plainNotation : FloatNotation where
  low := -4
  high := 16
  plus := "+"
  exponentWidth := 2
  nan := "nan"
  infinity := "inf"
  negativeInfinity := "-inf"

/-- A double with `places` decimals, rounded to the nearest and a half to the even digit. -/
def fixed (places : Nat) (x : Float) : String :=
  match Reading.ofFloat x with
  | .nan => "nan"
  | .infinite negative => if negative then "-inf" else "inf"
  | .finite b =>
    let n := b.scaled places
    let ds := (toString n).toList
    let ds := List.replicate (places + 1 - ds.length) '0' ++ ds
    let sign := if b.negative then "-" else ""
    let whole := String.ofList (ds.take (ds.length - places))
    if places = 0 then sign ++ whole
    else sign ++ whole ++ "." ++ String.ofList (ds.drop (ds.length - places))

/-- The double nearest to `x` rounded to `places` decimals. -/
def roundPlaces (places : Nat) (x : Float) : Float :=
  match Reading.ofFloat x with
  | .finite b =>
    let r := Float.ofScientific (b.scaled places) true places
    if b.negative then -r else r
  | _ => x

end PlanReview.Decimal
