import PlanReview.Decimal.Binary

/-!
# Instants

An instant is a number of microseconds, counted from the start of the year one in the Gregorian
calendar, without zones or leap seconds. `Instant.text` writes it as date and time in UTC.
-/

namespace PlanReview

/-- A point in time, in microseconds. -/
structure Instant where
  micros : Int
  deriving Repr, DecidableEq

namespace Instant

/-- Whether a year has 366 days. -/
def isLeap (year : Nat) : Bool :=
  year % 4 == 0 && (year % 100 != 0 || year % 400 == 0)

/-- The number of days in a month. -/
def daysInMonth (year month : Nat) : Nat :=
  if month = 2 then (if isLeap year then 29 else 28)
  else if month = 4 || month = 6 || month = 9 || month = 11 then 30
  else 31

/-- The days before the first of January of a year. -/
def daysBeforeYear (year : Nat) : Nat :=
  let y := year - 1
  y * 365 + y / 4 - y / 100 + y / 400

/-- The days of a year before the first of a month. -/
def daysBeforeMonth (year month : Nat) : Nat :=
  (List.range (month - 1)).foldl (fun n m => n + daysInMonth year (m + 1)) 0

/-- The days before a date; zero for the first day of the year one. -/
def dayNumber (year month day : Nat) : Nat :=
  daysBeforeYear year + daysBeforeMonth year month + (day - 1)

/-- The year that a day lies in : the last one that does not start after it, among the two that
come into question. -/
def yearOfDay (day : Nat) : Nat :=
  let guess := day / 366 + 1
  let near := ((List.range (day / 366 / 365 + 2)).map (guess + ·)).filter fun y =>
    daysBeforeYear y ≤ day
  near.foldl max 1

/-- The month that a day of a year lies in. -/
def monthOfDay (year dayOfYear : Nat) : Nat :=
  ((List.range 12).map (· + 1)).foldl
    (fun month m => if daysBeforeMonth year m ≤ dayOfYear then m else month) 1

/-- The microseconds of a day. -/
def dayMicros : Int := 86400 * 1000000

/-- The instant of a date and a time in UTC. -/
def ofCivil (year month day hour minute second micro : Nat) : Instant :=
  ⟨dayNumber year month day * dayMicros +
    ((hour * 60 + minute) * 60 + second) * 1000000 + micro⟩

/-- The instant some microseconds later. -/
def later (t : Instant) (micros : Int) : Instant :=
  ⟨t.micros + micros⟩

/-- Digits of a number, with zeros in front up to a width. -/
def padded (width n : Nat) : String :=
  let digits := toString n
  String.ofList (List.replicate (width - digits.length) '0') ++ digits

/-- Date and time in UTC; the microseconds only if there are any. -/
def text (t : Instant) : String :=
  let day := (t.micros / dayMicros).toNat
  let rest := (t.micros % dayMicros).toNat
  let year := yearOfDay day
  let dayOfYear := day - daysBeforeYear year
  let month := monthOfDay year dayOfYear
  let second := rest / 1000000
  let micro := rest % 1000000
  padded 4 year ++ "-" ++ padded 2 month ++ "-" ++
    padded 2 (dayOfYear - daysBeforeMonth year month + 1) ++ "T" ++ padded 2 (second / 3600) ++
    ":" ++ padded 2 (second / 60 % 60) ++ ":" ++ padded 2 (second % 60) ++
    (if micro = 0 then "" else "." ++ padded 6 micro) ++ "+00:00"

/-- A duration in seconds, as the nearest double. -/
def secondsOf (micros : Int) : Float :=
  let x := Float.ofScientific micros.natAbs true 6
  if micros < 0 then -x else x

/-- The seconds from `start` to `t`. -/
def since (t start : Instant) : Float :=
  secondsOf (t.micros - start.micros)

/-- A duration in seconds as whole microseconds, a half to the even neighbour. -/
def microsOf (seconds : Float) : Int :=
  match Decimal.Reading.ofFloat seconds with
  | .finite b => if b.negative then -(b.scaled 6 : Int) else b.scaled 6
  | _ => 0

end Instant

end PlanReview
