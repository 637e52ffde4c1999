import PlanReview.Time.Instant
import PlanReview.Decimal.Numeral

/-!
# Reading dates

Dates and times as ISO 8601 writes them : calendar dates and week dates, with or without dashes,
then any one character, the time with or without colons, a fraction of a second of which six
digits count, and an offset from UTC. A text without an offset is taken as UTC.
-/

namespace PlanReview.Iso

/-- The number written by exactly `n` ASCII digits at the head of a text, and the rest. -/
def digits? (n : Nat) (s : List Char) : Option (Nat × List Char) :=
  let ds := (s.take n).filterMap Decimal.asciiDigit?
  if ds.length = n then some (Decimal.natOfDigits ds, s.drop n) else none

/-- Where the date ends. In the texts with a dash after the week either the weekday or the time
may follow. -/
def dateLength? (s : List Char) : Option Nat :=
  let n := s.length
  let isDigit (i : Nat) := (s[i]?.map Char.isDigit).getD false
  if n < 7 then none
  else if n = 7 then some 7
  else if s[4]? = some '-' then
    if s[5]? = some 'W' then
      if 8 < n && s[8]? = some '-' then
        if n = 9 then none
        else if isDigit 10 then some 8
        else some 10
      else some 8
    else some 10
  else if s[4]? = some 'W' then
    let stop := 7 + ((s.drop 7).takeWhile Char.isDigit).length
    if stop < 9 then some stop
    else if stop % 2 = 0 then some 7
    else some 8
  else some 8

/-- The day number of the Monday of the first week of a year. -/
def firstMonday (year : Nat) : Int :=
  let first : Int := Instant.daysBeforeYear year
  let weekday := first % 7
  if weekday ≤ 3 then first - weekday else first - weekday + 7

/-- The day number of a date given by week and weekday. -/
def weekDay? (year week weekday : Nat) : Option Int :=
  let start := Instant.daysBeforeYear year % 7
  let weeks := if start = 3 || (start = 2 && Instant.isLeap year) then 53 else 52
  if 1 ≤ year && 1 ≤ week && week ≤ weeks && 1 ≤ weekday && weekday ≤ 7 then
    some (firstMonday year + (week - 1) * 7 + (weekday - 1))
  else none

/-- The day number of the date that a text is. -/
def date? (s : List Char) : Option Int := do
  let (year, s) ← digits? 4 s
  let (dashed, s) :=
    match s with
    | '-' :: s => (true, s)
    | s => (false, s)
  match s with
  | 'W' :: s =>
    let (week, s) ← digits? 2 s
    if s.isEmpty then weekDay? year week 1
    else
      let s ← if dashed then (if s.head? = some '-' then some (s.drop 1) else none) else some s
      let (weekday, _) ← digits? 1 s
      weekDay? year week weekday
  | s =>
    let (month, s) ← digits? 2 s
    let s ← if dashed then (if s.head? = some '-' then some (s.drop 1) else none) else some s
    let (day, s) ← digits? 2 s
    if s.isEmpty && 1 ≤ year && 1 ≤ month && month ≤ 12 && 1 ≤ day &&
        day ≤ Instant.daysInMonth year month then
      some (Instant.dayNumber year month day)
    else none

/-- A time of day or an offset. -/
structure Clock where
  hour : Nat := 0
  minute : Nat := 0
  second : Nat := 0
  micro : Nat := 0

/-- The duration in microseconds. -/
def Clock.micros (c : Clock) : Int :=
  ((c.hour * 60 + c.minute) * 60 + c.second) * 1000000 + c.micro

/-- A fraction of a second, and whether the text ends with it. -/
def fraction? (c : Clock) (s : List Char) : Option (Clock × Bool) := do
  let n := min 6 s.length
  let (value, rest) ← digits? n s
  some ({ c with micro := value * Nat.pow 10 (6 - n) }, (rest.dropWhile Char.isDigit).isEmpty)

/-- Hours, minutes, seconds and their fraction, and whether the text ends with them. A single
ASCII character that nothing follows is passed over and counts as text left. -/
def clock? (s : List Char) : Option (Clock × Bool) := do
  let (hour, s) ← digits? 2 s
  let c : Clock := { hour := hour }
  match s with
  | [] => some (c, true)
  | [m] => if m.toNat < 128 then some (c, false) else none
  | m :: s' =>
    let colons := m = ':'
    if m = '.' || m = ',' then fraction? c s'
    else
      let (minute, s) ← digits? 2 (if colons then s' else s)
      let c := { c with minute := minute }
      match s with
      | [] => some (c, true)
      | [m] => if m.toNat < 128 then some (c, false) else none
      | m :: s' =>
        if m = '.' || m = ',' then fraction? c s'
        else if colons && m ≠ ':' then none
        else
          let (second, s) ← digits? 2 (if colons then s' else s)
          let c := { c with second := second }
          match s with
          | [] => some (c, true)
          | [m] => if m.toNat < 128 then some (c, false) else none
          | m :: s' =>
            if m = '.' || m = ',' then fraction? c s'
            else if colons then (if m = ':' then fraction? c s' else none)
            else fraction? c s

/-- A time of day with the offset from UTC after it, as the microseconds to add to the start of
the day. An offset of less than a second counts as none. -/
def time? (s : List Char) : Option Int := do
  let isZone (c : Char) : Bool := c = '+' || c = '-' || c = 'Z'
  let (c, ended) ← clock? (s.takeWhile fun c => !isZone c)
  if 23 < c.hour || 59 < c.minute || 59 < c.second then none
  else
    match s.dropWhile fun c => !isZone c with
    | [] => if ended then some c.micros else none
    | 'Z' :: rest => if rest.isEmpty then some c.micros else none
    | sign :: rest =>
      let (offset, ended) ← clock? rest
      let shift := if offset.micros < 1000000 then 0 else offset.micros
      if ended && shift < Instant.dayMicros then
        some (if sign = '-' then c.micros + shift else c.micros - shift)
      else none

/-- The instant that a text names. -/
def instant? (text : String) : Option Instant := do
  let s := text.toList
  let n ← dateLength? s
  let day ← date? (s.take n)
  let micros ← if s.length ≤ n then some 0 else time? (s.drop (n + 1))
  some ⟨day * Instant.dayMicros + micros⟩

end PlanReview.Iso
