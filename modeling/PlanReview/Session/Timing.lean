import PlanReview.Workspace.Basic
import PlanReview.Json.Writer

/-!
# Counters and timings of a run

A `Tally` counts events by name and keeps how long each call of a named activity took. At the end
of a run it is merged with the outcome into one line of the session's metrics file.
-/

namespace PlanReview

/-- Counts of events, and durations of activities in seconds, by name in the order of their first
appearance. -/
structure Tally where
  counters : List (String × Int) := []
  timers : List (String × List Float) := []

namespace Tally

/-- The name of the file with the metrics of a session. -/
def fileName : String := "metrics.jsonl"

/-- A list of named values with the value of `name` changed, from `start` if it has none. -/
def alter {β : Type} (values : List (String × β)) (name : String) (start : β) (f : β → β) :
    List (String × β) :=
  match values with
  | [] => [(name, f start)]
  | (k, v) :: rest => if k = name then (k, f v) :: rest else (k, v) :: alter rest name start f

/-- Count an event `n` times. -/
def count (t : Tally) (name : String) (n : Int := 1) : Tally :=
  { t with counters := alter t.counters name 0 (· + n) }

/-- Note how long an activity took. -/
def time (t : Tally) (name : String) (seconds : Float) : Tally :=
  { t with timers := alter t.timers name [] (· ++ [seconds]) }

/-- The longest of some durations. -/
def longest : List Float → Float
  | [] => 0.0
  | x :: xs => xs.foldl (fun a b => if b > a then b else a) x

/-- Number, sum and maximum of some durations. -/
def timing (samples : List Float) : Json :=
  .obj [
    ("count", .nat samples.length),
    ("total_secs", .float (Decimal.roundPlaces 6 (samples.foldl (· + ·) 0.0))),
    ("max_secs", .float (Decimal.roundPlaces 6 (longest samples)))]

/-- The tally at an instant. -/
def fields (t : Tally) (now : String) : Json.Fields := [
  ("timestamp", .str now),
  ("counters", .obj (t.counters.map fun (k, n) => (k, .int n))),
  ("timings", .obj (t.timers.map fun (k, xs) => (k, timing xs)))]

/-- The document of a tally at an instant. -/
def toJson (t : Tally) (now : String) : Json :=
  .obj (t.fields now)

/-- The line for a run : its outcome is merged over the tally. -/
def line (t : Tally) (now : String) (outcome : Json.Fields) : String :=
  Json.write Json.oneLine (.ofFields (t.fields now ++ outcome)) ++ "\n"

/-- Add the line for a run to the metrics of a session. -/
def record (t : Tally) (dir : Path) (outcome : Json.Fields) : Act Unit := do
  Act.crashing (← Act.makeDirectories dir)
  Act.crashing (← Act.appendText (dir.child fileName) (t.line (← Act.now) outcome))

end Tally

end PlanReview
