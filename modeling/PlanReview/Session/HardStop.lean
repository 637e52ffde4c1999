import PlanReview.Schema.Decoder
import PlanReview.Json.Literal

/-!
# Hard stops

A guardrail that has fired leaves a `HardStop`. It is kept in the stored session with only the
fields set that its kind uses; a stored stop may lack even those, and then it can be impossible
to describe.
-/

namespace PlanReview

open Schema

/-- Which guardrail fired. -/
inductive HardStopKind where
  | executionError | tokenBudget | maxIterations | maxToolCalls | timeout
  deriving Repr, DecidableEq

/-- The words for the kinds. -/
def HardStopKind.words : List (String × HardStopKind) :=
  [("execution_error", .executionError), ("token_budget_exhausted", .tokenBudget),
    ("max_iterations", .maxIterations), ("max_tool_calls", .maxToolCalls),
    ("execution_timeout", .timeout)]

/-- The word for a kind. -/
def HardStopKind.word : HardStopKind → String
  | executionError => "execution_error"
  | tokenBudget => "token_budget_exhausted"
  | maxIterations => "max_iterations"
  | maxToolCalls => "max_tool_calls"
  | timeout => "execution_timeout"

theorem HardStopKind.lookup_word (k : HardStopKind) : words.lookup k.word = some k := by
  cases k <;> rfl

/-- A guardrail that has fired. -/
structure HardStop where
  kind : HardStopKind
  used : Option Int := none
  limit : Option Float := none
  iteration : Option Int := none
  calls : Option Int := none
  elapsed : Option Float := none
  message : Option String := none

namespace HardStop

/-- Too many failed phases, the last of them with this message. -/
def ofError (message : String) : HardStop where
  kind := .executionError
  message := some message

/-- More tokens used than allowed. -/
def ofTokens (used limit : Int) : HardStop where
  kind := .tokenBudget
  used := some used
  limit := some (Float.ofInt limit)

/-- No iterations left. -/
def ofIterations (iteration limit : Int) : HardStop where
  kind := .maxIterations
  iteration := some iteration
  limit := some (Float.ofInt limit)

/-- No tool calls left. -/
def ofToolCalls (calls limit : Int) : HardStop where
  kind := .maxToolCalls
  calls := some calls
  limit := some (Float.ofInt limit)

/-- No time left. -/
def ofTimeout (elapsed limit : Float) : HardStop where
  kind := .timeout
  elapsed := some elapsed
  limit := some limit

/-- Read a hard stop. -/
def decode : Decoder HardStop :=
  record "HardStop" fun fs =>
    HardStop.mk <$> required fs "kind" (choice HardStopKind.words)
      <*> optional fs "used" none (nullable int)
      <*> optional fs "limit" none (nullable float)
      <*> optional fs "iteration" none (nullable int)
      <*> optional fs "calls" none (nullable int)
      <*> optional fs "elapsed" none (nullable float)
      <*> optional fs "message" none (nullable string)

/-- The document of a hard stop. -/
def toJson (s : HardStop) : Json :=
  .obj [
    ("kind", .str s.kind.word),
    ("used", Json.ofOption .int s.used),
    ("limit", Json.ofOption .float s.limit),
    ("iteration", Json.ofOption .int s.iteration),
    ("calls", Json.ofOption .int s.calls),
    ("elapsed", Json.ofOption .float s.elapsed),
    ("message", Json.ofOption .str s.message)]

/-- Why a stop cannot be described. -/
inductive Indescribable where
  /-- A time is missing. -/
  | noTime
  /-- The limit is not a number. -/
  | notANumber
  /-- The limit is infinite. -/
  | infinite
  deriving Repr, DecidableEq

/-- The limit without its fractional part; zero when there is none. -/
def wholeLimit (s : HardStop) : Except Indescribable Int :=
  match s.limit with
  | none => .ok 0
  | some x =>
    match Decimal.Reading.ofFloat x with
    | .nan => .error .notANumber
    | .infinite _ => .error .infinite
    | .finite b => .ok b.truncate

/-- A count in words. -/
def countText (n : Option Int) : String :=
  (Json.ofOption .int n).literal

/-- What has been used of what. -/
def usage (s : HardStop) (what : String) (n : Option Int) (between : String) :
    Except Indescribable String :=
  s.wholeLimit.map fun limit => what ++ countText n ++ between ++ toString limit

/-- The stop in words. -/
def describe (s : HardStop) : Except Indescribable String :=
  match s.kind with
  | .executionError => .ok ("Execution error: " ++ (Json.ofOption .str s.message).display)
  | .tokenBudget => s.usage "Token budget exhausted: " s.used " used of "
  | .maxIterations => s.usage "Max iterations reached: " s.iteration " of "
  | .maxToolCalls => s.usage "Max tool calls reached: " s.calls " of "
  | .timeout =>
    match s.elapsed, s.limit with
    | some elapsed, some limit =>
      .ok ("Execution timeout: " ++ Decimal.fixed 0 elapsed ++ "s elapsed, limit " ++
        Decimal.fixed 0 limit ++ "s")
    | _, _ => .error .noTime

end HardStop

end PlanReview
