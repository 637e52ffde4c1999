import PlanReview.Schema.Decoder

/-!
# Token usage

What a call of a planner or reviewer says it has used, and the running account of a session.
Counts that are missing or negative add nothing, so the account never goes down.
-/

namespace PlanReview

open Schema

/-- What one call used. -/
structure TokenUsage where
  inputTokens : Int := 0
  outputTokens : Int := 0
  toolCalls : Int := 0
  estimated : Bool := false

/-- Read a usage report. -/
def TokenUsage.decode : Decoder TokenUsage :=
  record "TokenUsage" fun fs =>
    TokenUsage.mk <$> optional fs "input_tokens" 0 int
      <*> optional fs "output_tokens" 0 int
      <*> optional fs "tool_calls" 0 int
      <*> optional fs "estimated" false bool

/-- The document of a usage report. -/
def TokenUsage.toJson (u : TokenUsage) : Json :=
  .obj [
    ("input_tokens", .int u.inputTokens),
    ("output_tokens", .int u.outputTokens),
    ("tool_calls", .int u.toolCalls),
    ("estimated", .bool u.estimated)]

/-- Input and output together. -/
def TokenUsage.total (u : TokenUsage) : Int :=
  u.inputTokens + u.outputTokens

/-- A rough number of tokens : one for four characters, at least one for a text that has any. -/
def estimateTokens (text : String) : Nat :=
  if text.isEmpty then 0 else max 1 (text.length / 4)

/-- A count as it is added : nothing if it is missing or negative. -/
def cleanCount : Option Int → Int
  | some n => if n < 0 then 0 else n
  | none => 0

/-- The account of a session. -/
structure TokenBreakdown where
  orchestratorInput : Int := 0
  orchestratorOutput : Int := 0
  plannerInput : Int := 0
  plannerOutput : Int := 0
  reviewerInput : Int := 0
  reviewerOutput : Int := 0
  total : Int := 0
  estimated : Bool := false

namespace TokenBreakdown

/-- Read an account. -/
def decode : Decoder TokenBreakdown :=
  record "TokenBreakdown" fun fs =>
    TokenBreakdown.mk <$> optional fs "orchestrator_input" 0 int
      <*> optional fs "orchestrator_output" 0 int
      <*> optional fs "planner_input" 0 int
      <*> optional fs "planner_output" 0 int
      <*> optional fs "reviewer_input" 0 int
      <*> optional fs "reviewer_output" 0 int
      <*> optional fs "total" 0 int
      <*> optional fs "estimated" false bool

/-- The document of an account. -/
def toJson (b : TokenBreakdown) : Json :=
  .obj [
    ("orchestrator_input", .int b.orchestratorInput),
    ("orchestrator_output", .int b.orchestratorOutput),
    ("planner_input", .int b.plannerInput),
    ("planner_output", .int b.plannerOutput),
    ("reviewer_input", .int b.reviewerInput),
    ("reviewer_output", .int b.reviewerOutput),
    ("total", .int b.total),
    ("estimated", .bool b.estimated)]

/-- The quotient of two integers as the nearest double. -/
def ratio (a b : Int) : Float :=
  Float.ofInt a / Float.ofInt b

/-- The share of the total that went into steering the session. -/
def overheadRatio (b : TokenBreakdown) : Float :=
  if b.total = 0 then 0.0 else ratio (b.orchestratorInput + b.orchestratorOutput) b.total

/-- Add what the planner used. -/
def addPlanner (b : TokenBreakdown) (input output : Int) : TokenBreakdown :=
  { b with
    plannerInput := b.plannerInput + input
    plannerOutput := b.plannerOutput + output
    total := b.total + (input + output) }

/-- Add what the reviewer used. -/
def addReviewer (b : TokenBreakdown) (input output : Int) : TokenBreakdown :=
  { b with
    reviewerInput := b.reviewerInput + input
    reviewerOutput := b.reviewerOutput + output
    total := b.total + (input + output) }

end TokenBreakdown

end PlanReview
