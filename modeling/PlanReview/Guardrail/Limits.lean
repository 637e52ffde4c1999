import PlanReview.Session.State

/-!
# Limits of a run

Before every iteration five limits are looked at in a fixed order : failed phases in a row, tokens,
iterations, tool calls and time. The first one that is reached stops the run.
-/

namespace PlanReview.Guardrail

/-- The limits of a run. A negative token limit is none. -/
structure Limits where
  maxIterations : Int := 10
  maxTotalTokens : Int := 500000
  maxToolCalls : Int := 100
  timeoutSeconds : Float := 600.0
  maxPhaseErrors : Int := 3

/-- The message of the last failed phase, or a general one. -/
def phaseErrorMessage (s : SessionState) : String :=
  SessionState.textOr s.lastError "repeated phase errors"

/-- The first limit that the session has reached at the time `now`. -/
def check (limits : Limits) (now : Instant) (s : SessionState) : Option HardStop :=
  let elapsed := s.elapsed now
  if max 1 limits.maxPhaseErrors ≤ s.consecutivePhaseErrors then
    some (.ofError (phaseErrorMessage s))
  else if 0 ≤ limits.maxTotalTokens && limits.maxTotalTokens < s.totalTokens then
    some (.ofTokens s.totalTokens limits.maxTotalTokens)
  else if limits.maxIterations ≤ s.turns then
    some (.ofIterations s.turns limits.maxIterations)
  else if limits.maxToolCalls ≤ s.toolCalls then
    some (.ofToolCalls s.toolCalls limits.maxToolCalls)
  else if elapsed ≥ limits.timeoutSeconds then
    some (.ofTimeout elapsed limits.timeoutSeconds)
  else none

end PlanReview.Guardrail
