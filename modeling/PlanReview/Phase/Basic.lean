import PlanReview.Failure
import PlanReview.Graph.Metrics
import PlanReview.Review.Checklist
import PlanReview.Viability.Verdict

/-!
# Planners and reviewers

A planner makes a plan from what it is told about the session, a reviewer judges one. Both are
functions of the number of calls made before and of the context, and both may fail. A `Call` says
how long it takes, what it uses and how it answers; usage is reported even by a call that fails.
-/

namespace PlanReview

/-- What a planner is told. -/
structure PlanningContext where
  task : String
  iteration : Int := 1
  workingDir : Option String := none
  pendingFeedback : List String := []
  currentPlan : Option Plan := none
  contextSummary : String := ""

/-- Whether the planner has to revise a plan. -/
def PlanningContext.isUpdate (c : PlanningContext) : Bool :=
  c.currentPlan.isSome && 1 < c.iteration

/-- What a reviewer is told besides the plan. -/
structure ReviewContext where
  iteration : Int := 1
  workingDir : Option String := none
  checklist : List HardCheck := []
  viability : Option Viability.Verdict := none
  graph : Option Graph.Metrics := none
  threshold : Float := 0.8

/-- One call of a planner or reviewer. -/
structure Call (α : Type) where
  /-- How long the call takes, in microseconds. -/
  delay : Int := 0
  usage : Option TokenUsage := none
  /-- The answer, given the time at which the call ends. -/
  answer : String → Except Failure α

/-- Makes plans. -/
abbrev Planner := Nat → PlanningContext → Call Plan

/-- Judges plans. -/
abbrev Reviewer := Nat → Plan → ReviewContext → Call Review

end PlanReview
