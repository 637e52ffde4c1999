import PlanReview.Viability.Rules

/-!
# The viability verdict

All rules together. An empty list gets the one finding that it is empty; otherwise the findings
of the rules follow each other in a fixed order. A plan is viable if no finding is critical.
-/

namespace PlanReview.Viability

/-- The findings about a plan, with the score they leave. -/
structure Verdict where
  passed : Bool
  findings : List Finding
  score : Float

/-- How many findings are critical. -/
def criticalCount (findings : List Finding) : Nat :=
  findings.countP Finding.isCritical

/-- How many findings are warnings. -/
def warningCount (findings : List Finding) : Nat :=
  findings.countP fun f => !f.isCritical

/-- A value moved into the unit interval. -/
def clampUnit (x : Float) : Float :=
  let y := if x > 0.0 then x else 0.0
  if y < 1.0 then y else 1.0

/-- The score that findings leave : a fifth off for each critical one, a twentieth for each
warning. -/
def scoreOf (findings : List Finding) : Float :=
  clampUnit (1.0 - 0.2 * Float.ofNat (criticalCount findings) -
    0.05 * Float.ofNat (warningCount findings))

/-- The verdict on findings. -/
def Verdict.of (findings : List Finding) : Verdict where
  passed := criticalCount findings == 0
  findings := findings
  score := scoreOf findings

/-- The findings of all rules about a non-empty list of instructions. -/
def allFindings (limits : Limits) (instructions : List Instruction)
    (snapshot : Option GroundingSnapshot) (references : List FileReference) : List Finding :=
  (missingTest instructions).toList ++
  logicalFlow instructions ++
  complexity limits instructions ++
  paramsPresence instructions ++
  variableRefs instructions ++
  testOrder instructions ++
  fieldNames instructions ++
  paramsSchema instructions ++
  parallelism instructions ++
  groundingOrder instructions ++
  tokenEstimates instructions ++
  agentTask instructions ++
  (match snapshot with
   | some s => fileGrounding s references
   | none => [])

/-- The verdict on instructions. -/
def check (limits : Limits) (instructions : List Instruction)
    (snapshot : Option GroundingSnapshot) (references : List FileReference) : Verdict :=
  match empty instructions with
  | some f => .of [f]
  | none => .of (allFindings limits.clamped instructions snapshot references)

/-- The verdict on a plan. -/
def checkPlan (limits : Limits) (plan : Plan) : Verdict :=
  check limits plan.steps plan.groundingSnapshot plan.fileReferences

/-- The number of critical findings. -/
def Verdict.critical (v : Verdict) : Nat :=
  criticalCount v.findings

/-- The number of warnings. -/
def Verdict.warning (v : Verdict) : Nat :=
  warningCount v.findings

/-- The lines about one finding. -/
def Finding.lines (f : Finding) : List String :=
  let place :=
    match f.instruction? with
    | some id => if id.isEmpty then "" else " [" ++ id ++ "]"
    | none => ""
  ["- " ++ Finding.ruleName f.rule ++ " " ++ f.severityWord ++ place ++ ": " ++ f.message,
    "  Fix: " ++ f.remediation]

/-- The verdict in words. -/
def Verdict.summary (v : Verdict) : String :=
  let score := Decimal.fixed 2 v.score
  if v.findings.isEmpty then "Viability passed (score " ++ score ++ "); no violations."
  else
    let head := "Viability " ++ (if v.passed then "passed" else "FAILED") ++ " (score " ++ score ++
      "): " ++ toString v.critical ++ " critical, " ++ toString v.warning ++ " warning"
    String.intercalate "\n" (head :: v.findings.flatMap Finding.lines)

/-- The findings as lines of feedback for the planner. -/
def Verdict.feedback (v : Verdict) : List String :=
  v.findings.flatMap fun f =>
    [(if f.isCritical then "[MUST FIX]" else "[SHOULD FIX]") ++ " " ++ Finding.ruleName f.rule ++
        ": " ++ f.message,
      "  Suggested: " ++ f.remediation]

/-- The number of findings of a rule. -/
def Verdict.countRule (v : Verdict) (rule : Nat) : Nat :=
  v.findings.countP (·.rule == rule)

end PlanReview.Viability
