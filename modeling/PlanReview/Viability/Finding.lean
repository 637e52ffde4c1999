import PlanReview.Plan.Reference

/-!
# Findings of the viability rules

A `Finding` says what a rule found and holds what is needed to word it. Critical findings are
those that keep a plan from being run; the others are warnings.
-/

namespace PlanReview.Viability

/-- What is wrong with an instruction graph. -/
inductive Finding where
  | untestedEdit (edit : String)
  | danglingDependency (id dependency : String)
  | cycle (path : List String)
  | missingFile (path : String)
  | oversizedEdit (id : String) (files : Nat) (limit : Int)
  | vagueSearch (id query : String) (limit : Int)
  | missingParams (id : String) (op : OpCode)
  | unlistedReference (id reference : String)
  | editBeforeTest (id : String)
  | unknownField (id field : String)
  | wrongKind (id param expected kind : String)
  | noDependencies (id : String) (op : OpCode)
  | ungrounded (id : String) (op : OpCode)
  | missingEstimate (id : String) (op : OpCode)
  | missingGoal (id : String) (op : OpCode)
  | missingAgentFields (id : String) (op : OpCode) (names : List String)
  | legacyParams (id : String)
  | noInstructions
  deriving Repr, DecidableEq

namespace Finding

/-- The number of the rule. -/
def rule : Finding → Nat
  | untestedEdit _ => 1
  | danglingDependency .. | cycle _ => 2
  | missingFile _ => 3
  | oversizedEdit .. | vagueSearch .. => 4
  | missingParams .. => 5
  | unlistedReference .. => 6
  | editBeforeTest _ => 7
  | unknownField .. => 8
  | wrongKind .. => 9
  | noDependencies .. | ungrounded .. => 11
  | missingEstimate .. => 12
  | missingGoal .. | missingAgentFields .. | legacyParams _ => 13
  | noInstructions => 14

/-- Whether the finding keeps the plan from being run. -/
def isCritical : Finding → Bool
  | untestedEdit _ | danglingDependency .. | cycle _ | missingFile _ | unlistedReference ..
  | missingGoal .. | legacyParams _ | noInstructions => true
  | _ => false

/-- The instruction that the finding is about, if there is one. -/
def instruction? : Finding → Option String
  | untestedEdit id | danglingDependency id _ | oversizedEdit id .. | vagueSearch id ..
  | missingParams id _ | unlistedReference id _ | editBeforeTest id | unknownField id _
  | wrongKind id .. | noDependencies id _ | ungrounded id _ | missingEstimate id _
  | missingGoal id _ | missingAgentFields id .. | legacyParams id => some id
  | cycle path => path.head?
  | missingFile _ | noInstructions => none

/-- The fields of a step's result, as a list in words. -/
def resultFieldsText : String :=
  String.intercalate ", " Reference.resultFields

/-- What the finding says. -/
def message : Finding → String
  | untestedEdit _ => "Code edit without test verification"
  | danglingDependency id dependency =>
    "Instruction '" ++ id ++ "' depends on non-existent instruction '" ++ dependency ++ "'"
  | cycle path => "Circular dependency detected: " ++ String.intercalate " -> " path
  | missingFile path => "Plan references non-existent file: " ++ path
  | oversizedEdit id files limit =>
    "EDIT_CODE instruction '" ++ id ++ "' touches " ++ toString files ++ " files (max " ++
      toString limit ++ ")"
  | vagueSearch _ query limit =>
    "SEARCH_CODE query '" ++ query ++ "' is too short (min " ++ toString limit ++ " chars)"
  | missingParams id op =>
    "Instruction '" ++ id ++ "' (" ++ op.word ++ ") missing required params"
  | unlistedReference id reference =>
    "Instruction '" ++ id ++ "' references $\x7b" ++ reference ++ ".*\x7d but doesn't depend on '" ++
      reference ++ "'"
  | editBeforeTest id =>
    "EDIT_CODE '" ++ id ++ "' has tests after but not before (violates TDD Red-Green pattern)"
  | unknownField id field =>
    "Instruction '" ++ id ++ "' uses invalid variable field '" ++ field ++ "' - valid fields: [" ++
      resultFieldsText ++ "]"
  | wrongKind id param expected kind =>
    "Instruction '" ++ id ++ "' param '" ++ param ++ "' should be " ++ expected ++ " but got " ++
      kind
  | noDependencies id op =>
    "Execution op '" ++ id ++ "' (" ++ op.word ++
      ") has no dependencies - missing grounding phase"
  | ungrounded id op =>
    "Execution op '" ++ id ++ "' (" ++ op.word ++
      ") has no context-gathering ops in its dependency chain"
  | missingEstimate id op =>
    "Instruction '" ++ id ++ "' (" ++ op.word ++ ") missing estimated_tokens"
  | missingGoal id op =>
    "Instruction '" ++ id ++ "' (" ++ op.word ++ ") missing required 'goal' or 'task' param"
  | missingAgentFields id op names =>
    "Instruction '" ++ id ++ "' (" ++ op.word ++ ") missing AgentTask fields: " ++
      String.intercalate ", " names
  | legacyParams id =>
    "Instruction '" ++ id ++
      "' uses legacy params (action/content_description) instead of AgentTask schema"
  | noInstructions => "Instructions array is empty - plan has no executable instructions"

/-- What to do about the finding. -/
def remediation : Finding → String
  | untestedEdit _ => "Add RUN_TEST instruction after EDIT_CODE to verify changes"
  | danglingDependency _ dependency =>
    "Either remove dependency '" ++ dependency ++ "' or add the missing instruction"
  | cycle _ => "Remove or restructure dependencies to eliminate the cycle"
  | missingFile _ => "Verify file path is correct or add file_reference with action=create"
  | oversizedEdit .. => "Consider splitting into multiple EDIT_CODE instructions"
  | vagueSearch .. => "Use a more specific search query"
  | missingParams _ op => "Add appropriate params for " ++ op.word ++ " operation"
  | unlistedReference _ reference =>
    "Add '" ++ reference ++ "' to dependencies array to ensure proper execution order"
  | editBeforeTest _ =>
    "Add GENERATE_TEST and initial RUN_TEST (expect failure) before EDIT_CODE"
  | unknownField .. => "Use a valid StepResult field: " ++ resultFieldsText
  | wrongKind _ param expected _ => "Change '" ++ param ++ "' to be a " ++ expected
  | noDependencies .. =>
    "Add SEARCH_CODE or READ_FILES before this instruction to gather context"
  | ungrounded .. =>
    "Add SEARCH_CODE or READ_FILES instructions before execution ops to establish context"
  | missingEstimate .. => "Add estimated_tokens field for context budget planning"
  | missingGoal .. =>
    "Add AgentTask params: goal (required), role, context_files, constraints"
  | missingAgentFields _ _ names =>
    "Add missing fields: " ++ String.intercalate ", " names ++
      ". AgentTask expects role, goal, context_files, constraints"
  | legacyParams _ => "Replace with: goal, role, context_files, files, constraints"
  | noInstructions =>
    "Plans MUST have instructions for execution. If viability violations were reported," ++
      " FIX the instructions rather than removing them. Generate instructions following the" ++
      " pattern: SEARCH_CODE -> READ_FILES -> GENERATE_TEST -> RUN_TEST (expect fail)" ++
      " -> EDIT_CODE -> RUN_TEST (expect pass)."

/-- The name of rule `n`. -/
def ruleName (n : Nat) : String :=
  let digits := toString n
  "VIABILITY-" ++ String.ofList (List.replicate (3 - digits.length) '0') ++ digits

/-- The word for how bad the finding is. -/
def severityWord (f : Finding) : String :=
  if f.isCritical then "critical" else "warning"

/-- The document of a finding. -/
def toJson (f : Finding) : Json :=
  .obj [
    ("rule_id", .str (ruleName f.rule)),
    ("severity", .str f.severityWord),
    ("message", .str f.message),
    ("remediation", .str f.remediation),
    ("instruction_id", Json.ofOption .str f.instruction?)]

end Finding

end PlanReview.Viability
