import PlanReview.Viability.Finding
import PlanReview.Graph.Cycle
import PlanReview.Graph.Reach

/-!
# The viability rules

Each rule reads a list of instructions and returns its findings in the order of the list. The
rules look at the shape of the graph (`missingTest`, `logicalFlow`, `groundingOrder`), at how
data moves through it (`variableRefs`, `testOrder`, `fieldNames`) and at the parameters of single
instructions (`complexity`, `paramsPresence`, `paramsSchema`, `agentTask`, `tokenEstimates`).
-/

namespace PlanReview.Viability

open Finding

/-- The limits of the complexity rule. -/
structure Limits where
  maxFilesPerEdit : Int := 4
  minSearchQueryLength : Int := 3

/-- The limits with values that make no sense moved to the nearest that do. -/
def Limits.clamped (l : Limits) : Limits where
  maxFilesPerEdit := max 1 l.maxFilesPerEdit
  minSearchQueryLength := max 0 l.minSearchQueryLength

/-! ## The graph -/

/-- Operations that gather context. -/
def gathersContext (op : OpCode) : Bool :=
  op = .searchCode || op = .searchSemantic || op = .readFiles || op = .getDependencies

/-- Operations that change or run something. -/
def executes (op : OpCode) : Bool :=
  op = .editCode || op = .runCommand

/-- Rule 14 : there have to be instructions. -/
def empty (instructions : List Instruction) : Option Finding :=
  if instructions.isEmpty then some .noInstructions else none

/-- Rule 1 : a plan that edits code runs a test somewhere. -/
def missingTest (instructions : List Instruction) : Option Finding :=
  match instructions.find? (·.op == .editCode) with
  | none => none
  | some edit =>
    if instructions.any (·.op == .runTest) then none else some (.untestedEdit edit.id)

/-- The dependencies of one instruction that are no instructions. -/
def dangling (known : List String) (i : Instruction) : List Finding :=
  (i.dependencies.filter fun d => !known.contains d).map (.danglingDependency i.id)

/-- Rule 2 : dependencies exist and form no cycle. -/
def logicalFlow (instructions : List Instruction) : List Finding :=
  instructions.flatMap (dangling (Graph.ids instructions)) ++
    ((Graph.findCycle instructions).map Finding.cycle).toList

/-- Whether the dependencies of an executing instruction lead to an operation that gathers
context. -/
def grounding? (instructions : List Instruction) (i : Instruction) : Option Finding :=
  if !executes i.op then none
  else if i.dependencies.isEmpty then some (.noDependencies i.id i.op)
  else if Graph.reaches instructions (fun j => gathersContext j.op) i.id then none
  else some (.ungrounded i.id i.op)

/-- Rule 11 : what executes depends on something that gathers context. -/
def groundingOrder (instructions : List Instruction) : List Finding :=
  instructions.filterMap (grounding? instructions)

/-- Rule 10 : dependencies may serialise instructions, so there is nothing to find. -/
def parallelism (_ : List Instruction) : List Finding :=
  []

/-! ## Data flow -/

/-- The references of one instruction to known instructions it does not depend on. -/
def unlisted (known : List String) (i : Instruction) : List Finding :=
  (i.referencedIds.filter fun r => known.contains r && !i.dependencies.contains r).map
    (.unlistedReference i.id)

/-- Rule 6 : who refers to an instruction depends on it. -/
def variableRefs (instructions : List Instruction) : List Finding :=
  instructions.flatMap (unlisted (Graph.ids instructions))

/-- The edits in a list that tests follow but none was generated before; `tested` says whether
one was generated before the list. -/
def testOrderFrom (tested : Bool) : List Instruction → List Finding
  | [] => []
  | i :: rest =>
    (if i.op == .editCode && !tested && rest.any (·.op == .runTest) then [.editBeforeTest i.id]
     else []) ++ testOrderFrom (tested || i.op == .generateTest) rest

/-- Rule 7 : an edit that is tested has its test written first. -/
def testOrder (instructions : List Instruction) : List Finding :=
  testOrderFrom false instructions

/-- The references of one instruction to fields that no result has. -/
def unknownFields (i : Instruction) : List Finding :=
  ((Reference.Pattern.field.scan i.paramsText).filter fun r =>
    !Reference.resultFields.contains r.field).map fun r => .unknownField i.id r.field

/-- Rule 8 : references name fields that results have. -/
def fieldNames (instructions : List Instruction) : List Finding :=
  instructions.flatMap unknownFields

/-! ## Parameters -/

/-- Whether the parameters have one of the names. -/
def hasAny (i : Instruction) (names : List String) : Bool :=
  names.any fun name => (i.param? name).isSome

/-- Whether the parameters that an operation needs are there; every other operation needs
none. -/
def paramsPresent (i : Instruction) : Bool :=
  match i.op with
  | .searchCode | .searchSemantic => hasAny i ["query"]
  | .readFiles => hasAny i ["paths"] || Reference.mayRefer i.paramsText
  | .editCode => hasAny i ["goal", "files"]
  | .runTest | .generateTest => hasAny i ["target", "behavior"] || Reference.mayRefer i.paramsText
  | .runCommand => hasAny i ["command"]
  | .verifyExists => hasAny i ["path"]
  | _ => true

/-- Rule 5 : an operation has the parameters it needs. -/
def paramsPresence (instructions : List Instruction) : List Finding :=
  (instructions.filter fun i => !paramsPresent i).map fun i => .missingParams i.id i.op

/-- What a parameter has to be. -/
inductive Expectation where
  | string
  | count
  | array
  | arrayOrString

/-- Whether the value is a natural number. -/
def isCount : Json → Bool
  | .int n => 0 ≤ n
  | _ => false

/-- Whether the value is an array or stands for one. -/
def isArray : Json → Bool
  | .arr _ => true
  | j => Reference.isReference j

/-- Whether a value is what is expected. -/
def Expectation.accepts : Expectation → Json → Bool
  | string, j => j.str?.isSome
  | count, j => isCount j
  | array, j => isArray j
  | arrayOrString, .arr _ => true
  | arrayOrString, j => j.str?.isSome

/-- The parameters of an operation : their names, what they have to be, and how that is said. -/
def paramSchema : OpCode → List (String × Expectation × String)
  | .searchCode | .searchSemantic => [("query", .string, "string"), ("limit", .count, "number")]
  | .readFiles => [("paths", .arrayOrString, "array or string or variable reference")]
  | .editCode => [("goal", .string, "string"), ("files", .array, "array or variable reference")]
  | .runCommand => [("command", .string, "string")]
  | .runTest | .generateTest =>
    [("target", .string, "string or variable reference"), ("behavior", .string, "string")]
  | .verifyExists | .getDependencies => [("path", .string, "string or variable reference")]
  | .defineTask | .verifyTask => []

/-- The parameters of one instruction that are not what they have to be. -/
def wrongKinds (i : Instruction) : List Finding :=
  (paramSchema i.op).filterMap fun (name, expectation, expected) =>
    match i.param? name with
    | some v =>
      if expectation.accepts v then none else some (.wrongKind i.id name expected v.kindName)
    | none => none

/-- Rule 9 : parameters have the kind that the operation expects. -/
def paramsSchema (instructions : List Instruction) : List Finding :=
  instructions.flatMap wrongKinds

/-- What is too large or too vague about one instruction. -/
def complexity? (limits : Limits) (i : Instruction) : Option Finding :=
  match i.op, i.param? "files", i.param? "query" with
  | .editCode, some (.arr files), _ =>
    if limits.maxFilesPerEdit < files.length then
      some (.oversizedEdit i.id files.length limits.maxFilesPerEdit)
    else none
  | .searchCode, _, some (.str query) =>
    if query.length < limits.minSearchQueryLength then
      some (.vagueSearch i.id query limits.minSearchQueryLength)
    else none
  | _, _, _ => none

/-- Rule 4 : edits touch few files and searches say what they look for. -/
def complexity (limits : Limits) (instructions : List Instruction) : List Finding :=
  instructions.filterMap (complexity? limits)

/-- Operations whose cost has to be estimated. -/
def needsEstimate (op : OpCode) : Bool :=
  op = .editCode || op = .readFiles || op = .searchCode || op = .searchSemantic ||
    op = .generateTest

/-- Rule 12 : costly operations carry an estimate. -/
def tokenEstimates (instructions : List Instruction) : List Finding :=
  (instructions.filter fun i => needsEstimate i.op && i.estimatedTokens.isNone).map fun i =>
    .missingEstimate i.id i.op

/-- The optional parameters of a task for the agent. -/
def agentFields : List String :=
  ["role", "context_files", "constraints"]

/-- The goal of a task for the agent : under `goal`, or under `task` without one. -/
def goal? (i : Instruction) : Option String :=
  match i.param? "goal" with
  | some v => v.str?
  | none => (i.param? "task").bind Json.str?

/-- What is wrong with the parameters of a task for the agent. -/
def agentTaskFindings (i : Instruction) : List Finding :=
  let missing := agentFields.filter fun name => (i.param? name).isNone
  (if (goal? i).isNone then [.missingGoal i.id i.op] else []) ++
  (if missing.isEmpty then [] else [.missingAgentFields i.id i.op missing]) ++
  (if hasAny i ["action", "content_description"] then [.legacyParams i.id] else [])

/-- Rule 13 : edits and tests to be written are given as tasks for the agent. -/
def agentTask (instructions : List Instruction) : List Finding :=
  (instructions.filter fun i => i.op == .editCode || i.op == .generateTest).flatMap
    agentTaskFindings

/-! ## Files -/

/-- Rule 3 : a file that was looked up and is missing is created by the plan. -/
def fileGrounding (snapshot : GroundingSnapshot) (references : List FileReference) :
    List Finding :=
  (snapshot.verifiedFiles.filter fun f =>
    !f.doesExist && !references.any fun r => r.action == .create && r.path == f.path).map fun f =>
      .missingFile f.path

end PlanReview.Viability
