import PlanReview.Json.Value

/-!
# Plans

A plan is two things at once : a document for people (phases, acceptance criteria, risks) and a
graph of instructions for an executing agent. The graph is given by the instructions' ids and
dependencies; nothing here requires the ids to be distinct or the dependencies to exist, because
finding out is the job of the viability rules.
-/

namespace PlanReview

/-- How far-reaching a plan is. -/
inductive PlanTier where
  | quick | standard | strategic
  deriving Repr, DecidableEq

/-- What a phase contributes. -/
inductive PhaseTier where
  | foundation | core | enhancement | polish
  deriving Repr, DecidableEq

/-- What a plan does with a file. -/
inductive FileAction where
  | create | modify | reference | delete
  deriving Repr, DecidableEq

/-- How much a criterion or suggestion matters. -/
inductive Priority where
  | required | recommended | optional
  deriving Repr, DecidableEq

/-- How bad a finding is. -/
inductive Severity where
  | error | warning | info
  deriving Repr, DecidableEq

/-- The operations of the executing agent. -/
inductive OpCode where
  | searchCode | searchSemantic | readFiles | editCode | generateTest | runTest | runCommand
  | verifyExists | getDependencies | defineTask | verifyTask
  deriving Repr, DecidableEq

/-- The situation a plan starts from. -/
structure PlanContext where
  problemStatement : String := ""
  constraints : List String := []
  assumptions : List String := []
  existingPatterns : List String := []

/-- A piece of work inside a checkpoint. -/
structure Task where
  description : String
  fileReferences : List String := []
  implementationNotes : Option String := none

/-- A verifiable point inside a phase. -/
structure Checkpoint where
  id : String
  description : String := ""
  tasks : List Task := []
  validation : Option String := none

/-- A stage of the plan. -/
structure PlanPhase where
  name : String
  goal : String := ""
  tier : PhaseTier := .core
  checkpoints : List Checkpoint := []
  dependencies : List String := []

/-- A file that the plan names. -/
structure FileReference where
  path : String
  doesExist : Option Bool := none
  action : FileAction := .reference
  description : String := ""

/-- A condition under which the work counts as done. -/
structure AcceptanceCriterion where
  description : String
  testable : Bool := true
  priority : Priority := .required

/-- Something that may go wrong. -/
structure Risk where
  description : String
  severity : Severity := .warning
  mitigation : String := ""

/-- Counters and dates of a plan document. -/
structure PlanMetadata where
  version : Int := 1
  createdAt : String
  lastUpdated : String
  iteration : Int := 1

/-- A node of the instruction graph. The parameters may be any JSON value. -/
structure Instruction where
  id : String
  op : OpCode
  params : Json := .obj []
  dependencies : List String := []
  description : String := ""
  estimatedTokens : Option Int := none

/-- Whether a file that the planner looked up was there. -/
structure VerifiedFile where
  path : String
  doesExist : Bool

/-- Whether a name that the planner looked up resolves. -/
structure VerifiedTarget where
  target : String
  resolves : Bool

/-- A pattern that the planner saw in the code base. -/
structure ExistingPattern where
  pattern : String
  file : String
  line : Option Int := none

/-- What the planner verified before planning. -/
structure GroundingSnapshot where
  verifiedFiles : List VerifiedFile := []
  verifiedTargets : List VerifiedTarget := []
  importConvention : Option String := none
  existingPatterns : List ExistingPattern := []

/-- A verification that has to pass before work goes on. -/
structure GroundingGate where
  id : String
  verification : String
  passCriteria : String := ""
  rule : Option String := none

/-- A plan. -/
structure Plan where
  title : String
  description : String := ""
  goal : Option String := none
  tier : PlanTier := .standard
  context : PlanContext := {}
  phases : List PlanPhase := []
  acceptanceCriteria : List AcceptanceCriterion := []
  fileReferences : List FileReference := []
  risks : List Risk := []
  metadata : PlanMetadata
  reasoning : Option String := none
  operatorRunbook : Option String := none
  groundingGates : List GroundingGate := []
  groundingSnapshot : Option GroundingSnapshot := none
  instructions : Option (List Instruction) := none

/-! ## Names in documents -/

/-- The words for the tiers of a plan. -/
def PlanTier.words : List (String × PlanTier) :=
  [("quick", .quick), ("standard", .standard), ("strategic", .strategic)]

/-- The words for the tiers of a phase. -/
def PhaseTier.words : List (String × PhaseTier) :=
  [("foundation", .foundation), ("core", .core), ("enhancement", .enhancement),
    ("polish", .polish)]

/-- The words for the file actions. -/
def FileAction.words : List (String × FileAction) :=
  [("create", .create), ("modify", .modify), ("reference", .reference), ("delete", .delete)]

/-- The words for the priorities. -/
def Priority.words : List (String × Priority) :=
  [("required", .required), ("recommended", .recommended), ("optional", .optional)]

/-- The words for the severities. -/
def Severity.words : List (String × Severity) :=
  [("error", .error), ("warning", .warning), ("info", .info)]

/-- The names of the operations. -/
def OpCode.words : List (String × OpCode) :=
  [("SEARCH_CODE", .searchCode), ("SEARCH_SEMANTIC", .searchSemantic),
    ("READ_FILES", .readFiles), ("EDIT_CODE", .editCode), ("GENERATE_TEST", .generateTest),
    ("RUN_TEST", .runTest), ("RUN_COMMAND", .runCommand), ("VERIFY_EXISTS", .verifyExists),
    ("GET_DEPENDENCIES", .getDependencies), ("DEFINE_TASK", .defineTask),
    ("VERIFY_TASK", .verifyTask)]

/-- The word for a plan's tier. -/
def PlanTier.word : PlanTier → String
  | quick => "quick"
  | standard => "standard"
  | strategic => "strategic"

/-- The word for a phase's tier. -/
def PhaseTier.word : PhaseTier → String
  | foundation => "foundation"
  | core => "core"
  | enhancement => "enhancement"
  | polish => "polish"

/-- The word for a file action. -/
def FileAction.word : FileAction → String
  | create => "create"
  | modify => "modify"
  | reference => "reference"
  | delete => "delete"

/-- The word for a priority. -/
def Priority.word : Priority → String
  | required => "required"
  | recommended => "recommended"
  | optional => "optional"

/-- The word for a severity. -/
def Severity.word : Severity → String
  | error => "error"
  | warning => "warning"
  | info => "info"

/-- The name of an operation. -/
def OpCode.word : OpCode → String
  | searchCode => "SEARCH_CODE"
  | searchSemantic => "SEARCH_SEMANTIC"
  | readFiles => "READ_FILES"
  | editCode => "EDIT_CODE"
  | generateTest => "GENERATE_TEST"
  | runTest => "RUN_TEST"
  | runCommand => "RUN_COMMAND"
  | verifyExists => "VERIFY_EXISTS"
  | getDependencies => "GET_DEPENDENCIES"
  | defineTask => "DEFINE_TASK"
  | verifyTask => "VERIFY_TASK"

theorem PlanTier.lookup_word (t : PlanTier) : words.lookup t.word = some t := by
  cases t <;> rfl

theorem PhaseTier.lookup_word (t : PhaseTier) : words.lookup t.word = some t := by
  cases t <;> rfl

theorem FileAction.lookup_word (t : FileAction) : words.lookup t.word = some t := by
  cases t <;> rfl

theorem Priority.lookup_word (t : Priority) : words.lookup t.word = some t := by
  cases t <;> rfl

theorem Severity.lookup_word (t : Severity) : words.lookup t.word = some t := by
  cases t <;> rfl

theorem OpCode.lookup_word (t : OpCode) : words.lookup t.word = some t := by
  cases t <;> rfl

/-! ## Operations -/

/-- A fresh plan, written at the time `now`. -/
def Plan.new (now title : String) (description : String := "") (tier : PlanTier := .standard) :
    Plan where
  title := title
  description := description
  tier := tier
  metadata := { createdAt := now, lastUpdated := now }

/-- The goal, or the title of a plan without one. -/
def Plan.effectiveGoal (p : Plan) : String :=
  match p.goal with
  | some g => if g.isEmpty then p.title else g
  | none => p.title

/-- The plan's instructions; a plan without a graph has none. -/
def Plan.steps (p : Plan) : List Instruction :=
  p.instructions.getD []

/-- The plan as its next version, at the time `now`. -/
def Plan.touch (now : String) (p : Plan) : Plan :=
  { p with metadata := { p.metadata with version := p.metadata.version + 1, lastUpdated := now } }

/-- A path is usable if it names something and does not climb. -/
def FileReference.isValid (r : FileReference) : Bool :=
  !r.path.isEmpty && !(r.path.toList.zip (r.path.toList.drop 1)).contains ('.', '.')

/-- The parameter `name`, for an instruction whose parameters are an object. -/
def Instruction.param? (i : Instruction) (name : String) : Option Json :=
  i.params.get? name

end PlanReview
