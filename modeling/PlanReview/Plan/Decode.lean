import PlanReview.Plan.Basic
import PlanReview.Schema.Decoder

/-!
# Reading plans

The decoders of the plan's records, field by field in the order of the records. A plan whose
document carries no dates gets the time `now` of reading.
-/

namespace PlanReview

open Schema

/-- Read the situation a plan starts from. -/
def PlanContext.decode : Decoder PlanContext :=
  record "PlanContext" fun fs =>
    PlanContext.mk <$> optional fs "problem_statement" "" string
      <*> optional fs "constraints" [] (list string)
      <*> optional fs "assumptions" [] (list string)
      <*> optional fs "existing_patterns" [] (list string)

/-- Read a task. -/
def Task.decode : Decoder Task :=
  record "Task" fun fs =>
    Task.mk <$> required fs "description" string
      <*> optional fs "file_references" [] (list string)
      <*> optional fs "implementation_notes" none (nullable string)

/-- Read a checkpoint. -/
def Checkpoint.decode : Decoder Checkpoint :=
  record "Checkpoint" fun fs =>
    Checkpoint.mk <$> required fs "id" string
      <*> optional fs "description" "" string
      <*> optional fs "tasks" [] (list Task.decode)
      <*> optional fs "validation" none (nullable string)

/-- Read a phase. -/
def PlanPhase.decode : Decoder PlanPhase :=
  record "PlanPhase" fun fs =>
    PlanPhase.mk <$> required fs "name" string
      <*> optional fs "goal" "" string
      <*> optional fs "tier" .core (choice PhaseTier.words)
      <*> optional fs "checkpoints" [] (list Checkpoint.decode)
      <*> optional fs "dependencies" [] (list string)

/-- Read a file reference. -/
def FileReference.decode : Decoder FileReference :=
  record "FileReference" fun fs =>
    FileReference.mk <$> required fs "path" string
      <*> optional fs "exists" none (nullable bool)
      <*> optional fs "action" .reference (choice FileAction.words)
      <*> optional fs "description" "" string

/-- Read an acceptance criterion. -/
def AcceptanceCriterion.decode : Decoder AcceptanceCriterion :=
  record "AcceptanceCriterion" fun fs =>
    AcceptanceCriterion.mk <$> required fs "description" string
      <*> optional fs "testable" true bool
      <*> optional fs "priority" .required (choice Priority.words)

/-- Read a risk. -/
def Risk.decode : Decoder Risk :=
  record "Risk" fun fs =>
    Risk.mk <$> required fs "description" string
      <*> optional fs "severity" .warning (choice Severity.words)
      <*> optional fs "mitigation" "" string

/-- Read a plan's counters and dates. -/
def PlanMetadata.decode (now : String) : Decoder PlanMetadata :=
  record "PlanMetadata" fun fs =>
    PlanMetadata.mk <$> optional fs "version" 1 int
      <*> optional fs "created_at" now string
      <*> optional fs "last_updated" now string
      <*> optional fs "iteration" 1 int

/-- Read an instruction. -/
def Instruction.decode : Decoder Instruction :=
  record "Instruction" fun fs =>
    Instruction.mk <$> required fs "id" string
      <*> required fs "op" (member OpCode.words)
      <*> optional fs "params" (.obj []) any
      <*> optional fs "dependencies" [] (list string)
      <*> optional fs "description" "" string
      <*> optional fs "estimated_tokens" none (nullable int)

/-- Read a verified file. -/
def VerifiedFile.decode : Decoder VerifiedFile :=
  record "VerifiedFile" fun fs =>
    VerifiedFile.mk <$> required fs "path" string <*> required fs "exists" bool

/-- Read a verified name. -/
def VerifiedTarget.decode : Decoder VerifiedTarget :=
  record "VerifiedTarget" fun fs =>
    VerifiedTarget.mk <$> required fs "target" string <*> required fs "resolves" bool

/-- Read a pattern. -/
def ExistingPattern.decode : Decoder ExistingPattern :=
  record "ExistingPattern" fun fs =>
    ExistingPattern.mk <$> required fs "pattern" string
      <*> required fs "file" string
      <*> optional fs "line" none (nullable int)

/-- Read a grounding snapshot. -/
def GroundingSnapshot.decode : Decoder GroundingSnapshot :=
  record "GroundingSnapshot" fun fs =>
    GroundingSnapshot.mk <$> optional fs "verified_files" [] (list VerifiedFile.decode)
      <*> optional fs "verified_targets" [] (list VerifiedTarget.decode)
      <*> optional fs "import_convention" none (nullable string)
      <*> optional fs "existing_patterns" [] (list ExistingPattern.decode)

/-- Read a grounding gate. -/
def GroundingGate.decode : Decoder GroundingGate :=
  record "GroundingGate" fun fs =>
    GroundingGate.mk <$> required fs "id" string
      <*> required fs "verification" string
      <*> optional fs "pass_criteria" "" string
      <*> optional fs "rule" none (nullable string)

/-- Read a plan. -/
def Plan.decode (now : String) : Decoder Plan :=
  record "Plan" fun fs =>
    Plan.mk <$> required fs "title" string
      <*> optional fs "description" "" string
      <*> optional fs "goal" none (nullable string)
      <*> optional fs "tier" .standard (choice PlanTier.words)
      <*> optional fs "context" {} PlanContext.decode
      <*> optional fs "phases" [] (list PlanPhase.decode)
      <*> optional fs "acceptance_criteria" [] (list AcceptanceCriterion.decode)
      <*> optional fs "file_references" [] (list FileReference.decode)
      <*> optional fs "risks" [] (list Risk.decode)
      <*> optional fs "metadata" ⟨1, now, now, 1⟩ (PlanMetadata.decode now)
      <*> optional fs "reasoning" none (nullable string)
      <*> optional fs "operator_runbook" none (nullable string)
      <*> optional fs "grounding_gates" [] (list GroundingGate.decode)
      <*> optional fs "grounding_snapshot" none (nullable GroundingSnapshot.decode)
      <*> optional fs "instructions" none (nullable (list Instruction.decode))

/-- Read a plan from a whole document. -/
def Plan.ofJson (now : String) (document : Json) : Except Invalid Plan :=
  (Plan.decode now document).report "Plan"

end PlanReview
