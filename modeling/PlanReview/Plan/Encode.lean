import PlanReview.Plan.Basic

/-!
# Writing plans

Every record writes all its fields, in the order of the record; an absent value is null. What is
written here is what the decoders read (`Plan.decode`).
-/

namespace PlanReview

open Json (ofOption strings)

/-- An array of encoded items. -/
def Json.list {α : Type} (write : α → Json) (items : List α) : Json :=
  .arr (items.map write)

/-- The document of a plan's context. -/
def PlanContext.toJson (c : PlanContext) : Json :=
  .obj [
    ("problem_statement", .str c.problemStatement),
    ("constraints", strings c.constraints),
    ("assumptions", strings c.assumptions),
    ("existing_patterns", strings c.existingPatterns)]

/-- The document of a task. -/
def Task.toJson (t : Task) : Json :=
  .obj [
    ("description", .str t.description),
    ("file_references", strings t.fileReferences),
    ("implementation_notes", ofOption .str t.implementationNotes)]

/-- The document of a checkpoint. -/
def Checkpoint.toJson (c : Checkpoint) : Json :=
  .obj [
    ("id", .str c.id),
    ("description", .str c.description),
    ("tasks", .list Task.toJson c.tasks),
    ("validation", ofOption .str c.validation)]

/-- The document of a phase. -/
def PlanPhase.toJson (p : PlanPhase) : Json :=
  .obj [
    ("name", .str p.name),
    ("goal", .str p.goal),
    ("tier", .str p.tier.word),
    ("checkpoints", .list Checkpoint.toJson p.checkpoints),
    ("dependencies", strings p.dependencies)]

/-- The document of a file reference. -/
def FileReference.toJson (r : FileReference) : Json :=
  .obj [
    ("path", .str r.path),
    ("exists", ofOption .bool r.doesExist),
    ("action", .str r.action.word),
    ("description", .str r.description)]

/-- The document of an acceptance criterion. -/
def AcceptanceCriterion.toJson (c : AcceptanceCriterion) : Json :=
  .obj [
    ("description", .str c.description),
    ("testable", .bool c.testable),
    ("priority", .str c.priority.word)]

/-- The document of a risk. -/
def Risk.toJson (r : Risk) : Json :=
  .obj [
    ("description", .str r.description),
    ("severity", .str r.severity.word),
    ("mitigation", .str r.mitigation)]

/-- The document of a plan's counters and dates. -/
def PlanMetadata.toJson (m : PlanMetadata) : Json :=
  .obj [
    ("version", .int m.version),
    ("created_at", .str m.createdAt),
    ("last_updated", .str m.lastUpdated),
    ("iteration", .int m.iteration)]

/-- The document of an instruction; parameters that are no finite numbers are null in it. -/
def Instruction.toJson (i : Instruction) : Json :=
  .obj [
    ("id", .str i.id),
    ("op", .str i.op.word),
    ("params", i.params.finite),
    ("dependencies", strings i.dependencies),
    ("description", .str i.description),
    ("estimated_tokens", ofOption .int i.estimatedTokens)]

/-- The document of a verified file. -/
def VerifiedFile.toJson (f : VerifiedFile) : Json :=
  .obj [("path", .str f.path), ("exists", .bool f.doesExist)]

/-- The document of a verified name. -/
def VerifiedTarget.toJson (t : VerifiedTarget) : Json :=
  .obj [("target", .str t.target), ("resolves", .bool t.resolves)]

/-- The document of a pattern. -/
def ExistingPattern.toJson (p : ExistingPattern) : Json :=
  .obj [
    ("pattern", .str p.pattern),
    ("file", .str p.file),
    ("line", ofOption .int p.line)]

/-- The document of a grounding snapshot. -/
def GroundingSnapshot.toJson (s : GroundingSnapshot) : Json :=
  .obj [
    ("verified_files", .list VerifiedFile.toJson s.verifiedFiles),
    ("verified_targets", .list VerifiedTarget.toJson s.verifiedTargets),
    ("import_convention", ofOption .str s.importConvention),
    ("existing_patterns", .list ExistingPattern.toJson s.existingPatterns)]

/-- The document of a grounding gate. -/
def GroundingGate.toJson (g : GroundingGate) : Json :=
  .obj [
    ("id", .str g.id),
    ("verification", .str g.verification),
    ("pass_criteria", .str g.passCriteria),
    ("rule", ofOption .str g.rule)]

/-- The fields of a plan's document. -/
def Plan.fields (p : Plan) : Json.Fields := [
  ("title", .str p.title),
  ("description", .str p.description),
  ("goal", ofOption .str p.goal),
  ("tier", .str p.tier.word),
  ("context", p.context.toJson),
  ("phases", .list PlanPhase.toJson p.phases),
  ("acceptance_criteria", .list AcceptanceCriterion.toJson p.acceptanceCriteria),
  ("file_references", .list FileReference.toJson p.fileReferences),
  ("risks", .list Risk.toJson p.risks),
  ("metadata", p.metadata.toJson),
  ("reasoning", ofOption .str p.reasoning),
  ("operator_runbook", ofOption .str p.operatorRunbook),
  ("grounding_gates", .list GroundingGate.toJson p.groundingGates),
  ("grounding_snapshot", ofOption GroundingSnapshot.toJson p.groundingSnapshot),
  ("instructions", ofOption (Json.list Instruction.toJson) p.instructions)]

/-- The document of a plan. -/
def Plan.toJson (p : Plan) : Json :=
  .obj p.fields

end PlanReview
