import PlanReview.Artifact.Markdown
import PlanReview.Review.Basic
import PlanReview.Workspace.Basic

/-!
# Artifacts of a session

The plan and the review of every iteration are written to the session's directory. A plan that
ends or pauses a run is written as three markdown documents to a directory for people to read
(`taskDir`), with its instructions beside them, and once more to the session's directory.
-/

namespace PlanReview

/-- What is written besides the state. -/
inductive Artifact where
  | plan (iteration : Int)
  | review (iteration : Int)
  | final
  deriving Repr, DecidableEq

/-- Where the artifacts of a session go. -/
structure Artifacts where
  sessionDir : Path
  activeDir : Path
  slug : String
  /-- Why an artifact cannot be written, apart from what the files say. -/
  refuses : Artifact → Option String := fun _ => none

namespace Artifacts

/-- The file with the plan of an iteration. -/
def planFile (a : Artifacts) (iteration : Int) : Path :=
  a.sessionDir.child ("plan-iteration-" ++ toString iteration ++ ".json")

/-- The file with the review of an iteration. -/
def reviewFile (a : Artifacts) (iteration : Int) : Path :=
  a.sessionDir.child ("review-iteration-" ++ toString iteration ++ ".json")

/-- The file with the plan that ended or paused a run. -/
def finalFile (a : Artifacts) : Path :=
  a.sessionDir.child (a.slug ++ "-final.json")

/-- The directory of the documents. -/
def taskDir (a : Artifacts) : Path :=
  a.activeDir.child a.slug

/-- The file of the document of a kind. -/
def documentFile (activeDir : Path) (slug kind : String) : Path :=
  (activeDir.child slug).child (slug ++ "-" ++ kind ++ ".md")

/-- The text of a JSON artifact. -/
def jsonText (j : Json) : String :=
  Json.write Json.indented j

/-- The instructions of a plan with what they are for. -/
def graphDocument (p : Plan) (instructions : List Instruction) : Json :=
  .obj [
    ("goal", .str p.effectiveGoal),
    ("reasoning", Json.ofOption .str p.reasoning),
    ("instructions", .list Instruction.toJson instructions)]

/-- The file with the instructions, for a plan that has any. -/
def graphPart (a : Artifacts) (p : Plan) : List (Path × String) :=
  match p.steps with
  | [] => []
  | i :: is => [(a.taskDir.child (a.slug ++ "-dag.json"), jsonText (graphDocument p (i :: is)))]

/-- The files for a plan that ends or pauses a run, in the order in which they are written. -/
def finalParts (a : Artifacts) (p : Plan) (status : FinalStatus) (score : Option Float) :
    List (Path × String) :=
  [(documentFile a.activeDir a.slug "plan", Markdown.plan p status score),
    (documentFile a.activeDir a.slug "tasks", Markdown.tasks p),
    (documentFile a.activeDir a.slug "context", Markdown.context p)] ++
  a.graphPart p ++ [(a.finalFile, jsonText p.toJson)]

/-! ## Writing -/

/-- Fail because a file cannot be written. -/
def orUnwritable (file : Path) : Except FileError Unit → Act Unit
  | .ok () => pure ()
  | .error e => throw (.persistence (.unwritable file.text e))

/-- Write a file, and make the directories that lead to it. -/
def writePart (file : Path) (text : String) : Act Unit := do
  orUnwritable file (← Act.makeDirectories file.parent)
  orUnwritable file (← Act.writeText file text)

/-- Write some files, the first of them first. -/
def writeParts : List (Path × String) → Act Unit
  | [] => pure ()
  | (file, text) :: rest => do
    writePart file text
    writeParts rest

/-- Fail if an artifact is refused. -/
def allow (a : Artifacts) (artifact : Artifact) : Act Unit :=
  match a.refuses artifact with
  | some reason => throw (.persistence (.reported reason))
  | none => pure ()

/-- Write the plan of an iteration. -/
def writePlan (a : Artifacts) (p : Plan) (iteration : Int) : Act Unit := do
  a.allow (.plan iteration)
  writePart (a.planFile iteration) (jsonText p.toJson)

/-- Write the review of an iteration. -/
def writeReview (a : Artifacts) (r : Review) (iteration : Int) : Act Unit := do
  a.allow (.review iteration)
  writePart (a.reviewFile iteration) (jsonText r.toJson)

/-- Write a plan that ends or pauses a run. -/
def writeFinal (a : Artifacts) (p : Plan) (status : FinalStatus) (score : Option Float) :
    Act Unit := do
  a.allow .final
  writeParts (a.finalParts p status score)

/-! ## Reading -/

/-- The kinds of documents. -/
def documentKinds : List String := ["plan", "tasks", "context"]

/-- A document for people, if it was ever written. -/
def readDocument (files : FileTree) (activeDir : Path) (slug kind : String) :
    Except Failure (Option String) :=
  if !documentKinds.contains kind then
    .error (.config (.unknownDocument kind documentKinds))
  else
    match files.find? (documentFile activeDir slug kind) with
    | some (.file content) =>
      match content.readText? with
      | some text => .ok (some text)
      | none => .error (.crash (.undecodable content))
    | _ => .ok none

end Artifacts

end PlanReview
