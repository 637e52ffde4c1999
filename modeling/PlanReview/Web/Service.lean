import PlanReview.Artifact.Store
import PlanReview.Session.Overview
import PlanReview.Settings.Basic
import PlanReview.Web.Target

/-!
# The status service

A service that shows sessions and their documents and changes nothing. There is a list of all
sessions, one page for each, and the documents written for people. A target that ends in a slash
leads to the same page as one that does not.
-/

namespace PlanReview.Web

/-- The body of a response. -/
inductive Body where
  | document (value : Json)
  | text (value : String)

/-- A response. -/
structure Response where
  status : Nat := 200
  body : Body

/-- The kind of a body, as a header has it. -/
def Body.kind : Body → String
  | document _ => "application/json"
  | text _ => "text/plain; charset=utf-8"

/-- A response that says what is wrong. -/
def refusal (status : Nat) (detail : String) : Response where
  status := status
  body := .document (.obj [("detail", .str detail)])

/-- The pages of the service. -/
inductive Page where
  | list
  | session (slug : String)
  | document (slug kind : String)

/-- The document that is shown if none is named. -/
def defaultKind : String := "plan"

/-- The parts of a path, without slashes at its end. -/
def partsOf (path : List Char) : List String :=
  let bare := (path.reverse.dropWhile (· == '/')).reverse
  (Text.splitAt '/' bare).map String.ofList

/-- The page that a target leads to. -/
def Page.of? (t : Target) : Option Page :=
  match partsOf t.path with
  | ["", "sessions"] => some .list
  | ["", "sessions", slug] => if slug.isEmpty then none else some (.session slug)
  | ["", "sessions", slug, "plan"] =>
    if slug.isEmpty then none
    else some (.document slug ((t.value? "file").getD defaultKind))
  | _ => none

/-- What the service shows. -/
structure Service where
  settings : Settings

namespace Service

/-- The directory of the sessions. -/
def runsDir (s : Service) : Path :=
  Path.ofString s.settings.output.runsDir

/-- The overview of a session, as a document in which every number is one. -/
def overview (s : Service) (files : FileTree) (now slug : String) : Except Failure Json :=
  let g := s.settings.guardrails
  (Overview.ofSession files now (s.runsDir.child slug)
    ⟨g.scoreThreshold, g.maxIterations, g.maxTotalTokens⟩).map fun o =>
      { o with latestScore := o.latestScore.filter Float.isFinite }.toJson

/-- The list of all sessions. -/
def list (s : Service) (files : FileTree) (now : String) : Except Failure Response := do
  let sessions ← (Overview.sessionNames files s.runsDir).mapM (s.overview files now)
  return { body := .document (.obj [
    ("runs_dir", .str s.runsDir.text), ("sessions", .arr sessions)]) }

/-- A document of a session. -/
def document (s : Service) (files : FileTree) (slug kind : String) : Except Failure Response :=
  match Artifacts.readDocument files (Path.ofString s.settings.output.activeDir) slug kind with
  | .ok (some text) => .ok { body := .text text }
  | .ok none => .ok (refusal 404 ("No " ++ kind ++ " document for " ++ slug))
  | .error (.config fault) => .ok (refusal 400 fault.message)
  | .error f => .error f

/-- What is shown on a page of a session, or that there is no such session. -/
def about (s : Service) (files : FileTree) (slug : String) (answer : Except Failure Response) :
    Except Failure Response :=
  if (Overview.sessionNames files s.runsDir).contains slug then answer
  else .ok (refusal 404 ("Unknown session " ++ slug))

/-- Answer a request. -/
def respond (s : Service) (files : FileTree) (now : String) (t : Target) :
    Except Failure Response :=
  match Page.of? t with
  | none => .ok (refusal 404 "Not Found")
  | some .list => s.list files now
  | some (.session slug) =>
    s.about files slug ((s.overview files now slug).map fun j => { body := .document j })
  | some (.document slug kind) => s.about files slug (s.document files slug kind)

end Service

end PlanReview.Web
