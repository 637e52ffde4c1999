import PlanReview.CommandLine.Command
import PlanReview.Loop.Setup
import PlanReview.Session.Overview

/-!
# What a run is about

The arguments of `run` name a task, a file with a task, or the directory of a session. A session
with a stored state goes on from it. Without one the latest plan in its directory is taken up, and
what the user says about it is feedback on that plan.
-/

namespace PlanReview.CommandLine

/-- What a run is about : its task and its session, with what to go on from. -/
structure Input where
  task : String
  slug : String
  resume : Option Resume := none
  /-- The user's answer to the session. -/
  response : Option String := none

namespace Input

/-- The text of a file. -/
def textOf (files : FileTree) (file : Path) : Except Failure String :=
  match files.read file with
  | .error e => .error (.crash (.file e))
  | .ok content =>
    match content.readText? with
    | some text => .ok text
    | none => .error (.crash (.undecodable content))

/-- The session that settings name, or the one named after a text. -/
def slugOr (s : Settings) (text : String) : String :=
  (Environment.orGiven s.output.slug none).getD (slugify text)

/-- The input from a file that holds a task. -/
def ofFile (files : FileTree) (s : Settings) (a : RunArguments) (file : Path) :
    Except Failure Input := do
  let content := Text.strip (← textOf files file)
  let task :=
    match Environment.orGiven a.task none with
    | some more => content ++ "\n\nAdditional context: " ++ more
    | none => content
  return { task := task, slug := slugOr s (Text.firstLine task), response := a.feedback }

/-- The file with the latest plan in a directory, and its iteration. -/
def latestPlan (files : FileTree) (dir : Path) : Except Failure (Path × Nat) :=
  let names := if files.isDirectory dir then files.children dir else []
  match Overview.latest "plan-iteration-" names with
  | some (n, name) => .ok (dir.child name, n)
  | none => .error (.config (.noPlanFile dir.text))

/-- The plan in the content of a file, or what is wrong with it. -/
def planIn (now : String) (content : Content) : Except String Plan :=
  match content.readText? with
  | none => .error content.encodingFault
  | some text =>
    match Json.parse text with
    | .error e => .error e.message
    | .ok document => (Plan.ofJson now document).mapError Schema.Invalid.message

/-- The plan in a file; `purpose` says what it is needed for. -/
def readPlan (files : FileTree) (now purpose : String) (file : Path) : Except Failure Plan :=
  match files.read file with
  | .error e => .error (.crash (.file e))
  | .ok content =>
    (planIn now content).mapError fun cause => .config (.unusablePlan purpose file.text cause)

/-- The input from the directory of a session. Only its name counts : the session is the one of
that name among those that the settings place. -/
def ofDirectory (files : FileTree) (now : String) (s : Settings) (a : RunArguments)
    (dir : Path) : Except Failure Input := do
  let slug := (Path.ofParts (dir.resolve files.cwd)).name
  let sessionDir := s.sessionDir slug
  let response := Environment.orGiven a.feedback a.task
  match ← SessionState.load files now sessionDir with
  | some state => return { task := state.task, slug := slug, response := response }
  | none =>
    let (file, n) ← latestPlan files sessionDir
    let plan ← readPlan files now "resume from" file
    let feedback := match Environment.orGiven response none with
      | some text => [userFeedback text]
      | none => []
    return {
      task := (Environment.orGiven a.task none).getD plan.title
      slug := slug
      resume := some { plan := plan, feedback := feedback, startIteration := n + 1 } }

/-- The input from a task alone. -/
def ofTask (s : Settings) (a : RunArguments) : Except Failure Input :=
  match Environment.orGiven a.task none with
  | some task => .ok { task := task, slug := slugOr s task, response := a.feedback }
  | none => .error (.config .nothingToDo)

/-- Work out what a run is about. -/
def resolve (files : FileTree) (now : String) (s : Settings) (a : RunArguments) :
    Except Failure Input :=
  match a.path with
  | none => ofTask s a
  | some path =>
    if files.isFile path then ofFile files s a path
    else if files.isDirectory path then ofDirectory files now s a path
    else .error (.config (.noSuchPath path.text))

end Input

end PlanReview.CommandLine
