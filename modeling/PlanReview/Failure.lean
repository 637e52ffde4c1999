import PlanReview.Files.Tree
import PlanReview.Json.Reader
import PlanReview.Reply.Repair
import PlanReview.Session.State
import PlanReview.Guardrail.Condition

/-!
# Failures

Every way in which an operation can fail, as causes. Each has one wording, given by the `message`
functions; a crash on data of the wrong shape carries its text.
-/

namespace PlanReview

/-- A pause : a human has to answer before the session goes on. -/
structure HumanRequest where
  slug : String
  reason : String
  question : String
  runsDir : String
  activeDir : String
  deriving Repr, DecidableEq

namespace HumanRequest

/-- A directory without the slashes at its end. -/
def trimSlashes (dir : String) : String :=
  String.ofList (Text.dropEndWhile (· == '/') dir.toList)

/-- A request; without a question the reason is asked. -/
def of (slug reason : String) (question : Option String) (runsDir : String := ".plan-forge")
    (activeDir : String := "dev/active") : HumanRequest where
  slug := slug
  reason := reason
  question := SessionState.textOr question reason
  runsDir := trimSlashes runsDir
  activeDir := trimSlashes activeDir

/-- The command that goes on with the session. -/
def resumeCommand (r : HumanRequest) : String :=
  "plan-forge run --path " ++ r.runsDir ++ "/" ++ r.slug ++ " --task \"your response\""

/-- The request in words. -/
def message (r : HumanRequest) : String :=
  "Human input required: " ++ r.reason ++ "\n\nReview the plan at: " ++ r.activeDir ++ "/" ++
    r.slug ++ "/\nResume with: " ++ r.resumeCommand

end HumanRequest

/-- What is wrong with a setting. -/
inductive ConfigFault where
  | notFound (what path : String)
  | badYaml (what path : String)
  | emptyRecipe (path : String)
  | notMapping (context : String)
  | notBoolean (context : String)
  | notString (context : String)
  | notNumber (context : String)
  | notInteger (context : String)
  | unknownFields (context : String) (names : List String)
  | notInUnit (context : String)
  | belowOne (context : String)
  | thresholdsDisagree
  | noInstructions (recipe : String)
  | blankInstructions (recipe : String)
  | unknownProvider (name : String)
  | unknownDocument (kind : String) (expected : List String)
  | noPlanFile (dir : String)
  | unusablePlan (purpose path cause : String)
  | noSuchPath (path : String)
  | nothingToDo
  | noSessionDirectory (path : String)
  | reported (message : String)
  deriving Repr, DecidableEq

/-- The wording of a fault of the settings. -/
def ConfigFault.message : ConfigFault → String
  | notFound what path => what ++ " not found at " ++ path ++ "."
  | badYaml what path => what ++ " at " ++ path ++ " is not valid YAML"
  | emptyRecipe path => "recipe at " ++ path ++ " is empty."
  | notMapping context => context ++ " must be a mapping."
  | notBoolean context => context ++ " must be a boolean."
  | notString context => context ++ " must be a string."
  | notNumber context => context ++ " must be a number."
  | notInteger context => context ++ " must be an integer."
  | unknownFields context names =>
    context ++ " has unknown fields: " ++ String.intercalate ", " names ++ "."
  | notInUnit context => context ++ " must be between 0 and 1."
  | belowOne context => context ++ " must be at least 1."
  | thresholdsDisagree =>
    "review.pass_threshold and guardrails.score_threshold disagree;" ++
      " set only guardrails.score_threshold."
  | noInstructions recipe => "recipe " ++ recipe ++ " missing required instructions."
  | blankInstructions recipe => "recipe " ++ recipe ++ ".instructions must not be empty."
  | unknownProvider name =>
    "Unknown provider " ++ Text.quoted name ++ "; expected mock or openai."
  | unknownDocument kind expected =>
    "Unknown plan file " ++ Text.quoted kind ++ "; expected one of " ++
      String.intercalate ", " expected ++ "."
  | noPlanFile dir => "No plan-iteration-N.json found in " ++ dir
  | unusablePlan purpose path cause => "Cannot " ++ purpose ++ " " ++ path ++ ": " ++ cause
  | noSuchPath path => "Path does not exist: " ++ path
  | nothingToDo => "Either --task or --path is required"
  | noSessionDirectory path => "Session directory does not exist: " ++ path
  | reported message => message

/-- What went wrong with the files of a session. -/
inductive PersistenceFault where
  | unwritable (path : String) (error : FileError)
  | unreadable (path cause : String)
  | notObject (path : String)
  | wrongVersion (path : String) (version : Json)
  | invalidState (path : String) (error : Schema.Invalid)
  | noLock (path : String) (error : FileError)
  | reported (message : String)

/-- The wording of a fault of the files. -/
def PersistenceFault.message : PersistenceFault → String
  | unwritable path error => "Failed to write " ++ path ++ ": " ++ error.message
  | unreadable path cause => "Unreadable state file " ++ path ++ ": " ++ cause
  | notObject path => "State file " ++ path ++ " is not a JSON object"
  | wrongVersion path version =>
    "State file " ++ path ++ " has schema version " ++ version.literal ++ ", expected " ++
      toString schemaVersion
  | invalidState path error => "Invalid state file " ++ path ++ ": " ++ error.message
  | noLock path error => "Cannot create lock for " ++ path ++ ": " ++ error.message
  | reported message => message

/-- Who drives a session that cannot be entered. -/
inductive LockFault where
  | sameProcess (session : String)
  | otherWorker (session : String)
  deriving Repr, DecidableEq

/-- The wording of a fault of a lock. -/
def LockFault.message : LockFault → String
  | sameProcess session => "Session " ++ session ++ " is already running in this process"
  | otherWorker session => "Session " ++ session ++ " is locked by another worker"

/-- What data of the wrong shape runs into, with the words for it. -/
inductive Crash where
  /-- A part was asked of something that has no parts. -/
  | attribute (text : String)
  /-- A value of the wrong kind was used. -/
  | kind (text : String)
  /-- A key was looked up that is not there. -/
  | key (text : String)
  /-- A position was looked up that is not there. -/
  | index (text : String)
  /-- A number was too large. -/
  | overflow (text : String)
  /-- Bytes are not the encoding of a text. -/
  | decoding (text : String)
  /-- A file could not be used. -/
  | file (error : FileError)
  /-- A command line was not understood. -/
  | usage (text : String)

namespace Crash

/-- The crash in words. -/
def message : Crash → String
  | .attribute text | .kind text | .key text | .index text | .overflow text | .decoding text
  | .usage text => text
  | .file error => error.message

/-- A part was asked of a value whose type has none of that name. -/
def noPart (typeName part : String) : Crash :=
  .attribute (Text.quoted typeName ++ " object has no attribute " ++ Text.quoted part)

/-- An item was asked of a value that has no items. -/
def noItems (typeName : String) : Crash :=
  .kind (Text.quoted typeName ++ " object is not subscriptable")

/-- An integer was wanted as a double that is too large for one. -/
def tooLarge : Crash := .overflow "int too large to convert to float"

/-- The content of a file is not the encoding of a text. -/
def undecodable (content : Content) : Crash := .decoding content.encodingFault

end Crash

/-- Why an operation failed. -/
inductive Failure where
  | invalid (error : Schema.Invalid)
  | config (fault : ConfigFault)
  | phase (message : String)
  | persistence (fault : PersistenceFault)
  | locked (fault : LockFault)
  | humanInput (request : HumanRequest)
  | stopped (message : String)
  | reply (fault : Reply.Fault)
  | chat (message : String)
  | value (message : String)
  | runtime (message : String)
  | crash (cause : Crash)

namespace Failure

/-- The failure in words. -/
def message : Failure → String
  | invalid error => error.message
  | config fault => fault.message
  | phase message | stopped message | chat message | value message | runtime message => message
  | persistence fault => fault.message
  | locked fault => fault.message
  | humanInput request => request.message
  | reply fault => fault.message
  | crash cause => cause.message

/-- A stop that cannot be described. -/
def ofIndescribable : HardStop.Indescribable → Failure
  | .noTime => crash (.kind "unsupported format string passed to NoneType.__format__")
  | .notANumber => value "cannot convert float NaN to integer"
  | .infinite => crash (.overflow "cannot convert float infinity to integer")

/-- A stored score that is no number. -/
def ofBadScore : Guardrail.BadScore → Failure
  | .noRecord typeName => crash (.noPart typeName "get")
  | .wrongKind typeName => crash
      (.kind ("float() argument must be a string or a real number, not " ++ Text.quoted typeName))
  | .tooLarge => crash .tooLarge
  | .badText text => value ("could not convert string to float: " ++ Text.quoted text)

/-- Whether the failure is one of the session's own, and not of something it called. -/
def isOwn : Failure → Bool
  | config _ | phase _ | persistence _ | locked _ | humanInput _ | stopped _ => true
  | _ => false

end Failure

end PlanReview
