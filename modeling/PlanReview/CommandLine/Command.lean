import PlanReview.CommandLine.Options
import PlanReview.Settings.Environment
import PlanReview.Artifact.Slug

/-!
# Commands

The command line names a command, what the command needs, and settings that override all others.
`Invocation.parse` reads it and `Overrides.apply` puts the settings over those of the file and the
environment : an empty text, like a limit of zero iterations, overrides nothing.
-/

namespace PlanReview.CommandLine

/-- Settings given on the command line. -/
structure Overrides where
  plannerProvider : Option String := none
  plannerModel : Option String := none
  reviewerProvider : Option String := none
  reviewerModel : Option String := none
  maxIterations : Option Int := none
  maxTotalTokens : Option Int := none
  threshold : Option Float := none
  activeDir : Option String := none
  runsDir : Option String := none
  slug : Option String := none

/-- How a session is started or taken up. -/
structure RunArguments where
  task : Option String := none
  path : Option Path := none
  feedback : Option String := none
  workingDir : Option String := none
  offline : Bool := false
  resetTurns : Bool := false

/-- What is to be done. -/
inductive Command where
  | run (arguments : RunArguments)
  | status (path : Path)
  | sessions
  | approve (path : Path)

/-- A command line, understood. -/
structure Invocation where
  command : Command
  config : Option Path := none
  overrides : Overrides := {}

/-- A command line that is not understood : who says so, and why. -/
structure Usage where
  speaker : String
  fault : Fault

/-- The wording of a refusal. -/
def Usage.message (u : Usage) : String :=
  u.speaker ++ ": error: " ++ u.fault.message

/-! ## Overriding -/

/-- Text settings over those of a phase. -/
def overPhase (s : PhaseSettings) (provider model : Option String) : PhaseSettings :=
  { s with
    provider := Environment.orGiven provider s.provider
    model := Environment.orGiven model s.model }

/-- A limit on iterations, unless it is zero. -/
def orIterations (given : Option Int) (default : Int) : Int :=
  match given with
  | some n => if n = 0 then default else n
  | none => default

/-- Put settings of the command line over others. -/
def Overrides.apply (o : Overrides) (s : Settings) : Settings :=
  let s : Settings := {
    planning := overPhase s.planning o.plannerProvider o.plannerModel
    review := overPhase s.review o.reviewerProvider o.reviewerModel
    output := {
      runsDir := (Environment.orGiven o.runsDir none).getD s.output.runsDir
      activeDir := (Environment.orGiven o.activeDir none).getD s.output.activeDir
      slug := match Environment.orGiven o.slug none with
        | some slug => some (slugify slug)
        | none => s.output.slug }
    guardrails := { s.guardrails with
      maxIterations := orIterations o.maxIterations s.guardrails.maxIterations
      maxTotalTokens := o.maxTotalTokens.getD s.guardrails.maxTotalTokens } }
  match o.threshold with
  | some x => s.withThreshold x
  | none => s

/-! ## Reading -/

/-- The option that asks for help. -/
def helpFlag : Flag :=
  { name := "--help", short := some "-h" }

/-- An option with a text as its value. -/
def textFlag (name : String) (required : Bool := false) : Flag :=
  { name := name, value := some .text, required := required }

/-- The options of every command. -/
def flagsOf : List (String × List Flag) := [
  ("run", [
    helpFlag, textFlag "--task", textFlag "--path", textFlag "--feedback",
    textFlag "--working-dir", textFlag "--config", textFlag "--slug",
    textFlag "--planner-provider", textFlag "--planner-model", textFlag "--reviewer-provider",
    textFlag "--reviewer-model", { name := "--max-iterations", value := some .integer },
    { name := "--max-total-tokens", value := some .integer },
    { name := "--threshold", value := some .number }, textFlag "--output", textFlag "--runs-dir",
    { name := "--mock" }, { name := "--reset-turns" }, { name := "--verbose" }]),
  ("status", [helpFlag, textFlag "--path" true, textFlag "--config"]),
  ("sessions", [helpFlag, textFlag "--runs-dir", textFlag "--config"]),
  ("approve", [helpFlag, textFlag "--path" true, textFlag "--output", textFlag "--config"])]

/-- The names of the commands. -/
def commandNames : List String :=
  flagsOf.map Prod.fst

/-- The program's name in its messages. -/
def programName : String := "plan-forge"

/-- Whether an option asks for help. -/
def asksHelp (f : Flag) : Bool :=
  f.name == helpFlag.name

/-- The settings among some options. -/
def Overrides.of (c : Collected) : Overrides where
  plannerProvider := c.text? "--planner-provider"
  plannerModel := c.text? "--planner-model"
  reviewerProvider := c.text? "--reviewer-provider"
  reviewerModel := c.text? "--reviewer-model"
  maxIterations := c.integer? "--max-iterations"
  maxTotalTokens := c.integer? "--max-total-tokens"
  threshold := c.number? "--threshold"
  activeDir := c.text? "--output"
  runsDir := c.text? "--runs-dir"
  slug := c.text? "--slug"

/-- How a session is to be run, from some options. -/
def RunArguments.of (c : Collected) : RunArguments where
  task := c.text? "--task"
  path := (c.text? "--path").map Path.ofString
  feedback := c.text? "--feedback"
  workingDir := c.text? "--working-dir"
  offline := c.has "--mock"
  resetTurns := c.has "--reset-turns"

/-- The command with some options. -/
def commandOf (name : String) (c : Collected) : Command :=
  let path := Path.ofString ((c.text? "--path").getD "")
  match name with
  | "run" => .run (.of c)
  | "status" => .status path
  | "approve" => .approve path
  | _ => .sessions

/-- Read the options of a command. -/
def readOptions (flags : List Flag) (words : List String) : Except Fault Collected := do
  let c ← collect asksHelp (← classify flags words)
  if !c.has helpFlag.name then requireAll flags c
  return c

/-- Read a command and its options; `strays` came before it. Nothing is to be done if help is asked
for. -/
def parseCommand (strays : List String) (name : String) (flags : List Flag)
    (words : List String) : Except Usage (Option Invocation) := do
  let c ← (readOptions flags words).mapError (Usage.mk (programName ++ " " ++ name))
  let strays := strays ++ c.rest
  if c.has helpFlag.name then return none
  if !strays.isEmpty then throw ⟨programName, .unknownWords strays⟩
  return some {
    command := commandOf name c
    config := (c.text? "--config").map Path.ofString
    overrides := .of c }

/-- Whether a word stands before the command. -/
def standsBefore : Word → Bool
  | .plain | .dashes => false
  | _ => true

/-- Read what follows the options before the command. -/
def parseRest (strays : List String) :
    List (String × Word) → Except Usage (Option Invocation)
  | [] | [(_, .dashes)] => .error ⟨programName, .missing ["command"]⟩
  | (name, _) :: words =>
    match flagsOf.lookup name with
    | some flags => parseCommand strays name flags (words.map Prod.fst)
    | none => .error ⟨programName, .unknownCommand name commandNames⟩

/-- Read a command line; nothing is to be done if help is asked for. -/
def Invocation.parse (words : List String) : Except Usage (Option Invocation) := do
  let here {α : Type} (x : Except Fault α) : Except Usage α := x.mapError (Usage.mk programName)
  let words ← here (classify [helpFlag] words)
  let before ← here (collect asksHelp (words.takeWhile fun w => standsBefore w.2))
  if before.has helpFlag.name then return none
  parseRest before.rest (words.dropWhile fun w => standsBefore w.2)

end PlanReview.CommandLine
