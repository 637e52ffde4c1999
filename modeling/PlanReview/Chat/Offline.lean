import PlanReview.Chat.Model
import PlanReview.Json.Literal
import PlanReview.Json.Writer

/-!
# The offline model

A model for use without a network. In the role of a planner it answers with a small complete plan
for the task it finds in the conversation, in the role of a reviewer with a fixed review; without
a role it repeats the last message. Some replies may be laid down in advance; they go first.
-/

namespace PlanReview.Chat

/-- What a model is asked to be. -/
inductive Role where
  | planner | reviewer
  deriving Repr, DecidableEq

/-- The word for a role. -/
def Role.word : Role → String
  | planner => "planner"
  | reviewer => "reviewer"

namespace Offline

/-! ## The plan and the review -/

/-- The title for a task : the head of its first line. -/
def titleOf (task : String) : String :=
  if Text.hasInk task then Text.takeChars 80 (Text.firstLine (Text.strip task))
  else "Offline plan"

/-- The params of work for an agent. -/
def agentTask (goal : String) (files : List String) : Json.Fields := [
  ("goal", .str goal),
  ("role", .str "implementer"),
  ("context_files", .strings files),
  ("constraints", .strings ["keep the change minimal"])]

/-- An instruction's document. -/
def instruction (id op : String) (params : Json.Fields) (dependencies : List String)
    (tokens : Option Nat) : Json :=
  .obj ([("id", .str id), ("op", .str op), ("params", .obj params)] ++
    (if dependencies.isEmpty then [] else [("dependencies", .strings dependencies)]) ++
    (match tokens with
      | some n => [("estimated_tokens", .nat n)]
      | none => []))

/-- The steps for a change : find the code, fail a test, make the change, pass the test. -/
def instructions (title : String) : List Json := [
  instruction "search" "SEARCH_CODE" [("query", .str title)] [] (some 100),
  instruction "read" "READ_FILES" [("paths", .str "$\x7bsearch.artifacts\x7d")] ["search"]
    (some 50),
  instruction "gen_test" "GENERATE_TEST"
    (agentTask "Write a failing test" ["tests"] ++ [("target", .str title)]) ["read"] (some 100),
  instruction "run_test_red" "RUN_TEST" [("target", .str "tests")] ["gen_test"] none,
  instruction "edit" "EDIT_CODE"
    (agentTask title ["src"] ++ [("files", .strings ["src"])]) ["gen_test", "read"] (some 500),
  instruction "run_test_green" "RUN_TEST" [("target", .str "tests")] ["edit"] none]

/-- The only phase of the plan. -/
def phase : Json :=
  .obj [
    ("name", .str "Implementation"),
    ("goal", .str "Make the change behind a failing test"),
    ("tier", .str "core"),
    ("checkpoints", .arr [.obj [
      ("id", .str "cp-1"),
      ("description", .str "Change implemented and tested"),
      ("tasks", .arr [.obj [("description", .str "Write the failing test, then implement")]]),
      ("validation", .str "Test suite passes")]])]

/-- The plan for a task. -/
def plan (task : String) : Json :=
  let title := titleOf task
  let bare := Text.strip task
  .obj [
    ("title", .str title),
    ("description", .str ("Offline plan for: " ++ Text.takeChars 200 bare)),
    ("goal", .str title),
    ("tier", .str "quick"),
    ("context", .obj [("problem_statement", .str (Text.takeChars 500 bare))]),
    ("phases", .arr [phase]),
    ("acceptance_criteria", .arr [.obj [("description", .str "The new test passes")]]),
    ("risks", .arr [.obj [
      ("description", .str "The change touches shared code"),
      ("severity", .str "info"),
      ("mitigation", .str "Run the full test suite")]]),
    ("reasoning", .str "Locate the code, pin the behavior with a test, then implement."),
    ("instructions", .arr (instructions title))]

/-- The review of any plan. -/
def review : Json :=
  .obj [
    ("overall_assessment", .str "Offline review: plan structure looks complete."),
    ("gaps", .arr []),
    ("unclear_areas", .arr []),
    ("suggestions", .arr []),
    ("score", .float 0.9),
    ("requires_human_input", .bool false)]

/-! ## The task in a conversation -/

/-- The task in the text after its label : the line on which the first character stands that is
no blank. If only blanks are left, the last of them that is no line feed is the task. -/
def taskAfter? (text : List Char) : Option (List Char) :=
  match text.dropWhile Text.isBlank with
  | [] => (text.reverse.find? (· != '\n')).map ([·])
  | c :: cs => some ((c :: cs).takeWhile (· != '\n'))

/-- The task after the label `Task:` at the start of a line; `fresh` says that a line starts
here. -/
def statedTask? (fresh : Bool) : List Char → Option (List Char)
  | [] => none
  | c :: cs =>
    let here := if fresh then (Text.afterStart? "Task:".toList (c :: cs)).bind taskAfter? else none
    here.orElse fun _ => statedTask? (c == '\n') cs

/-- The task that a conversation is about : the stated one, or how the conversation begins. -/
def taskOf (conversation : String) : String :=
  match statedTask? true conversation.toList with
  | some task => String.ofList task
  | none => Text.takeChars 80 conversation

/-! ## Replies -/

/-- The text of a content; nothing for one that is empty. -/
def contentText (content : Json) : String :=
  if content.truthy then content.display else ""

/-- The last message in words. -/
def echo (contents : List Json) : String :=
  match contents.getLast? with
  | none => ""
  | some content => content.display

/-- A document as the text of a reply. -/
def documentText (j : Json) : String :=
  Json.write { Json.oneLine with asciiOnly := true } j

/-- The text of the reply to a conversation with some contents. -/
def replyText (role : Option Role) (contents : List Json) (conversation : String) : String :=
  match role with
  | some .planner => documentText (plan (taskOf conversation))
  | some .reviewer => documentText review
  | none => "Mock response to: " ++ echo contents

/-- The reply to a conversation, its usage estimated. -/
def reply (role : Option Role) (contents : List Json) : ModelReply :=
  let conversation := String.intercalate "\n" (contents.map contentText)
  let text := replyText role contents conversation
  { text := some text
    usage := some {
      inputTokens := estimateTokens conversation
      outputTokens := estimateTokens text
      estimated := true } }

/-- The offline model in a role; the replies in `ready` go first. -/
def model (role : Option Role) (ready : List ModelReply := []) : Model := fun n messages =>
  { reply := (messages.mapM contentOf).map fun contents => (ready[n]?).getD (reply role contents) }

end Offline

end PlanReview.Chat
