import PlanReview.Session.Store

/-!
# Overview of a session

What can be said about a session from its files alone. The stored state decides if there is one;
a state that cannot be loaded is itself reported as a hard stop. Without a state the newest plan
and the newest review among the artifacts decide.
-/

namespace PlanReview

open Schema
open Json (ofOption)

/-- What a session looks like from outside. -/
inductive OverviewKind where
  | ready | inProgress | needsInput | approved | bestEffort | maxTurns | paused | hardStopped
  deriving Repr, DecidableEq

/-- The word for what a session looks like. -/
def OverviewKind.word : OverviewKind → String
  | ready => "ready"
  | inProgress => "in_progress"
  | needsInput => "needs_input"
  | approved => "approved"
  | bestEffort => "best_effort"
  | maxTurns => "max_turns"
  | paused => "paused_for_human_input"
  | hardStopped => "hard_stopped"

/-- What a session looks like, with the question it waits on or the stop that ended it. -/
structure OverviewStatus where
  kind : OverviewKind
  question : Option String := none
  category : Option String := none
  hardStop : Option HardStop := none

/-- The overview of a session. -/
structure Overview where
  sessionId : String
  sessionDir : String
  iteration : Int := 0
  status : OverviewStatus
  latestScore : Option Float := none
  inputReason : Option String := none
  title : Option String := none
  totalTokens : Option Int := none
  tokensRemaining : Option Int := none

/-- What the overview is measured against. -/
structure OverviewLimits where
  threshold : Float := 0.8
  maxIterations : Int := 10
  maxTotalTokens : Int := 500000

/-- The document of what a session looks like. -/
def OverviewStatus.toJson (s : OverviewStatus) : Json :=
  .obj [
    ("kind", .str s.kind.word),
    ("question", ofOption .str s.question),
    ("category", ofOption .str s.category),
    ("hard_stop", ofOption HardStop.toJson s.hardStop)]

namespace Overview

/-- The document of an overview. -/
def toJson (o : Overview) : Json :=
  .obj [
    ("session_id", .str o.sessionId),
    ("session_dir", .str o.sessionDir),
    ("iteration", .int o.iteration),
    ("status", o.status.toJson),
    ("latest_score", ofOption .float o.latestScore),
    ("input_reason", ofOption .str o.inputReason),
    ("title", ofOption .str o.title),
    ("total_tokens", ofOption .int o.totalTokens),
    ("tokens_remaining", ofOption .int o.tokensRemaining)]

/-- A score and a reason of unknown kinds, read as those of an overview. -/
def readParts (score reason : Json) : Except Invalid (Option Float × Option String) :=
  (Checked.ap ((nullable float score).under (.field "latest_score") |>.map Prod.mk)
    ((nullable string reason).under (.field "input_reason"))).report "SessionInfo"

/-- The title of a plan's document. -/
def titleOf : Json → Option String
  | .obj fields => (fields.lookup "title").bind Json.str?
  | _ => none

/-! ## From the stored state -/

/-- The tokens that may still be used; nothing if there is no limit. -/
def remaining (used limit : Int) : Option Int :=
  if limit < 0 then none else some (max 0 (limit - used))

/-- What the status of a session looks like from outside. -/
def statusOf (s : Status) : OverviewStatus :=
  match s.kind with
  | .ready => { kind := .ready }
  | .running => { kind := .inProgress }
  | .completed => { kind := .approved }
  | .bestEffort => { kind := .bestEffort }
  | .paused => { kind := .needsInput }
  | .hardStopped => { kind := .hardStopped, hardStop := s.hardStop }
  | .failed =>
    { kind := .hardStopped
      hardStop := some (.ofError (SessionState.textOr s.error "unknown error")) }

/-- What a session looks like : a pending question goes before everything else. -/
def statusOfState (s : SessionState) : OverviewStatus :=
  match s.pendingHumanInput with
  | some h => { kind := .paused, question := some h.question, category := some h.category }
  | none => statusOf s.status

/-- The score in a review's document. -/
def scoreOf (review : Json.Fields) : Except Failure Json :=
  match (review.lookup "llm_review").getD (.obj []) with
  | .obj fields => .ok ((fields.lookup "score").getD .null)
  | record => .error (.crash (.noPart record.typeName "get"))

/-- The score of the last review. -/
def lastScoreOf (s : SessionState) : Except Failure Json :=
  match s.reviews.getLast? with
  | none => .ok .null
  | some review => scoreOf review

/-- Why a session waits or has stopped. -/
def reasonOf (s : SessionState) : Option String :=
  match s.pendingHumanInput.bind (·.reason) with
  | some reason => if reason.isEmpty then s.status.reason else some reason
  | none => s.status.reason

/-- The overview of a session with a stored state. -/
def ofState (dir : Path) (limits : OverviewLimits) (s : SessionState) :
    Except Failure Overview := do
  let (score, reason) ←
    (readParts (← lastScoreOf s) (ofOption .str (reasonOf s))).mapError Failure.invalid
  return {
    sessionId := dir.name
    sessionDir := dir.text
    iteration := s.iteration
    status := statusOfState s
    latestScore := score
    inputReason := reason
    title := titleOf (ofOption .obj s.currentPlan)
    totalTokens := some s.totalTokens
    tokensRemaining := remaining s.totalTokens limits.maxTotalTokens }

/-- The overview of a session whose state cannot be loaded. -/
def ofFault (dir : Path) (message : String) : Overview where
  sessionId := dir.name
  sessionDir := dir.text
  status := { kind := .hardStopped, hardStop := some (.ofError message) }

/-! ## From the artifacts -/

/-- The number in a name between `start` and `.json`; a line feed may follow. -/
def iterationOf? (start name : String) : Option Nat :=
  match Text.afterStart? start.toList name.toList with
  | none => none
  | some rest =>
    let digits := rest.takeWhile Text.isDecimal
    let ending := rest.dropWhile Text.isDecimal
    if digits.isEmpty then none
    else if ending = ".json".toList || ending = ".json\n".toList then
      some (Decimal.natOfDigits (digits.filterMap Text.digitValue?))
    else none

/-- The later of two numbered names; of two with one number the first. -/
def later (best : Option (Nat × String)) (n : Nat) (name : String) : Option (Nat × String) :=
  match best with
  | none => some (n, name)
  | some (m, _) => if m < n then some (n, name) else best

/-- The highest number among the names that begin with `start`, and its name. -/
def latest (start : String) (names : List String) : Option (Nat × String) :=
  names.foldl (fun best name =>
    match iterationOf? start name with
    | some n => later best n name
    | none => best) none

/-- The highest number above zero among the artifacts of a session, and the name that has it. -/
def latestArtifact (files : FileTree) (dir : Path) (start : String) : Option (Nat × String) :=
  if files.isDirectory dir then (latest start (files.children dir)).filter fun e => 0 < e.1
  else none

/-- The document in a file; nothing if there is none that can be read. -/
def documentAt (files : FileTree) (file : Path) : Except Failure (Option Json) :=
  match files.read file with
  | .error _ => .ok none
  | .ok content =>
    match content.readText? with
    | none => .error (.crash (.undecodable content))
    | some text =>
      match Json.parse text with
      | .error _ => .ok none
      | .ok j => .ok (some j)

/-- Whether a score is a number that reaches the threshold. -/
def reaches (threshold : Float) (score : Json) : Bool :=
  match score.number? with
  | some x => x ≥ threshold
  | none => false

/-- What a session looks like after the review number `iteration` with this assessment. -/
def kindAfter (limits : OverviewLimits) (iteration : Nat) (assessment : Json.Fields) :
    OverviewKind :=
  if ((assessment.lookup "requires_human_input").getD .null).truthy then .needsInput
  else if reaches limits.threshold ((assessment.lookup "score").getD .null) then .approved
  else if limits.maxIterations ≤ iteration then .maxTurns
  else .inProgress

/-- Why an assessment needs a human, if it does. -/
def reasonAfter (assessment : Json.Fields) : Json :=
  if ((assessment.lookup "requires_human_input").getD .null).truthy then
    (assessment.lookup "human_input_reason").getD .null
  else .null

/-- The fields of the assessment in a review's document. -/
def assessmentOf : Option Json → Option Json.Fields
  | some (.obj review) =>
    match review.lookup "llm_review" with
    | some (.obj fields) => some fields
    | _ => none
  | _ => none

/-- A score that is a number. -/
def numberOnly (score : Json) : Json :=
  if score.number?.isSome then score else .null

/-- The overview of a session without a stored state. -/
def ofArtifacts (files : FileTree) (dir : Path) (limits : OverviewLimits) :
    Except Failure Overview := do
  let base : Overview :=
    { sessionId := dir.name, sessionDir := dir.text, status := { kind := .ready } }
  match latestArtifact files dir "plan-iteration-" with
  | none => return base
  | some (planNumber, planName) =>
    let title := ((← documentAt files (dir.child planName)).map titleOf).getD none
    let review := latestArtifact files dir "review-iteration-"
    let document ← match review with
      | some (_, name) => documentAt files (dir.child name)
      | none => pure none
    let number := (review.map Prod.fst).getD 0
    let base := { base with iteration := max planNumber number, title := title }
    match assessmentOf document with
    | none => return { base with status := { kind := .inProgress } }
    | some fields =>
      let (score, reason) ←
        (readParts (numberOnly ((fields.lookup "score").getD .null)) (reasonAfter fields)).mapError
          Failure.invalid
      return { base with
        status := { kind := kindAfter limits number fields }
        latestScore := score
        inputReason := reason }

/-! ## Either way -/

/-- The overview of the session in a directory. -/
def ofSession (files : FileTree) (now : String) (dir : Path) (limits : OverviewLimits) :
    Except Failure Overview :=
  match SessionState.load files now dir with
  | .error (.persistence fault) => .ok (ofFault dir fault.message)
  | .error f => .error f
  | .ok (some s) => ofState dir limits s
  | .ok none => ofArtifacts files dir limits

/-- The names of the sessions in a directory, the last modified one first. -/
def sessionNames (files : FileTree) (runsDir : Path) : List String :=
  if files.isDirectory runsDir then
    ((files.children runsDir).filter fun name =>
      files.isDirectory (runsDir.child name) && name.toList.head? != some '.').mergeSort
        fun a b => files.modified (runsDir.child b) ≤ files.modified (runsDir.child a)
  else []

end Overview

end PlanReview
