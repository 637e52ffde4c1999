import PlanReview.Chat.Model
import PlanReview.Phase.Prompt

/-!
# Phases that ask a model

A planner or reviewer that sends a prompt to a model and reads the reply. Whatever is wrong with
the reply is a failure of the phase, and so is a conversation that the model gives up. Usage is
reported for every conversation that came to a reply, even one that cannot be read.
-/

namespace PlanReview.ChatPhase

variable {α : Type}

/-- The conversation with a model : the recipe's instructions, then the prompt. -/
def conversation (r : Recipe) (prompt : String) : List Chat.Message :=
  [Chat.message "system" r.instructions, Chat.message "user" prompt]

/-- The failure of a phase whose model has failed. -/
def ofModel (who : String) : Failure → Failure
  | .chat message => .phase (who ++ " model call failed: " ++ message)
  | f => f

/-- The object in a reply. -/
def payload (who : String) (r : Chat.ModelReply) : Except Failure Json :=
  let text := r.text.getD ""
  if !Text.hasInk text then .error (.phase (who ++ " returned an empty reply"))
  else
    (Reply.readObject text).mapError fun fault =>
      .phase (who ++ " reply is not valid JSON: " ++ fault.message)

/-- The usage that an answer reports. -/
def usageOf (a : Chat.Answer) : Option TokenUsage :=
  match a.reply with
  | .ok r => r.usage
  | .error _ => none

/-- Ask a model as `who` for an `item`; `read` reads its document at a time. -/
def call (who item : String) (read : String → Json → Except Schema.Invalid α)
    (a : Chat.Answer) : Call α where
  delay := a.waited
  usage := usageOf a
  answer now := do
    let reply ← a.reply.mapError (ofModel who)
    let document ← payload who reply
    (read now document).mapError fun e =>
      .phase (who ++ " returned an invalid " ++ item ++ ": " ++ e.message)

/-- The planner that asks a model. -/
def planner (model : Chat.Model) (r : Recipe) : Planner := fun n c =>
  call "planner" "plan" Plan.ofJson (model n (conversation r (Prompt.planning r c)))

/-- The reviewer that asks a model. -/
def reviewer (model : Chat.Model) (r : Recipe) : Reviewer := fun n p c =>
  call "reviewer" "review" (fun _ => Review.ofJson)
    (model n (conversation r (Prompt.reviewing r p c)))

end PlanReview.ChatPhase
