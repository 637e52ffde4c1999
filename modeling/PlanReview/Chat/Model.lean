import PlanReview.Failure

/-!
# Chat models

A model answers a conversation with a text and says what that took. Here it is a function of the
number of conversations it has had before and of the messages; it may fail, and it may take time.
-/

namespace PlanReview.Chat

open Schema

/-- A message : a document with a role and a content. -/
abbrev Message := Json

/-- A message with a text as its content. -/
def message (role content : String) : Message :=
  .obj [("role", .str role), ("content", .str content)]

/-- The content of a message, null if it has none. -/
def contentOf : Message → Except Failure Json
  | .obj fields => .ok ((fields.lookup "content").getD .null)
  | message => .error (.crash (.noPart message.typeName "get"))

/-- What a model says. -/
structure ModelReply where
  text : Option String := none
  usage : Option TokenUsage := none

/-- Read what a model says. -/
def ModelReply.decode : Decoder ModelReply :=
  record "ModelResponse" fun fs =>
    ModelReply.mk <$> optional fs "final_text" none (nullable string)
      <*> optional fs "usage" none (nullable TokenUsage.decode)

/-- The document of what a model says. -/
def ModelReply.toJson (r : ModelReply) : Json :=
  .obj [
    ("final_text", Json.ofOption .str r.text),
    ("usage", Json.ofOption TokenUsage.toJson r.usage)]

/-- How a conversation went, and how many microseconds were spent waiting. -/
structure Answer where
  reply : Except Failure ModelReply
  waited : Int := 0

/-- Answers conversations. -/
abbrev Model := Nat → List Message → Answer

end PlanReview.Chat
