import PlanReview.Phase.Basic

/-!
# Scripted phases

A planner or reviewer that replays what it is given, in order; the last item repeats once the
script has run out. An item may also be a failure, or a document that turns out to be unusable.
-/

namespace PlanReview

/-- What a scripted phase does at one call. -/
inductive ScriptItem (α : Type) where
  | document (payload : Json)
  | ready (value : α)
  | fail (failure : Failure)

/-- A script : items with the time that each takes, and reports of usage. -/
structure Script (α : Type) where
  first : Int × ScriptItem α
  rest : List (Int × ScriptItem α) := []
  usage : List TokenUsage := []

namespace Script

variable {α : Type}

/-- The script with some items; there has to be one. -/
def ofItems (owner item : String) (usage : List TokenUsage) :
    List (Int × ScriptItem α) → Except Failure (Script α)
  | [] => .error (.value (owner ++ " needs at least one " ++ item))
  | first :: rest => .ok ⟨first, rest, usage⟩

/-- The item at a position, or the last one after the end. -/
def itemAt (s : Script α) (n : Nat) : Int × ScriptItem α :=
  ((s.first :: s.rest)[n]?).getD ((s.first :: s.rest).getLast (by simp))

/-- The report of usage at a position, or the last one after the end. -/
def usageAt (s : Script α) (n : Nat) : Option TokenUsage :=
  match s.usage[n]? with
  | some u => some u
  | none => s.usage.getLast?

/-- The call at a position; `read` reads a document at a time. -/
def call (s : Script α) (what : String) (read : String → Json → Except Schema.Invalid α)
    (n : Nat) : Call α where
  delay := (s.itemAt n).1
  usage := s.usageAt n
  answer now :=
    match (s.itemAt n).2 with
    | .fail f => .error f
    | .ready a => .ok a
    | .document j => (read now j).mapError fun e =>
        .phase ("Scripted " ++ what ++ " " ++ toString n ++ " is invalid: " ++ e.message)

/-- The planner that replays a script from a position on. -/
def planner (s : Script Plan) (start : Nat := 0) : Planner :=
  fun n _ => s.call "plan" Plan.ofJson (start + n)

/-- The reviewer that replays a script from a position on. -/
def reviewer (s : Script Review) (start : Nat := 0) : Reviewer :=
  fun n _ _ => s.call "review" (fun _ => Review.ofJson) (start + n)

end Script

end PlanReview
