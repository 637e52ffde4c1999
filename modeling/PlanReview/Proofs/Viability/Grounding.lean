import PlanReview.Proofs.Graph.Reachable
import PlanReview.Viability.Rules

/-!
# Instructions that execute without context

`HasContext` says that following dependencies from an id, in zero or more steps, meets an operation
that gathers context. The rule about grounding finds one thing about every instruction that edits or
runs something without it, or without any dependencies at all, and nothing else
(`groundingOrder_eq_map_filter`). An id stands for the last instruction that has it, also where the
steps begin.
-/

namespace PlanReview.Viability

open Relation

variable {instructions : List Instruction}

/-- An operation that gathers context is met from the id. -/
def HasContext (instructions : List Instruction) (id : String) : Prop :=
  ∃ target j, ReflTransGen (Graph.DependsOn instructions) id target ∧
    Graph.lookup? instructions target = some j ∧
    (j.op = .searchCode ∨ j.op = .searchSemantic ∨ j.op = .readFiles ∨ j.op = .getDependencies)

/-- An instruction that edits or runs something without context. -/
@[mk_iff]
structure IsUngrounded (instructions : List Instruction) (i : Instruction) : Prop where
  executes : i.op = .editCode ∨ i.op = .runCommand
  blind : i.dependencies = [] ∨ ¬HasContext instructions i.id

/-- What is found about an ungrounded instruction. -/
def groundingFinding (i : Instruction) : Finding :=
  if i.dependencies = [] then .noDependencies i.id i.op else .ungrounded i.id i.op

theorem reaches_iff_hasContext {id : String} :
    Graph.reaches instructions (fun j => gathersContext j.op) id = true ↔
      HasContext instructions id := by
  simp [Graph.reaches_iff, Graph.Leads, HasContext, gathersContext, or_assoc]

theorem executes_iff {op : OpCode} : executes op = true ↔ op = .editCode ∨ op = .runCommand := by
  simp [executes]

open Classical in
/-- The rule decides for one instruction whether it is ungrounded. -/
theorem grounding?_eq (instructions : List Instruction) (i : Instruction) :
    grounding? instructions i =
      (Option.guard (fun i => IsUngrounded instructions i) i).map groundingFinding := by
  by_cases hexecutes : executes i.op = true
  · by_cases hempty : i.dependencies = []
    · simp [grounding?, groundingFinding, isUngrounded_iff, ← executes_iff, hexecutes, hempty]
    · by_cases hreaches : Graph.reaches instructions (fun j => gathersContext j.op) i.id = true <;>
        simp [Option.guard, grounding?, groundingFinding, isUngrounded_iff, ← executes_iff,
          ← reaches_iff_hasContext, hexecutes, hempty, hreaches]
  · simp [Option.guard, grounding?, isUngrounded_iff, ← executes_iff, hexecutes]

open Classical in
/-- The rule about grounding ends on every list, and finds one thing about each ungrounded
instruction in the order of the list. -/
theorem groundingOrder_eq_map_filter (instructions : List Instruction) :
    groundingOrder instructions =
      (instructions.filter fun i => IsUngrounded instructions i).map groundingFinding := by
  rw [groundingOrder, funext (grounding?_eq instructions), ← List.map_filterMap,
    List.filterMap_eq_filter]

/-- An edit whose id belongs to a search in the end is grounded in no steps at all, and one that
only depends on itself and on what is missing is not. -/
example : groundingOrder
    [{ id := "a", op := .editCode, dependencies := ["b"] }, { id := "a", op := .searchCode },
      { id := "b", op := .editCode, dependencies := ["b", "gone"] }] =
    [.ungrounded "b" .editCode] := by
  cbv

end PlanReview.Viability
