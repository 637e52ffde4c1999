import PlanReview.Graph.Lookup

/-!
# Levels of the instruction graph

An instruction without dependencies is at level zero, any other one above the deepest of its
dependencies. The levels are found by passing over the list again and again, each time settling
the instructions whose dependencies are settled, until a pass settles nothing. What is never
settled, because it lies on a cycle or leads to a missing id, is put at level zero.
-/

namespace PlanReview.Graph

/-- The levels settled so far, by id; every id occurs at most once. -/
abbrev Levels := List (String × Nat)

/-- One more than the deepest of the dependencies, once all of them are settled. -/
def Levels.above? (levels : Levels) : List String → Option Nat
  | [] => some 0
  | d :: ds =>
    match levels.lookup d, levels.above? ds with
    | some n, some m => some (max (n + 1) m)
    | _, _ => none

/-- Settle an instruction, if it is not settled and can be. -/
def Levels.settle (levels : Levels) (i : Instruction) : Levels :=
  match levels.lookup i.id with
  | some _ => levels
  | none =>
    match levels.above? i.dependencies with
    | some n => levels ++ [(i.id, n)]
    | none => levels

/-- One pass over the list. -/
def Levels.pass (instructions : List Instruction) (levels : Levels) : Levels :=
  instructions.foldl Levels.settle levels

/-- Passes until one settles nothing, at most `n` of them. -/
def Levels.passes (instructions : List Instruction) : Nat → Levels → Levels
  | 0, levels => levels
  | n + 1, levels =>
    let next := levels.pass instructions
    if next.length = levels.length then levels else Levels.passes instructions n next

/-- The ids of the instructions without dependencies, at level zero. -/
def Levels.roots (instructions : List Instruction) : Levels :=
  ((ids (instructions.filter (·.dependencies.isEmpty))).eraseDups).map fun id => (id, 0)

/-- The levels with what is not settled put at zero. -/
def Levels.complete (instructions : List Instruction) (levels : Levels) : Levels :=
  (ids instructions).foldl
    (fun levels id => if (levels.lookup id).isSome then levels else levels ++ [(id, 0)]) levels

/-- The level of every id. Each pass that goes on settles a further instruction, so as many
passes as there are instructions suffice. -/
def levels (instructions : List Instruction) : Levels :=
  Levels.complete instructions
    (Levels.passes instructions instructions.length (Levels.roots instructions))

end PlanReview.Graph
