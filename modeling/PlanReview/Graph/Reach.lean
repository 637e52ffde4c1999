import PlanReview.Graph.Lookup

/-!
# Reachability

Whether following dependencies from some ids leads to an instruction of a certain kind. `todo`
holds the ids not yet looked at; an id that is looked at leaves it, so the search ends.
-/

namespace PlanReview.Graph

/-- Whether the ids `pending` lead, in zero or more steps through ids in `todo`, to an
instruction that satisfies `goal`. -/
def leadsTo (instructions : List Instruction) (goal : Instruction → Bool)
    (pending todo : List String) : Bool :=
  match pending with
  | [] => false
  | id :: rest =>
    if h : id ∈ todo then
      have hlt : (todo.erase id).length < todo.length := by
        have := List.length_pos_of_mem h
        rw [List.length_erase_of_mem h]
        omega
      match lookup? instructions id with
      | some i =>
        goal i || leadsTo instructions goal (i.dependencies ++ rest) (todo.erase id)
      | none => leadsTo instructions goal rest (todo.erase id)
    else leadsTo instructions goal rest todo
termination_by (todo.length, pending.length)
decreasing_by
  · exact Prod.Lex.left _ _ hlt
  · exact Prod.Lex.left _ _ hlt
  · exact Prod.Lex.right _ (by simp)

/-- Whether an instruction that satisfies `goal` is reachable from the node `id`. -/
def reaches (instructions : List Instruction) (goal : Instruction → Bool) (id : String) : Bool :=
  leadsTo instructions goal [id] (ids instructions).eraseDups

end PlanReview.Graph
