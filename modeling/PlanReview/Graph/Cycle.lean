import PlanReview.Graph.Lookup

/-!
# Dependency cycles

A depth-first search from every node in order. `todo` holds the nodes not yet entered, and
`path` the nodes entered and not yet left, from the start of the search on. A dependency that is
still to be entered is entered at once; one that lies on the path closes a cycle, which is the
path from there on; any other has been left without finding one and is passed over. Entering a
node takes it out of `todo`, so the search ends.
-/

namespace PlanReview.Graph

/-- Search from the nodes `pending`, given the path to them : the cycle met first, or what is
left to enter. -/
def explore (next : String → List String) (path pending todo : List String) :
    Except (List String) { r : List String // r.length ≤ todo.length } :=
  match pending with
  | [] => .ok ⟨todo, Nat.le_refl _⟩
  | node :: rest =>
    if h : node ∈ todo then
      have hlt : (todo.erase node).length < todo.length := by
        have := List.length_pos_of_mem h
        rw [List.length_erase_of_mem h]
        omega
      match explore next (path ++ [node]) (next node) (todo.erase node) with
      | .error cycle => .error cycle
      | .ok ⟨todo₁, h₁⟩ =>
        match explore next path rest todo₁ with
        | .error cycle => .error cycle
        | .ok ⟨todo₂, h₂⟩ => .ok ⟨todo₂, by omega⟩
    else if node ∈ path then .error (path.dropWhile (· != node) ++ [node])
    else explore next path rest todo
termination_by (todo.length, pending.length)
decreasing_by
  · exact Prod.Lex.left _ _ hlt
  · exact Prod.Lex.left _ _ (by omega)
  · exact Prod.Lex.right _ (by simp)

/-- The first dependency cycle found, its start repeated at the end. -/
def findCycle (instructions : List Instruction) : Option (List String) :=
  match explore (successors instructions) [] (ids instructions) (nodes instructions) with
  | .error cycle => some cycle
  | .ok _ => none

end PlanReview.Graph
