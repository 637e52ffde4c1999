import PlanReview.Plan.Basic

/-!
# The instruction graph

The nodes are the ids of a list of instructions. Where an id occurs more than once the last
instruction that has it counts : `lookup?` finds it and `successors` gives its dependencies.
-/

namespace PlanReview.Graph

/-- The ids, in order and with repetitions. -/
def ids (instructions : List Instruction) : List String :=
  instructions.map (·.id)

/-- The last instruction with the given id. -/
def lookup? (instructions : List Instruction) (id : String) : Option Instruction :=
  instructions.reverse.find? fun i => i.id == id

/-- What the node `id` depends on; a node that is no instruction depends on nothing. -/
def successors (instructions : List Instruction) (id : String) : List String :=
  match lookup? instructions id with
  | some i => i.dependencies
  | none => []

/-- Every id that is a node or something a node depends on, each once. -/
def nodes (instructions : List Instruction) : List String :=
  (instructions.flatMap fun i => i.id :: i.dependencies).eraseDups

theorem mem_ids_of_lookup? {instructions : List Instruction} {id : String} {i : Instruction}
    (h : lookup? instructions id = some i) : id ∈ ids instructions := by
  have hid : i.id = id := by simpa using List.find?_some h
  have hmem := List.mem_of_find?_eq_some h
  rw [List.mem_reverse] at hmem
  exact hid ▸ List.mem_map_of_mem hmem

end PlanReview.Graph
