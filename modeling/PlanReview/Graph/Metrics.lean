import PlanReview.Graph.Level
import PlanReview.Plan.Reference
import PlanReview.Plan.Encode

/-!
# Parallelism of a plan

How far the instructions could run at the same time : the levels of the graph are steps in time,
the deepest level gives the length of the critical path and the fullest level the width.
-/

namespace PlanReview.Graph

/-- The figures of an instruction graph. -/
structure Metrics where
  totalNodes : Nat := 0
  totalEdges : Nat := 0
  rootNodes : Nat := 0
  leafNodes : Nat := 0
  criticalPathLength : Nat := 0
  maxWidth : Nat := 0
  parallelizationRatio : Float := 0.0
  unnecessaryDependencies : List String := []
  levels : Levels := []

/-- The largest of some numbers, zero if there are none. -/
def largest (ns : List Nat) : Nat :=
  ns.foldl max 0

/-- The ids that an instruction depends on without referring to them. -/
def unusedDependencies (i : Instruction) : List String :=
  i.dependencies.filter fun d => !Text.occurs ('$' :: '{' :: d.toList) i.paramsText

/-- The figures of a list of instructions. -/
def Metrics.of (instructions : List Instruction) : Metrics :=
  if instructions.isEmpty then {}
  else
    let levels := Graph.levels instructions
    let numbers := levels.map Prod.snd
    let length := largest numbers + 1
    let width := largest (numbers.map fun n => numbers.count n)
    { totalNodes := instructions.length
      totalEdges := instructions.foldl (fun n i => n + i.dependencies.length) 0
      rootNodes := (instructions.filter (·.dependencies.isEmpty)).length
      leafNodes :=
        (instructions.filter fun i => !instructions.any (·.dependencies.contains i.id)).length
      criticalPathLength := length
      maxWidth := width
      parallelizationRatio := Float.ofNat width / Float.ofNat length
      unnecessaryDependencies :=
        instructions.flatMap fun i => (unusedDependencies i).map fun d => d ++ "->" ++ i.id
      levels := levels }

/-- The document of the figures. -/
def Metrics.toJson (m : Metrics) : Json :=
  .obj [
    ("total_nodes", .nat m.totalNodes),
    ("total_edges", .nat m.totalEdges),
    ("root_nodes", .nat m.rootNodes),
    ("leaf_nodes", .nat m.leafNodes),
    ("critical_path_length", .nat m.criticalPathLength),
    ("max_width", .nat m.maxWidth),
    ("parallelization_ratio", .float m.parallelizationRatio),
    ("unnecessary_deps", .strings m.unnecessaryDependencies),
    ("levels", .obj (m.levels.map fun (id, n) => (id, .nat n)))]

/-- The rows of the table. -/
def Metrics.rows (m : Metrics) : List (String × String) :=
  [("Total Instructions", toString m.totalNodes),
    ("Root Nodes (parallel start)", toString m.rootNodes),
    ("Critical Path Length", toString m.criticalPathLength),
    ("Max Concurrent Operations", toString m.maxWidth),
    ("Parallelization Ratio", Decimal.fixed 2 m.parallelizationRatio)] ++
  if m.unnecessaryDependencies.isEmpty then []
  else [("Unnecessary Dependencies", toString m.unnecessaryDependencies.length)]

/-- The figures as a table in markdown; nothing for an empty graph. -/
def Metrics.markdown (m : Metrics) : String :=
  if m.totalNodes = 0 then ""
  else
    let table := m.rows.map fun (name, value) => "| " ++ name ++ " | " ++ value ++ " |"
    let note :=
      if 10 < m.totalNodes && m.parallelizationRatio < 1.0 then
        ["", "> **Note**: Parallelization ratio is low." ++
          " Consider restructuring to allow more parallel execution."]
      else []
    String.intercalate "\n" (["| Metric | Value |", "|--------|-------|"] ++ table ++ note)

end PlanReview.Graph
