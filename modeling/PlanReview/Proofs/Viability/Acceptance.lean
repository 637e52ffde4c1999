import PlanReview.Proofs.Graph.Acyclic
import PlanReview.Proofs.Reference.Scan
import PlanReview.Viability.Verdict

/-!
# Which plans are viable

`Viable` says what the rules ask of a list of instructions, without the rules : tests for edits,
dependencies that exist and form no cycle, references only to what is depended on, goals for tasks,
and files that are there or made. `check_passed_iff` : the verdict passes exactly the viable ones.

Each rule has a lemma of its own. Half of the rules only warn (`IsClear`); of the others, one finds
nothing critical exactly where its clause of `Viable` holds.
-/

namespace PlanReview

/-- An instruction with a goal : a string under `goal`, or under `task` without a `goal`. -/
def Instruction.HasGoal (i : Instruction) : Prop :=
  ∃ s, i.param? "goal" = some (.str s) ∨
    i.param? "goal" = none ∧ i.param? "task" = some (.str s)

namespace Viability

/-- What is asked of instructions, given what was looked up and the files the plan names. -/
structure Viable (instructions : List Instruction) (snapshot : Option GroundingSnapshot)
    (references : List FileReference) : Prop where
  nonempty : instructions ≠ []
  tested : (∃ i ∈ instructions, i.op = .editCode) → ∃ i ∈ instructions, i.op = .runTest
  resolved : ∀ i ∈ instructions, ∀ d ∈ i.dependencies, ∃ j ∈ instructions, j.id = d
  acyclic : Graph.Acyclic instructions
  listed : ∀ i ∈ instructions, ∀ r, i.Writes r → (∃ j ∈ instructions, j.id = r.id) →
    r.id ∈ i.dependencies
  tasked : ∀ i ∈ instructions, i.op = .editCode ∨ i.op = .generateTest → i.HasGoal ∧
    i.param? "action" = none ∧ i.param? "content_description" = none
  grounded : ∀ s ∈ snapshot, ∀ f ∈ s.verifiedFiles, f.doesExist = false →
    ∃ r ∈ references, r.path = f.path ∧ r.action = .create

/-- No finding is critical. -/
def IsClear (findings : List Finding) : Prop :=
  ∀ f ∈ findings, f.isCritical = false

theorem isClear_nil : IsClear [] := by
  simp [IsClear]

theorem isClear_append {xs ys : List Finding} :
    IsClear (xs ++ ys) ↔ IsClear xs ∧ IsClear ys := by
  simp only [IsClear, List.mem_append]
  exact ⟨fun h => ⟨fun f hf => h f (.inl hf), fun f hf => h f (.inr hf)⟩,
    fun h f hf => hf.elim (h.1 f) (h.2 f)⟩

theorem isClear_flatMap {instructions : List Instruction} {rule : Instruction → List Finding} :
    IsClear (instructions.flatMap rule) ↔ ∀ i ∈ instructions, IsClear (rule i) := by
  simp only [IsClear, List.mem_flatMap]
  exact ⟨fun h i hi f hf => h f ⟨i, hi, hf⟩, fun h f ⟨i, hi, hf⟩ => h i hi f hf⟩

theorem of_passed_iff {findings : List Finding} :
    (Verdict.of findings).passed = true ↔ IsClear findings := by
  simp [Verdict.of, criticalCount, List.countP_eq_zero, IsClear]

/-! ## Rules that only warn -/

section Warnings

variable (limits : Limits) (instructions : List Instruction)

theorem isClear_complexity : IsClear (complexity limits instructions) := by
  intro f hf
  obtain ⟨i, -, hi⟩ := List.mem_filterMap.1 hf
  unfold complexity? at hi
  split at hi
  · split at hi <;> cases hi
    rfl
  · split at hi <;> cases hi
    rfl
  · cases hi

theorem isClear_paramsPresence : IsClear (paramsPresence instructions) := by
  intro f hf
  obtain ⟨i, -, rfl⟩ := List.mem_map.1 hf
  rfl

theorem isClear_testOrderFrom (tested : Bool) : IsClear (testOrderFrom tested instructions) := by
  induction instructions generalizing tested with
  | nil => simp [IsClear, testOrderFrom]
  | cons i rest ih =>
    rw [testOrderFrom, isClear_append]
    refine ⟨?_, ih _⟩
    split <;> simp [IsClear, Finding.isCritical]

theorem isClear_fieldNames : IsClear (fieldNames instructions) := by
  refine isClear_flatMap.2 fun i _ f hf => ?_
  obtain ⟨r, -, rfl⟩ := List.mem_map.1 hf
  rfl

theorem isClear_paramsSchema : IsClear (paramsSchema instructions) := by
  refine isClear_flatMap.2 fun i _ f hf => ?_
  obtain ⟨⟨name, expectation, expected⟩, -, hi⟩ := List.mem_filterMap.1 hf
  simp only at hi
  split at hi
  · split at hi <;> cases hi
    rfl
  · cases hi

theorem isClear_groundingOrder : IsClear (groundingOrder instructions) := by
  intro f hf
  obtain ⟨i, -, hi⟩ := List.mem_filterMap.1 hf
  unfold grounding? at hi
  repeat' split at hi
  all_goals cases hi
  all_goals rfl

theorem isClear_tokenEstimates : IsClear (tokenEstimates instructions) := by
  intro f hf
  obtain ⟨i, -, rfl⟩ := List.mem_map.1 hf
  rfl

end Warnings

/-! ## Rules that decide -/

section Deciding

variable {instructions : List Instruction}

theorem mem_ids_iff {id : String} :
    id ∈ Graph.ids instructions ↔ ∃ j ∈ instructions, j.id = id := by
  simp [Graph.ids]

theorem isClear_missingTest_iff : IsClear (missingTest instructions).toList ↔
    ((∃ i ∈ instructions, i.op = .editCode) → ∃ i ∈ instructions, i.op = .runTest) := by
  unfold missingTest
  cases he : instructions.find? (·.op == .editCode) with
  | none =>
    rw [List.find?_eq_none] at he
    refine ⟨fun _ ⟨i, hi, hop⟩ => (he i hi (by simp [hop])).elim, fun _ => by simp [IsClear]⟩
  | some edit =>
    have hedit : ∃ i ∈ instructions, i.op = .editCode :=
      ⟨edit, List.mem_of_find?_eq_some he, by simpa using List.find?_some he⟩
    have hany : instructions.any (·.op == .runTest) = true ↔
        ∃ i ∈ instructions, i.op = .runTest := by simp
    simp only [hedit, forall_const, ← hany]
    by_cases ht : instructions.any (·.op == .runTest) = true
    · simp [ht, IsClear]
    · simp [ht, IsClear, Finding.isCritical]

theorem isClear_logicalFlow_iff : IsClear (logicalFlow instructions) ↔
    (∀ i ∈ instructions, ∀ d ∈ i.dependencies, ∃ j ∈ instructions, j.id = d) ∧
      Graph.Acyclic instructions := by
  rw [logicalFlow, isClear_append, isClear_flatMap, ← Graph.findCycle_eq_none_iff]
  refine and_congr (forall₂_congr fun i _ => ?_) ?_
  · simp only [IsClear, dangling, List.mem_map, List.mem_filter, ← mem_ids_iff]
    constructor
    · intro h d hd
      by_contra hk
      exact absurd (h _ ⟨d, ⟨hd, by simpa using hk⟩, rfl⟩) (by simp [Finding.isCritical])
    · rintro h f ⟨d, ⟨hd, hk⟩, -⟩
      exact absurd (h d hd) (by simpa using hk)
  · cases Graph.findCycle instructions <;> simp [IsClear, Finding.isCritical]

theorem isClear_variableRefs_iff : IsClear (variableRefs instructions) ↔
    ∀ i ∈ instructions, ∀ r, i.Writes r → (∃ j ∈ instructions, j.id = r.id) →
      r.id ∈ i.dependencies := by
  rw [variableRefs, isClear_flatMap]
  refine forall₂_congr fun i _ => ?_
  simp only [IsClear, unlisted, List.mem_map, List.mem_filter, Instruction.mem_referencedIds_iff,
    ← mem_ids_iff]
  constructor
  · intro h r hr hk
    by_contra hd
    exact absurd (h _ ⟨r.id, ⟨⟨r.field, hr⟩, by simpa using ⟨hk, hd⟩⟩, rfl⟩)
      (by simp [Finding.isCritical])
  · rintro h f ⟨id, ⟨⟨field, hr⟩, hk⟩, -⟩
    simp only [Bool.and_eq_true, Bool.not_eq_true', List.contains_eq_mem, decide_eq_true_eq,
      decide_eq_false_iff_not] at hk
    exact absurd (h ⟨id, field⟩ hr hk.1) hk.2

theorem goal?_isSome_iff {i : Instruction} : (goal? i).isSome = true ↔ i.HasGoal := by
  have hstr : ∀ v : Json, v.str?.isSome = true ↔ ∃ s, v = .str s := by
    intro v
    cases v <;> simp [Json.str?]
  unfold goal? Instruction.HasGoal
  cases i.param? "goal" with
  | some v => simp [hstr]
  | none =>
    cases i.param? "task" with
    | some v => simp [hstr]
    | none => simp

theorem isClear_agentTaskFindings_iff {i : Instruction} : IsClear (agentTaskFindings i) ↔
    i.HasGoal ∧ i.param? "action" = none ∧ i.param? "content_description" = none := by
  simp only [agentTaskFindings, isClear_append, ← goal?_isSome_iff]
  have hgoal : IsClear (if (goal? i).isNone then [.missingGoal i.id i.op] else []) ↔
      (goal? i).isSome = true := by
    cases goal? i <;> simp [IsClear, Finding.isCritical]
  have hlegacy : IsClear (if hasAny i ["action", "content_description"] then [.legacyParams i.id]
      else []) ↔ i.param? "action" = none ∧ i.param? "content_description" = none := by
    simp only [hasAny, List.any_cons, List.any_nil, Bool.or_false]
    cases i.param? "action" <;> cases i.param? "content_description" <;>
      simp [IsClear, Finding.isCritical]
  rw [hgoal, hlegacy, and_assoc, and_congr_right_iff]
  intro _
  rw [and_iff_right]
  split <;> simp [IsClear, Finding.isCritical]

theorem isClear_agentTask_iff : IsClear (agentTask instructions) ↔
    ∀ i ∈ instructions, i.op = .editCode ∨ i.op = .generateTest → i.HasGoal ∧
      i.param? "action" = none ∧ i.param? "content_description" = none := by
  simp only [agentTask, isClear_flatMap, isClear_agentTaskFindings_iff, List.mem_filter,
    Bool.or_eq_true, beq_iff_eq, and_imp]

theorem isClear_fileGrounding_iff {snapshot : GroundingSnapshot}
    {references : List FileReference} : IsClear (fileGrounding snapshot references) ↔
      ∀ f ∈ snapshot.verifiedFiles, f.doesExist = false →
        ∃ r ∈ references, r.path = f.path ∧ r.action = .create := by
  have hmade : ∀ f : VerifiedFile,
      (references.any fun r => r.action == .create && r.path == f.path) = true ↔
        ∃ r ∈ references, r.path = f.path ∧ r.action = .create := by
    intro f
    simp [and_comm]
  simp only [IsClear, fileGrounding, List.mem_map, List.mem_filter, ← hmade]
  constructor
  · intro h f hf he
    by_contra hm
    exact absurd (h _ ⟨f, ⟨hf, by simp [he, hm]⟩, rfl⟩) (by simp [Finding.isCritical])
  · rintro h _ ⟨f, ⟨hf, he⟩, -⟩
    simp only [Bool.and_eq_true, Bool.not_eq_true'] at he
    exact absurd (h f hf he.1) (by simp [he.2])

theorem isClear_snapshot_iff (snapshot : Option GroundingSnapshot)
    (references : List FileReference) :
    IsClear (match snapshot with
      | some s => fileGrounding s references
      | none => []) ↔ ∀ s ∈ snapshot, ∀ f ∈ s.verifiedFiles, f.doesExist = false →
        ∃ r ∈ references, r.path = f.path ∧ r.action = .create := by
  cases snapshot with
  | none => simp [IsClear]
  | some s => simp [isClear_fileGrounding_iff]

end Deciding

/-! ## The verdict -/

/-- The verdict passes exactly the viable instructions, whatever the limits. -/
theorem check_passed_iff (limits : Limits) (instructions : List Instruction)
    (snapshot : Option GroundingSnapshot) (references : List FileReference) :
    (check limits instructions snapshot references).passed = true ↔
      Viable instructions snapshot references := by
  cases instructions with
  | nil =>
    have hempty : ¬Viable [] snapshot references := fun h => h.nonempty rfl
    simp [check, empty, of_passed_iff, IsClear, Finding.isCritical, hempty]
  | cons i rest =>
    have hgrounded := isClear_snapshot_iff snapshot references
    simp only [check, empty, List.isEmpty_cons, Bool.false_eq_true, if_false, of_passed_iff,
      allFindings, isClear_append, isClear_missingTest_iff, isClear_logicalFlow_iff,
      isClear_variableRefs_iff, isClear_agentTask_iff, isClear_complexity,
      isClear_paramsPresence, testOrder, isClear_testOrderFrom, isClear_fieldNames,
      isClear_paramsSchema, isClear_groundingOrder, isClear_tokenEstimates, parallelism,
      isClear_nil, and_true]
    constructor
    · rintro ⟨⟨⟨⟨ht, hr, ha⟩, hl⟩, hg⟩, hf⟩
      exact ⟨by simp, ht, hr, ha, hl, hg, hgrounded.1 hf⟩
    · intro h
      exact ⟨⟨⟨⟨h.tested, h.resolved, h.acyclic⟩, h.listed⟩, h.tasked⟩, hgrounded.2 h.grounded⟩

end Viability

end PlanReview
