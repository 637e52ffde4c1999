import PlanReview.Chat.Offline
import PlanReview.Plan.Decode
import PlanReview.Proofs.Viability.References
import PlanReview.Review.Checklist

/-!
# The plan of the offline model

Whatever the task is, the document of the offline plan is read, and the plan passes the checklist
(`ofJson_plan`). Whether it is viable depends on its title, because the title goes into the
parameters of three steps, and there the rule on dependencies takes what looks like a reference for
one. The first of these steps depends on nothing. So a title that refers to a step of the plan
itself makes it fail, and no other title does (`passed_steps_iff`).
-/

namespace PlanReview.Chat.Offline

open Json Reference Schema Viability
open Reference.Pattern (dependency isDelimited_dependency isPlain_dependency)

variable {title : String}

/-- The steps of the plan with a title, as they are read. -/
def steps (title : String) : List Instruction := [
  { id := "search", op := .searchCode, params := .obj [("query", .str title)],
    estimatedTokens := some 100 },
  { id := "read", op := .readFiles, params := .obj [("paths", .str "$\x7bsearch.artifacts\x7d")],
    dependencies := ["search"], estimatedTokens := some 50 },
  { id := "gen_test", op := .generateTest,
    params := .obj (agentTask "Write a failing test" ["tests"] ++ [("target", .str title)]),
    dependencies := ["read"], estimatedTokens := some 100 },
  { id := "run_test_red", op := .runTest, params := .obj [("target", .str "tests")],
    dependencies := ["gen_test"] },
  { id := "edit", op := .editCode,
    params := .obj (agentTask title ["src"] ++ [("files", .strings ["src"])]),
    dependencies := ["gen_test", "read"], estimatedTokens := some 500 },
  { id := "run_test_green", op := .runTest, params := .obj [("target", .str "tests")],
    dependencies := ["edit"] }]

/-- A title refers to a step of its own plan, in a way that the rule on dependencies can read. -/
def RefersToStep (title : String) : Prop :=
  ∃ r, dependency.Allows r ∧ r.id ∈ Graph.ids (steps title) ∧ r.written <:+: title.toList

/-! ## Reading and checking -/

/-- The document is read as a plan with these steps, which passes every check of the checklist. -/
theorem ofJson_plan (now task : String) : ∃ p, Plan.ofJson now (plan task) = .ok p ∧
    p.steps = steps (titleOf task) ∧ p.groundingSnapshot = none ∧ p.fileReferences = [] ∧
    ∀ c ∈ Checklist.run p, c.passed = true := by
  refine ⟨_, rfl, rfl, rfl, rfl, ?_⟩
  simp only [Checklist.run, List.forall_mem_cons]
  exact ⟨rfl, rfl, rfl, rfl, rfl, rfl, List.forall_mem_nil _⟩

/-! ## The rules that decide -/

theorem resolved_steps : ∀ i ∈ steps title, ∀ d ∈ i.dependencies, ∃ j ∈ steps title, j.id = d := by
  simp [steps]

/-- Every step depends on earlier ones only. -/
theorem acyclic_steps : Graph.Acyclic (steps title) := by
  refine Graph.acyclic_of_rank (Graph.ids (steps "")).idxOf ?_
  simp only [steps, List.forall_mem_cons]
  decide

theorem tasked_steps : ∀ i ∈ steps title, i.op = .editCode ∨ i.op = .generateTest →
    i.HasGoal ∧ i.param? "action" = none ∧ i.param? "content_description" = none := by
  have hgoal {i : Instruction} {s : String} (h : i.param? "goal" = some (.str s)) : i.HasGoal :=
    ⟨s, .inl h⟩
  have hother {op : OpCode} {p : Prop} (hop : ¬(op = .editCode ∨ op = .generateTest)) :
      op = .editCode ∨ op = .generateTest → p := fun h => absurd h hop
  simp only [steps, List.forall_mem_cons]
  exact ⟨hother (by decide), hother (by decide), fun _ => ⟨hgoal rfl, rfl, rfl⟩,
    hother (by decide), fun _ => ⟨hgoal rfl, rfl, rfl⟩, hother (by decide), List.forall_mem_nil _⟩

/-! ## The rule on dependencies -/

theorem mem_written (r : Found) : '$' ∈ r.written :=
  List.mem_cons_self

/-- The strings in the parameters of a step : the title, the reference of the second step to the
first, and words that refer to nothing. -/
theorem text_of_step : ∀ i ∈ steps title, ∀ text ∈ i.params.allTexts, text = title ∨
    text = "$\x7bsearch.artifacts\x7d" ∧ "search" ∈ i.dependencies ∨ '$' ∉ text.toList := by
  simp [steps, agentTask, allTexts, allTextsOfFields, allTextsOfItems, strings]

theorem writes_iff {i : Instruction} {r : Found} : i.Writes r ↔
    dependency.Allows r ∧ ∃ text ∈ i.params.allTexts, r.written <:+: text.toList := by
  rw [Instruction.Writes, ← Pattern.mem_scan_iff isDelimited_dependency,
    Pattern.mem_scan_paramsText_iff isPlain_dependency]

theorem isClear_variableRefs_steps_iff :
    IsClear (variableRefs (steps title)) ↔ ¬RefersToStep title := by
  simp only [isClear_variableRefs_iff, ← mem_ids_iff, writes_iff]
  constructor
  · rintro h ⟨r, hr, hid, hwritten⟩
    -- the step that searches has the title for its query, and depends on nothing
    have hmem : title ∈ (Json.obj [("query", .str title)]).allTexts := by
      simp [allTexts, allTextsOfFields]
    exact nomatch h _ List.mem_cons_self r ⟨hr, title, hmem, hwritten⟩ hid
  · rintro h i hi r ⟨hr, text, htext, hwritten⟩ hid
    rcases text_of_step i hi text htext with rfl | ⟨rfl, hsearch⟩ | hplain
    · exact absurd ⟨r, hr, hid, hwritten⟩ h
    · have hfound := (Pattern.mem_scan_iff isDelimited_dependency).2 ⟨hr, hwritten⟩
      have hscan : dependency.scan "$\x7bsearch.artifacts\x7d".toList =
          [⟨"search", "artifacts"⟩] := by decide
      rw [hscan, List.mem_singleton] at hfound
      rwa [hfound]
    · exact absurd (hwritten.subset (mem_written r)) hplain

/-- The steps of the plan are viable exactly if the title refers to none of them. -/
theorem passed_steps_iff (limits : Limits) :
    (check limits (steps title) none []).passed = true ↔ ¬RefersToStep title := by
  have htest : IsClear (missingTest (steps title)).toList :=
    isClear_missingTest_iff.2 fun _ => by simp [steps]
  have hflow : IsClear (logicalFlow (steps title)) :=
    isClear_logicalFlow_iff.2 ⟨resolved_steps, acyclic_steps⟩
  have htask : IsClear (Viability.agentTask (steps title)) := isClear_agentTask_iff.2 tasked_steps
  have hempty : empty (steps title) = none := rfl
  simp only [check, hempty, of_passed_iff, allFindings, isClear_append, htest, hflow, htask,
    isClear_complexity, isClear_paramsPresence, testOrder, isClear_testOrderFrom,
    isClear_fieldNames, isClear_paramsSchema, isClear_groundingOrder, isClear_tokenEstimates,
    parallelism, isClear_nil, and_true, true_and, isClear_variableRefs_steps_iff]

/-! ## The plan -/

/-- For every task the plan is read and passes the checklist. It is viable, whatever the limits,
exactly if its title refers to none of its own steps. -/
theorem plan_passes_iff (now task : String) (limits : Limits) :
    ∃ p, Plan.ofJson now (plan task) = .ok p ∧ (∀ c ∈ Checklist.run p, c.passed = true) ∧
      ((checkPlan limits p).passed = true ↔ ¬RefersToStep (titleOf task)) := by
  obtain ⟨p, hp, hsteps, hsnapshot, hreferences, hchecks⟩ := ofJson_plan now task
  refine ⟨p, hp, hchecks, ?_⟩
  rw [checkPlan, hsteps, hsnapshot, hreferences]
  exact passed_steps_iff limits

/-- The plan for a task about the result of an edit is read, but it is not viable. -/
theorem plan_fails_of_reference : ∃ p, Plan.ofJson "" (plan "Use $\x7bedit.output\x7d") = .ok p ∧
    (checkPlan {} p).passed = false := by
  obtain ⟨p, hp, hsteps, hsnapshot, hreferences, -⟩ := ofJson_plan "" "Use $\x7bedit.output\x7d"
  have hfound : (⟨"edit", "output"⟩ : Found) ∈
      dependency.scan (titleOf "Use $\x7bedit.output\x7d").toList := by decide
  obtain ⟨hallows, hwritten⟩ := (Pattern.mem_scan_iff isDelimited_dependency).1 hfound
  have hrefers : RefersToStep (titleOf "Use $\x7bedit.output\x7d") :=
    ⟨_, hallows, by simp [Graph.ids, steps], hwritten⟩
  refine ⟨p, hp, ?_⟩
  rw [checkPlan, hsteps, hsnapshot, hreferences, Bool.eq_false_iff]
  exact fun hpassed => (passed_steps_iff {}).1 hpassed hrefers

end PlanReview.Chat.Offline
