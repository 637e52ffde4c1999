import PlanReview.Proofs.Graph.Reachable
import PlanReview.Proofs.Viability.Acceptance

/-!
# Instructions in another order

A plan whose instructions are put in another order is as viable as before, as long as instructions
with one id keep theirs (`check_of_isReordering`). The graph is the same graph then, and the rules
that search it decide something about the graph : whether it has a cycle, and what can be reached.
All other rules but one look at each instruction alone, or ask whether there is one of some kind.
The rule about tests before edits does depend on the order, and only warns.
-/

namespace PlanReview

/-- The same instructions in another order, in which those with one id come as they did. -/
structure IsReordering (instructions others : List Instruction) : Prop where
  perm : instructions.Perm others
  stable : ∀ id, instructions.filter (·.id == id) = others.filter (·.id == id)

/-! ## The graph -/

namespace Graph

variable {instructions others : List Instruction}

theorem lookup?_eq_getLast? (instructions : List Instruction) (id : String) :
    lookup? instructions id = (instructions.filter (·.id == id)).getLast? := by
  rw [lookup?, ← List.head?_filter, List.filter_reverse, List.head?_reverse]

theorem lookup?_of_isReordering (h : IsReordering instructions others) :
    lookup? instructions = lookup? others := by
  funext id
  rw [lookup?_eq_getLast?, h.stable id, ← lookup?_eq_getLast?]

theorem dependsOn_of_isReordering (h : IsReordering instructions others) :
    DependsOn instructions = DependsOn others := by
  funext a b
  rw [DependsOn, DependsOn, successors, successors, lookup?_of_isReordering h]

theorem findCycle_of_isReordering (h : IsReordering instructions others) :
    findCycle instructions = none ↔ findCycle others = none := by
  rw [findCycle_eq_none_iff, findCycle_eq_none_iff, Acyclic, Acyclic,
    dependsOn_of_isReordering h]

theorem reaches_of_isReordering (h : IsReordering instructions others) :
    reaches instructions = reaches others := by
  funext goal id
  rw [Bool.eq_iff_iff, reaches_iff, reaches_iff, Leads, Leads, dependsOn_of_isReordering h,
    lookup?_of_isReordering h]

theorem contains_ids_of_isReordering (h : IsReordering instructions others) :
    (ids instructions).contains = (ids others).contains := by
  funext id
  rw [Bool.eq_iff_iff, List.contains_iff_mem, List.contains_iff_mem]
  exact (h.perm.map (·.id)).mem_iff

end Graph

/-! ## Counting findings -/

namespace Viability

/-- As many findings are critical, and as many are of each rule but that about tests before
edits. -/
structure SameCounts (findings others : List Finding) : Prop where
  critical : criticalCount findings = criticalCount others
  rule : ∀ n ≠ 7, findings.countP (·.rule == n) = others.countP (·.rule == n)

theorem SameCounts.of_perm {findings others : List Finding} (h : findings.Perm others) :
    SameCounts findings others :=
  ⟨h.countP_eq _, fun _ _ => h.countP_eq _⟩

theorem SameCounts.append {xs ys xs' ys' : List Finding} (hxs : SameCounts xs xs')
    (hys : SameCounts ys ys') : SameCounts (xs ++ ys) (xs' ++ ys') where
  critical := by
    have hcritical := hxs.critical
    have hcritical' := hys.critical
    rw [criticalCount, criticalCount] at *
    rw [List.countP_append, List.countP_append, hcritical, hcritical']
  rule n hn := by
    rw [List.countP_append, List.countP_append, hxs.rule n hn, hys.rule n hn]

/-- Two single findings count alike if they are critical and of one rule. -/
theorem sameCounts_toList {f g : Option Finding} {n : Nat}
    (hf : ∀ x ∈ f, x.rule = n ∧ x.isCritical = true)
    (hg : ∀ x ∈ g, x.rule = n ∧ x.isCritical = true) (h : f = none ↔ g = none) :
    SameCounts f.toList g.toList := by
  cases f with
  | none =>
    rw [h.1 rfl]
    exact .of_perm (.refl _)
  | some x =>
    cases g with
    | none => cases h.2 rfl
    | some y =>
      obtain ⟨hrule, hcritical⟩ := hf x rfl
      obtain ⟨hrule', hcritical'⟩ := hg y rfl
      constructor
      · simp [criticalCount, hcritical, hcritical']
      · intro m _
        simp [hrule, hrule']

/-! ## Rules that search the whole list -/

section

variable {instructions others : List Instruction} (h : IsReordering instructions others)

include h

theorem sameCounts_missingTest :
    SameCounts (missingTest instructions).toList (missingTest others).toList := by
  have hkind (is : List Instruction) :
      ∀ f ∈ missingTest is, f.rule = 1 ∧ f.isCritical = true := by
    intro f hf
    unfold missingTest at hf
    repeat' split at hf
    all_goals cases hf
    exact ⟨rfl, rfl⟩
  have hclear (is : List Instruction) :
      IsClear (missingTest is).toList ↔ missingTest is = none := by
    cases hf : missingTest is with
    | none => simp [IsClear]
    | some f => simp [IsClear, (hkind is f hf).2]
  refine sameCounts_toList (hkind _) (hkind _) ?_
  rw [← hclear, ← hclear, isClear_missingTest_iff, isClear_missingTest_iff]
  simp only [h.perm.mem_iff]

theorem sameCounts_logicalFlow :
    SameCounts (logicalFlow instructions) (logicalFlow others) := by
  have hdangling : dangling (Graph.ids instructions) = dangling (Graph.ids others) := by
    funext i
    rw [dangling, dangling, Graph.contains_ids_of_isReordering h]
  have hkind (is : List Instruction) :
      ∀ f ∈ (Graph.findCycle is).map Finding.cycle, f.rule = 2 ∧ f.isCritical = true := by
    intro f hf
    obtain ⟨path, -, rfl⟩ := Option.map_eq_some_iff.1 hf
    exact ⟨rfl, rfl⟩
  refine SameCounts.append (.of_perm ?_) (sameCounts_toList (hkind _) (hkind _) ?_)
  · rw [hdangling]
    exact h.perm.flatMap_right _
  · rw [Option.map_eq_none_iff, Option.map_eq_none_iff]
    exact Graph.findCycle_of_isReordering h

theorem perm_variableRefs : (variableRefs instructions).Perm (variableRefs others) := by
  have hunlisted : unlisted (Graph.ids instructions) = unlisted (Graph.ids others) := by
    funext i
    rw [unlisted, unlisted, Graph.contains_ids_of_isReordering h]
  rw [variableRefs, variableRefs, hunlisted]
  exact h.perm.flatMap_right _

theorem perm_groundingOrder : (groundingOrder instructions).Perm (groundingOrder others) := by
  have hgrounding : grounding? instructions = grounding? others := by
    funext i
    rw [grounding?, grounding?, Graph.reaches_of_isReordering h]
  rw [groundingOrder, groundingOrder, hgrounding]
  exact h.perm.filterMap _

omit h in
theorem rule_of_mem_testOrderFrom {instructions : List Instruction} {tested : Bool} {f : Finding}
    (hf : f ∈ testOrderFrom tested instructions) : f.rule = 7 := by
  induction instructions generalizing tested with
  | nil => cases hf
  | cons i rest ih =>
    rw [testOrderFrom, List.mem_append] at hf
    rcases hf with hf | hf
    · split at hf
      · rw [List.mem_singleton.1 hf]
        rfl
      · cases hf
    · exact ih hf

omit h in
/-- The rule about tests before edits adds nothing to these counts, in whatever order. -/
theorem sameCounts_testOrder (instructions others : List Instruction) :
    SameCounts (testOrder instructions) (testOrder others) := by
  have hcritical (is : List Instruction) : criticalCount (testOrder is) = 0 := by
    refine List.countP_eq_zero.2 fun f hf => ?_
    rw [isClear_testOrderFrom is false f hf]
    exact Bool.false_ne_true
  have hrule (is : List Instruction) (n : Nat) (hn : n ≠ 7) :
      (testOrder is).countP (·.rule == n) = 0 := by
    refine List.countP_eq_zero.2 fun f hf => ?_
    rw [rule_of_mem_testOrderFrom hf, beq_iff_eq]
    exact hn.symm
  constructor
  · rw [hcritical, hcritical]
  · intro n hn
    rw [hrule _ n hn, hrule _ n hn]

/-! ## The verdict -/

theorem sameCounts_allFindings (limits : Limits) (snapshot : Option GroundingSnapshot)
    (references : List FileReference) :
    SameCounts (allFindings limits instructions snapshot references)
      (allFindings limits others snapshot references) := by
  have hcomplexity : (complexity limits instructions).Perm (complexity limits others) :=
    h.perm.filterMap _
  have hpresence : (paramsPresence instructions).Perm (paramsPresence others) :=
    (h.perm.filter _).map _
  have hfields : (fieldNames instructions).Perm (fieldNames others) := h.perm.flatMap_right _
  have hschema : (paramsSchema instructions).Perm (paramsSchema others) := h.perm.flatMap_right _
  have hestimates : (tokenEstimates instructions).Perm (tokenEstimates others) :=
    (h.perm.filter _).map _
  have htask : (agentTask instructions).Perm (agentTask others) :=
    (h.perm.filter _).flatMap_right _
  exact (sameCounts_missingTest h).append (sameCounts_logicalFlow h)
    |>.append (.of_perm hcomplexity) |>.append (.of_perm hpresence)
    |>.append (.of_perm (perm_variableRefs h)) |>.append (sameCounts_testOrder _ _)
    |>.append (.of_perm hfields) |>.append (.of_perm hschema) |>.append (.of_perm (.refl _))
    |>.append (.of_perm (perm_groundingOrder h)) |>.append (.of_perm hestimates)
    |>.append (.of_perm htask) |>.append (.of_perm (.refl _))

end

theorem check_of_ne_nil {instructions : List Instruction} (h : instructions ≠ [])
    (limits : Limits) (snapshot : Option GroundingSnapshot) (references : List FileReference) :
    check limits instructions snapshot references =
      .of (allFindings limits.clamped instructions snapshot references) := by
  cases instructions with
  | nil => exact (h rfl).elim
  | cons i rest => rfl

/-- Reordering the instructions changes neither whether the plan passes, nor how many findings are
critical, nor how many are of each rule but that about tests before edits. -/
theorem check_of_isReordering {instructions others : List Instruction}
    (h : IsReordering instructions others) (limits : Limits)
    (snapshot : Option GroundingSnapshot) (references : List FileReference) :
    (check limits instructions snapshot references).passed =
        (check limits others snapshot references).passed ∧
      (check limits instructions snapshot references).critical =
        (check limits others snapshot references).critical ∧
      ∀ n ≠ 7, (check limits instructions snapshot references).countRule n =
        (check limits others snapshot references).countRule n := by
  by_cases hnil : instructions = []
  · subst hnil
    rw [h.perm.nil_eq]
    exact ⟨rfl, rfl, fun _ _ => rfl⟩
  · have hnil' : others ≠ [] := fun hothers => hnil (h.perm.trans (.of_eq hothers)).eq_nil
    have hcounts := sameCounts_allFindings h limits.clamped snapshot references
    rw [check_of_ne_nil hnil, check_of_ne_nil hnil']
    exact ⟨congrArg (· == 0) hcounts.critical, hcounts.critical, hcounts.rule⟩

/-- An edit between a written test and its run, and the same with the test written last. -/
def testedEdit (writtenFirst : Bool) : List Instruction :=
  let edit : Instruction := { id := "edit", op := .editCode, dependencies := ["write"] }
  let write : Instruction := { id := "write", op := .generateTest, dependencies := ["edit"] }
  let run : Instruction := { id := "run", op := .runTest, dependencies := ["edit", "gone"] }
  if writtenFirst then [write, edit, run] else [edit, run, write]

/-- The verdicts on both agree but for the warning that the edit comes before its test. -/
theorem check_testedEdit :
    (∀ limits snapshot references,
      (check limits (testedEdit true) snapshot references).passed =
          (check limits (testedEdit false) snapshot references).passed ∧
        (check limits (testedEdit true) snapshot references).critical =
          (check limits (testedEdit false) snapshot references).critical ∧
        ∀ n ≠ 7, (check limits (testedEdit true) snapshot references).countRule n =
          (check limits (testedEdit false) snapshot references).countRule n) ∧
      testOrder (testedEdit true) = [] ∧
      testOrder (testedEdit false) = [.editBeforeTest "edit"] := by
  refine ⟨check_of_isReordering ⟨?_, fun id => ?_⟩, rfl, rfl⟩
  · exact (List.perm_append_singleton _ [_, _]).symm
  · by_cases hid : id = "write"
    · subst hid
      rfl
    · have hwrite : ("write" == id) = false := beq_false_of_ne (Ne.symm hid)
      simp [testedEdit, List.filter_cons, hwrite]

end Viability

end PlanReview
