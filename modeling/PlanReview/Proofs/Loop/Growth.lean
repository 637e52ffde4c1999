import PlanReview.Proofs.Decimal.Order
import PlanReview.Proofs.Loop.Records

/-!
# What only grows

A session never forgets : of any two states that it saves, the later one goes on with the reviews,
the answers, the triggered conditions and the history of the earlier one, and has counted no fewer
tokens and tool calls and has no lower best score (`SessionState.GrowsTo`). Every operation of a run
lets a state grow in this sense, whatever is reported or asked for (`SessionState.Enlarges`), and so
does every move and every start of a run. A run starts from what a file holds of the state before,
so states are compared as a file holds them, which loses nothing twice
(`SessionState.settled_settled`).
-/

namespace PlanReview

open Decimal (le_refl_of_nonneg le_trans_of_nonneg nonneg_of_le)
open Workspace

variable {c : Controller} {good : Plan → Prop} {s t u : SessionState} {request : Request}

namespace SessionState

/-- The second state goes on with all records of the first, and has counted no less. -/
structure GrowsTo (s t : SessionState) : Prop where
  reviews : s.reviews <+: t.reviews
  humanInputs : s.humanInputs <+: t.humanInputs
  conditions : s.triggeredConditions <+: t.triggeredConditions
  history : s.iterationHistory <+: t.iterationHistory
  tokens : s.totalTokens ≤ t.totalTokens
  toolCalls : s.toolCalls ≤ t.toolCalls
  bestScore : s.bestScore ≤ t.bestScore

/-- The account of tokens agrees with their total, the best score is not negative, and every
condition is noted once. -/
structure IsSound (s : SessionState) : Prop extends s.IsAccounted where
  score : 0.0 ≤ s.bestScore
  conditions : s.triggeredConditions.Nodup

/-- A sound state grows and stays sound. -/
def Enlarges (s t : SessionState) : Prop :=
  s.IsSound → s.GrowsTo t ∧ t.IsSound

theorem GrowsTo.refl (h : s.IsSound) : s.GrowsTo s where
  reviews := List.prefix_refl _
  humanInputs := List.prefix_refl _
  conditions := List.prefix_refl _
  history := List.prefix_refl _
  tokens := le_refl _
  toolCalls := le_refl _
  bestScore := le_refl_of_nonneg h.score

theorem GrowsTo.trans (hs : s.IsSound) (h : s.GrowsTo t) (h' : t.GrowsTo u) : s.GrowsTo u where
  reviews := h.reviews.trans h'.reviews
  humanInputs := h.humanInputs.trans h'.humanInputs
  conditions := h.conditions.trans h'.conditions
  history := h.history.trans h'.history
  tokens := h.tokens.trans h'.tokens
  toolCalls := h.toolCalls.trans h'.toolCalls
  bestScore := le_trans_of_nonneg hs.score h.bestScore h'.bestScore

theorem Enlarges.refl (s : SessionState) : s.Enlarges s :=
  fun hs => ⟨.refl hs, hs⟩

theorem Enlarges.trans (h : s.Enlarges t) (h' : t.Enlarges u) : s.Enlarges u := by
  intro hs
  obtain ⟨hgrows, ht⟩ := h hs
  obtain ⟨hgrows', hu⟩ := h' ht
  exact ⟨hgrows.trans hs hgrows', hu⟩

/-- All that only grows. -/
def records (s : SessionState) : List Json.Fields × List HumanInput × List String ×
    List IterationRecord × Int × TokenBreakdown × Int × Float :=
  (s.reviews, s.humanInputs, s.triggeredConditions, s.iterationHistory, s.totalTokens,
    s.tokenBreakdown, s.toolCalls, s.bestScore)

/-- What changes something else, changes nothing here. -/
theorem enlarges_of_records (h : t.records = s.records) : s.Enlarges t := by
  intro hs
  obtain ⟨⟨htotal, hparts⟩, hscore, hconditions⟩ := hs
  simp only [records, Prod.mk.injEq] at h
  obtain ⟨hreviews, hinputs, hnames, hhistory, htokens, hbreakdown, hcalls, hbest⟩ := h
  refine ⟨⟨?_, ?_, ?_, ?_, ?_, ?_, ?_⟩, ⟨?_, ?_⟩, ?_, ?_⟩
  · rw [hreviews]
  · rw [hinputs]
  · rw [hnames]
  · rw [hhistory]
  · rw [htokens]
  · rw [hcalls]
  · rw [hbest]
    exact le_refl_of_nonneg hscore
  · rw [htokens, hbreakdown]
    exact htotal
  · rw [hbreakdown]
    exact hparts
  · rwa [hbest]
  · rwa [hnames]

/-! ## Operations -/

theorem enlarges_withFeedback (s : SessionState) (feedback : List String) :
    s.Enlarges (s.withFeedback feedback) :=
  enlarges_of_records rfl

theorem enlarges_updateSummary (s : SessionState) : s.Enlarges s.updateSummary :=
  enlarges_of_records rfl

theorem enlarges_completed (s : SessionState) : s.Enlarges s.completed :=
  enlarges_of_records rfl

theorem enlarges_stopped (s : SessionState) (hard : HardStop) (description : String) :
    s.Enlarges (s.stopped hard description) :=
  enlarges_of_records rfl

theorem enlarges_asking (s : SessionState) (now : String) (p : Pause) :
    s.Enlarges (s.asking now p) :=
  enlarges_of_records rfl

theorem enlarges_addHistory (s : SessionState) (line : IterationRecord) :
    s.Enlarges (s.addHistory line) := by
  intro hs
  have hself := GrowsTo.refl hs
  exact ⟨{ hself with history := List.prefix_append _ _ }, { hs with }⟩

/-- A list of different names goes on as one. -/
theorem insertNew_grows (names new : List String) :
    names <+: insertNew names new ∧ (names.Nodup → (insertNew names new).Nodup) := by
  induction new generalizing names with
  | nil => exact ⟨List.prefix_refl _, id⟩
  | cons n ns ih =>
    rw [insertNew]
    split
    · exact ih names
    · rename_i hnew
      have hnew' : n ∉ names := by simpa using hnew
      obtain ⟨hbegins, hnodup⟩ := ih (names ++ [n])
      refine ⟨(List.prefix_append _ _).trans hbegins, fun hnames => hnodup ?_⟩
      exact hnames.append (List.nodup_singleton n) (by simpa using hnew')

theorem enlarges_addConditions (s : SessionState) (names : List String) :
    s.Enlarges (s.addConditions names) := by
  intro hs
  have hself := GrowsTo.refl hs
  obtain ⟨hbegins, hnodup⟩ := insertNew_grows s.triggeredConditions names
  exact ⟨{ hself with conditions := hbegins }, { hs with conditions := hnodup hs.conditions }⟩

/-- A review is only the best so far if its score is above all before it. -/
theorem enlarges_recordReview (s : SessionState) (r : Review) :
    s.Enlarges (s.recordReview r) := by
  intro hs
  have hself := GrowsTo.refl hs
  unfold recordReview
  dsimp only
  split
  · rename_i hbetter
    have hle : s.bestScore ≤ r.score := Decimal.le_of_lt (by simpa [isImprovedBy] using hbetter)
    exact ⟨{ hself with reviews := List.prefix_append _ _, bestScore := hle },
      { hs with score := nonneg_of_le hs.score hle }⟩
  · exact ⟨{ hself with reviews := List.prefix_append _ _ }, { hs with }⟩

/-- Counts that are missing or negative add nothing. -/
theorem enlarges_addTokens (s : SessionState)
    (planner reviewer : Option (Option Int × Option Int)) :
    s.Enlarges (s.addTokens planner reviewer) := by
  intro hs
  have hself := GrowsTo.refl hs
  obtain ⟨haccounted, htokens⟩ := hs.toIsAccounted.addTokens planner reviewer
  exact ⟨{ hself with tokens := htokens },
    { haccounted with score := hs.score, conditions := hs.conditions }⟩

theorem enlarges_addToolCalls (s : SessionState) (count : Option Int) :
    s.Enlarges (s.addToolCalls count) := by
  intro hs
  have hself := GrowsTo.refl hs
  have hcalls : s.toolCalls ≤ (s.addToolCalls count).toolCalls :=
    Int.le_add_of_nonneg_right (cleanCount_nonneg count)
  exact ⟨{ hself with toolCalls := hcalls }, { hs with }⟩

theorem enlarges_noteEstimate (s : SessionState) (estimated : Bool) :
    s.Enlarges (s.noteEstimate estimated) := by
  intro hs
  have hself := GrowsTo.refl hs
  exact ⟨{ hself with }, { hs with }⟩

theorem enlarges_addPlannerUsage (s : SessionState) (usage : TokenUsage) :
    s.Enlarges (s.addPlannerUsage usage) :=
  (enlarges_addTokens s _ none).trans
    ((enlarges_addToolCalls _ _).trans (enlarges_noteEstimate _ usage.estimated))

theorem enlarges_addReviewerUsage (s : SessionState) (usage : TokenUsage) :
    s.Enlarges (s.addReviewerUsage usage) :=
  (enlarges_addTokens s none _).trans
    ((enlarges_addToolCalls _ _).trans (enlarges_noteEstimate _ usage.estimated))

theorem enlarges_applyHumanResponse (s : SessionState) (response : String) (approved : Bool) :
    s.Enlarges (s.applyHumanResponse response approved) := by
  intro hs
  have hself := GrowsTo.refl hs
  unfold applyHumanResponse
  split
  · exact ⟨hself, hs⟩
  · exact ⟨{ hself with humanInputs := List.prefix_append _ _ }, { hs with }⟩

theorem enlarges_answer (s : SessionState) (response : String) (approved : Bool) :
    s.Enlarges (s.answer response approved) :=
  (enlarges_applyHumanResponse s response approved).trans (enlarges_withFeedback _ _)

/-! ## Moves -/

theorem Works.enlarges (h : s.Works good t) : s.Enlarges t := by
  induction h with
  | refl => exact .refl _
  | planned usage _ ih => exact ih.trans (enlarges_addPlannerUsage _ usage)
  | reviewed usage _ ih => exact ih.trans (enlarges_addReviewerUsage _ usage)
  | plan _ _ ih => exact ih.trans (enlarges_of_records rfl)

theorem enlarges_of_works (h : s.nextIteration.Works good t) : s.Enlarges t := by
  have hopened : s.Enlarges s.nextIteration := enlarges_of_records rfl
  exact hopened.trans h.enlarges

theorem enlarges_absorb (s : SessionState) (r : Review) (conditions : List Guardrail.Condition) :
    s.Enlarges (s.absorb r conditions) := by
  have hreset : s.Enlarges { s with consecutivePhaseErrors := 0, lastError := none } :=
    enlarges_of_records rfl
  exact hreset.trans ((enlarges_recordReview _ r).trans (enlarges_addConditions _ _))

theorem enlarges_afterPhaseError (s : SessionState) (now message : String) (tokensBefore : Int) :
    s.Enlarges (s.afterPhaseError now message tokensBefore) := by
  have hnoted : s.Enlarges { s with
      consecutivePhaseErrors := s.consecutivePhaseErrors + 1
      lastError := some message } := enlarges_of_records rfl
  exact hnoted.trans ((enlarges_addConditions _ _).trans (enlarges_addHistory _ _))

theorem enlarges_revising (s : SessionState) (now : String) (j : Judged) (review : Review)
    (tokensBefore : Int) : s.Enlarges (s.revising now j review tokensBefore) :=
  (enlarges_addHistory s _).trans
    ((enlarges_withFeedback _ _).trans (enlarges_updateSummary _))

theorem Judges.enlarges {j : Judged} (h : s.Judges c good j t) (review : Review) :
    s.Enlarges (t.absorbing c j.plan review) :=
  (enlarges_of_works h.works).trans (enlarges_absorb t review _)

theorem Move.enlarges (h : s.Move c good t) : s.Enlarges t := by
  cases h with
  | phaseError now message hworks =>
    exact (enlarges_of_works hworks).trans (enlarges_afterPhaseError _ now message _)
  | failed f hworks =>
    exact (enlarges_of_works hworks).trans (enlarges_of_records rfl)
  | asked now hjudges _ _ =>
    exact (hjudges.enlarges _).trans ((enlarges_withFeedback _ _).trans
      ((enlarges_addHistory _ _).trans (enlarges_asking _ now _)))
  | gated now hjudges _ _ _ _ =>
    exact (hjudges.enlarges _).trans ((enlarges_addHistory _ _).trans (enlarges_asking _ now _))
  | revised now hjudges _ _ _ =>
    exact (hjudges.enlarges _).trans (enlarges_revising _ now _ _ _)
  | approved now hjudges _ _ _ _ =>
    exact (hjudges.enlarges _).trans ((enlarges_addHistory _ _).trans
      ((enlarges_completed _).trans (enlarges_updateSummary _)))
  | stopped _ _ => exact (enlarges_stopped _ _ _).trans (enlarges_updateSummary _)

/-! ## What a file holds -/

theorem IsSound.settled (h : s.IsSound) : s.settled.IsSound :=
  ⟨⟨h.total, h.parts⟩, h.score, h.conditions⟩

theorem GrowsTo.settled (h : s.GrowsTo t) : s.settled.GrowsTo t.settled where
  reviews := h.reviews.map _
  humanInputs := h.humanInputs
  conditions := h.conditions
  history := h.history.map _
  tokens := h.tokens
  toolCalls := h.toolCalls
  bestScore := h.bestScore

theorem new_isSound (now sessionId task slug : String) (dir : Option String) :
    (new now sessionId task slug dir).IsSound :=
  ⟨⟨rfl, rfl⟩, Decimal.inUnit_zero.nonneg, List.nodup_nil⟩

end SessionState

open SessionState

/-! ## Starting a run -/

theorem enlarges_start (request : Request) (now : String) (s : SessionState) :
    s.Enlarges (request.start now s) := by
  refine enlarges_of_records ?_
  unfold Request.start
  split <;> rfl

theorem enlarges_takeUp {now : String} {resume : Option Resume}
    (h : request.takeUp c now s = .ok (t, resume)) : s.Enlarges t := by
  rcases takeUp_cases h with ⟨q, -, rfl⟩ | ⟨-, rfl⟩ | ⟨response, rfl⟩
  · exact enlarges_of_records rfl
  · exact .refl _
  · exact enlarges_answer s response _

/-- A run starts with a sound state, one that has grown from what a file holds of the state before
it. -/
theorem Request.Enters.grows {o : Option SessionState} (h : request.Enters c o t)
    (ho : ∀ s ∈ o, s.IsSound) : t.IsSound ∧ ∀ s ∈ o, s.settled.GrowsTo t := by
  obtain ⟨-, now, s, resume, -, htake, rfl⟩ := h
  have hgrown := (enlarges_takeUp htake).trans (enlarges_start request now s)
  cases o with
  | none =>
    have hnew := hgrown (new_isSound _ _ _ _ _)
    exact ⟨hnew.2, fun s hs => nomatch hs⟩
  | some u =>
    obtain ⟨dir, hsession⟩ := session_eq request c.artifacts.slug now u.settled
    rw [Option.map_some, hsession] at hgrown
    have hmoved : u.settled.Enlarges { u.settled with workingDir := dir } :=
      enlarges_of_records rfl
    obtain ⟨hgrows, hsound⟩ := (hmoved.trans hgrown) (ho u rfl).settled
    refine ⟨hsound, fun s hs => ?_⟩
    cases hs
    exact hgrows

/-! ## All that a session saves -/

section

variable {enters : Option SessionState → SessionState → Prop}
  {moves : SessionState → SessionState → Prop} {saves : List SessionState}
  {P : SessionState → Prop} {R : SessionState → SessionState → Prop}

/-- Of a list with one more state, any two are related if the last one of the list leads to the new
one. -/
theorem pairwise_snoc (htrans : ∀ s t u, P s → R s t → R t u → R s u)
    (h : (∀ s ∈ saves, P s) ∧ saves.Pairwise R) (ht : P t) (hlast : ∀ s ∈ saves.getLast?, R s t) :
    (∀ s ∈ saves ++ [t], P s) ∧ (saves ++ [t]).Pairwise R := by
  obtain ⟨hall, hpairs⟩ := h
  refine ⟨List.forall_mem_append.2 ⟨hall, List.forall_mem_singleton.2 ht⟩, ?_⟩
  refine List.pairwise_append.2 ⟨hpairs, List.pairwise_singleton R t, fun s hs u hu => ?_⟩
  rw [List.mem_singleton.1 hu]
  obtain ⟨before, last, rfl⟩ :=
    (List.eq_nil_or_concat' saves).resolve_left (List.ne_nil_of_mem hs)
  have hnext := hlast last List.getLast?_concat
  rcases List.mem_append.1 hs with hs' | hs'
  · have hbefore := (List.pairwise_append.1 hpairs).2.2 s hs' last (List.mem_singleton_self last)
    exact htrans s last t (hall s hs) hbefore hnext
  · rwa [List.mem_singleton.1 hs']

/-- What holds between a state and the next one that is saved, holds between any two of them, if it
passes on. -/
theorem Course.pairwise (h : Course enters moves saves)
    (htrans : ∀ s t u, P s → R s t → R t u → R s u)
    (henters : ∀ o t, (∀ s ∈ o, P s) → enters o t → P t ∧ ∀ s ∈ o, R s t)
    (hmoves : ∀ s t, P s → moves s t → P t ∧ R s t) :
    (∀ s ∈ saves, P s) ∧ saves.Pairwise R := by
  induction h with
  | nil => exact ⟨List.forall_mem_nil _, List.Pairwise.nil⟩
  | enter _ henter ih =>
    obtain ⟨ht, hlast⟩ := henters _ _ (fun s hs => ih.1 s (List.mem_of_getLast? hs)) henter
    exact pairwise_snoc htrans ih ht hlast
  | move _ hs hmove ih =>
    obtain ⟨ht, hgrows⟩ := hmoves _ _ (ih.1 _ (List.mem_of_getLast? hs)) hmove
    refine pairwise_snoc htrans ih ht fun u hu => ?_
    cases hs.symm.trans hu
    exact hgrows

end

/-- Whatever runs a session has, from one without a stored state on : its file is only ever given
the texts of these states, of any two of them the later one goes on with all records of the earlier
one and has counted no less, and each notes every condition once. They are compared as their texts
hold them, which is how they are loaded as long as the best score is a number. -/
theorem growth_of_visited {files : FileTree} {dir : Path} {visits : List Visit} (now : Instant)
    (hfile : files.has (filePath dir) = false)
    (hvisits : ∀ v ∈ visits, v.controller.dir = dir) :
    ∃ saves : List SessionState,
      files.versions ((filePath dir).resolve files.cwd)
        (visited visits (.untouched files now)).history = (saves.map fun s => .text s.storedText) ∧
      saves.Pairwise (fun s t => s.settled.GrowsTo t.settled) ∧
      (∀ s ∈ saves, s.settled.triggeredConditions.Nodup) ∧
      ∀ s ∈ saves,
        Json.parse s.storedText = .ok (.obj (Json.setField s.settled.fields "best_score"
          (Json.float s.bestScore).kept)) ∧
        ∀ time, s.bestScore.isFinite = true →
          ofText time (filePath dir) s.storedText = .ok s.settled := by
  obtain ⟨saves, hrecords⟩ : ∃ saves, (visited visits (.untouched files now)).Records dir
      (fun o t => ∃ c request, Request.Enters request c o t)
      (fun s t => ∃ c, s.Move c (fun _ => True) t) files saves :=
    visited_records now hfile hvisits (fun u _ o t henters => ⟨_, _, henters⟩)
      fun u _ s t _ hmove => ⟨_, hmove⟩
  obtain ⟨hsound, hpairs⟩ :
      (∀ s ∈ saves, s.IsSound) ∧ saves.Pairwise fun s t => s.settled.GrowsTo t.settled := by
    refine hrecords.course.pairwise (fun s t u hs h h' => h.trans hs.settled h') ?_ ?_
    · rintro o t ho ⟨c, request, henters⟩
      obtain ⟨ht, hgrows⟩ := henters.grows ho
      refine ⟨ht, fun s hs => ?_⟩
      rw [← s.settled_settled]
      exact (hgrows s hs).settled
    · rintro s t hs ⟨c, hmove⟩
      obtain ⟨hgrows, ht⟩ := hmove.enlarges hs
      exact ⟨ht, hgrows.settled⟩
  refine ⟨saves, ?_, hpairs, fun s hs => (hsound s hs).conditions, fun s _ => ⟨?_, ?_⟩⟩
  · rw [resolve_filePath]
    exact hrecords.chronicle.versions
  · rw [parse_storedText, kept_versioned_toJson]
  · exact fun time hfinite => ofText_storedText hfinite time _

/-- A visit that sets a session back, with a planner that reports less than nothing. -/
def rewinding : Visit where
  controller := { (fruitless "demo").controller with
    planner := fun _ _ => {
      usage := some { inputTokens := -7, toolCalls := -1 }
      answer := fun _ => .error (.phase "nothing to plan") } }
  request := {
    task := "demo"
    resume := some { plan := .new "" "Add foo", feedback := ["again"], startIteration := 0 } }
  now := .ofCivil 2024 5 17 13 0 0 0

/-- What a fruitless visit leaves, no such visit takes back. -/
theorem growth_of_rewinding :
    bareTree.has (filePath (fruitless "demo").controller.dir) = false ∧
    ∃ saves : List SessionState,
      bareTree.versions ((filePath (fruitless "demo").controller.dir).resolve bareTree.cwd)
        (visited [fruitless "demo", rewinding, fruitless "demo"]
          (.untouched bareTree ⟨0⟩)).history = (saves.map fun s => .text s.storedText) ∧
      saves.Pairwise (fun s t => s.settled.GrowsTo t.settled) ∧
      ∀ s ∈ saves, s.settled.triggeredConditions.Nodup := by
  have hfile : bareTree.has (filePath (fruitless "demo").controller.dir) = false := by decide
  have hdir : ∀ v ∈ [fruitless "demo", rewinding, fruitless "demo"],
      v.controller.dir = (fruitless "demo").controller.dir := by
    intro v hv
    simp only [List.mem_cons, List.not_mem_nil, or_false] at hv
    rcases hv with rfl | rfl | rfl <;> rfl
  obtain ⟨saves, hversions, hpairs, hconditions, -⟩ := growth_of_visited ⟨0⟩ hfile hdir
  exact ⟨hfile, saves, hversions, hpairs, hconditions⟩

end PlanReview
