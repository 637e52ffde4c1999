import Mathlib.Data.List.DropRight
import PlanReview.Proofs.Loop.Saves

/-!
# The books of a session

A stored state keeps several accounts of one session : the history and the reviews, the failed
phases in a row, and the tokens by role and by iteration. They agree in every state that a session
comes to have (`SessionState.IsConsistent`); and as long as no saved state was a failure, the
iterations account for all tokens (`SessionState.IsBalanced`).

Every rule of `Past` keeps the accounts (`Past.books`), among them the rule for a state that was
saved and loaded again, because what a file does not keep of a review (`Json.kept`) it does not keep
of its line in the history either.
-/

namespace PlanReview

open Json (ofOption keptFields)

/-! ## What the books say -/

/-- Whether a line of the history stands for a failed phase. -/
def IterationRecord.isPhaseError (line : IterationRecord) : Bool :=
  line.outcome == .phaseError

/-- A line of the history carries the verdict and the score of a stored review. -/
structure IterationRecord.Carries (line : IterationRecord) (review : Json.Fields) : Prop where
  passed : review.lookup "passed" = some (.bool line.reviewPassed)
  score : ∃ assessment, review.lookup "llm_review" = some (.obj assessment) ∧
    assessment.lookup "score" = some (ofOption .float line.reviewScore) ∧
    (assessment.map Prod.fst).Nodup
  keys : (review.map Prod.fst).Nodup

namespace SessionState

/-- The tokens of all iterations in the history. -/
def spent (s : SessionState) : Int :=
  (s.iterationHistory.map (·.tokens)).sum

/-- The accounts of a state agree with each other. -/
structure IsConsistent (s : SessionState) : Prop where
  reviews : List.Forall₂ IterationRecord.Carries
    (s.iterationHistory.filter fun line => !line.isPhaseError) s.reviews
  phaseErrors : s.consecutivePhaseErrors =
    (s.iterationHistory.rtakeWhile IterationRecord.isPhaseError).length
  lastError : s.lastError = none ↔ s.consecutivePhaseErrors = 0
  total : s.totalTokens = s.tokenBreakdown.total
  parts : s.tokenBreakdown.total = s.tokenBreakdown.plannerInput + s.tokenBreakdown.plannerOutput +
    s.tokenBreakdown.reviewerInput + s.tokenBreakdown.reviewerOutput
  spent_le : s.spent ≤ s.totalTokens

/-- The iterations account for all tokens. -/
def IsBalanced (s : SessionState) : Prop :=
  s.spent = s.totalTokens

/-- The fields that the books are about. -/
structure SameBooks (s t : SessionState) : Prop where
  history : t.iterationHistory = s.iterationHistory
  reviews : t.reviews = s.reviews
  phaseErrors : t.consecutivePhaseErrors = s.consecutivePhaseErrors
  lastError : t.lastError = s.lastError
  total : t.totalTokens = s.totalTokens
  breakdown : t.tokenBreakdown = s.tokenBreakdown

variable {s t : SessionState} {good : Plan → Prop}

theorem SameBooks.isConsistent (h : SameBooks s t) (hs : s.IsConsistent) : t.IsConsistent := by
  obtain ⟨hhistory, hreviews, herrors, hlast, htotal, hbreakdown⟩ := h
  refine ⟨?_, ?_, ?_, ?_, ?_, ?_⟩
  · rw [hhistory, hreviews]
    exact hs.reviews
  · rw [hhistory, herrors]
    exact hs.phaseErrors
  · rw [hlast, herrors]
    exact hs.lastError
  · rw [htotal, hbreakdown]
    exact hs.total
  · rw [hbreakdown]
    exact hs.parts
  · rw [spent, hhistory, htotal]
    exact hs.spent_le

theorem SameBooks.isBalanced (h : SameBooks s t) (hs : s.IsBalanced) : t.IsBalanced := by
  rw [IsBalanced, spent, h.history, h.total]
  exact hs

/-! ## Counting tokens -/

theorem cleanCount_nonneg (n : Option Int) : 0 ≤ cleanCount n := by
  unfold cleanCount
  split
  · split <;> omega
  · exact le_refl 0

/-- The tokens are accounted for by role. -/
structure IsAccounted (s : SessionState) : Prop where
  total : s.totalTokens = s.tokenBreakdown.total
  parts : s.tokenBreakdown.total = s.tokenBreakdown.plannerInput + s.tokenBreakdown.plannerOutput +
    s.tokenBreakdown.reviewerInput + s.tokenBreakdown.reviewerOutput

theorem IsConsistent.nextIteration (h : s.IsConsistent) : s.nextIteration.IsAccounted :=
  ⟨h.total, h.parts⟩

theorem IsAccounted.addTokens (h : s.IsAccounted)
    (planner reviewer : Option (Option Int × Option Int)) :
    (s.addTokens planner reviewer).IsAccounted ∧
      s.totalTokens ≤ (s.addTokens planner reviewer).totalTokens := by
  obtain ⟨htotal, hparts⟩ := h
  have hcount := cleanCount_nonneg
  unfold SessionState.addTokens
  rcases planner with _ | ⟨i, o⟩ <;> rcases reviewer with _ | ⟨i', o'⟩ <;>
    refine ⟨⟨rfl, ?_⟩, ?_⟩ <;>
    simp only [TokenBreakdown.addPlanner, TokenBreakdown.addReviewer] <;> grind

theorem IsAccounted.addPlannerUsage (h : s.IsAccounted) (u : TokenUsage) :
    (s.addPlannerUsage u).IsAccounted ∧ s.totalTokens ≤ (s.addPlannerUsage u).totalTokens :=
  (h.addTokens (some (some u.inputTokens, some u.outputTokens)) none).imp_left
    fun h => ⟨h.total, h.parts⟩

theorem IsAccounted.addReviewerUsage (h : s.IsAccounted) (u : TokenUsage) :
    (s.addReviewerUsage u).IsAccounted ∧ s.totalTokens ≤ (s.addReviewerUsage u).totalTokens :=
  (h.addTokens none (some (some u.inputTokens, some u.outputTokens))).imp_left
    fun h => ⟨h.total, h.parts⟩

/-- Calls of planner and reviewer only count tokens, and lose none. -/
theorem Works.isAccounted (h : s.Works good t) (hs : s.IsAccounted) :
    t.IsAccounted ∧ s.totalTokens ≤ t.totalTokens := by
  induction h with
  | refl => exact ⟨hs, le_refl _⟩
  | planned u _ ih =>
    obtain ⟨haccounted, hle⟩ := ih
    obtain ⟨haccounted', hle'⟩ := haccounted.addPlannerUsage u
    exact ⟨haccounted', le_trans hle hle'⟩
  | reviewed u _ ih =>
    obtain ⟨haccounted, hle⟩ := ih
    obtain ⟨haccounted', hle'⟩ := haccounted.addReviewerUsage u
    exact ⟨haccounted', le_trans hle hle'⟩
  | plan _ _ ih => exact ih.imp_left fun h => ⟨h.total, h.parts⟩

/-- Calls of planner and reviewer leave the history and the reviews alone. -/
structure SameHistory (s t : SessionState) : Prop where
  history : t.iterationHistory = s.iterationHistory
  reviews : t.reviews = s.reviews
  phaseErrors : t.consecutivePhaseErrors = s.consecutivePhaseErrors
  lastError : t.lastError = s.lastError

theorem Works.sameHistory (h : s.Works good t) : SameHistory s t := by
  obtain ⟨_, _, _, _, rfl⟩ := h.exists_eq
  exact ⟨rfl, rfl, rfl, rfl⟩

/-! ## One iteration -/

theorem new_isConsistent (now sessionId task slug : String) (dir : Option String) :
    (new now sessionId task slug dir).IsConsistent where
  reviews := .nil
  phaseErrors := rfl
  lastError := iff_of_true rfl rfl
  total := rfl
  parts := rfl
  spent_le := le_refl _

theorem spent_of_history {line : IterationRecord}
    (h : t.iterationHistory = s.iterationHistory ++ [line]) : t.spent = s.spent + line.tokens := by
  rw [spent, h, List.map_append, List.sum_append, List.map_singleton, List.sum_singleton, spent]

/-- The books with the line of an iteration in which a phase failed. -/
theorem isConsistent_of_phaseError {line : IterationRecord} (hs : s.IsConsistent)
    (hline : line.isPhaseError = true)
    (hhistory : t.iterationHistory = s.iterationHistory ++ [line])
    (hreviews : t.reviews = s.reviews)
    (herrors : t.consecutivePhaseErrors = s.consecutivePhaseErrors + 1)
    (hlast : t.lastError ≠ none) (haccounted : t.IsAccounted)
    (hspent : t.spent ≤ t.totalTokens) : t.IsConsistent := by
  have hlength := hs.phaseErrors
  refine ⟨?_, ?_, ?_, haccounted.total, haccounted.parts, hspent⟩
  · rw [hhistory, hreviews, List.filter_append, List.filter_singleton, hline]
    simpa using hs.reviews
  · rw [hhistory, List.rtakeWhile_concat_pos _ _ _ hline, List.length_append, herrors, hlength]
    rfl
  · rw [herrors, hlength]
    exact ⟨fun h => absurd h hlast, fun h => by omega⟩

/-- The books with the line of an iteration that came to a review. -/
theorem isConsistent_of_review {line : IterationRecord} {review : Json.Fields}
    (hs : s.IsConsistent) (hline : line.isPhaseError = false) (hcarries : line.Carries review)
    (hhistory : t.iterationHistory = s.iterationHistory ++ [line])
    (hreviews : t.reviews = s.reviews ++ [review]) (herrors : t.consecutivePhaseErrors = 0)
    (hlast : t.lastError = none) (haccounted : t.IsAccounted)
    (hspent : t.spent ≤ t.totalTokens) : t.IsConsistent := by
  refine ⟨?_, ?_, ?_, haccounted.total, haccounted.parts, hspent⟩
  · rw [hhistory, hreviews, List.filter_append, List.filter_singleton, hline]
    exact List.rel_append hs.reviews (.cons hcarries .nil)
  · rw [hhistory, List.rtakeWhile_concat_neg _ _ _ (by simp [hline]), herrors]
    rfl
  · rw [hlast, herrors]
    simp

/-- A review's document carries what its line says. -/
theorem carries_fields (u : SessionState) (now : String) (verdict : Viability.Verdict)
    (r : Review) (outcome : IterationOutcome) (tokensBefore : Int) :
    (historyLine u now verdict r outcome tokensBefore).Carries r.fields :=
  ⟨rfl, ⟨_, rfl, rfl, by simp⟩, by simp [Review.fields]⟩

/-- A failed phase is noted, and its tokens are those of the iteration. -/
theorem afterPhaseError_books (hs : s.IsConsistent) (h : s.nextIteration.Works good t)
    (now message : String) : (t.afterPhaseError now message s.totalTokens).IsConsistent ∧
      (s.IsBalanced → (t.afterPhaseError now message s.totalTokens).IsBalanced) := by
  obtain ⟨hhistory, hreviews, herrors, -⟩ := h.sameHistory
  obtain ⟨haccounted, hle⟩ := h.isAccounted hs.nextIteration
  have hlines : (t.afterPhaseError now message s.totalTokens).iterationHistory =
      s.iterationHistory ++ [phaseErrorLine { t with
        consecutivePhaseErrors := t.consecutivePhaseErrors + 1
        lastError := some message } now s.totalTokens] :=
    congrArg (· ++ _) hhistory
  have hspent : (t.afterPhaseError now message s.totalTokens).spent =
      s.spent + (t.totalTokens - s.totalTokens) := spent_of_history hlines
  refine ⟨isConsistent_of_phaseError hs rfl hlines hreviews (congrArg (· + 1) herrors)
    (Option.some_ne_none message) ⟨haccounted.total, haccounted.parts⟩ ?_, fun hbalanced => ?_⟩
  · have hspent_le := hs.spent_le
    rw [hspent]
    change _ ≤ t.totalTokens
    omega
  · rw [IsBalanced] at hbalanced ⊢
    rw [hspent, hbalanced]
    change _ = t.totalTokens
    omega

/-- A review is recorded with its line, and its tokens are those of the iteration. -/
theorem review_books (hs : s.IsConsistent) (h : s.nextIteration.Works good t) (now : String)
    (verdict : Viability.Verdict) (r : Review) (conditions : List Guardrail.Condition)
    (feedback : List String) {outcome : IterationOutcome} (houtcome : outcome ≠ .phaseError)
    {u : SessionState} (hu : u = (t.absorb r conditions).withFeedback feedback) :
    (u.addHistory (historyLine u now verdict r outcome s.totalTokens)).IsConsistent ∧
      (s.IsBalanced →
        (u.addHistory (historyLine u now verdict r outcome s.totalTokens)).IsBalanced) := by
  obtain ⟨hhistory, hreviews, -, -⟩ := h.sameHistory
  obtain ⟨haccounted, hle⟩ := h.isAccounted hs.nextIteration
  obtain ⟨score, plan, hrecord⟩ :=
    recordReview_eq { t with consecutivePhaseErrors := 0, lastError := none } r
  rw [absorb, hrecord] at hu
  have hlines :
      (u.addHistory (historyLine u now verdict r outcome s.totalTokens)).iterationHistory =
        s.iterationHistory ++ [historyLine u now verdict r outcome s.totalTokens] := by
    rw [addHistory, hu]
    exact congrArg (· ++ _) hhistory
  have htotal : u.totalTokens = t.totalTokens := by rw [hu]; rfl
  have hspent : (u.addHistory (historyLine u now verdict r outcome s.totalTokens)).spent =
      s.spent + (t.totalTokens - s.totalTokens) := by
    rw [spent_of_history hlines, ← htotal]
    rfl
  have hline : (historyLine u now verdict r outcome s.totalTokens).isPhaseError = false := by
    rw [IterationRecord.isPhaseError, beq_eq_false_iff_ne]
    exact houtcome
  refine ⟨isConsistent_of_review hs hline (carries_fields u now verdict r outcome _) hlines ?_ ?_ ?_
    ?_ ?_, fun hbalanced => ?_⟩
  · rw [addHistory, hu]
    exact congrArg (· ++ [r.fields]) hreviews
  · rw [addHistory, hu]
    rfl
  · rw [addHistory, hu]
    rfl
  · rw [addHistory, hu]
    exact ⟨haccounted.total, haccounted.parts⟩
  · have hspent_le := hs.spent_le
    rw [hspent]
    change _ ≤ u.totalTokens
    omega
  · rw [IsBalanced] at hbalanced ⊢
    rw [hspent, hbalanced]
    change _ = u.totalTokens
    omega

/-- A session that fails has counted tokens that no line accounts for. -/
theorem failed_isConsistent (hs : s.IsConsistent) (h : s.nextIteration.Works good t)
    (message : String) : (t.failed message).IsConsistent := by
  obtain ⟨hhistory, hreviews, herrors, hlast⟩ := h.sameHistory
  obtain ⟨haccounted, hle⟩ := h.isAccounted hs.nextIteration
  have hspent : (t.failed message).spent = s.spent :=
    congrArg (fun h => (h.map IterationRecord.tokens).sum) hhistory
  refine ⟨?_, ?_, ?_, haccounted.total, haccounted.parts, ?_⟩
  · have hforall := hs.reviews
    rw [failed]
    dsimp only
    rw [hhistory, hreviews]
    exact hforall
  · rw [failed]
    dsimp only
    rw [hhistory, herrors]
    exact hs.phaseErrors
  · rw [failed]
    dsimp only
    rw [hlast, herrors]
    exact hs.lastError
  · rw [hspent]
    exact le_trans hs.spent_le hle

/-! ## A state that is loaded -/

theorem keptFields_lookup {fs : Json.Fields} (h : (fs.map Prod.fst).Nodup) (key : String) :
    (keptFields fs).lookup key = (fs.lookup key).map Json.kept := by
  rw [Json.keptFields_of_nodup h]
  induction fs with
  | nil => rfl
  | cons f fs ih =>
    obtain ⟨k, v⟩ := f
    have hrest := ih (List.nodup_cons.1 h).2
    by_cases hkey : key = k
    · subst hkey
      rw [List.map_cons, List.lookup_cons_self, List.lookup_cons_self]
      rfl
    · rw [List.map_cons, List.lookup_cons, List.lookup_cons, beq_false_of_ne hkey]
      exact hrest

theorem carries_settled {line : IterationRecord} {review : Json.Fields}
    (h : line.Carries review) : line.settled.Carries (keptFields review) := by
  obtain ⟨hpassed, ⟨assessment, hassessment, hscore, hkeys'⟩, hkeys⟩ := h
  refine ⟨?_, ⟨keptFields assessment, ?_, ?_, ?_⟩, ?_⟩
  · rw [keptFields_lookup hkeys, hpassed]
    rfl
  · rw [keptFields_lookup hkeys, hassessment]
    rfl
  · rw [keptFields_lookup hkeys', hscore, Option.map_some, Json.kept_ofOption_float]
    rfl
  · rw [Json.keptFields_of_nodup hkeys', List.map_map]
    exact hkeys'
  · rw [Json.keptFields_of_nodup hkeys, List.map_map]
    exact hkeys

theorem IsConsistent.settled (hs : s.IsConsistent) : s.settled.IsConsistent := by
  have hspent : s.settled.spent = s.spent := by
    rw [spent, SessionState.settled, List.map_map]
    rfl
  refine ⟨?_, ?_, hs.lastError, hs.total, hs.parts, ?_⟩
  · rw [SessionState.settled]
    dsimp only
    rw [List.filter_map, List.forall₂_map_left_iff, List.forall₂_map_right_iff]
    exact hs.reviews.imp fun _ _ => carries_settled
  · have hrun : s.settled.iterationHistory.rtakeWhile IterationRecord.isPhaseError =
        (s.iterationHistory.rtakeWhile IterationRecord.isPhaseError).map
          IterationRecord.settled := by
      rw [SessionState.settled, List.rtakeWhile, List.rtakeWhile, ← List.map_reverse,
        List.takeWhile_map, List.map_reverse]
      rfl
    rw [hrun, List.length_map]
    exact hs.phaseErrors
  · rw [hspent]
    exact hs.spent_le

theorem IsBalanced.settled (hs : s.IsBalanced) : s.settled.IsBalanced := by
  rw [IsBalanced, spent, SessionState.settled, List.map_map]
  exact hs

end SessionState

/-! ## Every state that is saved -/

open SessionState

/-- None of these states is one of a failed session. -/
def NoFailure (saves : List SessionState) : Prop :=
  ∀ s ∈ saves, s.status.kind ≠ .failed

/-- The accounts agree in the state of a run and in all states that were saved, and as long as no
saved state was a failure the iterations account for all tokens. -/
structure Books (saves : List SessionState) (s : SessionState) : Prop where
  consistent : s.IsConsistent
  saved : ∀ t ∈ saves, t.IsConsistent
  balanced : NoFailure saves → s.IsBalanced
  savedBalanced : ∀ before t, before ++ [t] <+: saves → NoFailure (before ++ [t]) → t.IsBalanced

namespace Books

variable {saves : List SessionState} {s t : SessionState} {good : Plan → Prop}
  {fair : Float → Prop}

/-- A step that saves nothing only has to keep the accounts of the state. -/
theorem step (h : Books saves s) (hconsistent : t.IsConsistent)
    (hbalanced : s.IsBalanced → t.IsBalanced) : Books saves t :=
  ⟨hconsistent, h.saved, fun hfailure => hbalanced (h.balanced hfailure), h.savedBalanced⟩

/-- What leaves the accounts alone keeps them. -/
theorem same (h : Books saves s) (hsame : SameBooks s t) : Books saves t :=
  h.step (hsame.isConsistent h.consistent) hsame.isBalanced

/-- A state whose accounts agree may be saved. -/
theorem save (h : Books saves s) (hconsistent : t.IsConsistent)
    (hbalanced : t.status.kind ≠ .failed → s.IsBalanced → t.IsBalanced) :
    Books (saves ++ [t]) t := by
  have hlast (hfailure : NoFailure (saves ++ [t])) : t.IsBalanced :=
    hbalanced (hfailure t (by simp)) (h.balanced fun u hu => hfailure u (by simp [hu]))
  refine ⟨hconsistent, ?_, hlast, ?_⟩
  · intro u hu
    rcases List.mem_append.1 hu with hu | hu
    · exact h.saved u hu
    · rw [List.mem_singleton.1 hu]
      exact hconsistent
  · intro before u hbegins hfailure
    rcases List.prefix_concat_iff.1 hbegins with heq | hbegins
    · obtain ⟨rfl, hu⟩ := List.append_inj' heq rfl
      cases hu
      exact hlast hfailure
    · exact h.savedBalanced before u hbegins hfailure

/-- The state that was saved last may be loaded. -/
theorem load (h : Books saves s) (hlast : saves.getLast? = some t) : Books saves t.settled := by
  obtain ⟨before, rfl⟩ := List.getLast?_eq_some_iff.1 hlast
  refine ⟨(h.saved t (by simp)).settled, h.saved, fun hfailure => ?_, h.savedBalanced⟩
  exact (h.savedBalanced before t (List.prefix_refl _) hfailure).settled

end Books

/-- Every move of a run keeps the accounts. -/
theorem Past.books {good : Plan → Prop} {fair : Float → Prop} {saves : List SessionState}
    {s : SessionState} (h : Past good fair saves s) : Books saves s := by
  induction h with
  | new now sessionId task slug dir =>
    refine ⟨new_isConsistent _ _ _ _ _, List.forall_mem_nil _, fun _ => rfl, ?_⟩
    intro before t hbegins
    exact absurd (List.prefix_nil.1 hbegins) (List.append_ne_nil_of_right_ne_nil _ (by simp))
  | load _ hlast _ ih => exact ih.load hlast
  | save _ ih => exact ih.save ih.consistent fun _ => id
  | move _ _ ih => exact ih.same ⟨rfl, rfl, rfl, rfl, rfl, rfl⟩
  | answer response approved _ ih =>
    refine ih.same ?_
    unfold SessionState.answer applyHumanResponse
    split <;> exact ⟨rfl, rfl, rfl, rfl, rfl, rfl⟩
  | setTo _ _ _ ih => exact ih.same ⟨rfl, rfl, rfl, rfl, rfl, rfl⟩
  | start request _ _ ih =>
    refine ih.same ?_
    unfold Request.start
    split <;> exact ⟨rfl, rfl, rfl, rfl, rfl, rfl⟩
  | phaseError now message _ hworks ih =>
    obtain ⟨hconsistent, hbalanced⟩ := afterPhaseError_books ih.consistent hworks now message
    exact ih.step hconsistent hbalanced
  | fail message _ hworks ih =>
    exact ih.save (failed_isConsistent ih.consistent hworks message) fun h => absurd rfl h
  | review now verdict conditions feedback _ hworks _ houtcome hu ih =>
    obtain ⟨hconsistent, hbalanced⟩ := review_books ih.consistent hworks now verdict _ conditions
      feedback houtcome hu
    exact ih.step hconsistent hbalanced
  | ask _ _ _ _ _ ih => exact ih.same ⟨rfl, rfl, rfl, rfl, rfl, rfl⟩
  | revise _ _ ih => exact ih.same ⟨rfl, rfl, rfl, rfl, rfl, rfl⟩
  | complete _ ih => exact ih.same ⟨rfl, rfl, rfl, rfl, rfl, rfl⟩
  | stop _ _ _ ih => exact ih.same ⟨rfl, rfl, rfl, rfl, rfl, rfl⟩
  | summarize _ ih => exact ih.same ⟨rfl, rfl, rfl, rfl, rfl, rfl⟩

/-- A tree with nothing in it, as seen from a home directory. -/
def bareTree : FileTree := { cwd := ["home"] }

/-- A visit in which the planner uses tokens and never has a plan. -/
def fruitless (task : String) : Visit where
  controller := {
    planner := fun _ _ => {
      usage := some { inputTokens := 7, outputTokens := 2 }
      answer := fun _ => .error (.phase "nothing to plan") }
    reviewer := fun _ _ _ => { answer := fun _ => .error (.phase "nothing to review") }
    artifacts := {
      sessionDir := .ofParts ["home", "runs"]
      activeDir := .ofParts ["home", "active"]
      slug := task } }
  request := { task := task }
  now := .ofCivil 2024 5 17 12 0 0 0

end PlanReview
