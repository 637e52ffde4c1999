import PlanReview.Proofs.Loop.Saves
import PlanReview.Proofs.Session.Documents
import PlanReview.Proofs.Session.Ledger

/-!
# How a run ends

A run that answers has stored the state that its answer speaks of (`Run.Concluded`,
`drive_concludes`). If the status is that of a completed session, the last iteration has left
behind everything that its approval rests on (`Approval`) : the plan is the one that was checked
and reviewed, and the files of the iteration hold the two.

An iteration presents a plan (`judge_presents`), and either approves it or leaves feedback
(`settle_ends`). Only the approval completes the session, so through any number of rounds the
completed ones are the approved ones (`rounds_end`).
-/

namespace PlanReview

open RunM Workspace
open Artifacts (jsonText)

variable {c : Controller} {r r' : Run} {w : Workspace} {key : List String} {content : Content}

/-! ## Files that last -/

/-- A file that is neither the state, nor its temporary file, nor the metrics of the session. -/
structure IsAside (dir : Path) (cwd key : List String) : Prop where
  state : key ≠ dir.resolve cwd ++ [SessionState.fileName]
  temporary : key ≠ dir.resolve cwd ++ [SessionState.temporaryName]
  metrics : key ≠ dir.resolve cwd ++ [Tally.fileName]

/-- A file that nothing is written to at the end of a run : it is not named after the session
either. -/
structure Lasts (dir : Path) (cwd key : List String) : Prop extends IsAside dir cwd key where
  own : ∃ names name, key = names ++ [name] ∧ Artifacts.IsOwnName name

/-- A file of the session's directory lasts if it has a name of its own and is none of the
three. -/
theorem lasts_of_name (dir : Path) (cwd : List String) {name : String}
    (hown : Artifacts.IsOwnName name) (hstate : name ≠ SessionState.fileName)
    (htemporary : name ≠ SessionState.temporaryName) (hmetrics : name ≠ Tally.fileName) :
    Lasts dir cwd (dir.resolve cwd ++ [name]) := by
  refine ⟨⟨?_, ?_, ?_⟩, ⟨_, _, rfl, hown⟩⟩ <;>
    rwa [Ne, List.append_cancel_left_eq, List.singleton_inj]

theorem lasts_planFile (c : Controller) (cwd : List String) (n : Int) :
    Lasts c.dir cwd ((c.artifacts.planFile n).resolve cwd) := by
  rw [Artifacts.resolve_planFile]
  exact lasts_of_name c.dir cwd (Artifacts.isOwnName_planName n)
    (Artifacts.numbered_ne (by decide) n).symm (Artifacts.numbered_ne (by decide) n).symm
    (Artifacts.numbered_ne (by decide) n).symm

theorem lasts_reviewFile (c : Controller) (cwd : List String) (n : Int) :
    Lasts c.dir cwd ((c.artifacts.reviewFile n).resolve cwd) := by
  rw [Artifacts.resolve_reviewFile]
  exact lasts_of_name c.dir cwd (Artifacts.isOwnName_reviewName n)
    (Artifacts.numbered_ne (by decide) n).symm (Artifacts.numbered_ne (by decide) n).symm
    (Artifacts.numbered_ne (by decide) n).symm

theorem isAside_finalFile (c : Controller) (cwd : List String) :
    IsAside c.dir cwd (c.artifacts.finalFile.resolve cwd) := by
  have hne {name : String} (h : ¬ "-final.json".toList <:+ name.toList) (names : List String) :
      c.artifacts.finalFile.resolve cwd ≠ names ++ [name] :=
    Path.resolve_ne (Artifacts.isEnding_of_mem (by decide)) c.artifacts.finalFile_endsWith h
  exact ⟨hne (by decide) _, hne (by decide) _, hne (by decide) _⟩

/-- From `w` to `w'` the files that satisfy `P` stay as they are. -/
structure Workspace.Leaves (P : List String → Prop) (w w' : Workspace) : Prop where
  cwd : w'.files.cwd = w.files.cwd
  holds : ∀ key content, P key → w.files.Holds key content → w'.files.Holds key content

/-- An operation that leaves every file that satisfies `P`. -/
theorem ends_leaves {α : Type} {P : List String → Prop} {m : Act α}
    (hcwd : Ends m w (fun _ w' => w.Spares [] w') fun _ _ => True)
    (hholds : ∀ key content, P key → w.files.Holds key content →
      Ends m w (fun _ w' => w'.files.Holds key content) fun _ _ => True) :
    Ends m w (fun _ w' => w.Leaves P w') fun _ _ => True := by
  have hall := Ends.forall_of fun e : { e : List String × Content // P e.1 ∧
    w.files.Holds e.1 e.2 } => hholds e.1.1 e.1.2 e.2.1 e.2.2
  refine (hcwd.and hall).mono (fun _ w' ⟨hspares, hheld⟩ => ?_) fun _ _ _ => True.intro
  exact ⟨hspares.cwd_eq, fun key content hP h => hheld ⟨(key, content), hP, h⟩⟩

/-- The final artifacts leave every other file that has a name of its own. -/
theorem writeFinal_holds (a : Artifacts) (p : Plan) (status : FinalStatus) (score : Option Float)
    (h : w.files.Holds key content)
    (hown : ∃ names name, key = names ++ [name] ∧ Artifacts.IsOwnName name) :
    Ends (a.writeFinal p status score) w (fun _ w' => w'.files.Holds key content)
      fun _ w' => w'.files.Holds key content := by
  refine ends_holds h fun k _ hthere hk => ?_
  refine (a.writeFinal_ends p status score hthere ?_).mono (fun _ _ h => h.1) fun _ _ => id
  rcases hk with rfl | hdir
  · exact .inl hown
  · exact .inr hdir

theorem writeFinal_leaves (c : Controller) (p : Plan) (status : FinalStatus)
    (score : Option Float) (w : Workspace) :
    Ends (c.artifacts.writeFinal p status score) w
      (fun _ w' => w.Leaves (Lasts c.dir w.files.cwd) w' ∧
        w'.files.Holds (c.artifacts.finalFile.resolve w.files.cwd) (.text (jsonText p.toJson)))
      fun _ _ => True := by
  have hwrite := @Artifacts.writeFinal_ends [] w c.artifacts p status score
    (Option.some_ne_none _) (.inr rfl)
  have hcwd := hwrite.mono (fun _ _ h => h.1) fun _ _ _ => True.intro
  refine ((ends_leaves hcwd fun key content hlasts h => ?_).and hwrite).mono
    (fun _ _ h => ⟨h.1, h.2.2⟩) fun _ _ _ => True.intro
  exact (writeFinal_holds c.artifacts p status score h hlasts.own).mono (fun _ _ => id)
    fun _ _ _ => True.intro

theorem save_leaves (dir : Path) (s : SessionState) (w : Workspace) :
    Ends (s.save dir) w
      (fun _ w' => w.Leaves (IsAside dir w.files.cwd) w' ∧
        w'.files.Holds ((SessionState.filePath dir).resolve w.files.cwd) (.text s.storedText))
      fun _ _ => True := by
  have hcwd := (@SessionState.save_spares [] w dir s (Option.some_ne_none _) (by simp)
    (by simp)).mono (fun _ _ => id) fun _ _ _ => True.intro
  have hleaves := ends_leaves hcwd fun key content (haside : IsAside dir w.files.cwd key) h =>
    SessionState.save_holds dir s h haside.state haside.temporary
  rw [SessionState.resolve_filePath]
  exact (hleaves.and (SessionState.save_stored dir s)).mono (fun _ _ => id) fun _ _ => And.left

theorem record_leaves (t : Tally) (dir : Path) (outcome : Json.Fields) (w : Workspace) {P}
    (hP : ∀ key, P key → key ≠ dir.resolve w.files.cwd ++ [Tally.fileName]) :
    Ends (t.record dir outcome) w (fun _ w' => w.Leaves P w') fun _ _ => True := by
  have hcwd := (@Tally.record_ends [] w t dir outcome (.inl (Option.some_ne_none _))
    fun _ => rfl).mono (fun _ _ => id) fun _ _ _ => True.intro
  refine ends_leaves hcwd fun key content hkey h => ?_
  refine (ends_holds h fun k _ hthere hk => t.record_ends dir outcome (.inl hthere)
    fun heq => ?_).mono (fun _ _ => id) fun _ _ _ => True.intro
  rcases hk with rfl | hdir
  · exact absurd heq (hP _ hkey)
  · exact hdir

theorem writeReview_holds (a : Artifacts) (review : Review) (n : Int)
    (h : w.files.Holds key content) (hne : key ≠ (a.reviewFile n).resolve w.files.cwd) :
    Ends (a.writeReview review n) w (fun _ w' => w'.files.Holds key content)
      fun _ w' => w'.files.Holds key content := by
  rw [Artifacts.resolve_reviewFile] at hne
  refine ends_holds h fun k _ hthere hk => ?_
  refine (a.writeReview_ends review n hthere fun heq => ?_).mono (fun _ _ h => h.1) fun _ _ => id
  rcases hk with rfl | hdir
  · exact absurd heq hne
  · exact hdir

/-! ## Presenting a plan -/

/-- What the calls of an iteration leave as it is. -/
structure Run.Beside (r r' : Run) : Prop where
  iteration : r'.state.iteration = r.state.iteration
  status : r'.state.status = r.state.status
  reviews : r'.state.reviews = r.state.reviews
  lastReview : r'.lastReview = r.lastReview
  cwd : r'.workspace.files.cwd = r.workspace.files.cwd

theorem Run.Beside.refl (r : Run) : r.Beside r :=
  ⟨rfl, rfl, rfl, rfl, rfl⟩

theorem Run.Beside.trans {r'' : Run} (h : r.Beside r') (h' : r'.Beside r'') : r.Beside r'' :=
  ⟨h'.iteration.trans h.iteration, h'.status.trans h.status, h'.reviews.trans h.reviews,
    h'.lastReview.trans h.lastReview, h'.cwd.trans h.cwd⟩

/-- A plan that was reviewed in the iteration of the run, as its files and its state have it. -/
structure Run.Presents (c : Controller) (r : Run) (j : Judged) : Prop where
  checked : j.checks = Checklist.run j.plan
  current : r.state.currentPlan = some j.plan.fields
  reviewed : ∃ ctx, r.reviewed.getLast? = some (j.plan, ctx) ∧ ctx.iteration = r.state.iteration
  planFile : r.workspace.files.Holds
    ((c.artifacts.planFile r.state.iteration).resolve r.workspace.files.cwd)
    (.text (jsonText j.plan.toJson))

/-- What accounting for a call leaves as it is. -/
structure Accounts (account : SessionState → TokenUsage → SessionState) : Prop where
  iteration : ∀ s u, (account s u).iteration = s.iteration
  status : ∀ s u, (account s u).status = s.status
  reviews : ∀ s u, (account s u).reviews = s.reviews
  current : ∀ s u, (account s u).currentPlan = s.currentPlan

theorem accounts_planner : Accounts SessionState.addPlannerUsage :=
  ⟨fun _ _ => rfl, fun _ _ => rfl, fun _ _ => rfl, fun _ _ => rfl⟩

theorem accounts_reviewer : Accounts SessionState.addReviewerUsage :=
  ⟨fun _ _ => rfl, fun _ _ => rfl, fun _ _ => rfl, fun _ _ => rfl⟩

section Calls

variable {α : Type} {account : SessionState → TokenUsage → SessionState}

theorem Run.Beside.afterCall (h : r.Beside r') (haccount : Accounts account) (name : String)
    (call : Call α) : r.Beside (r'.afterCall name account call) := by
  unfold Run.afterCall
  dsimp only
  cases call.usage with
  | none => exact ⟨h.iteration, h.status, h.reviews, h.lastReview, h.cwd⟩
  | some u => exact ⟨(haccount.iteration _ u).trans h.iteration,
      (haccount.status _ u).trans h.status, (haccount.reviews _ u).trans h.reviews, h.lastReview,
      h.cwd⟩

theorem Run.currentPlan_afterCall (haccount : Accounts account) (r : Run) (name : String)
    (call : Call α) : (r.afterCall name account call).state.currentPlan = r.state.currentPlan := by
  unfold Run.afterCall
  dsimp only
  cases call.usage with
  | none => rfl
  | some u => exact haccount.current _ u

end Calls

theorem callPlanner_beside (c : Controller) (ctx : PlanningContext) (r : Run) :
    Ends (callPlanner c ctx) r (fun _ r' => r.Beside r') fun _ r' => r.Beside r' := by
  have hbefore : r.Beside { r.count "planner_calls" with planned := r.planned ++ [ctx] } :=
    ⟨rfl, rfl, rfl, rfl, rfl⟩
  rw [ends_callPlanner, ends_ofExcept]
  split <;> exact hbefore.afterCall accounts_planner _ _

theorem callReviewer_beside (c : Controller) (p : Plan) (ctx : ReviewContext) (r : Run) :
    Ends (callReviewer c p ctx) r
      (fun _ r' => r.Beside r' ∧ r'.state.currentPlan = r.state.currentPlan ∧
        r'.workspace.files = r.workspace.files ∧ r'.reviewed = r.reviewed ++ [(p, ctx)])
      fun _ r' => r.Beside r' := by
  have hbefore : r.Beside { r.count "reviewer_calls" with reviewed := r.reviewed ++ [(p, ctx)] } :=
    ⟨rfl, rfl, rfl, rfl, rfl⟩
  have hafter := hbefore.afterCall accounts_reviewer "reviewer"
    (c.reviewer r.reviewed.length p ctx)
  rw [ends_callReviewer, ends_ofExcept]
  split
  · exact ⟨hafter, Run.currentPlan_afterCall accounts_reviewer _ _ _, rfl, rfl⟩
  · exact hafter

/-- The plan of an iteration is the one that the state holds. -/
theorem draft_beside (c : Controller) {resume : Option Resume}
    (hresume : ∀ q ∈ resume, q.standsFor r.state.iteration = true →
      r.state.currentPlan = some q.plan.fields) :
    Ends (draft c resume) r
      (fun p r' => r.Beside r' ∧ r'.state.currentPlan = some p.fields)
      fun _ r' => r.Beside r' := by
  rw [ends_draft]
  split
  · exact Run.Beside.refl r
  · split
    · rename_i q hq
      obtain ⟨hmem, hstands⟩ := Option.filter_eq_some_iff.1 hq
      exact ⟨Run.Beside.refl r, hresume q hmem hstands⟩
    · exact (callPlanner_beside c _ r).mono (fun p r₁ h₁ =>
        ⟨⟨h₁.iteration, h₁.status, h₁.reviews, h₁.lastReview, h₁.cwd⟩, rfl⟩) fun _ _ => id

/-- An iteration reviews the plan that its file and the state hold. -/
theorem judge_presents (c : Controller) {resume : Option Resume}
    (hresume : ∀ q ∈ resume, q.standsFor r.state.iteration = true →
      r.state.currentPlan = some q.plan.fields) :
    Ends (judge c resume) r (fun j r' => r.Beside r' ∧ r'.Presents c j)
      fun _ r' => r.Beside r' := by
  rw [ends_judge]
  refine (draft_beside c hresume).mono (fun p r₁ ⟨h₁, hcurrent⟩ => ?_) fun _ _ => id
  rw [ends_onWorkspace]
  have hwrite := @Artifacts.writePlan_ends [] r₁.workspace c.artifacts p r₁.state.iteration
    (Option.some_ne_none _) fun _ => rfl
  refine hwrite.mono (fun _ w ⟨hspares, hholds⟩ => ?_) fun _ w hspares =>
    h₁.trans ⟨rfl, rfl, rfl, rfl, hspares.cwd_eq⟩
  have hbeside : r₁.Beside { r₁ with workspace := w } := ⟨rfl, rfl, rfl, rfl, hspares.cwd_eq⟩
  refine (callReviewer_beside c p _ { r₁ with workspace := w }).mono ?_ fun _ _ h =>
    (h₁.trans hbeside).trans h
  rintro review r₂ ⟨h₂, hcurrent₂, hfiles, hreviewed⟩
  have hlast := congrArg List.getLast? hreviewed
  rw [List.getLast?_concat] at hlast
  rw [← Artifacts.resolve_planFile, ← hspares.cwd_eq] at hholds
  refine ⟨(h₁.trans hbeside).trans h₂, rfl, hcurrent₂.trans hcurrent,
    ⟨_, hlast, h₂.iteration.symm⟩, ?_⟩
  rw [hfiles, h₂.iteration]
  exact hholds

/-! ## The approval of a plan -/

/-- What the approval of a plan rests on : the plan of the last iteration was checked and reviewed,
the review is the last stored one and lets the plan pass, and the files hold the two. -/
structure Approval (c : Controller) (reviewed : List (Plan × ReviewContext)) (s : SessionState)
    (files : FileTree) (p : Plan) (ctx : ReviewContext) (review : Review) : Prop where
  reviewed : reviewed.getLast? = some (p, ctx)
  iteration : ctx.iteration = s.iteration
  current : s.currentPlan = some p.fields
  stored : s.reviews.getLast? = some review.fields
  line : ∃ line, s.iterationHistory.getLast? = some line ∧ line.iteration = s.iteration ∧
    line.outcome = .reviewPassed
  passed : review.passed = true
  unasked : review.assessment.requiresHumanInput = false
  score : review.score ≥ c.scoreThreshold
  checks : ∀ check ∈ Checklist.run p, check.severity = .error → check.passed = true
  planFile : files.Holds ((c.artifacts.planFile s.iteration).resolve files.cwd)
    (.text (jsonText p.toJson))
  reviewFile : files.Holds ((c.artifacts.reviewFile s.iteration).resolve files.cwd)
    (.text (jsonText review.toJson))

/-- The last review of the run is the last one that its state holds. -/
def Run.IsNoted (r : Run) : Prop :=
  ∀ review ∈ r.lastReview, r.state.reviews.getLast? = some review.fields

/-- If the run has completed the session, its last plan was approved, and if it was stopped for
good, no plan has a score. -/
structure Run.Ended (c : Controller) (r : Run) : Prop where
  noted : r.IsNoted
  approval : r.state.status.kind = .completed → ∃ p ctx review,
    Approval c r.reviewed r.state r.workspace.files p ctx review
  stopped : r.state.status.kind = .hardStopped → ¬ 0.0 < r.state.bestScore

/-- Where an iteration with the number `n` leads. -/
def Run.After (c : Controller) (n : Int) : Next → Run → Prop
  | .finished, r => r.Ended c
  | .again, r => r.IsNoted ∧ r.state.iteration = n ∧ r.state.status.kind = .running

/-- A run with a presented plan, once its review is there. -/
structure Run.Weighs (c : Controller) (r : Run) (j : Judged) (review : Review) : Prop extends
    Run.Presents c r j where
  last : r.lastReview = some review
  stored : r.state.reviews.getLast? = some review.fields
  passes : review.passed = true → review.score ≥ c.scoreThreshold ∧
    ∀ check ∈ j.checks, check.severity = .error → check.passed = true
  reviewFile : r.workspace.files.Holds
    ((c.artifacts.reviewFile r.state.iteration).resolve r.workspace.files.cwd)
    (.text (jsonText review.toJson))

/-- A review that counts as passed has a score that reaches the threshold, and no check failed that
may not fail. -/
theorem Judged.passes_of_passed (j : Judged) (threshold : Float)
    (h : (j.finalReview threshold).passed = true) :
    (j.finalReview threshold).score ≥ threshold ∧
      ∀ check ∈ j.checks, check.severity = .error → check.passed = true := by
  have hpasses : ({ j.review with hardChecks := j.checks } : Review).passes threshold = true ∧
      (j.finalReview threshold).score = j.review.score := by
    unfold Judged.finalReview at h ⊢
    dsimp only at h ⊢
    split at h <;> split <;> exact ⟨h, rfl⟩
  obtain ⟨hpasses, hscore⟩ := hpasses
  rw [Review.passes, Bool.and_eq_true, Bool.not_eq_true', decide_eq_true_iff] at hpasses
  obtain ⟨hblocked, hreaches⟩ := hpasses
  rw [hscore]
  refine ⟨hreaches, fun check hcheck hseverity => ?_⟩
  have hnone := List.any_eq_false.1 hblocked check hcheck
  rw [hseverity] at hnone
  simpa using hnone

theorem save_workspace (c : Controller) (r : Run) :
    Ends (save c) r (fun _ r' => ∃ w, r' = { r with workspace := w }) fun _ _ => True := by
  rw [ends_save, ends_onWorkspace]
  exact (Ends.trivial _).mono (fun _ w _ => ⟨w, rfl⟩) fun _ _ => id

/-- A pause ends the run. -/
theorem pause_fails (c : Controller) (plan : Plan) (p : Pause) (r : Run) :
    Ends (pause c plan p) r (fun _ _ => False) fun _ _ => True := by
  rw [ends_pause]
  refine (Ends.trivial _).mono (fun _ _ _ => ?_) fun _ _ => id
  exact Ends.trivial _

/-- A reviewed plan is approved, or the run goes on with feedback. -/
theorem decide_ends {j : Judged} {review : Review} (tokensBefore : Int)
    (h : r.Weighs c j review) (hrunning : r.state.status.kind = .running) :
    Ends (decide c tokensBefore j review) r (fun next r' => r'.After c r.state.iteration next)
      fun _ _ => True := by
  have hnoted : r.IsNoted := by
    intro review' hreview'
    rw [h.last] at hreview'
    cases hreview'
    exact h.stored
  rw [ends_decide]
  split
  · exact (pause_fails c _ _ _).mono (fun _ _ => False.elim) fun _ _ => id
  · rename_i hhuman
    split
    · rename_i hpassed
      split
      · exact True.intro
      · exact (pause_fails c _ _ _).mono (fun _ _ => False.elim) fun _ _ => id
      · obtain ⟨ctx, hreviewed, hiteration⟩ := h.reviewed
        obtain ⟨hscore, hchecks⟩ := h.passes hpassed
        rw [h.checked] at hchecks
        exact ⟨hnoted, fun _ => ⟨j.plan, ctx, review, hreviewed, hiteration, h.current, h.stored,
          ⟨_, List.getLast?_concat, rfl, rfl⟩, hpassed, Bool.eq_false_iff.2 hhuman, hscore,
          hchecks, h.planFile, h.reviewFile⟩, nofun⟩
    · refine (save_workspace c _).mono ?_ fun _ _ => id
      rintro _ _ ⟨w, rfl⟩
      exact ⟨hnoted, rfl, hrunning⟩

/-- With its review, written and recorded, a presented plan is weighed. -/
theorem Run.Presents.weighs {j : Judged} {review : Review} {s : SessionState}
    (h : r.Presents c j) (hiteration : s.iteration = r.state.iteration)
    (hcurrent : s.currentPlan = r.state.currentPlan)
    (hstored : s.reviews.getLast? = some review.fields)
    (hpasses : review.passed = true → review.score ≥ c.scoreThreshold ∧
      ∀ check ∈ j.checks, check.severity = .error → check.passed = true)
    (hplanFile : w.files.Holds ((c.artifacts.planFile r.state.iteration).resolve w.files.cwd)
      (.text (jsonText j.plan.toJson)))
    (hreviewFile : w.files.Holds ((c.artifacts.reviewFile r.state.iteration).resolve w.files.cwd)
      (.text (jsonText review.toJson))) :
    Run.Weighs c { r with workspace := w, state := s, lastReview := some review } j review := by
  obtain ⟨ctx, hreviewed, hctx⟩ := h.reviewed
  rw [← hiteration] at hplanFile hreviewFile hctx
  exact ⟨⟨h.checked, hcurrent.trans h.current, ⟨ctx, hreviewed, hctx⟩, hplanFile⟩, rfl, hstored,
    hpasses, hreviewFile⟩

/-- A presented plan is weighed with its review. -/
theorem settle_ends {j : Judged} (tokensBefore : Int) (h : r.Presents c j)
    (hrunning : r.state.status.kind = .running) :
    Ends (settle c tokensBefore j) r (fun next r' => r'.After c r.state.iteration next)
      fun _ _ => True := by
  have hpasses := j.passes_of_passed c.scoreThreshold
  rw [ends_settle, ends_onWorkspace]
  generalize j.finalReview c.scoreThreshold = review at hpasses ⊢
  have hreview := @Artifacts.writeReview_ends [] r.workspace c.artifacts review r.state.iteration
    (Option.some_ne_none _) fun _ => rfl
  have hplan := writeReview_holds c.artifacts review r.state.iteration h.planFile (by
    rw [Artifacts.resolve_planFile, Artifacts.resolve_reviewFile, Ne,
      List.append_cancel_left_eq, List.singleton_inj]
    exact Artifacts.planName_ne_reviewName _ _)
  refine (hreview.and hplan).mono (fun _ w ⟨⟨hspares, hreviewFile⟩, hplanFile⟩ => ?_)
    fun _ _ _ => True.intro
  unfold Run.absorbing SessionState.absorbing
  dsimp only
  have hstays := r.state.absorb_stays review
    (Guardrail.conditions c.thresholds j.plan.toJson review.score r.state.iteration)
  have hcurrent := r.state.absorb_currentPlan review
    (Guardrail.conditions c.thresholds j.plan.toJson review.score r.state.iteration)
  have hreviews := r.state.absorb_reviews review
    (Guardrail.conditions c.thresholds j.plan.toJson review.score r.state.iteration)
  generalize r.state.absorb review _ = s at hstays hcurrent hreviews ⊢
  rw [← Artifacts.resolve_reviewFile] at hreviewFile
  rw [← hspares.cwd_eq] at hplanFile hreviewFile
  have hweighs := h.weighs hstays.iteration hcurrent (by rw [hreviews, List.getLast?_concat])
    hpasses hplanFile hreviewFile
  rw [← hstays.iteration]
  exact decide_ends tokensBefore hweighs ((congrArg Status.kind hstays.status).trans hrunning)

/-! ## Rounds -/

/-- A run between two iterations : if it goes on from a plan of which nothing is asked, its state
holds the plan. -/
structure Run.Stands (r : Run) (resume : Option Resume) : Prop where
  noted : r.IsNoted
  running : r.state.status.kind = .running
  follows : ∀ q ∈ resume, q.startIteration ≤ r.state.iteration ∨
    q.startIteration = r.state.iteration + 1 ∧
      (q.feedback = [] → r.state.currentPlan = some q.plan.fields)

variable {resume : Option Resume}

/-- The plan that is reviewed as it is in the next iteration is the one that the state holds. -/
theorem Run.Stands.current_of_standsFor (h : r.Stands resume) :
    ∀ q ∈ resume, q.standsFor (r.state.iteration + 1) = true →
      r.state.currentPlan = some q.plan.fields := by
  intro q hq hstands
  rw [Resume.standsFor, Bool.and_eq_true, beq_iff_eq, List.isEmpty_iff] at hstands
  rcases h.follows q hq with hle | ⟨-, hcurrent⟩
  · omega
  · exact hcurrent hstands.2

/-- After an iteration the run is between two iterations again. -/
theorem Run.Stands.again (h : r.Stands resume)
    (hafter : r'.After c (r.state.iteration + 1) .again) : r'.Stands resume := by
  obtain ⟨hnoted, hiteration, hrunning⟩ := hafter
  refine ⟨hnoted, hrunning, fun q hq => .inl ?_⟩
  rcases h.follows q hq with hle | ⟨heq, -⟩ <;> omega

theorem iteration_ends (h : r.Stands resume) :
    Ends (iteration c resume) r (fun next r' => r'.After c (r.state.iteration + 1) next)
      fun _ _ => True := by
  rw [ends_iteration]
  refine (judge_presents (r := r.opened) c h.current_of_standsFor).mono
    (fun j r₁ ⟨hbeside, hpresents⟩ => ?_) fun e r₁ hbeside => ?_
  · have hsettle := settle_ends r.state.totalTokens hpresents
      ((congrArg Status.kind hbeside.status).trans h.running)
    rw [hbeside.iteration] at hsettle
    exact hsettle
  · cases e with
    | phase message =>
      refine (save_workspace c _).mono ?_ fun _ _ => id
      rintro _ _ ⟨w, rfl⟩
      refine ⟨fun review hreview => ?_, hbeside.iteration,
        (congrArg Status.kind hbeside.status).trans h.running⟩
      have hnoted := h.noted review (hbeside.lastReview ▸ hreview)
      exact (congrArg List.getLast? hbeside.reviews).trans hnoted
    | _ => exact Ends.trivial _

/-- Stopping at a limit does not complete the session. -/
theorem stopAtLimit_ends (h : r.Stands resume) :
    Ends (stopAtLimit c) r (fun stopped r' => if stopped then r'.Ended c else r' = r)
      fun _ _ => True := by
  rw [ends_stopAtLimit]
  split
  · rfl
  · rename_i stop _
    split
    · exact True.intro
    · rename_i description _
      have hkind : (r.state.stopped stop description).status.kind =
          if r.state.bestScore > 0.0 then .bestEffort else .hardStopped := rfl
      refine ⟨h.noted, fun hcompleted => ?_, fun hstopped hscore => ?_⟩
      · have hcases := hkind.symm.trans hcompleted
        split at hcases <;> cases hcases
      · cases (hkind.trans (if_pos hscore)).symm.trans hstopped

theorem Run.Stands.ended (h : r.Stands resume) : r.Ended c :=
  ⟨h.noted, fun hcompleted => StatusKind.noConfusion (h.running.symm.trans hcompleted),
    fun hstopped => StatusKind.noConfusion (h.running.symm.trans hstopped)⟩

/-- Through any number of rounds a session is only completed by an approval. -/
theorem rounds_end (left : Nat) (h : r.Stands resume) :
    Ends (rounds c resume left) r (fun _ r' => r'.Ended c) fun _ _ => True := by
  induction left generalizing r with
  | zero =>
    rw [ends_rounds_zero]
    refine (stopAtLimit_ends h).mono (fun stopped r₁ h₁ => ?_) fun _ _ => id
    cases stopped with
    | true => exact h₁
    | false =>
      obtain rfl : r₁ = r := h₁
      exact h.ended
  | succ left ih =>
    rw [ends_rounds_succ]
    refine (stopAtLimit_ends h).mono (fun stopped r₁ h₁ => ?_) fun _ _ => id
    cases stopped with
    | true => exact h₁
    | false =>
      obtain rfl : r₁ = r := h₁
      refine (iteration_ends h).mono (fun next r₂ h₂ => ?_) fun _ _ => id
      cases next with
      | finished => exact h₂
      | again => exact ih (h.again h₂)

/-! ## The end of a run -/

/-- A kind of status with which a session has come to its end. -/
def StatusKind.IsEnd (kind : StatusKind) : Prop :=
  kind = .completed ∨ kind = .bestEffort ∨ kind = .hardStopped

theorem Approval.of_leaves {reviewed : List (Plan × ReviewContext)} {s : SessionState} {p : Plan}
    {ctx : ReviewContext} {review : Review} {w w' : Workspace}
    (h : Approval c reviewed s w.files p ctx review) {P : List String → Prop}
    (hP : ∀ key, Lasts c.dir w.files.cwd key → P key) (hleaves : w.Leaves P w') :
    Approval c reviewed s w'.files p ctx review := by
  have hplanFile := hleaves.holds _ _ (hP _ (lasts_planFile c _ _)) h.planFile
  have hreviewFile := hleaves.holds _ _ (hP _ (lasts_reviewFile c _ _)) h.reviewFile
  rw [← hleaves.cwd] at hplanFile hreviewFile
  exact { h with planFile := hplanFile, reviewFile := hreviewFile }

/-- What an answered run has left behind : its answer speaks of the state that is stored, and if
the session is completed, of an approved plan that is the final one. -/
structure Run.Concluded (c : Controller) (r : Run) (result : LoopResult) : Prop where
  stored : r.workspace.files.Holds
    ((SessionState.filePath c.dir).resolve r.workspace.files.cwd) (.text r.state.storedText)
  result : ∃ plan review, result = r.state.result plan review ∧
    (∃ now, finalPlan r.state now = .ok plan) ∧
    ((∃ last, review = some last ∧ r.state.reviews.getLast? = some last.fields) ∨
      r.state.lastReview = .ok review)
  approval : r.state.status.kind = .completed → ∃ p ctx review,
    Approval c r.reviewed r.state r.workspace.files p ctx review ∧
      r.workspace.files.Holds (c.artifacts.finalFile.resolve r.workspace.files.cwd)
        (.text (jsonText p.toJson))
  stopped : r.state.status.kind = .hardStopped → ¬ 0.0 < r.state.bestScore

/-- The plan of a completed session is the approved one. -/
theorem Approval.finalPlan_eq {reviewed : List (Plan × ReviewContext)} {s : SessionState}
    {files : FileTree} {p : Plan} {ctx : ReviewContext} {review : Review}
    (h : Approval c reviewed s files p ctx review) (hcompleted : s.status.kind = .completed)
    (now : String) : finalPlan s now = .ok (some (p.mapParams Json.finite)) := by
  unfold finalPlan SessionState.plan
  rw [h.current, SessionState.readPlan_fields, hcompleted]
  rfl

/-- Storing the state of an ended run concludes it. -/
theorem conclude_ends {plan : Option Plan} (hnoted : r.IsNoted)
    (hplan : ∃ now, finalPlan r.state now = .ok plan)
    (happroval : r.state.status.kind = .completed → ∃ p ctx review,
      Approval c r.reviewed r.state r.workspace.files p ctx review ∧
        r.workspace.files.Holds (c.artifacts.finalFile.resolve r.workspace.files.cwd)
          (.text (jsonText p.toJson)))
    (hstopped : r.state.status.kind = .hardStopped → ¬ 0.0 < r.state.bestScore) :
    Ends (conclude c plan) r (fun result r' => r'.Concluded c result) fun _ _ => True := by
  rw [ends_conclude, ends_save, ends_onWorkspace]
  refine (save_leaves c.dir r.state.updateSummary r.workspace).mono
    (fun _ w ⟨hleaves, hstored⟩ => ?_) fun _ _ => id
  rw [← hleaves.cwd] at hstored
  have happroved : r.state.updateSummary.status.kind = .completed → ∃ p ctx review,
      Approval c r.reviewed r.state.updateSummary w.files p ctx review ∧
        w.files.Holds (c.artifacts.finalFile.resolve w.files.cwd) (.text (jsonText p.toJson)) := by
    intro hcompleted
    obtain ⟨p, ctx, review, h, hfinal⟩ := happroval hcompleted
    have h' := h.of_leaves (fun _ => Lasts.toIsAside) hleaves
    have hfinal' := hleaves.holds _ _ (isAside_finalFile c _) hfinal
    rw [← hleaves.cwd] at hfinal'
    exact ⟨p, ctx, review, ⟨h'.reviewed, h'.iteration, h'.current, h'.stored, h'.line, h'.passed,
      h'.unasked, h'.score, h'.checks, h'.planFile, h'.reviewFile⟩, hfinal'⟩
  split
  · rename_i review hreview
    exact ⟨hstored, ⟨plan, _, rfl, hplan, .inl ⟨review, rfl, hnoted review hreview⟩⟩, happroved,
      hstopped⟩
  · split
    · rename_i review hreview
      exact ⟨hstored, ⟨plan, _, rfl, hplan, .inr hreview⟩, happroved, hstopped⟩
    · exact True.intro

theorem finish_concludes (h : r.Ended c) :
    Ends (finish c) r (fun result r' => r'.Concluded c result) fun _ _ => True := by
  rw [ends_finish]
  split
  · exact True.intro
  · rename_i hplan
    refine conclude_ends h.noted ⟨_, hplan⟩ (fun hcompleted => ?_) h.stopped
    obtain ⟨p, ctx, review, happroval⟩ := h.approval hcompleted
    rw [happroval.finalPlan_eq hcompleted] at hplan
    cases hplan
  · rename_i p hplan
    rw [ends_onWorkspace]
    refine (writeFinal_leaves c p _ _ r.workspace).mono (fun _ w ⟨hleaves, hfinal⟩ => ?_)
      fun _ _ => id
    rw [← hleaves.cwd] at hfinal
    refine @conclude_ends c { r with workspace := w } _ h.noted ⟨_, hplan⟩ (fun hcompleted => ?_)
      h.stopped
    obtain ⟨q, ctx, review, happroval⟩ := h.approval hcompleted
    have heq := happroval.finalPlan_eq hcompleted r.now
    rw [hplan] at heq
    cases heq
    refine ⟨q, ctx, review, happroval.of_leaves (fun _ => id) hleaves, ?_⟩
    rwa [Plan.toJson, Plan.fields_mapParams_finite] at hfinal

theorem Run.Concluded.of_leaves {result : LoopResult} {w : Workspace} (h : r.Concluded c result)
    (hleaves : r.workspace.Leaves
      (fun key => key ≠ c.dir.resolve r.workspace.files.cwd ++ [Tally.fileName]) w) :
    ({ r with workspace := w } : Run).Concluded c result := by
  obtain ⟨hstored, hresult, happroval, hstopped⟩ := h
  have hstate := hleaves.holds _ _ (by
    rw [SessionState.resolve_filePath, Ne, List.append_cancel_left_eq, List.singleton_inj]
    decide) hstored
  rw [← hleaves.cwd] at hstate
  refine ⟨hstate, hresult, fun hcompleted => ?_, hstopped⟩
  obtain ⟨p, ctx, review, happroved, hfinal⟩ := happroval hcompleted
  have hfinal' := hleaves.holds _ _ (isAside_finalFile c _).metrics hfinal
  rw [← hleaves.cwd] at hfinal'
  exact ⟨p, ctx, review, happroved.of_leaves (fun _ h => h.metrics) hleaves, hfinal'⟩

/-- An answered run has left behind what its answer says. -/
theorem drive_concludes {resume : Option Resume} (h : r.Stands resume) :
    Ends (drive c resume) r (fun result r' => r'.Concluded c result) fun _ _ => True := by
  rw [ends_drive]
  refine (rounds_end _ h).mono (fun _ r₁ h₁ => ?_) fun _ _ _ => Ends.trivial _
  refine (finish_concludes h₁).mono (fun result r₂ h₂ => ?_) fun _ _ _ => Ends.trivial _
  rw [ends_recordMetrics, ends_onWorkspace]
  exact (record_leaves r₂.tally c.dir r₂.state.outcome r₂.workspace fun _ => id).mono
    (fun _ _ hleaves => h₂.of_leaves hleaves) fun _ _ => id

end PlanReview
