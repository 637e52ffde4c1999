import PlanReview.Proofs.Artifact.Files
import PlanReview.Proofs.Loop.Parts
import PlanReview.Proofs.Session.Frame
import PlanReview.Proofs.Session.History

/-!
# The states that a run saves

Whatever a run does, and however it ends, the file of its session has been given the texts of
states that belong to its history, and nothing else (`run_keeps`). The same holds of any number of
runs, one after the other (`visited_keeps`).

The proof goes through a run from the inside out. While planner and reviewer are called nothing is
saved, and the state is the one before the iteration with their usage counted (`Working`); all
other parts lead from a state of the history to another one (`Keeps`).
-/

namespace PlanReview

open RunM Workspace

/-- The names of the file with the state of the session in a directory. -/
def stateKey (dir : Path) (cwd : List String) : List String :=
  dir.resolve cwd ++ [SessionState.fileName]

theorem isOwnName_fileName : Artifacts.IsOwnName SessionState.fileName := by
  unfold Artifacts.IsOwnName Artifacts.finalEndings
  decide

/-- The plans of the planner are good, also with another version, and the scores of the reviewer
are fair. -/
structure Controller.Delivers (c : Controller) (good : Plan → Prop) (fair : Float → Prop) :
    Prop where
  plans : ∀ n ctx now p, (c.planner n ctx).answer now = .ok p →
    ∀ prior iteration time, good (p.succeeding prior iteration time)
  scores : ∀ n p ctx now r, (c.reviewer n p ctx).answer now = .ok r → fair r.score

section

variable (dir : Path) (good : Plan → Prop) (fair : Float → Prop) (start : FileTree)

/-- All that was saved in the workspace belongs to the history of the session. -/
def Workspace.Keeps (w : Workspace) : Prop :=
  ∃ saves s, Chronicle (stateKey dir start.cwd) start w saves ∧ Past good fair saves s

/-- The run is at a state of the history of its session, and the session was saved before. -/
def Run.Keeps (r : Run) : Prop :=
  ∃ saves, saves ≠ [] ∧ Chronicle (stateKey dir start.cwd) start r.workspace saves ∧
    Past good fair saves r.state

/-- The run is in an iteration that began with the state `s`, before its review is recorded. -/
def Run.Working (s : SessionState) (r : Run) : Prop :=
  ∃ saves, saves ≠ [] ∧ Chronicle (stateKey dir start.cwd) start r.workspace saves ∧
    Past good fair saves s ∧ s.nextIteration.Works good r.state

end

variable {c : Controller} {good : Plan → Prop} {fair : Float → Prop} {start : FileTree}
  {s : SessionState} {r : Run}

theorem Run.Keeps.workspace (h : r.Keeps c.dir good fair start) :
    r.workspace.Keeps c.dir good fair start := by
  obtain ⟨saves, -, hchronicle, hpast⟩ := h
  exact ⟨saves, _, hchronicle, hpast⟩

theorem Run.Working.workspace (h : r.Working c.dir good fair start s) :
    r.workspace.Keeps c.dir good fair start := by
  obtain ⟨saves, -, hchronicle, hpast, -⟩ := h
  exact ⟨saves, _, hchronicle, hpast⟩

/-- What leaves the file of the state alone keeps the run where it is. -/
theorem Run.Keeps.spares {w : Workspace} (h : r.Keeps c.dir good fair start)
    (hspares : r.workspace.Spares (stateKey c.dir start.cwd) w) :
    ({ r with workspace := w } : Run).Keeps c.dir good fair start := by
  obtain ⟨saves, hne, hchronicle, hpast⟩ := h
  exact ⟨saves, hne, hchronicle.spares hspares, hpast⟩

theorem Run.Working.spares {w : Workspace} (h : r.Working c.dir good fair start s)
    (hspares : r.workspace.Spares (stateKey c.dir start.cwd) w) :
    ({ r with workspace := w } : Run).Working c.dir good fair start s := by
  obtain ⟨saves, hne, hchronicle, hpast, hworks⟩ := h
  exact ⟨saves, hne, hchronicle.spares hspares, hpast, hworks⟩

theorem Run.Keeps.cwd_eq (h : r.Keeps c.dir good fair start) :
    r.workspace.files.cwd = start.cwd := by
  obtain ⟨saves, -, hchronicle, -⟩ := h
  exact hchronicle.cwd_eq

theorem Run.Working.cwd_eq (h : r.Working c.dir good fair start s) :
    r.workspace.files.cwd = start.cwd := by
  obtain ⟨saves, -, hchronicle, -, -⟩ := h
  exact hchronicle.cwd_eq

theorem Run.Keeps.there (h : r.Keeps c.dir good fair start) :
    r.workspace.files.node? (stateKey c.dir start.cwd) ≠ none := by
  obtain ⟨saves, hne, hchronicle, -⟩ := h
  exact hchronicle.node_ne_none hne

theorem Run.Working.there (h : r.Working c.dir good fair start s) :
    r.workspace.files.node? (stateKey c.dir start.cwd) ≠ none := by
  obtain ⟨saves, hne, hchronicle, -, -⟩ := h
  exact hchronicle.node_ne_none hne

/-! ## Saving -/

/-- A save adds the state of the run to what was saved, or changes nothing. -/
theorem save_ends_run {saves : List SessionState}
    (hchronicle : Chronicle (stateKey c.dir start.cwd) start r.workspace saves) :
    Ends (save c) r
      (fun _ r' => ∃ w, r' = { r with workspace := w } ∧
        Chronicle (stateKey c.dir start.cwd) start w (saves ++ [r.state]))
      fun _ r' => ∃ w, r' = { r with workspace := w } ∧
        Chronicle (stateKey c.dir start.cwd) start w saves := by
  have hsave := r.state.save_ends (w := r.workspace) c.dir
  rw [hchronicle.cwd_eq] at hsave
  rw [ends_save, ends_onWorkspace]
  refine hsave.mono (fun _ w hstores => ⟨w, rfl, ?_⟩) fun _ w hspares => ⟨w, rfl, ?_⟩
  · exact hchronicle.stores [r.state] hstores
  · exact hchronicle.spares hspares

theorem save_keeps (h : r.Keeps c.dir good fair start) :
    Ends (save c) r (fun _ r' => r'.Keeps c.dir good fair start)
      fun _ r' => r'.workspace.Keeps c.dir good fair start := by
  obtain ⟨saves, hne, hchronicle, hpast⟩ := h
  refine (save_ends_run hchronicle).mono ?_ ?_
  · rintro _ _ ⟨w, rfl, hw⟩
    exact ⟨saves ++ [r.state], by simp, hw, hpast.save⟩
  · rintro _ _ ⟨w, rfl, hw⟩
    exact ⟨saves, _, hw, hpast⟩

/-! ## Planning and reviewing -/

/-- What the calls of planner and reviewer change : the state, by their usage and a plan, and the
time. -/
structure Run.Calls (good : Plan → Prop) (r r' : Run) : Prop where
  works : r.state.Works good r'.state
  files : r'.workspace.files = r.workspace.files
  journal : r'.workspace.journal = r.workspace.journal

theorem Run.Calls.refl (good : Plan → Prop) (r : Run) : r.Calls good r :=
  ⟨.refl _, rfl, rfl⟩

theorem Run.Calls.afterCall {α : Type} {r' : Run} (h : r.Calls good r') (name : String)
    {account : SessionState → TokenUsage → SessionState}
    (haccount : ∀ {t} u, r.state.Works good t → r.state.Works good (account t u))
    (call : Call α) : r.Calls good (r'.afterCall name account call) := by
  refine ⟨?_, h.files, h.journal⟩
  unfold Run.afterCall
  dsimp only
  cases call.usage with
  | none => exact h.works
  | some u => exact haccount u h.works

theorem callPlanner_calls (hplans : ∀ n ctx now p, (c.planner n ctx).answer now = .ok p →
      ∀ prior iteration time, good (p.succeeding prior iteration time))
    (ctx : PlanningContext) (r : Run) :
    Ends (callPlanner c ctx) r
      (fun p r' => r.Calls good r' ∧ ∀ prior iteration time, good (p.succeeding prior iteration time))
      fun _ r' => r.Calls good r' := by
  have hbefore : r.Calls good { r.count "planner_calls" with planned := r.planned ++ [ctx] } :=
    ⟨.refl _, rfl, rfl⟩
  have hafter : r.Calls good (r.plannerCalled c ctx) :=
    hbefore.afterCall "planner" (fun u => SessionState.Works.planned u) _
  rw [ends_callPlanner, ends_ofExcept]
  split
  · rename_i p hp
    exact ⟨hafter, hplans _ _ _ p hp⟩
  · exact hafter

/-- The reviewer has answered this review of this plan. -/
def Controller.HasReviewed (c : Controller) (p : Plan) (review : Review) : Prop :=
  ∃ n ctx now, (c.reviewer n p ctx).answer now = .ok review

theorem callReviewer_calls (good : Plan → Prop) (c : Controller) (p : Plan) (ctx : ReviewContext)
    (r : Run) :
    Ends (callReviewer c p ctx) r
      (fun review r' => r.Calls good r' ∧ c.HasReviewed p review)
      fun _ r' => r.Calls good r' := by
  have hbefore : r.Calls good
      { r.count "reviewer_calls" with reviewed := r.reviewed ++ [(p, ctx)] } := ⟨.refl _, rfl, rfl⟩
  have hafter : r.Calls good (r.reviewerCalled c p ctx) :=
    hbefore.afterCall "reviewer" (fun u => SessionState.Works.reviewed u) _
  rw [ends_callReviewer, ends_ofExcept]
  split
  · rename_i review hreview
    exact ⟨hafter, _, _, _, hreview⟩
  · exact hafter

theorem draft_calls (hplans : ∀ n ctx now p, (c.planner n ctx).answer now = .ok p →
      ∀ prior iteration time, good (p.succeeding prior iteration time))
    (resume : Option Resume) (r : Run) :
    Ends (draft c resume) r (fun _ r' => r.Calls good r') fun _ r' => r.Calls good r' := by
  rw [ends_draft]
  split
  · exact .refl good r
  · split
    · exact .refl good r
    · exact (callPlanner_calls hplans _ r).mono
        (fun p r' ⟨h, hp⟩ => ⟨h.works.plan (hp _ _ _), h.files, h.journal⟩) fun _ _ => id

/-- What planning and reviewing do to the state, and what the reviewer has answered. -/
theorem judge_works (hplans : ∀ n ctx now p, (c.planner n ctx).answer now = .ok p →
      ∀ prior iteration time, good (p.succeeding prior iteration time))
    (resume : Option Resume) (r : Run) :
    Ends (judge c resume) r
      (fun j r' => r.state.Works good r'.state ∧ c.HasReviewed j.plan j.review ∧
        j.checks = Checklist.run j.plan ∧ j.verdict = Viability.checkPlan c.viability j.plan)
      fun _ r' => r.state.Works good r'.state := by
  rw [ends_judge]
  refine (draft_calls hplans resume r).mono (fun p r₁ h₁ => ?_) fun _ _ h => h.works
  rw [ends_onWorkspace]
  refine (Ends.trivial _).mono (fun _ w _ => ?_) fun _ _ _ => h₁.works
  refine (callReviewer_calls good c p _ { r₁ with workspace := w }).mono ?_
    fun _ _ h => h₁.works.trans h.works
  exact fun review r₂ ⟨h₂, hreviewed⟩ => ⟨h₁.works.trans h₂.works, hreviewed, rfl, rfl⟩

theorem stateKey_ne (c : Controller) (cwd : List String) {name : String}
    (h : SessionState.fileName ≠ name) : stateKey c.dir cwd ≠ c.dir.resolve cwd ++ [name] := by
  rw [stateKey, Ne, List.append_cancel_left_eq, List.singleton_inj]
  exact h

theorem fileName_ne_planName (n : Int) : SessionState.fileName ≠ Artifacts.planName n :=
  Artifacts.numbered_ne (by decide) n

theorem fileName_ne_reviewName (n : Int) : SessionState.fileName ≠ Artifacts.reviewName n :=
  Artifacts.numbered_ne (by decide) n

/-- Planning and reviewing touch the file of the plan only, which holds the plan then. -/
theorem judge_writes (c : Controller) (resume : Option Resume) {key : List String}
    (hthere : r.workspace.files.node? key ≠ none)
    (hkey : key = c.dir.resolve r.workspace.files.cwd ++ [Artifacts.planName r.state.iteration] →
      r.workspace.files.node? key = some .directory) :
    Ends (judge c resume) r
      (fun j r' => r.workspace.Spares key r'.workspace ∧ r'.workspace.files.Holds
        (c.dir.resolve r.workspace.files.cwd ++ [Artifacts.planName r.state.iteration])
        (.text (Artifacts.jsonText j.plan.toJson)))
      fun _ r' => r.workspace.Spares key r'.workspace := by
  have hcalls (r r' : Run) (h : r.Calls (fun _ => True) r') :
      r.workspace.Spares key r'.workspace := spares_of_eq h.files h.journal
  rw [ends_judge]
  refine (draft_calls (fun _ _ _ _ _ _ _ _ => True.intro) resume r).mono (fun p r₁ h₁ => ?_)
    fun _ _ => hcalls _ _
  rw [ends_onWorkspace, h₁.works.stays.iteration]
  rw [← h₁.files] at hthere hkey ⊢
  refine (c.artifacts.writePlan_ends p r.state.iteration hthere hkey).mono
    (fun _ w ⟨hspares, hholds⟩ => ?_) fun _ w hspares => (hcalls _ _ h₁).trans hspares
  have hwritten := (hcalls _ _ h₁).trans hspares
  refine (callReviewer_calls (fun _ => True) c p _ { r₁ with workspace := w }).mono
    (fun _ r₂ ⟨h₂, _⟩ => ⟨hwritten.trans (hcalls _ _ h₂), ?_⟩)
    fun _ _ h₂ => hwritten.trans (hcalls _ _ h₂)
  rw [h₂.files]
  exact hholds

/-- Planning and reviewing leave the file of the state alone. -/
theorem judge_spares (c : Controller) (resume : Option Resume) {cwd : List String}
    (hcwd : r.workspace.files.cwd = cwd)
    (hthere : r.workspace.files.node? (stateKey c.dir cwd) ≠ none) :
    Ends (judge c resume) r (fun _ r' => r.workspace.Spares (stateKey c.dir cwd) r'.workspace)
      fun _ r' => r.workspace.Spares (stateKey c.dir cwd) r'.workspace := by
  subst hcwd
  have hwrites := judge_writes c resume hthere fun heq =>
    absurd heq (stateKey_ne c _ (fileName_ne_planName _))
  exact hwrites.mono (fun _ _ h => h.1) fun _ _ => id

theorem judge_ends (hc : c.Delivers good fair) (resume : Option Resume)
    (h : r.Working c.dir good fair start s) :
    Ends (judge c resume) r
      (fun j r' => r'.Working c.dir good fair start s ∧ fair j.review.score)
      fun _ r' => r'.Working c.dir good fair start s := by
  have hworking (r' : Run) (hworks : r.state.Works good r'.state)
      (hspares : r.workspace.Spares (stateKey c.dir start.cwd) r'.workspace) :
      r'.Working c.dir good fair start s := by
    obtain ⟨saves, hne, hchronicle, hpast, hworked⟩ := h
    exact ⟨saves, hne, hchronicle.spares hspares, hpast, hworked.trans hworks⟩
  refine ((judge_works hc.plans resume r).and (judge_spares c resume h.cwd_eq h.there)).mono ?_ ?_
  · rintro j r' ⟨⟨hworks, ⟨_, _, _, hreview⟩, -⟩, hspares⟩
    exact ⟨hworking r' hworks hspares, hc.scores _ _ _ _ _ hreview⟩
  · rintro _ r' ⟨hworks, hspares⟩
    exact hworking r' hworks hspares

/-! ## Deciding -/

/-- A change of the state that stays in the history. -/
theorem Run.Keeps.update {f : SessionState → SessionState} (h : r.Keeps c.dir good fair start)
    (hf : ∀ saves s, Past good fair saves s → Past good fair saves (f s)) :
    (r.update f).Keeps c.dir good fair start := by
  obtain ⟨saves, hne, hchronicle, hpast⟩ := h
  exact ⟨saves, hne, hchronicle, hf _ _ hpast⟩

theorem onWorkspace_keeps {α : Type} {a : Act α} (h : r.Keeps c.dir good fair start)
    (ha : Ends a r.workspace (fun _ w => r.workspace.Spares (stateKey c.dir start.cwd) w)
      fun _ w => r.workspace.Spares (stateKey c.dir start.cwd) w) :
    Ends (onWorkspace a) r (fun _ r' => ∃ w, r' = { r with workspace := w } ∧
        r'.Keeps c.dir good fair start)
      fun _ r' => r'.workspace.Keeps c.dir good fair start := by
  rw [ends_onWorkspace]
  exact ha.mono (fun _ w hspares => ⟨w, rfl, h.spares hspares⟩)
    fun _ w hspares => (h.spares hspares).workspace

theorem pause_keeps (plan : Plan) (p : Pause) (h : r.Keeps c.dir good fair start) :
    Ends (pause c plan p) r (fun _ _ => False)
      fun _ r' => r'.workspace.Keeps c.dir good fair start := by
  have hasked := h.update (f := (·.asking r.now p)) fun _ _ hpast => (hpast.ask _ _ _ _).summarize
  rw [ends_pause]
  refine (save_keeps hasked).mono (fun _ r₁ h₁ => ?_) fun _ _ => id
  have hwrite := c.artifacts.writeFinal_ends plan .draft none h₁.there
    (.inl ⟨_, _, rfl, isOwnName_fileName⟩)
  refine (onWorkspace_keeps h₁ (hwrite.mono (fun _ _ h => h.1) fun _ _ => id)).mono ?_
    fun _ _ => id
  rintro _ _ ⟨w, rfl, h₂⟩
  exact h₂.workspace

/-- The run has recorded the review of an iteration that began with the state `s`, and not yet
added its line to the history. -/
def Run.Absorbed (dir : Path) (good : Plan → Prop) (fair : Float → Prop) (start : FileTree)
    (s : SessionState) (review : Review) (r : Run) : Prop :=
  ∃ saves, saves ≠ [] ∧ Chronicle (stateKey dir start.cwd) start r.workspace saves ∧
    Past good fair saves s ∧ ∃ t conditions, s.nextIteration.Works good t ∧
      r.state = t.absorb review conditions

variable {review : Review}

theorem Run.Absorbed.workspace (h : r.Absorbed c.dir good fair start s review) :
    r.workspace.Keeps c.dir good fair start := by
  obtain ⟨saves, -, hchronicle, hpast, -⟩ := h
  exact ⟨saves, _, hchronicle, hpast⟩

/-- With its line the review belongs to the history. -/
theorem Run.Absorbed.note (h : r.Absorbed c.dir good fair start s review)
    (hfair : fair review.score) (feedback : List String) (now : String) (verdict : Viability.Verdict)
    {outcome : IterationOutcome} (houtcome : outcome ≠ .phaseError) :
    (r.update fun t => (t.withFeedback feedback).noted now verdict review outcome
      s.totalTokens).Keeps c.dir good fair start := by
  obtain ⟨saves, hne, hchronicle, hpast, t, conditions, hworks, hstate⟩ := h
  refine ⟨saves, hne, hchronicle, ?_⟩
  exact hpast.review now verdict conditions feedback hworks hfair houtcome
    (congrArg (fun t : SessionState => t.withFeedback feedback) hstate)

theorem decide_keeps (j : Judged) (h : r.Absorbed c.dir good fair start s review)
    (hfair : fair review.score) :
    Ends (decide c s.totalTokens j review) r (fun _ r' => r'.Keeps c.dir good fair start)
      fun _ r' => r'.workspace.Keeps c.dir good fair start := by
  -- leaving the feedback as it is changes nothing
  have hnote (verdict : Viability.Verdict) {outcome : IterationOutcome}
      (houtcome : outcome ≠ .phaseError) :=
    h.note hfair r.state.pendingFeedback r.now verdict houtcome
  rw [ends_decide]
  split
  · exact (pause_keeps _ _ (h.note hfair review.feedback r.now j.verdict (by decide))).mono
      (fun _ _ => False.elim) fun _ _ => id
  · split
    · split
      · exact h.workspace
      · exact (pause_keeps _ _ (hnote j.verdict (by decide))).mono (fun _ _ => False.elim)
          fun _ _ => id
      · exact (hnote j.verdict (by decide)).update fun _ _ => Past.complete
    · have houtcome : (if j.verdict.passed then .reviewFailed else .viabilityFailed) ≠
          IterationOutcome.phaseError := by
        split <;> decide
      exact save_keeps ((hnote j.verdict houtcome).update
        fun _ _ hpast => (hpast.revise _).summarize)

theorem settle_keeps (j : Judged) (h : r.Working c.dir good fair start s)
    (hfair : fair j.review.score) :
    Ends (settle c s.totalTokens j) r (fun _ r' => r'.Keeps c.dir good fair start)
      fun _ r' => r'.workspace.Keeps c.dir good fair start := by
  have hscore : fair (j.finalReview c.scoreThreshold).score := by
    unfold Judged.finalReview
    dsimp only
    split <;> exact hfair
  have hwrite := c.artifacts.writeReview_ends (j.finalReview c.scoreThreshold) r.state.iteration
    h.there fun heq => by
      rw [h.cwd_eq] at heq
      exact absurd heq (stateKey_ne c _ (fileName_ne_reviewName _))
  rw [ends_settle, ends_onWorkspace]
  refine hwrite.mono (fun _ w ⟨hspares, _⟩ => ?_) fun _ w hspares => (h.spares hspares).workspace
  refine decide_keeps j ?_ hscore
  obtain ⟨saves, hne, hchronicle, hpast, hworks⟩ := h
  exact ⟨saves, hne, hchronicle.spares hspares, hpast, _, _, hworks, rfl⟩

/-! ## Iterations -/

theorem markFailed_keeps (f : Failure) (h : r.Working c.dir good fair start s) :
    Ends (markFailed c f) r (fun _ r' => r'.workspace.Keeps c.dir good fair start)
      fun _ r' => r'.workspace.Keeps c.dir good fair start := by
  obtain ⟨saves, hne, hchronicle, hpast, hworks⟩ := h
  rw [ends_markFailed]
  have hsave := save_ends_run (r := r.update fun s => s.failed (failureText f)) hchronicle
  refine hsave.mono ?_ ?_
  · rintro _ _ ⟨w, rfl, hw⟩
    exact ⟨_, _, hw, hpast.fail _ hworks⟩
  · rintro e _ ⟨w, rfl, hw⟩
    cases e <;> exact ⟨saves, s, hw, hpast⟩

theorem iteration_keeps (hc : c.Delivers good fair) (resume : Option Resume)
    (h : r.Keeps c.dir good fair start) :
    Ends (iteration c resume) r (fun _ r' => r'.Keeps c.dir good fair start)
      fun _ r' => r'.workspace.Keeps c.dir good fair start := by
  have hbegin : r.opened.Working c.dir good fair start r.state := by
    obtain ⟨saves, hne, hchronicle, hpast⟩ := h
    exact ⟨saves, hne, hchronicle, hpast, .refl _⟩
  rw [ends_iteration]
  refine (judge_ends hc resume hbegin).mono
    (fun j r₁ ⟨h₁, hfair⟩ => settle_keeps (s := r.state) j h₁ hfair) fun e r₁ h₁ => ?_
  cases e with
  | phase message =>
    obtain ⟨saves, hne, hchronicle, hpast, hworks⟩ := h₁
    have hphase : (r₁.afterPhaseError message r.state.totalTokens).Keeps c.dir good fair start :=
      ⟨saves, hne, hchronicle, hpast.phaseError _ message hworks⟩
    exact save_keeps hphase
  | _ => exact markFailed_keeps _ h₁

theorem stopAtLimit_keeps (h : r.Keeps c.dir good fair start) :
    Ends (stopAtLimit c) r (fun _ r' => r'.Keeps c.dir good fair start)
      fun _ r' => r'.workspace.Keeps c.dir good fair start := by
  rw [ends_stopAtLimit]
  split
  · exact h
  · split
    · exact h.workspace
    · exact h.update fun _ _ hpast => hpast.stop _ _

theorem rounds_keeps (hc : c.Delivers good fair) (resume : Option Resume) (left : Nat)
    (h : r.Keeps c.dir good fair start) :
    Ends (rounds c resume left) r (fun _ r' => r'.Keeps c.dir good fair start)
      fun _ r' => r'.workspace.Keeps c.dir good fair start := by
  induction left generalizing r with
  | zero => exact ends_rounds_zero.2 (stopAtLimit_keeps h)
  | succ left ih =>
    rw [ends_rounds_succ]
    refine (stopAtLimit_keeps h).mono (fun stopped r₁ h₁ => ?_) fun _ _ => id
    cases stopped with
    | true => exact h₁
    | false =>
      refine (iteration_keeps hc resume h₁).mono (fun next r₂ h₂ => ?_) fun _ _ => id
      cases next with
      | finished => exact h₂
      | again => exact ih h₂

/-! ## Whole runs -/

theorem conclude_keeps (plan : Option Plan) (h : r.Keeps c.dir good fair start) :
    Ends (conclude c plan) r (fun _ r' => r'.Keeps c.dir good fair start)
      fun _ r' => r'.workspace.Keeps c.dir good fair start := by
  rw [ends_conclude]
  refine (save_keeps (h.update fun _ _ hpast => hpast.summarize)).mono (fun _ r₁ h₁ => ?_)
    fun _ _ => id
  split
  · exact h₁
  · split
    · exact h₁
    · exact h₁.workspace

theorem finish_keeps (h : r.Keeps c.dir good fair start) :
    Ends (finish c) r (fun _ r' => r'.Keeps c.dir good fair start)
      fun _ r' => r'.workspace.Keeps c.dir good fair start := by
  rw [ends_finish]
  split
  · exact h.workspace
  · exact conclude_keeps none h
  · rename_i p _
    have hwrite := c.artifacts.writeFinal_ends p (finalStatus r.state.status.kind)
      (some r.state.bestScore) h.there (.inl ⟨_, _, rfl, isOwnName_fileName⟩)
    refine (onWorkspace_keeps h (hwrite.mono (fun _ _ h => h.1) fun _ _ => id)).mono ?_
      fun _ _ => id
    rintro _ _ ⟨w, rfl, h₁⟩
    exact conclude_keeps (some p) h₁

/-- A file inside a directory is not on the way to it. -/
theorem not_prefix_dir (names : List String) (name : String) : ¬ names ++ [name] <+: names := by
  intro hbegins
  have hlength := hbegins.length_le
  rw [List.length_append, List.length_singleton] at hlength
  omega

theorem recordMetrics_spares (hcwd : r.workspace.files.cwd = start.cwd) :
    Ends (recordMetrics c) r
      (fun _ r' => ∃ w, r' = { r with workspace := w } ∧
        r.workspace.Spares (stateKey c.dir start.cwd) w)
      fun _ r' => ∃ w, r' = { r with workspace := w } ∧
        r.workspace.Spares (stateKey c.dir start.cwd) w := by
  rw [ends_recordMetrics, ends_onWorkspace]
  have hrecord := @Tally.record_ends (stateKey c.dir start.cwd) r.workspace r.tally c.dir
    r.state.outcome (.inr (by rw [hcwd]; exact not_prefix_dir _ _)) fun heq => by
      rw [hcwd] at heq
      exact absurd heq (stateKey_ne c _ (by decide))
  exact hrecord.mono (fun _ w hspares => ⟨w, rfl, hspares⟩) fun _ w hspares => ⟨w, rfl, hspares⟩

theorem drive_keeps (hc : c.Delivers good fair) (resume : Option Resume)
    (h : r.Keeps c.dir good fair start) :
    Ends (drive c resume) r (fun _ r' => r'.Keeps c.dir good fair start)
      fun _ r' => r'.workspace.Keeps c.dir good fair start := by
  have hrecorded {r : Run} (h : r.workspace.Keeps c.dir good fair start) :
      Ends (recordMetrics c) r (fun _ r' => r'.workspace.Keeps c.dir good fair start)
        fun _ r' => r'.workspace.Keeps c.dir good fair start := by
    obtain ⟨saves, s, hchronicle, hpast⟩ := h
    refine (recordMetrics_spares hchronicle.cwd_eq).mono ?_ ?_ <;> rintro _ _ ⟨w, rfl, hspares⟩ <;>
      exact ⟨saves, s, hchronicle.spares hspares, hpast⟩
  rw [ends_drive]
  refine (rounds_keeps hc resume _ h).mono (fun _ r₁ h₁ => ?_) fun _ _ => hrecorded
  refine (finish_keeps h₁).mono (fun result r₂ h₂ => ?_) fun _ _ => hrecorded
  refine (recordMetrics_spares h₂.cwd_eq).mono ?_ ?_
  · rintro _ _ ⟨w, rfl, hspares⟩
    exact h₂.spares hspares
  · rintro _ _ ⟨w, rfl, hspares⟩
    exact (h₂.spares hspares).workspace

/-! ## Entering a session -/

variable {w : Workspace}

/-- What is loaded is what a file holds of the state that was saved last. -/
theorem stored_of_load {now : String} {stored : Option SessionState} {saves : List SessionState}
    (hchronicle : Chronicle (stateKey c.dir start.cwd) start w saves)
    (hload : SessionState.load w.files now c.dir = .ok stored) :
    (∀ s ∈ saves.getLast?, s.bestScore.isFinite = true) ∧
      stored = saves.getLast?.map SessionState.settled := by
  have hnode := hchronicle.node
  unfold stateKey at hnode
  rw [← hchronicle.cwd_eq] at hnode
  exact SessionState.stored_of_node hnode hload

/-- A session that is taken up from the state that was saved last belongs to the history. -/
theorem past_session (request : Request) (slug now : String) {saves : List SessionState}
    (hpast : Past good fair saves s) (hfinite : ∀ s ∈ saves.getLast?, s.bestScore.isFinite = true) :
    Past good fair saves
      (request.session slug now (saves.getLast?.map SessionState.settled)) := by
  cases hlast : saves.getLast? with
  | none =>
    rw [List.getLast?_eq_none_iff.1 hlast]
    exact .new _ _ _ _ _
  | some t =>
    have hloaded := hpast.load hlast (hfinite t hlast)
    rw [Option.map_some]
    unfold Request.session
    cases request.workingDir with
    | none => exact hloaded
    | some dir =>
      dsimp only
      split
      · exact hloaded
      · exact hloaded.move _

theorem past_takeUp (request : Request) (hrequest : ∀ q ∈ request.resume, good q.plan)
    (now : String) {saves : List SessionState} (hpast : Past good fair saves s)
    {s' : SessionState} {resume : Option Resume}
    (h : request.takeUp c now s = .ok (s', resume)) : Past good fair saves s' := by
  unfold Request.takeUp at h
  split at h
  · rename_i q hq
    cases h
    exact hpast.setTo q (hrequest q hq)
  · cases h
  · cases hresume : s.resumeFrom now s.pendingFeedback with
    | error e =>
      rw [hresume] at h
      cases h
    | ok q =>
      rw [hresume] at h
      cases h
      exact hpast
  · rename_i response _ _
    dsimp only at h
    cases hresume : (s.answer response request.approved).resumeFrom now
        (s.answer response request.approved).pendingFeedback with
    | error e =>
      rw [hresume] at h
      cases h
    | ok q =>
      rw [hresume] at h
      cases h
      exact hpast.answer _ _

theorem enter_keeps (request : Request) (hrequest : ∀ q ∈ request.resume, good q.plan)
    (h : w.Keeps c.dir good fair start) :
    Ends (enter c request) w
      (fun entry w' => match entry with
        | .idle _ => w' = w
        | .running s _ => ({ workspace := w', state := s } : Run).Keeps c.dir good fair start)
      fun _ w' => w'.Keeps c.dir good fair start := by
  obtain ⟨saves, s, hchronicle, hpast⟩ := h
  have hkeeps : w.Keeps c.dir good fair start := ⟨saves, s, hchronicle, hpast⟩
  rw [ends_enter]
  cases hload : SessionState.load w.files w.now.text c.dir with
  | error e => exact hkeeps
  | ok stored =>
    obtain ⟨hfinite, rfl⟩ := stored_of_load hchronicle hload
    have hsession := past_session request c.artifacts.slug w.now.text hpast hfinite
    dsimp only
    generalize request.session c.artifacts.slug w.now.text _ = s₁ at hsession
    split
    · split
      · exact hkeeps
      · rfl
    · cases htake : request.takeUp c w.now.text s₁ with
      | error e => exact hkeeps
      | ok result =>
        obtain ⟨s₂, resume⟩ := result
        have hstart := (past_takeUp request hrequest w.now.text hsession htake).start request
          w.now.text
        have hsave := (request.start w.now.text s₂).save_ends (w := w) c.dir
        rw [hchronicle.cwd_eq] at hsave
        refine hsave.mono (fun _ w' hstores => ?_) fun _ w' hspares => ?_
        · exact ⟨_, by simp, hchronicle.stores [_] hstores, hstart.save⟩
        · exact ⟨saves, s, hchronicle.spares hspares, hpast⟩

/-- Taking the lock and giving it back leaves the file of the state alone. -/
theorem acquire_keeps (h : w.Keeps c.dir good fair start) :
    Ends (Lock.acquire c.registry c.dir) w (fun _ w' => w'.Keeps c.dir good fair start)
      fun _ w' => w'.Keeps c.dir good fair start := by
  obtain ⟨saves, s, hchronicle, hpast⟩ := h
  have hacquire := @Lock.acquire_ends (stateKey c.dir start.cwd) w c.registry c.dir
    (.inr (by rw [hchronicle.cwd_eq]; exact Lock.not_prefix_place _ _ _)) (by
      intro heq
      exact absurd (List.singleton_inj.1 (List.append_inj_right' heq rfl)) (by decide))
  exact hacquire.mono (fun _ w' hspares => ⟨saves, s, hchronicle.spares hspares, hpast⟩)
    fun _ w' hspares => ⟨saves, s, hchronicle.spares hspares, hpast⟩

theorem released_keeps {report : Report} (h : report.workspace.Keeps c.dir good fair start) :
    (report.released c).workspace.Keeps c.dir good fair start := by
  obtain ⟨saves, s, hchronicle, hpast⟩ := h
  exact ⟨saves, s, hchronicle.spares (Lock.release_spares _ _ _), hpast⟩

/-- All that a run saves belongs to the history of its session. -/
theorem run_keeps (hc : c.Delivers good fair) (request : Request)
    (hrequest : ∀ q ∈ request.resume, good q.plan) (h : w.Keeps c.dir good fair start) :
    (c.run request w).workspace.Keeps c.dir good fair start := by
  have hacquire := acquire_keeps h
  unfold Controller.run
  split
  · rename_i heq
    exact hacquire.of_error heq
  · rename_i w₁ heq
    have henter := enter_keeps request hrequest (hacquire.of_ok heq)
    split
    · rename_i heq'
      exact released_keeps (henter.of_error heq')
    · rename_i entry w₂ heq'
      refine released_keeps ?_
      have hentry := henter.of_ok heq'
      cases entry with
      | idle result =>
        rw [show w₂ = w₁ from hentry]
        exact hacquire.of_ok heq
      | running s resume =>
        have hdrive := (drive_keeps hc resume hentry).mono (fun _ _ => Run.Keeps.workspace)
          fun _ _ => id
        exact hdrive.state

/-! ## Sessions -/

/-- One run on a session : who drives it how, when it begins, and which locks are taken then. -/
structure Visit where
  controller : Controller
  request : Request
  now : Instant
  locks : Locks := {}

/-- The run of a visit. -/
def Visit.report (v : Visit) (w : Workspace) : Report :=
  v.controller.run v.request { w with now := v.now, locks := v.locks }

/-- The workspace after some visits, the first of them first. -/
def visited (visits : List Visit) (w : Workspace) : Workspace :=
  visits.foldl (fun w v => (v.report w).workspace) w

/-- A workspace in which nothing has changed yet. -/
def Workspace.untouched (files : FileTree) (now : Instant) : Workspace :=
  { files := files, now := now, started := now }

/-- A visit to the session in a directory whose plans are good and whose scores are fair. -/
structure Visit.Fits (dir : Path) (good : Plan → Prop) (fair : Float → Prop) (v : Visit) :
    Prop where
  dir_eq : v.controller.dir = dir
  delivers : v.controller.Delivers good fair
  resumes : ∀ q ∈ v.request.resume, good q.plan

/-- A visit to the session in a directory, whatever its plans and scores. -/
theorem Visit.fits {dir : Path} {v : Visit} (h : v.controller.dir = dir) :
    v.Fits dir (fun _ => True) fun _ => True :=
  ⟨h, ⟨fun _ _ _ _ _ _ _ _ => trivial, fun _ _ _ _ _ _ => trivial⟩, fun _ _ => trivial⟩

/-- A session without a stored state has no history. -/
theorem Workspace.keeps_untouched {dir : Path} {files : FileTree} (now : Instant)
    (h : files.has (SessionState.filePath dir) = false) :
    (untouched files now).Keeps dir good fair files := by
  rw [FileTree.has, FileTree.find?, SessionState.resolve_filePath, Option.isSome_eq_false_iff,
    Option.isNone_iff_eq_none] at h
  exact ⟨[], _, .begin h rfl rfl, .new "" "" "" "" none⟩

theorem report_keeps {dir : Path} {v : Visit} (hv : v.Fits dir good fair)
    (h : w.Keeps dir good fair start) : (v.report w).workspace.Keeps dir good fair start := by
  obtain ⟨saves, s, hchronicle, hpast⟩ := h
  have hrun := @run_keeps _ _ _ start { w with now := v.now, locks := v.locks }
    hv.delivers v.request hv.resumes
  rw [hv.dir_eq] at hrun
  exact hrun ⟨saves, s, hchronicle.spares (spares_of_eq rfl rfl), hpast⟩

/-- Whatever the visits to a session are, all that they save belongs to its history. -/
theorem visited_keeps {dir : Path} {visits : List Visit}
    (hvisits : ∀ v ∈ visits, v.Fits dir good fair) (h : w.Keeps dir good fair start) :
    (visited visits w).Keeps dir good fair start := by
  induction visits generalizing w with
  | nil => exact h
  | cons v visits ih =>
    exact ih (fun v' hv' => hvisits v' (List.mem_cons_of_mem _ hv'))
      (report_keeps (hvisits v List.mem_cons_self) h)

end PlanReview
