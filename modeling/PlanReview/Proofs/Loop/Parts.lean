import PlanReview.Loop.Rounds
import PlanReview.Proofs.Workspace.Outcome

/-!
# The parts of a run

How each function of the loop ends, said once : `ends_draft`, `ends_judge` and the others open the
function they are named for, and say it in terms of the functions that it calls, of the states that
it makes in memory, and of the operations on the workspace. What is proved of a part of a run later
opens it by its equivalence, and not by its definition.
-/

namespace PlanReview

open RunM

variable {c : Controller} {r : Run} {bad : Failure → Run → Prop}

/-! ## States in memory -/

namespace SessionState

/-- The state with the question of a pause. -/
def asking (s : SessionState) (now : String) (p : Pause) : SessionState :=
  (s.requestHumanInput now p.question p.category (some p.reason)).updateSummary

/-- The state with the line of an iteration in its history. -/
def noted (s : SessionState) (now : String) (verdict : Viability.Verdict) (review : Review)
    (outcome : IterationOutcome) (tokensBefore : Int) : SessionState :=
  s.addHistory (historyLine s now verdict review outcome tokensBefore)

/-- The state with a review of a plan taken in. -/
def absorbing (s : SessionState) (c : Controller) (plan : Plan) (review : Review) : SessionState :=
  s.absorb review (Guardrail.conditions c.thresholds plan.toJson review.score s.iteration)

/-- The state with a review that sends its plan back. -/
def revising (s : SessionState) (now : String) (j : Judged) (review : Review)
    (tokensBefore : Int) : SessionState :=
  ((s.noted now j.verdict review
    (if j.verdict.passed then .reviewFailed else .viabilityFailed) tokensBefore).withFeedback
      (review.feedback ++ j.verdict.feedback)).updateSummary

end SessionState

namespace Run

/-- The run at the start of an iteration. -/
def opened (r : Run) : Run :=
  (r.update SessionState.nextIteration).count "iterations"

/-- The run after the planner has been called. -/
def plannerCalled (r : Run) (c : Controller) (ctx : PlanningContext) : Run :=
  ({ r.count "planner_calls" with planned := r.planned ++ [ctx] }).afterCall "planner"
    SessionState.addPlannerUsage (c.planner r.planned.length ctx)

/-- The run after the reviewer has been called. -/
def reviewerCalled (r : Run) (c : Controller) (p : Plan) (ctx : ReviewContext) : Run :=
  ({ r.count "reviewer_calls" with reviewed := r.reviewed ++ [(p, ctx)] }).afterCall "reviewer"
    SessionState.addReviewerUsage (c.reviewer r.reviewed.length p ctx)

/-- What the reviewer is told about a plan. -/
def reviewContext (r : Run) (c : Controller) (p : Plan) : ReviewContext where
  iteration := r.state.iteration
  workingDir := r.state.workingDir
  checklist := Checklist.run p
  viability := some (Viability.checkPlan c.viability p)
  graph := some (Graph.Metrics.of p.steps)
  threshold := c.scoreThreshold

/-- The run with a review of a plan taken in. -/
def absorbing (r : Run) (c : Controller) (plan : Plan) (review : Review) : Run :=
  { r with lastReview := some review, state := r.state.absorbing c plan review }

/-- The run after a phase has failed. -/
def afterPhaseError (r : Run) (message : String) (tokensBefore : Int) : Run :=
  (r.count "phase_errors").update fun s => s.afterPhaseError r.now message tokensBefore

end Run

/-! ## Small steps -/

theorem ends_update {f : SessionState → SessionState} {ok : Unit → Run → Prop} :
    Ends (update f) r ok bad ↔ ok () (r.update f) := Iff.rfl

theorem ends_count {event : String} {ok : Unit → Run → Prop} :
    Ends (count event) r ok bad ↔ ok () (r.count event) := Iff.rfl

theorem ends_note {verdict : Viability.Verdict} {review : Review} {outcome : IterationOutcome}
    {tokensBefore : Int} {ok : Unit → Run → Prop} :
    Ends (note verdict review outcome tokensBefore) r ok bad ↔
      ok () (r.update (·.noted r.now verdict review outcome tokensBefore)) := Iff.rfl

theorem ends_save {ok : Unit → Run → Prop} :
    Ends (save c) r ok bad ↔ Ends (onWorkspace (r.state.save c.dir)) r ok bad := by
  unfold save
  rw [ends_bind, ends_get]

/-! ## Planning and reviewing -/

theorem ends_callPlanner {ctx : PlanningContext} {ok : Plan → Run → Prop} :
    Ends (callPlanner c ctx) r ok bad ↔
      Ends (ofExcept ((c.planner r.planned.length ctx).answer (r.plannerCalled c ctx).now))
        (r.plannerCalled c ctx) ok bad := by
  unfold callPlanner
  rw [ends_bind, ends_count, ends_bind, ends_get, ends_bind, ends_set, ends_bind, ends_get]
  exact Iff.rfl

theorem ends_callReviewer {p : Plan} {ctx : ReviewContext} {ok : Review → Run → Prop} :
    Ends (callReviewer c p ctx) r ok bad ↔
      Ends (ofExcept ((c.reviewer r.reviewed.length p ctx).answer (r.reviewerCalled c p ctx).now))
        (r.reviewerCalled c p ctx) ok bad := by
  unfold callReviewer
  rw [ends_bind, ends_count, ends_bind, ends_get, ends_bind, ends_set, ends_bind, ends_get]
  exact Iff.rfl

theorem ends_draft {resume : Option Resume} {ok : Plan → Run → Prop} :
    Ends (draft c resume) r ok bad ↔
      match r.state.plan r.now with
      | .error e => bad (.invalid e) r
      | .ok prior =>
        match resume.filter fun q => q.standsFor r.state.iteration with
        | some q => ok q.plan r
        | none => Ends (callPlanner c (r.state.planningContext prior)) r
            (fun p r₁ => ok (p.succeeding prior r.state.iteration r₁.now)
              (r₁.update (·.setCurrentPlan (p.succeeding prior r.state.iteration r₁.now)))) bad := by
  unfold draft
  rw [ends_bind, ends_get, ends_bind, ends_ofExcept]
  cases r.state.plan r.now with
  | error e => exact Iff.rfl
  | ok prior =>
    dsimp only [Except.mapError]
    cases resume.filter fun q => q.standsFor r.state.iteration with
    | some q => exact Iff.rfl
    | none => exact ends_bind

theorem ends_judge {resume : Option Resume} {ok : Judged → Run → Prop} :
    Ends (judge c resume) r ok bad ↔
      Ends (draft c resume) r
        (fun p r₁ => Ends (onWorkspace (c.artifacts.writePlan p r₁.state.iteration)) r₁
          (fun _ r₂ => Ends (callReviewer c p (r₁.reviewContext c p)) r₂
            (fun review => ok ⟨p, Checklist.run p, Viability.checkPlan c.viability p, review⟩) bad)
          bad) bad := by
  unfold judge
  simp only [ends_bind, ends_get, ends_pure]
  exact Iff.rfl

/-! ## Deciding -/

theorem ends_pause {plan : Plan} {p : Pause} {ok : Next → Run → Prop} :
    Ends (pause c plan p) r ok bad ↔
      Ends (save c) (r.update (·.asking r.now p))
        (fun _ r₁ => Ends (onWorkspace (c.artifacts.writeFinal plan .draft none)) r₁
          (fun _ => bad (.humanInput (p.request c))) bad) bad := by
  unfold pause
  simp only [ends_bind, ends_get, ends_update, ends_throw]
  exact Iff.rfl

theorem ends_decide {tokensBefore : Int} {j : Judged} {review : Review} {ok : Next → Run → Prop} :
    Ends (decide c tokensBefore j review) r ok bad ↔
      if review.assessment.requiresHumanInput then
        Ends (pause c j.plan (clarification review))
          (r.update fun s => (s.withFeedback review.feedback).noted r.now j.verdict review
            .humanInputRequested tokensBefore) ok bad
      else if review.passed then
        match gate c j.plan r.state with
        | .error f => bad f r
        | .ok (some condition) =>
          Ends (pause c j.plan (approvalOf condition))
            (r.update (·.noted r.now j.verdict review .humanInputRequested tokensBefore)) ok bad
        | .ok none =>
          ok .finished (r.update fun s =>
            (s.noted r.now j.verdict review .reviewPassed tokensBefore).completed)
      else
        Ends (save c) (r.update (·.revising r.now j review tokensBefore))
          (fun _ => ok .again) bad := by
  unfold PlanReview.decide
  split
  · rw [ends_bind, ends_update, ends_bind, ends_note]
    exact Iff.rfl
  · split
    · rw [ends_bind, ends_get, ends_bind, ends_ofExcept]
      rcases gate c j.plan r.state with f | condition | condition
      · exact Iff.rfl
      · exact Iff.rfl
      · dsimp only
        rw [ends_bind, ends_note]
    · rw [ends_bind, ends_note, ends_bind, ends_update, ends_bind]
      exact Iff.rfl

theorem ends_settle {tokensBefore : Int} {j : Judged} {ok : Next → Run → Prop} :
    Ends (settle c tokensBefore j) r ok bad ↔
      Ends (onWorkspace (c.artifacts.writeReview (j.finalReview c.scoreThreshold) r.state.iteration))
        r (fun _ r₁ => Ends (decide c tokensBefore j (j.finalReview c.scoreThreshold))
          (r₁.absorbing c j.plan (j.finalReview c.scoreThreshold)) ok bad) bad := by
  unfold settle
  simp only [ends_bind, ends_get, ends_modify, ends_update, ends_onWorkspace]
  exact Iff.rfl

/-! ## Iterations -/

theorem ends_markFailed {f : Failure} {ok : Unit → Run → Prop} :
    Ends (markFailed c f) r ok bad ↔
      Ends (save c) (r.update (·.failed (failureText f))) ok
        fun g r₁ => match g with
          | .persistence _ => ok () r₁
          | g => bad g r₁ := by
  unfold markFailed
  rw [ends_bind, ends_update, ends_bind, RunM.ends_attempt]
  refine ends_congr (fun _ _ => Iff.rfl) fun g r₁ => ?_
  cases g <;> exact Iff.rfl

theorem ends_iteration {resume : Option Resume} {ok : Next → Run → Prop} :
    Ends (iteration c resume) r ok bad ↔
      Ends (judge c resume) r.opened
        (fun j r₁ => Ends (settle c r.state.totalTokens j) r₁ ok bad)
        fun f r₁ => match f with
          | .phase message =>
            Ends (save c) (r₁.afterPhaseError message r.state.totalTokens) (fun _ => ok .again) bad
          | f => Ends (markFailed c f) r₁ (fun _ => bad f) bad := by
  unfold iteration
  rw [ends_bind, ends_update, ends_bind, ends_get, ends_bind, ends_count, ends_bind,
    RunM.ends_attempt]
  refine ends_congr (fun _ _ => Iff.rfl) fun f r₁ => ?_
  cases f with
  | phase message =>
    simp only [ends_bind, ends_update, ends_pure]
    exact Iff.rfl
  | _ => simp only [ends_bind, ends_throw]

theorem ends_stopAtLimit {ok : Bool → Run → Prop} :
    Ends (stopAtLimit c) r ok bad ↔
      match Guardrail.check c.limits r.workspace.now r.state with
      | none => ok false r
      | some stop =>
        match stop.describe with
        | .error e => bad (.ofIndescribable e) r
        | .ok description => ok true (r.update (·.stopped stop description)) := by
  unfold stopAtLimit
  rw [ends_bind, ends_get]
  cases Guardrail.check c.limits r.workspace.now r.state with
  | none => exact Iff.rfl
  | some stop =>
    dsimp only
    rw [ends_bind, ends_ofExcept]
    cases stop.describe <;> exact Iff.rfl

theorem ends_rounds_zero {resume : Option Resume} {ok : Unit → Run → Prop} :
    Ends (rounds c resume 0) r ok bad ↔ Ends (stopAtLimit c) r (fun _ => ok ()) bad := by
  rw [rounds, ends_bind]
  exact Iff.rfl

theorem ends_rounds_succ {resume : Option Resume} {left : Nat} {ok : Unit → Run → Prop} :
    Ends (rounds c resume (left + 1)) r ok bad ↔
      Ends (stopAtLimit c) r
        (fun stopped r₁ => if stopped then ok () r₁ else
          Ends (iteration c resume) r₁
            (fun next r₂ => match next with
              | .finished => ok () r₂
              | .again => Ends (rounds c resume left) r₂ ok bad) bad) bad := by
  rw [rounds, ends_bind]
  refine ends_congr (fun stopped r₁ => ?_) fun _ _ => Iff.rfl
  cases stopped with
  | true => exact Iff.rfl
  | false =>
    rw [if_neg Bool.false_ne_true, if_neg Bool.false_ne_true, ends_bind]
    refine ends_congr (fun next r₂ => ?_) fun _ _ => Iff.rfl
    cases next <;> exact Iff.rfl

/-! ## After the last iteration -/

theorem ends_conclude {plan : Option Plan} {ok : LoopResult → Run → Prop} :
    Ends (conclude c plan) r ok bad ↔
      Ends (save c) (r.update SessionState.updateSummary)
        (fun _ r₁ => match r₁.lastReview with
          | some review => ok (r₁.state.result plan (some review)) r₁
          | none => match r₁.state.lastReview with
            | .ok review => ok (r₁.state.result plan review) r₁
            | .error f => bad f r₁) bad := by
  unfold conclude
  rw [ends_bind, ends_update, ends_bind]
  refine ends_congr (fun _ r₁ => ?_) fun _ _ => Iff.rfl
  rw [ends_bind, ends_get]
  cases r₁.lastReview with
  | some review => exact Iff.rfl
  | none =>
    dsimp only
    rw [ends_bind, ends_ofExcept]
    cases r₁.state.lastReview <;> exact Iff.rfl

theorem ends_finish {ok : LoopResult → Run → Prop} :
    Ends (finish c) r ok bad ↔
      match finalPlan r.state r.now with
      | .error f => bad f r
      | .ok none => Ends (conclude c none) r ok bad
      | .ok (some p) =>
        Ends (onWorkspace
          (c.artifacts.writeFinal p (finalStatus r.state.status.kind) (some r.state.bestScore))) r
          (fun _ r₁ => Ends (conclude c (some p)) r₁ ok bad) bad := by
  unfold finish
  rw [ends_bind, ends_get, ends_bind, ends_ofExcept]
  rcases finalPlan r.state r.now with f | _ | p
  · exact Iff.rfl
  · exact Iff.rfl
  · exact ends_bind

theorem ends_recordMetrics {ok : Unit → Run → Prop} :
    Ends (recordMetrics c) r ok bad ↔
      Ends (onWorkspace (r.tally.record c.dir r.state.outcome)) r ok bad := by
  unfold recordMetrics
  rw [ends_bind, ends_get]

theorem ends_drive {resume : Option Resume} {ok : LoopResult → Run → Prop} :
    Ends (drive c resume) r ok bad ↔
      Ends (rounds c resume (c.iterationsLeft r.state)) r
        (fun _ r₁ => Ends (finish c) r₁
          (fun result r₂ => Ends (recordMetrics c) r₂ (fun _ => ok result) bad)
          fun f r₂ => Ends (recordMetrics c) r₂ (fun _ => bad f) bad)
        fun f r₁ => Ends (recordMetrics c) r₁ (fun _ => bad f) bad := by
  unfold drive
  rw [ends_bind, RunM.ends_attempt, ends_bind, ends_get, ends_bind]
  simp only [ends_bind, ends_ofExcept]

/-! ## Entering a session -/

theorem ends_enter {request : Request} {w : Workspace} {ok : Entry → Workspace → Prop}
    {bad : Failure → Workspace → Prop} :
    Ends (enter c request) w ok bad ↔
      match SessionState.load w.files w.now.text c.dir with
      | .error f => bad f w
      | .ok stored =>
        let s := request.session c.artifacts.slug w.now.text stored
        if request.isIdle s then
          match s.storedResult w.now.text with
          | .error f => bad f w
          | .ok result => ok (.idle result) w
        else
          match request.takeUp c w.now.text s with
          | .error f => bad f w
          | .ok (s, resume) =>
            Ends ((request.start w.now.text s).save c.dir) w
              (fun _ => ok (.running (request.start w.now.text s) resume)) bad := by
  unfold enter
  rw [ends_bind, ends_get, ends_bind, ends_ofExcept]
  cases SessionState.load w.files w.now.text c.dir with
  | error f => exact Iff.rfl
  | ok stored =>
    dsimp only
    split
    · rw [ends_bind, ends_ofExcept]
      cases (request.session c.artifacts.slug w.now.text stored).storedResult w.now.text <;>
        exact Iff.rfl
    · rw [ends_bind, ends_ofExcept]
      cases request.takeUp c w.now.text (request.session c.artifacts.slug w.now.text stored) with
      | error f => exact Iff.rfl
      | ok result => exact ends_bind

end PlanReview
