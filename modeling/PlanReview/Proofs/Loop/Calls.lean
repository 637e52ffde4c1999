import PlanReview.Proofs.Loop.Visits

/-!
# The calls of the planner

A visit calls the planner only in its iterations, at most once in each of them, and tells it what
the state holds then (`judge_plans`). So the calls of a visit belong to the runs with which its
iterations begin (`Visit.mem_planned_iff`), and those runs are at states that were saved
(`Looping.saves`). An iteration that comes to a review has called the planner, unless it has
reviewed the plan that the run went on from (`Run.Reviews.plans`).
-/

namespace PlanReview

open RunM Workspace

variable {c : Controller} {r r' : Run} {w : Workspace} {resume : Option Resume}
  {ctx : PlanningContext}

/-! ## In an iteration -/

/-- In the iteration that begins with the run, the planner is called with this context. -/
def Run.Plans (c : Controller) (resume : Option Resume) (r : Run) (ctx : PlanningContext) : Prop :=
  (judge c resume r.opened).2.planned = r.planned ++ [ctx]

/-- The planner has been called after the run, and was told what the state holds. -/
def Run.AsksPlanner (r r' : Run) : Prop :=
  ∃ prior, r.state.plan r.now = .ok prior ∧
    r'.planned = r.planned ++ [r.state.planningContext prior]

/-- Planning and reviewing call the planner at most once, and at least once before a new plan is
reviewed. -/
theorem judge_plans (c : Controller) (resume : Option Resume) (r : Run) :
    Ends (judge c resume) r
      (fun _ r' => (r'.planned = r.planned ∧
        ∃ q ∈ resume, q.standsFor r.state.iteration = true) ∨ r.AsksPlanner r')
      fun _ r' => r'.planned = r.planned ∨ r.AsksPlanner r' := by
  have hdraft : Ends (draft c resume) r
      (fun _ r' => (r'.planned = r.planned ∧
        ∃ q ∈ resume, q.standsFor r.state.iteration = true) ∨ r.AsksPlanner r')
      fun _ r' => r'.planned = r.planned ∨ r.AsksPlanner r' := by
    rw [ends_draft]
    cases hprior : r.state.plan r.now with
    | error e => exact .inl rfl
    | ok prior =>
      dsimp only
      split
      · rename_i q hq
        obtain ⟨hmem, hstands⟩ := Option.filter_eq_some_iff.1 hq
        exact .inl ⟨rfl, q, hmem, hstands⟩
      · rw [ends_callPlanner, ends_ofExcept]
        split <;> exact .inr ⟨prior, hprior, rfl⟩
  rw [ends_judge]
  refine hdraft.mono (fun p r₁ h₁ => ?_) fun _ _ => id
  rw [ends_onWorkspace]
  refine (Ends.trivial _).mono (fun _ w _ => ?_) fun _ _ _ => h₁.imp_left And.left
  rw [ends_callReviewer, ends_ofExcept]
  split
  · exact h₁
  · exact h₁.imp_left And.left

theorem planned_judge (c : Controller) (resume : Option Resume) (r : Run) :
    (judge c resume r.opened).2.planned = r.planned ∨
      r.opened.AsksPlanner (judge c resume r.opened).2 :=
  Ends.state ((judge_plans c resume r.opened).mono (fun _ _ h => h.imp_left And.left)
    fun _ _ => id)

/-- The planner is told what the state holds. -/
theorem Run.Plans.eq_planningContext (h : r.Plans c resume ctx) :
    ∃ prior, r.state.plan r.now = .ok prior ∧
      ctx = r.state.nextIteration.planningContext prior := by
  rcases planned_judge c resume r with hsame | ⟨prior, hprior, hcalled⟩
  · exact absurd (h.symm.trans hsame) (by simp)
  · obtain ⟨-, heq⟩ := List.append_inj' (h.symm.trans hcalled) rfl
    exact ⟨prior, hprior, List.singleton_inj.1 heq⟩

theorem Run.Plans.pendingFeedback (h : r.Plans c resume ctx) :
    ctx.pendingFeedback = r.state.pendingFeedback := by
  obtain ⟨prior, -, rfl⟩ := h.eq_planningContext
  rfl

/-- A new plan that comes to a review was asked of the planner. -/
theorem Run.Reviews.plans (h : r.Reviews c resume)
    (hresume : ∀ q ∈ resume, q.standsFor (r.state.iteration + 1) = false) :
    ∃ ctx, r.Plans c resume ctx := by
  obtain ⟨j, r₁, hjudge⟩ := h
  unfold Run.Plans
  rw [hjudge]
  rcases (judge_plans c resume r.opened).of_ok hjudge with ⟨-, q, hq, hstands⟩ | ⟨_, -, hcalled⟩
  · exact absurd ((hresume q hq).symm.trans hstands) Bool.false_ne_true
  · exact ⟨_, hcalled⟩

/-- The calls that were made once a plan was made and reviewed. -/
theorem mem_planned_judge (c : Controller) (resume : Option Resume) (r : Run) :
    ctx ∈ (judge c resume r.opened).2.planned ↔ ctx ∈ r.planned ∨ r.Plans c resume ctx := by
  unfold Run.Plans
  rcases planned_judge c resume r with hsame | ⟨prior, -, hcalled⟩
  · rw [hsame]
    simp
  · have hopened : r.opened.planned = r.planned := rfl
    rw [hcalled, hopened]
    simp [eq_comm]

/-! ## In a run -/

theorem Run.planned_update (r : Run) (f : SessionState → SessionState) :
    (r.update f).planned = r.planned := rfl

theorem Run.planned_afterPhaseError (r : Run) (message : String) (tokensBefore : Int) :
    (r.afterPhaseError message tokensBefore).planned = r.planned := rfl

theorem Run.planned_absorbing (r : Run) (c : Controller) (p : Plan) (review : Review) :
    (r.absorbing c p review).planned = r.planned := rfl

/-- Work on files calls nobody. -/
theorem planned_onWorkspace {α : Type} {a : Act α} {out : Except Failure α}
    (h : onWorkspace a r = (out, r')) : r'.planned = r.planned := by
  obtain ⟨w, -, rfl⟩ := onWorkspace_run h
  rfl

theorem planned_save {out : Except Failure Unit} (h : save c r = (out, r')) :
    r'.planned = r.planned := by
  obtain ⟨w, -, rfl⟩ := save_run h
  rfl

theorem Pauses.planned {plan : Plan} {p : Pause} {f : Failure} (h : Pauses c plan p r f r') :
    r'.planned = r.planned := by
  cases h with
  | unsaved hsave => exact (planned_save hsave).trans (r.planned_update _)
  | undrafted hsave hwrite =>
    exact (planned_onWorkspace hwrite).trans ((planned_save hsave).trans (r.planned_update _))
  | asked hsave hwrite =>
    exact (planned_onWorkspace hwrite).trans ((planned_save hsave).trans (r.planned_update _))

theorem Decides.planned {tokensBefore : Int} {j : Judged} {review : Review}
    {out : Except Failure Next} (h : Decides c tokensBefore j review r out r') :
    r'.planned = r.planned := by
  cases h with
  | asks _ hpauses => exact hpauses.planned.trans (r.planned_update _)
  | ungated _ _ _ => rfl
  | gated _ _ _ hpauses => exact hpauses.planned.trans (r.planned_update _)
  | approved _ _ _ => exact r.planned_update _
  | unsaved _ _ hsave => exact (planned_save hsave).trans (r.planned_update _)
  | revised _ _ hsave => exact (planned_save hsave).trans (r.planned_update _)

/-- After planning and reviewing an iteration does not call the planner. -/
theorem Turn.planned {out : Except Failure Next} (h : Turn c resume r out r') :
    r'.planned = (judge c resume r.opened).2.planned := by
  have hjudged {out : Except Failure Judged} {r₁ : Run}
      (hjudge : judge c resume r.opened = (out, r₁)) (hsame : r'.planned = r₁.planned) :
      r'.planned = (judge c resume r.opened).2.planned := by
    rw [hjudge]
    exact hsame
  cases h with
  | unwritten hjudge hwrite => exact hjudged hjudge (planned_onWorkspace hwrite)
  | decided hjudge hwrite hdecides =>
    exact hjudged hjudge ((hdecides.planned.trans (Run.planned_absorbing _ _ _ _)).trans
      (planned_onWorkspace hwrite))
  | phaseUnsaved hjudge hsave =>
    exact hjudged hjudge ((planned_save hsave).trans (Run.planned_afterPhaseError _ _ _))
  | phaseError hjudge hsave =>
    exact hjudged hjudge ((planned_save hsave).trans (Run.planned_afterPhaseError _ _ _))
  | failed hjudge _ hsave =>
    exact hjudged hjudge ((planned_save hsave).trans (Run.planned_update _ _))
  | failedUnsaved hjudge _ hsave =>
    exact hjudged hjudge ((planned_save hsave).trans (Run.planned_update _ _))

theorem planned_stopAtLimit {out : Except Failure Bool} (h : stopAtLimit c r = (out, r')) :
    r'.planned = r.planned := by
  have hends : Ends (stopAtLimit c) r (fun _ r' => r'.planned = r.planned)
      fun _ r' => r'.planned = r.planned := by
    rw [ends_stopAtLimit]
    split
    · rfl
    · split <;> rfl
  have hstate := Ends.state (P := fun r' : Run => r'.planned = r.planned) hends
  rwa [h] at hstate

/-- The calls of a loop are those of its iterations. -/
theorem Looping.mem_planned_iff {starts : List Run} {out : Except Failure Unit × Run}
    (h : Looping c resume starts r out) :
    ctx ∈ out.2.planned ↔ ctx ∈ r.planned ∨ ∃ r₁ ∈ starts, r₁.Plans c resume ctx := by
  have hturn {out : Except Failure Next} {r r' : Run} (h : Turn c resume r out r') :
      ctx ∈ r'.planned ↔ ctx ∈ r.planned ∨ r.Plans c resume ctx := by
    rw [h.planned]
    exact mem_planned_judge c resume r
  induction h with
  | stopped hstop => simp [planned_stopAtLimit hstop]
  | indescribable hstop => simp [planned_stopAtLimit hstop]
  | @finished r r' _ hiteration =>
    simp [hturn ((iteration_turn c resume r).of_ok hiteration)]
  | @failed r r' f _ hiteration =>
    simp [hturn ((iteration_turn c resume r).of_error hiteration)]
  | @again r r₁ starts out _ hiteration _ ih =>
    simp [ih, hturn ((iteration_turn c resume r).of_ok hiteration), or_assoc]

/-- After the iterations nobody is called. -/
theorem planned_finish (c : Controller) (r : Run) :
    Ends (finish c) r (fun _ r' => r'.planned = r.planned) fun _ r' => r'.planned = r.planned := by
  have hconclude (plan : Option Plan) (r : Run) : Ends (conclude c plan) r
      (fun _ r' => r'.planned = r.planned) fun _ r' => r'.planned = r.planned := by
    rw [ends_conclude]
    refine (Ends.self (save c) (r.update SessionState.updateSummary)).mono
      (fun _ r₁ hsave => ?_) fun _ r₁ hsave => (planned_save hsave).trans (r.planned_update _)
    have hsame := (planned_save hsave).trans (r.planned_update _)
    split
    · exact hsame
    · split <;> exact hsame
  rw [ends_finish]
  split
  · rfl
  · exact hconclude none r
  · rename_i p _
    refine (Ends.self (onWorkspace (c.artifacts.writeFinal p _ _)) r).mono
      (fun _ r₁ hwrite => ?_) fun _ r₁ hwrite => planned_onWorkspace hwrite
    rw [← planned_onWorkspace hwrite]
    exact hconclude (some p) r₁

theorem planned_drive (c : Controller) (resume : Option Resume) (r : Run) :
    (drive c resume r).2.planned =
      (rounds c resume (c.iterationsLeft r.state) r).2.planned := by
  have hrecord {n : List PlanningContext} {r₁ : Run} (h₁ : r₁.planned = n) :
      Ends (recordMetrics c) r₁ (fun _ r' => r'.planned = n) fun _ r' => r'.planned = n := by
    rw [ends_recordMetrics, ends_onWorkspace]
    exact (Ends.trivial _).mono (fun _ _ _ => h₁) fun _ _ _ => h₁
  generalize hrounds : rounds c resume (c.iterationsLeft r.state) r = out
  refine Ends.state (P := fun r' : Run => r'.planned = out.2.planned) ?_
  rw [ends_drive]
  refine (Ends.self (rounds c resume _) r).mono (fun _ r₁ h₁ => ?_) fun f r₁ h₁ => ?_
  · cases hrounds.symm.trans h₁
    exact (planned_finish c r₁).mono (fun _ _ => hrecord) fun _ _ => hrecord
  · cases hrounds.symm.trans h₁
    exact hrecord rfl

/-! ## In a visit -/

/-- In the iteration of a visit that begins with the run, the planner is called with this
context. -/
def Visit.Plans (v : Visit) (w : Workspace) (r₁ : Run) (ctx : PlanningContext) : Prop :=
  ∃ r resume starts, v.entered? w = some (r, resume) ∧
    Looping v.controller resume starts r
      (rounds v.controller resume (v.controller.iterationsLeft r.state) r) ∧
    r₁ ∈ starts ∧ r₁.Plans v.controller resume ctx

/-- The way of the visit until then. The planner is told the feedback that the state keeps. -/
theorem Visit.Plans.exists_way {v : Visit} {r₁ : Run} (h : v.Plans w r₁ ctx)
    (hentered : v.entered? w = some (r, resume)) (hstands : r.Stands resume) :
    ctx.pendingFeedback = r₁.state.pendingFeedback ∧ ∃ starts way,
      r.Passes v.controller (v.controller.Steps (fun _ => True) resume starts) r₁.workspace way
        r₁.state := by
  obtain ⟨r', resume', starts, hentered', hloop, hr₁, hcall⟩ := h
  cases hentered.symm.trans hentered'
  have hways : (∀ r₁ ∈ starts, r₁.Stands resume ∧ ∃ way, r.Passes v.controller
      (v.controller.Steps (fun _ => True) resume starts) r₁.workspace way r₁.state) ∧
      r.LoopsTo v.controller (v.controller.Steps (fun _ => True) resume starts) _ :=
    hloop.saves (List.Subset.refl starts) (fun _ _ _ _ _ _ _ _ => trivial) hstands
      (hasState_of_entered hentered)
  obtain ⟨-, way, hpasses⟩ := hways.1 r₁ hr₁
  exact ⟨hcall.pendingFeedback, starts, way, hpasses⟩

/-- These are all calls of a visit. -/
theorem Visit.mem_planned_iff {v : Visit} :
    ctx ∈ (v.report w).planned ↔ ∃ r₁, v.Plans w r₁ ctx := by
  cases hentered : v.entered? w with
  | none =>
    rw [(saves_nothing hentered).2.1]
    simp [Plans, hentered]
  | some entry =>
    obtain ⟨r, resume⟩ := entry
    obtain ⟨-, hr, heq⟩ := exists_of_entered hentered
    have hnone : r.planned = [] := by rw [hr]
    have hplanned : (v.report w).planned =
        (rounds v.controller resume (v.controller.iterationsLeft r.state) r).2.planned := by
      rw [heq]
      exact planned_drive v.controller resume r
    rw [hplanned]
    constructor
    · intro hmem
      obtain ⟨starts, hloop, -⟩ := rounds_within_limits v.controller resume r
      rcases hloop.mem_planned_iff.1 hmem with hmem | ⟨r₁, hr₁, hplans⟩
      · rw [hnone] at hmem
        cases hmem
      · exact ⟨r₁, r, resume, starts, hentered, hloop, hr₁, hplans⟩
    · rintro ⟨r₁, r', resume', starts, hentered', hloop, hr₁, hplans⟩
      cases hentered.symm.trans hentered'
      exact hloop.mem_planned_iff.2 (.inr ⟨r₁, hr₁, hplans⟩)

end PlanReview
