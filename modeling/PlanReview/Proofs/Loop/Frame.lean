import PlanReview.Proofs.Loop.Parts

/-!
# What a run leaves alone

A run touches its workspace by six kinds of operations : it writes plans and reviews, final plans,
states and metrics, and it lets time pass while it calls planner and reviewer. What all six keep
(`Controller.Respects`), every run keeps, however it ends (`drive_respects`, `enter_respects`).
-/

namespace PlanReview

open RunM

/-- A property of workspaces that all parts of a run keep. -/
structure Controller.Respects (c : Controller) (I : Workspace → Prop) : Prop where
  later : ∀ w micros, I w → I (w.later micros)
  plan : ∀ w p n, I w → Ends (c.artifacts.writePlan p n) w (fun _ => I) fun _ => I
  review : ∀ w r n, I w → Ends (c.artifacts.writeReview r n) w (fun _ => I) fun _ => I
  final : ∀ w p status score, I w →
    Ends (c.artifacts.writeFinal p status score) w (fun _ => I) fun _ => I
  save : ∀ w (s : SessionState), I w → Ends (s.save c.dir) w (fun _ => I) fun _ => I
  metrics : ∀ w (t : Tally) outcome, I w → Ends (t.record c.dir outcome) w (fun _ => I) fun _ => I

variable {c : Controller} {I : Workspace → Prop} {r : Run} {α : Type}

/-- A part of a run after which the property holds, however it ends. -/
abbrev Keeping (I : Workspace → Prop) (m : RunM α) (r : Run) : Prop :=
  Ends m r (fun _ r' => I r'.workspace) fun _ r' => I r'.workspace

theorem keeping_onWorkspace {a : Act α} (h : Ends a r.workspace (fun _ => I) fun _ => I) :
    Keeping I (onWorkspace a) r := by
  rw [Keeping, ends_onWorkspace]
  exact h

theorem keeping_ofExcept (result : Except Failure α) (h : I r.workspace) :
    Keeping I (ofExcept result : RunM α) r := by
  rw [Keeping, ends_ofExcept]
  cases result <;> exact h

theorem stopAtLimit_keeping (c : Controller) (h : I r.workspace) :
    Keeping I (stopAtLimit c) r := by
  rw [Keeping, ends_stopAtLimit]
  split
  · exact h
  · split <;> exact h

namespace Controller.Respects

variable (hI : c.Respects I)

include hI

theorem save_keeping (h : I r.workspace) : Keeping I (RunM.save c) r :=
  ends_save.2 (keeping_onWorkspace (hI.save _ _ h))

theorem callPlanner_keeping (ctx : PlanningContext) (h : I r.workspace) :
    Keeping I (callPlanner c ctx) r :=
  ends_callPlanner.2 (keeping_ofExcept _ (hI.later _ _ h))

theorem callReviewer_keeping (p : Plan) (ctx : ReviewContext) (h : I r.workspace) :
    Keeping I (callReviewer c p ctx) r :=
  ends_callReviewer.2 (keeping_ofExcept _ (hI.later _ _ h))

theorem draft_keeping (resume : Option Resume) (h : I r.workspace) :
    Keeping I (draft c resume) r := by
  rw [Keeping, ends_draft]
  split
  · exact h
  · split
    · exact h
    · exact hI.callPlanner_keeping _ h

theorem judge_keeping (resume : Option Resume) (h : I r.workspace) :
    Keeping I (judge c resume) r := by
  rw [Keeping, ends_judge]
  refine (hI.draft_keeping resume h).mono (fun p r₁ h₁ => ?_) fun _ _ => id
  refine (keeping_onWorkspace (hI.plan _ _ _ h₁)).mono (fun _ r₂ h₂ => ?_) fun _ _ => id
  exact hI.callReviewer_keeping _ _ h₂

theorem pause_keeping (plan : Plan) (p : Pause) (h : I r.workspace) :
    Keeping I (pause c plan p) r := by
  rw [Keeping, ends_pause]
  refine (hI.save_keeping (r := r.update _) h).mono (fun _ r₁ h₁ => ?_) fun _ _ => id
  exact keeping_onWorkspace (hI.final _ _ _ _ h₁)

theorem decide_keeping (tokensBefore : Int) (j : Judged) (review : Review) (h : I r.workspace) :
    Keeping I (decide c tokensBefore j review) r := by
  rw [Keeping, ends_decide]
  split
  · exact hI.pause_keeping _ _ h
  · split
    · split
      · exact h
      · exact hI.pause_keeping _ _ h
      · exact h
    · exact hI.save_keeping (r := r.update _) h

theorem settle_keeping (tokensBefore : Int) (j : Judged) (h : I r.workspace) :
    Keeping I (settle c tokensBefore j) r := by
  rw [Keeping, ends_settle]
  refine (keeping_onWorkspace (hI.review _ _ _ h)).mono (fun _ r₁ h₁ => ?_) fun _ _ => id
  exact hI.decide_keeping _ _ _ h₁

theorem markFailed_keeping (f : Failure) (h : I r.workspace) : Keeping I (markFailed c f) r := by
  rw [Keeping, ends_markFailed]
  refine (hI.save_keeping (r := r.update _) h).mono (fun _ _ => id) fun g r₁ h₁ => ?_
  cases g <;> exact h₁

theorem iteration_keeping (resume : Option Resume) (h : I r.workspace) :
    Keeping I (iteration c resume) r := by
  rw [Keeping, ends_iteration]
  refine (hI.judge_keeping resume (r := r.opened) h).mono
    (fun j r₁ h₁ => hI.settle_keeping _ _ h₁) fun f r₁ h₁ => ?_
  cases f with
  | phase message => exact hI.save_keeping (r := r₁.afterPhaseError _ _) h₁
  | _ => exact hI.markFailed_keeping _ h₁

theorem rounds_keeping (resume : Option Resume) (left : Nat) (h : I r.workspace) :
    Keeping I (rounds c resume left) r := by
  induction left generalizing r with
  | zero => exact ends_rounds_zero.2 (stopAtLimit_keeping c h)
  | succ left ih =>
    rw [Keeping, ends_rounds_succ]
    refine (stopAtLimit_keeping c h).mono (fun stopped r₁ h₁ => ?_) fun _ _ => id
    cases stopped with
    | true => exact h₁
    | false =>
      refine (hI.iteration_keeping resume h₁).mono (fun next r₂ h₂ => ?_) fun _ _ => id
      cases next with
      | finished => exact h₂
      | again => exact ih h₂

theorem conclude_keeping (plan : Option Plan) (h : I r.workspace) :
    Keeping I (conclude c plan) r := by
  rw [Keeping, ends_conclude]
  refine (hI.save_keeping (r := r.update _) h).mono (fun _ r₁ h₁ => ?_) fun _ _ => id
  split
  · exact h₁
  · split <;> exact h₁

theorem finish_keeping (h : I r.workspace) : Keeping I (finish c) r := by
  rw [Keeping, ends_finish]
  split
  · exact h
  · exact hI.conclude_keeping none h
  · refine (keeping_onWorkspace (hI.final _ _ _ _ h)).mono (fun _ r₁ h₁ => ?_) fun _ _ => id
    exact hI.conclude_keeping (some _) h₁

theorem recordMetrics_keeping (h : I r.workspace) : Keeping I (recordMetrics c) r :=
  ends_recordMetrics.2 (keeping_onWorkspace (hI.metrics _ _ _ h))

/-- A run keeps what its parts keep, however it ends. -/
theorem drive_respects (resume : Option Resume) (h : I r.workspace) :
    Keeping I (drive c resume) r := by
  rw [Keeping, ends_drive]
  refine (hI.rounds_keeping resume _ h).mono (fun _ r₁ h₁ => ?_) fun _ r₁ h₁ =>
    hI.recordMetrics_keeping h₁
  exact (hI.finish_keeping h₁).mono (fun _ r₂ h₂ => hI.recordMetrics_keeping h₂)
    fun _ r₂ h₂ => hI.recordMetrics_keeping h₂

/-- Entering a session keeps it too. -/
theorem enter_respects (request : Request) {w : Workspace} (h : I w) :
    Ends (enter c request) w (fun _ => I) fun _ => I := by
  rw [ends_enter]
  split
  · exact h
  · dsimp only
    split
    · split <;> exact h
    · split
      · exact h
      · exact hI.save _ _ h

end Controller.Respects

end PlanReview
