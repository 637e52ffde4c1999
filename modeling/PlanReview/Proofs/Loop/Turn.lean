import PlanReview.Proofs.Loop.Parts

/-!
# What an iteration can do

Each way through an iteration, with the state that it leaves in memory and the operations on files
that it has made. `Pauses`, `Decides` and `Turn` have one case for every way out of `pause`,
`decide` and `iteration`; what is proved of iterations later goes by cases on them and does not open
the three again.

Planning and reviewing are left as they are : a case names how `judge` has ended.
-/

namespace PlanReview

open RunM

variable {α : Type} {c : Controller} {r r' : Run}

/-- An operation on the workspace changes nothing else. -/
theorem RunM.onWorkspace_run {a : Act α} {out : Except Failure α}
    (h : onWorkspace a r = (out, r')) :
    ∃ w, a r.workspace = (out, w) ∧ r' = { r with workspace := w } := by
  rcases ha : a r.workspace with ⟨out', w⟩
  unfold onWorkspace at h
  rw [ha] at h
  cases h
  exact ⟨w, rfl, rfl⟩

/-- A save changes only the workspace. -/
theorem RunM.save_run {out : Except Failure Unit} (h : save c r = (out, r')) :
    ∃ w, r.state.save c.dir r.workspace = (out, w) ∧ r' = { r with workspace := w } :=
  onWorkspace_run h

/-! ## The ways out -/

/-- The ways out of a pause. -/
inductive Pauses (c : Controller) (plan : Plan) (p : Pause) (r : Run) : Failure → Run → Prop where
  | unsaved {f : Failure} {r' : Run} : save c (r.update (·.asking r.now p)) = (.error f, r') →
      Pauses c plan p r f r'
  | undrafted {f : Failure} {r₁ r' : Run} : save c (r.update (·.asking r.now p)) = (.ok (), r₁) →
      onWorkspace (c.artifacts.writeFinal plan .draft none) r₁ = (.error f, r') →
      Pauses c plan p r f r'
  | asked {r₁ r' : Run} : save c (r.update (·.asking r.now p)) = (.ok (), r₁) →
      onWorkspace (c.artifacts.writeFinal plan .draft none) r₁ = (.ok (), r') →
      Pauses c plan p r (.humanInput (p.request c)) r'

/-- The ways out of the decision about a reviewed plan. -/
inductive Decides (c : Controller) (tokensBefore : Int) (j : Judged) (review : Review) (r : Run) :
    Except Failure Next → Run → Prop where
  | asks {f : Failure} {r' : Run} : review.assessment.requiresHumanInput = true →
      Pauses c j.plan (clarification review)
        (r.update fun s => (s.withFeedback review.feedback).noted r.now j.verdict review
          .humanInputRequested tokensBefore) f r' →
      Decides c tokensBefore j review r (.error f) r'
  | ungated {f : Failure} : review.assessment.requiresHumanInput = false → review.passed = true →
      gate c j.plan r.state = .error f → Decides c tokensBefore j review r (.error f) r
  | gated {condition : Guardrail.Condition} {f : Failure} {r' : Run} :
      review.assessment.requiresHumanInput = false → review.passed = true →
      gate c j.plan r.state = .ok (some condition) →
      Pauses c j.plan (approvalOf condition)
        (r.update (·.noted r.now j.verdict review .humanInputRequested tokensBefore)) f r' →
      Decides c tokensBefore j review r (.error f) r'
  | approved : review.assessment.requiresHumanInput = false → review.passed = true →
      gate c j.plan r.state = .ok none →
      Decides c tokensBefore j review r (.ok .finished)
        (r.update fun s =>
          (s.noted r.now j.verdict review .reviewPassed tokensBefore).completed)
  | unsaved {f : Failure} {r' : Run} : review.assessment.requiresHumanInput = false →
      review.passed = false →
      save c (r.update (·.revising r.now j review tokensBefore)) = (.error f, r') →
      Decides c tokensBefore j review r (.error f) r'
  | revised {r' : Run} : review.assessment.requiresHumanInput = false →
      review.passed = false →
      save c (r.update (·.revising r.now j review tokensBefore)) = (.ok (), r') →
      Decides c tokensBefore j review r (.ok .again) r'

/-- What is raised after the failure `f`, if the session cannot be marked as failed because of
`g`. -/
def unmarked (f : Failure) : Failure → Failure
  | .persistence _ => f
  | g => g

theorem unmarked_eq_or (f g : Failure) : unmarked f g = f ∨ unmarked f g = g := by
  cases g <;> first | exact .inl rfl | exact .inr rfl

/-- The ways out of an iteration. -/
inductive Turn (c : Controller) (resume : Option Resume) (r : Run) :
    Except Failure Next → Run → Prop where
  | unwritten {j : Judged} {r₁ r' : Run} {f : Failure} : judge c resume r.opened = (.ok j, r₁) →
      onWorkspace (c.artifacts.writeReview (j.finalReview c.scoreThreshold) r₁.state.iteration) r₁ =
        (.error f, r') →
      Turn c resume r (.error f) r'
  | decided {j : Judged} {r₁ r₂ r' : Run} {out : Except Failure Next} :
      judge c resume r.opened = (.ok j, r₁) →
      onWorkspace (c.artifacts.writeReview (j.finalReview c.scoreThreshold) r₁.state.iteration) r₁ =
        (.ok (), r₂) →
      Decides c r.state.totalTokens j (j.finalReview c.scoreThreshold)
        (r₂.absorbing c j.plan (j.finalReview c.scoreThreshold)) out r' →
      Turn c resume r out r'
  | phaseUnsaved {message : String} {r₁ r' : Run} {f : Failure} :
      judge c resume r.opened = (.error (.phase message), r₁) →
      save c (r₁.afterPhaseError message r.state.totalTokens) = (.error f, r') →
      Turn c resume r (.error f) r'
  | phaseError {message : String} {r₁ r' : Run} :
      judge c resume r.opened = (.error (.phase message), r₁) →
      save c (r₁.afterPhaseError message r.state.totalTokens) = (.ok (), r') →
      Turn c resume r (.ok .again) r'
  | failed {f : Failure} {r₁ r' : Run} : judge c resume r.opened = (.error f, r₁) →
      (∀ message, f ≠ .phase message) →
      save c (r₁.update (·.failed (failureText f))) = (.ok (), r') →
      Turn c resume r (.error f) r'
  | failedUnsaved {f g : Failure} {r₁ r' : Run} : judge c resume r.opened = (.error f, r₁) →
      (∀ message, f ≠ .phase message) →
      save c (r₁.update (·.failed (failureText f))) = (.error g, r') →
      Turn c resume r (.error (unmarked f g)) r'

/-! ## They are all -/

theorem pause_pauses (c : Controller) (plan : Plan) (p : Pause) (r : Run) :
    Ends (pause c plan p) r (fun _ _ => False) fun f r' => Pauses c plan p r f r' := by
  rw [ends_pause]
  refine (Ends.self (save c) (r.update (·.asking r.now p))).mono (fun _ r₁ hsave => ?_)
    fun f r' hsave => .unsaved hsave
  exact (Ends.self (onWorkspace (c.artifacts.writeFinal plan .draft none)) r₁).mono
    (fun _ r₂ hwrite => .asked hsave hwrite) fun f r' hwrite => .undrafted hsave hwrite

theorem decide_decides (c : Controller) (tokensBefore : Int) (j : Judged) (review : Review)
    (r : Run) :
    Ends (decide c tokensBefore j review) r
      (fun next r' => Decides c tokensBefore j review r (.ok next) r')
      fun f r' => Decides c tokensBefore j review r (.error f) r' := by
  rw [ends_decide]
  cases hhuman : review.assessment.requiresHumanInput with
  | true =>
    rw [if_pos rfl]
    exact (pause_pauses c j.plan (clarification review) _).mono (fun _ _ => False.elim)
      fun f r' hpauses => .asks hhuman hpauses
  | false =>
    rw [if_neg Bool.false_ne_true]
    cases hpassed : review.passed with
    | true =>
      rw [if_pos rfl]
      rcases hgate : gate c j.plan r.state with f | condition | condition
      · exact .ungated hhuman hpassed hgate
      · exact .approved hhuman hpassed hgate
      · exact (pause_pauses c j.plan (approvalOf condition) _).mono (fun _ _ => False.elim)
          fun f r' hpauses => .gated hhuman hpassed hgate hpauses
    | false =>
      rw [if_neg Bool.false_ne_true]
      exact (Ends.self (save c) (r.update (·.revising r.now j review tokensBefore))).mono
        (fun _ r' hsave => .revised hhuman hpassed hsave)
        fun f r' hsave => .unsaved hhuman hpassed hsave

/-- An iteration ends in one of its ways. -/
theorem iteration_turn (c : Controller) (resume : Option Resume) (r : Run) :
    Ends (iteration c resume) r (fun next r' => Turn c resume r (.ok next) r')
      fun f r' => Turn c resume r (.error f) r' := by
  rw [ends_iteration]
  refine (Ends.self (judge c resume) r.opened).mono (fun j r₁ hjudge => ?_) fun e r₁ hjudge => ?_
  · rw [ends_settle]
    refine (Ends.self (onWorkspace (c.artifacts.writeReview
      (j.finalReview c.scoreThreshold) r₁.state.iteration)) r₁).mono (fun _ r₂ hwrite => ?_)
      fun f r' hwrite => .unwritten hjudge hwrite
    exact (decide_decides c r.state.totalTokens j (j.finalReview c.scoreThreshold) _).mono
      (fun next r' h => .decided hjudge hwrite h) fun f r' h => .decided hjudge hwrite h
  · have hfailed (hphase : ∀ message, e ≠ .phase message) :
        Ends (markFailed c e) r₁ (fun _ r' => Turn c resume r (.error e) r')
          fun f r' => Turn c resume r (.error f) r' := by
      rw [ends_markFailed]
      refine (Ends.self (save c) (r₁.update (·.failed (failureText e)))).mono
        (fun _ r' hsave => .failed hjudge hphase hsave) fun g r' hsave => ?_
      have hturn := Turn.failedUnsaved hjudge hphase hsave
      cases g <;> exact hturn
    cases e with
    | phase message =>
      exact (Ends.self (save c) (r₁.afterPhaseError message r.state.totalTokens)).mono
        (fun _ r' hsave => .phaseError hjudge hsave) fun f r' hsave => .phaseUnsaved hjudge hsave
    | _ => exact hfailed fun _ => nofun

end PlanReview
