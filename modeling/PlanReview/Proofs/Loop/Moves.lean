import PlanReview.Proofs.Loop.Saves
import PlanReview.Proofs.Loop.Turn

/-!
# From one saved state to the next

A run saves its state when it takes a session up (`Request.Enters`), after every iteration that
does not end it, and when it ends (`SessionState.Move`). Between two saves the state in memory
starts from the one that was saved, so the states that a session saves form a `Course` : each of
them is the first of a run, and then comes from what a file holds of the one before, or it follows
from the one before by a move. Properties of saved states are proved by induction on the course.

Every course is a history of the session in the coarser sense of `Past` (`Course.past`).
-/

namespace PlanReview

/-! ## Moves -/

/-- The state in memory once an iteration that began with the state `s` has judged a plan. -/
structure SessionState.Judges (c : Controller) (good : Plan → Prop) (s : SessionState) (j : Judged)
    (t : SessionState) : Prop where
  works : s.nextIteration.Works good t
  current : t.currentPlan = some j.plan.fields
  reviewed : c.HasReviewed j.plan j.review
  checks : j.checks = Checklist.run j.plan
  verdict : j.verdict = Viability.checkPlan c.viability j.plan

/-- How a state that was saved leads to the next one that is saved in the same run. -/
inductive SessionState.Move (c : Controller) (good : Plan → Prop) (s : SessionState) :
    SessionState → Prop where
  | phaseError {t : SessionState} (now message : String) : s.nextIteration.Works good t →
      Move c good s (t.afterPhaseError now message s.totalTokens)
  | failed {t : SessionState} (f : Failure) : s.nextIteration.Works good t →
      Move c good s (t.failed (failureText f))
  | asked {j : Judged} {t : SessionState} {review : Review} (now : String) : s.Judges c good j t →
      review = j.finalReview c.scoreThreshold → review.assessment.requiresHumanInput = true →
      Move c good s ((((t.absorbing c j.plan review).withFeedback review.feedback).noted now
        j.verdict review .humanInputRequested s.totalTokens).asking now (clarification review))
  | gated {j : Judged} {t : SessionState} {review : Review} {condition : Guardrail.Condition}
      (now : String) : s.Judges c good j t → review = j.finalReview c.scoreThreshold →
      review.assessment.requiresHumanInput = false → review.passed = true →
      gate c j.plan (t.absorbing c j.plan review) = .ok (some condition) →
      Move c good s (((t.absorbing c j.plan review).noted now j.verdict review
        .humanInputRequested s.totalTokens).asking now (approvalOf condition))
  | revised {j : Judged} {t : SessionState} {review : Review} (now : String) :
      s.Judges c good j t → review = j.finalReview c.scoreThreshold →
      review.assessment.requiresHumanInput = false → review.passed = false →
      Move c good s ((t.absorbing c j.plan review).revising now j review s.totalTokens)
  | approved {j : Judged} {t : SessionState} {review : Review} (now : String) :
      s.Judges c good j t → review = j.finalReview c.scoreThreshold →
      review.assessment.requiresHumanInput = false → review.passed = true →
      gate c j.plan (t.absorbing c j.plan review) = .ok none →
      Move c good s (((t.absorbing c j.plan review).noted now j.verdict review .reviewPassed
        s.totalTokens).completed.updateSummary)
  | stopped {now : Instant} {hard : HardStop} {description : String} :
      Guardrail.check c.limits now s = some hard → hard.describe = .ok description →
      Move c good s (s.stopped hard description).updateSummary

/-- The first state that a run saves, where `last` is the one saved last before it. -/
def Request.Enters (request : Request) (c : Controller) (last : Option SessionState)
    (t : SessionState) : Prop :=
  (∀ s ∈ last, s.bestScore.isFinite = true) ∧ ∃ now s resume,
    request.isIdle (request.session c.artifacts.slug now (last.map SessionState.settled)) = false ∧
    request.takeUp c now (request.session c.artifacts.slug now (last.map SessionState.settled)) =
      .ok (s, resume) ∧ t = request.start now s

/-! ## Courses -/

/-- The states that a session saves, one after the other : the first ones of its runs, and those
that follow from the one before. -/
inductive Course (enters : Option SessionState → SessionState → Prop)
    (moves : SessionState → SessionState → Prop) : List SessionState → Prop where
  | nil : Course enters moves []
  | enter {saves : List SessionState} {t : SessionState} : Course enters moves saves →
      enters saves.getLast? t → Course enters moves (saves ++ [t])
  | move {saves : List SessionState} {s t : SessionState} : Course enters moves saves →
      saves.getLast? = some s → moves s t → Course enters moves (saves ++ [t])

variable {c : Controller} {good : Plan → Prop} {fair : Float → Prop}
  {enters : Option SessionState → SessionState → Prop}
  {moves : SessionState → SessionState → Prop} {saves : List SessionState} {s t : SessionState}

/-- What every run begins with and every move keeps, holds of all that is saved. -/
theorem Course.forall_mem {P : SessionState → Prop} (h : Course enters moves saves)
    (henters : ∀ o t, (∀ s ∈ o, P s) → enters o t → P t)
    (hmoves : ∀ s t, P s → moves s t → P t) : ∀ t ∈ saves, P t := by
  have hsave {saves : List SessionState} {t : SessionState} (hsaves : ∀ s ∈ saves, P s)
      (ht : P t) : ∀ s ∈ saves ++ [t], P s := by
    intro s hs
    rcases List.mem_append.1 hs with hs | hs
    · exact hsaves s hs
    · rwa [List.mem_singleton.1 hs]
  induction h with
  | nil => exact List.forall_mem_nil _
  | enter _ henter ih =>
    exact hsave ih (henters _ _ (fun s hs => ih s (List.mem_of_getLast? hs)) henter)
  | move _ hlast hmove ih =>
    exact hsave ih (hmoves _ _ (ih _ (List.mem_of_getLast? hlast)) hmove)

/-- What was saved up to some point is a course as well. -/
theorem Course.of_prefix (h : Course enters moves saves) {before : List SessionState}
    (hbefore : before <+: saves) : Course enters moves before := by
  induction h with
  | nil =>
    rw [List.prefix_nil.1 hbefore]
    exact .nil
  | enter h henter ih =>
    rcases List.prefix_concat_iff.1 hbefore with rfl | hbefore
    · exact h.enter henter
    · exact ih hbefore
  | move h hlast hmove ih =>
    rcases List.prefix_concat_iff.1 hbefore with rfl | hbefore
    · exact h.move hlast hmove
    · exact ih hbefore

/-! ## Status and question -/

/-- A pause whose question and reason are not empty. -/
structure Pause.IsWorded (p : Pause) : Prop where
  question : p.question ≠ ""
  reason : p.reason ≠ ""

theorem textOr_ne_empty (text : Option String) {absent : String} (h : absent ≠ "") :
    SessionState.textOr text absent ≠ "" := by
  unfold SessionState.textOr
  split
  · split
    · exact h
    · rename_i hne
      simpa using hne
  · exact h

theorem clarification_isWorded (review : Review) : (clarification review).IsWorded := by
  have hreason : SessionState.textOr review.assessment.humanInputReason defaultHumanReason ≠ "" :=
    textOr_ne_empty _ (by simp [defaultHumanReason])
  exact ⟨hreason, hreason⟩

theorem append_ne_empty {a : String} (h : a ≠ "") (b : String) : a ++ b ≠ "" := by
  intro hempty
  rw [String.append_eq_empty_iff] at hempty
  exact h hempty.1

theorem approvalOf_isWorded (condition : Guardrail.Condition) :
    (approvalOf condition).IsWorded := by
  refine ⟨?_, append_ne_empty (by decide) _⟩
  unfold approvalOf
  dsimp only
  rw [String.append_assoc, String.append_assoc]
  exact append_ne_empty (by decide) _

namespace SessionState

theorem revising_standing (s : SessionState) (now : String) (j : Judged) (review : Review)
    (tokensBefore : Int) : (s.revising now j review tokensBefore).status = s.status ∧
      (s.revising now j review tokensBefore).pendingHumanInput = s.pendingHumanInput :=
  ⟨rfl, rfl⟩

theorem completed_pending (s : SessionState) (now : String) (j : Judged) (review : Review)
    (tokensBefore : Int) :
    ((s.noted now j.verdict review .reviewPassed tokensBefore).completed.updateSummary
      ).pendingHumanInput = s.pendingHumanInput := rfl

/-- Until it is decided what a review leads to, only what planning and reviewing change is new. -/
theorem Judges.stays {j : Judged} (h : s.Judges c good j t) (review : Review) :
    s.nextIteration.Stays (t.absorbing c j.plan review) :=
  h.works.stays.trans (absorb_stays _ _ _)

/-- What becomes of the status of a session and of the question that it waits on. -/
inductive Leads (s t : SessionState) : Prop where
  | on : t.status = s.status → t.pendingHumanInput = s.pendingHumanInput → Leads s t
  | asks (h : HumanInput) : t.status.kind = .paused → t.pendingHumanInput = some h →
      h.question ≠ "" → Leads s t
  | fails : t.status.kind = .failed → t.pendingHumanInput = s.pendingHumanInput → Leads s t
  | completes : t.status.kind = .completed → t.pendingHumanInput = s.pendingHumanInput → Leads s t
  | promotes : t.status.kind = .bestEffort → t.pendingHumanInput = s.pendingHumanInput →
      0.0 < t.bestScore → Leads s t
  | stops : t.status.kind = .hardStopped → t.pendingHumanInput = s.pendingHumanInput →
      ¬ 0.0 < t.bestScore → Leads s t

theorem Move.leads (h : s.Move c good t) : s.Leads t := by
  cases h with
  | phaseError now message hworks =>
    exact .on hworks.stays.status hworks.stays.pending
  | failed f hworks => exact .fails rfl hworks.stays.pending
  | @asked _ _ review _ _ _ _ => exact .asks _ rfl rfl (clarification_isWorded review).question
  | @gated _ _ _ condition _ _ _ _ _ _ =>
    exact .asks _ rfl rfl (approvalOf_isWorded condition).question
  | @revised j t review now hjudges _ _ _ =>
    obtain ⟨hstatus, hpending⟩ :=
      (t.absorbing c j.plan review).revising_standing now j review s.totalTokens
    have hstays := hjudges.stays review
    exact .on (hstatus.trans hstays.status) (hpending.trans hstays.pending)
  | @approved j t review now hjudges _ _ _ _ =>
    have hpending := (t.absorbing c j.plan review).completed_pending now j review s.totalTokens
    exact .completes rfl (hpending.trans (hjudges.stays review).pending)
  | @stopped _ hard description _ _ =>
    by_cases hbest : s.bestScore > 0.0
    · have hstopped : s.stopped hard description = { s with status := {
          kind := .bestEffort, reason := some description, hardStop := some hard } } := by
        rw [SessionState.stopped, if_pos hbest]
      rw [hstopped]
      exact .promotes rfl rfl hbest
    · have hstopped : s.stopped hard description = { s with status := {
          kind := .hardStopped, reason := some description, hardStop := some hard } } := by
        rw [SessionState.stopped, if_neg hbest]
      rw [hstopped]
      exact .stops rfl rfl hbest

end SessionState

/-! ## As a history -/

theorem finalReview_score (j : Judged) (threshold : Float) :
    (j.finalReview threshold).score = j.review.score := by
  unfold Judged.finalReview
  dsimp only
  split <;> rfl

theorem withFeedback_self (s : SessionState) : s.withFeedback s.pendingFeedback = s := rfl

/-- A judged plan with its line belongs to the history, with any feedback for the planner. -/
theorem SessionState.Judges.past {j : Judged} {u : SessionState} (hjudges : s.Judges c good j t)
    (hpast : Past good fair saves s)
    (hfair : ∀ p review, c.HasReviewed p review → fair review.score) {feedback : List String}
    (hu : u = (t.absorbing c j.plan (j.finalReview c.scoreThreshold)).withFeedback feedback)
    (now : String) (outcome : IterationOutcome) (houtcome : outcome ≠ .phaseError) :
    Past good fair saves
      (u.noted now j.verdict (j.finalReview c.scoreThreshold) outcome s.totalTokens) := by
  have hscore : fair (j.finalReview c.scoreThreshold).score := by
    rw [finalReview_score]
    exact hfair _ _ hjudges.reviewed
  exact hpast.review now j.verdict _ feedback hjudges.works hscore houtcome hu

/-- A move belongs to the history. -/
theorem SessionState.Move.past (hmove : s.Move c good t) (hpast : Past good fair saves s)
    (hfair : ∀ p review, c.HasReviewed p review → fair review.score) :
    Past good fair (saves ++ [t]) t := by
  cases hmove with
  | phaseError now message hworks => exact (hpast.phaseError now message hworks).save
  | failed f hworks => exact hpast.fail _ hworks
  | asked now hjudges hreview _ =>
    subst hreview
    refine (Past.ask _ _ _ _ ?_).summarize.save
    exact hjudges.past hpast hfair rfl now .humanInputRequested (by decide)
  | gated now hjudges hreview _ _ _ =>
    subst hreview
    have hnoted := hjudges.past hpast hfair (withFeedback_self _).symm now .humanInputRequested
      (by decide)
    exact (hnoted.ask _ _ _ _).summarize.save
  | @revised j _ _ now hjudges hreview _ _ =>
    subst hreview
    have hnoted := hjudges.past hpast hfair (withFeedback_self _).symm now
      (if j.verdict.passed then .reviewFailed else .viabilityFailed) (by split <;> decide)
    exact (hnoted.revise _).summarize.save
  | approved now hjudges hreview _ _ _ =>
    subst hreview
    have hnoted := hjudges.past hpast hfair (withFeedback_self _).symm now .reviewPassed (by decide)
    exact hnoted.complete.summarize.save
  | stopped _ _ => exact (hpast.stop _ _).summarize.save

/-- So does the first state that a run saves. -/
theorem Request.Enters.past {request : Request} (henters : request.Enters c saves.getLast? t)
    (hpast : Past good fair saves s) (hrequest : ∀ q ∈ request.resume, good q.plan) :
    Past good fair (saves ++ [t]) t := by
  obtain ⟨hfinite, now, s₁, resume, -, htake, rfl⟩ := henters
  have hsession := past_session request c.artifacts.slug now hpast hfinite
  exact ((past_takeUp request hrequest now hsession htake).start request now).save

/-- The saved states of a course are those of a history, if its plans are good and its scores are
fair. -/
theorem Course.past (h : Course enters moves saves)
    (henters : ∀ o t, enters o t → ∃ c request, Request.Enters request c o t ∧
      ∀ q ∈ request.resume, good q.plan)
    (hmoves : ∀ s t, moves s t → ∃ c, s.Move c good t ∧
      ∀ p review, c.HasReviewed p review → fair review.score) :
    ∃ s, Past good fair saves s ∧ ∀ t ∈ saves.getLast?, t = s := by
  induction h with
  | nil => exact ⟨_, .new "" "" "" "" none, fun _ h => nomatch h⟩
  | enter _ henter ih =>
    obtain ⟨s, hpast, -⟩ := ih
    obtain ⟨c, request, henters, hrequest⟩ := henters _ _ henter
    refine ⟨_, henters.past hpast hrequest, fun u hu => ?_⟩
    rw [List.getLast?_concat] at hu
    exact (Option.some.inj hu).symm
  | move _ hlast hmove ih =>
    obtain ⟨s, hpast, heq⟩ := ih
    obtain ⟨c, hmove, hfair⟩ := hmoves _ _ hmove
    obtain rfl := heq _ hlast
    refine ⟨_, hmove.past hpast hfair, fun u hu => ?_⟩
    rw [List.getLast?_concat] at hu
    exact (Option.some.inj hu).symm

end PlanReview
