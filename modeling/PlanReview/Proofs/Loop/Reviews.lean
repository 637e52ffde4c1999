import PlanReview.Proofs.Loop.Moves
import PlanReview.Proofs.Review.ReadBack

/-!
# What a review leaves behind

A move of a run takes in at most one review (`SessionState.TakesIn`), and what is kept for the
planner, what a human is asked and whether the session is completed depends on the review alone, and
on the gate (`SessionState.Settles`). All moves are told apart by this in
`SessionState.Move.settles`, and later proofs go by cases on it.

The gate looks at the conditions that the reviewed plan meets (`gate_of_last`) : it lets the plan
pass if a human has approved of all of them, and otherwise asks about one of which nobody has
approved.
-/

namespace PlanReview

variable {c : Controller} {good : Plan → Prop} {s t : SessionState} {p : Plan} {review : Review}

/-! ## The gate -/

/-- A human has answered a question of the category, and has approved. -/
def SessionState.HasApproved (s : SessionState) (category : String) : Prop :=
  ∃ h ∈ s.humanInputs, h.approved = true ∧ h.category = category

theorem SessionState.contains_approvedCategories (s : SessionState) (category : String) :
    s.approvedCategories.contains category = true ↔ s.HasApproved category := by
  simp [approvedCategories, HasApproved, and_assoc]

/-- The score of a stored review is its score. -/
theorem storedScore_fields (review : Review) :
    Guardrail.storedScore review.fields = .ok review.score := rfl

/-- The gate weighs the conditions that a plan meets with its last review. -/
theorem gate_of_last (hlast : s.reviews.getLast? = some review.fields)
    (hrequire : c.requireApproval = true) : gate c p s = .ok
      ((Guardrail.conditions c.thresholds p.toJson review.score s.iteration).filter
        fun k => !s.approvedCategories.contains k.name).head? := by
  unfold gate Guardrail.outstanding Guardrail.lastScore
  rw [if_pos hrequire, hlast]
  dsimp only
  rw [storedScore_fields]
  rfl

/-- A plan that passes the gate meets only conditions of which a human has approved. -/
theorem hasApproved_of_gate (hlast : s.reviews.getLast? = some review.fields)
    (hgate : gate c p s = .ok none) (hrequire : c.requireApproval = true) :
    ∀ k ∈ Guardrail.conditions c.thresholds p.toJson review.score s.iteration,
      s.HasApproved k.name := by
  rw [gate_of_last hlast hrequire] at hgate
  have hnone := List.filter_eq_nil_iff.1 (List.head?_eq_none_iff.1 (Except.ok.inj hgate))
  intro k hk
  have happroved := hnone k hk
  rw [Bool.not_eq_true, Bool.not_eq_false'] at happroved
  exact (s.contains_approvedCategories k.name).1 happroved

/-- The gate asks about a condition of which no human has approved. -/
theorem not_hasApproved_of_gate {k : Guardrail.Condition}
    (hlast : s.reviews.getLast? = some review.fields) (hgate : gate c p s = .ok (some k)) :
    c.requireApproval = true ∧
      k ∈ Guardrail.conditions c.thresholds p.toJson review.score s.iteration ∧
      ¬ s.HasApproved k.name := by
  have hrequire : c.requireApproval = true := by
    by_contra hnot
    unfold gate at hgate
    rw [if_neg hnot] at hgate
    cases hgate
  rw [gate_of_last hlast hrequire] at hgate
  obtain ⟨hk, hunapproved⟩ := List.mem_filter.1 (List.mem_of_head? (Except.ok.inj hgate))
  refine ⟨hrequire, hk, fun happroved => ?_⟩
  rw [(s.contains_approvedCategories k.name).2 happroved] at hunapproved
  cases hunapproved

/-! ## Reviews -/

namespace SessionState

/-- A move takes in the review of a plan, which is the current one then. -/
structure TakesIn (s : SessionState) (c : Controller) (j : Judged) (t : SessionState) : Prop where
  reviewed : c.HasReviewed j.plan j.review
  verdict : j.verdict = Viability.checkPlan c.viability j.plan
  current : t.currentPlan = some j.plan.fields
  reviews : t.reviews = s.reviews ++ [(j.finalReview c.scoreThreshold).fields]
  iteration : t.iteration = s.iteration + 1

/-- What becomes of the feedback for the planner, of the question for a human and of the session. -/
inductive Settles (c : Controller) (s t : SessionState) : Prop where
  | unreviewed : t.reviews = s.reviews → t.pendingFeedback = s.pendingFeedback →
      t.pendingHumanInput = s.pendingHumanInput →
      t.currentPlan = s.currentPlan ∨ (∃ p : Plan, t.currentPlan = some p.fields) →
      (t.status.kind = .completed → t.status = s.status) → Settles c s t
  | asked (j : Judged) (h : HumanInput) : s.TakesIn c j t →
      (j.finalReview c.scoreThreshold).assessment.requiresHumanInput = true →
      t.pendingFeedback = (j.finalReview c.scoreThreshold).feedback →
      t.pendingHumanInput = some h → h.category = "clarification" →
      t.status.kind ≠ .completed → Settles c s t
  | gated (j : Judged) (h : HumanInput) : s.TakesIn c j t →
      (j.finalReview c.scoreThreshold).assessment.requiresHumanInput = false →
      (j.finalReview c.scoreThreshold).passed = true → c.requireApproval = true →
      t.pendingFeedback = s.pendingFeedback → t.pendingHumanInput = some h →
      ¬ t.HasApproved h.category → t.status.kind ≠ .completed → Settles c s t
  | revised (j : Judged) : s.TakesIn c j t →
      (j.finalReview c.scoreThreshold).assessment.requiresHumanInput = false →
      (j.finalReview c.scoreThreshold).passed = false →
      t.pendingFeedback = (j.finalReview c.scoreThreshold).feedback ++ j.verdict.feedback →
      t.pendingHumanInput = s.pendingHumanInput → t.status = s.status → Settles c s t
  | approved (j : Judged) : s.TakesIn c j t →
      (j.finalReview c.scoreThreshold).assessment.requiresHumanInput = false →
      (j.finalReview c.scoreThreshold).passed = true → t.pendingFeedback = [] →
      t.pendingHumanInput = s.pendingHumanInput → t.status.kind = .completed →
      (c.requireApproval = true → ∀ k ∈ Guardrail.conditions c.thresholds j.plan.toJson
        (j.finalReview c.scoreThreshold).score t.iteration, t.HasApproved k.name) →
      Settles c s t

theorem Works.current_cases (h : s.Works good t) :
    t.currentPlan = s.currentPlan ∨ ∃ p : Plan, t.currentPlan = some p.fields := by
  induction h with
  | refl => exact .inl rfl
  | planned _ _ ih => exact ih
  | reviewed _ _ ih => exact ih
  | plan _ _ _ => exact .inr ⟨_, rfl⟩

/-- Two states have the same answers, reviews and plan, in the same iteration. -/
structure SameReviews (s t : SessionState) : Prop where
  humanInputs : t.humanInputs = s.humanInputs
  reviews : t.reviews = s.reviews
  currentPlan : t.currentPlan = s.currentPlan
  iteration : t.iteration = s.iteration

theorem SameReviews.hasApproved_iff (h : s.SameReviews t) (category : String) :
    t.HasApproved category ↔ s.HasApproved category := by
  unfold HasApproved
  rw [h.humanInputs]

theorem SameReviews.trans {u : SessionState} (h : s.SameReviews t) (h' : t.SameReviews u) :
    s.SameReviews u :=
  ⟨h'.humanInputs.trans h.humanInputs, h'.reviews.trans h.reviews,
    h'.currentPlan.trans h.currentPlan, h'.iteration.trans h.iteration⟩

theorem sameReviews_asking (s : SessionState) (now : String) (p : Pause) :
    s.SameReviews (s.asking now p) :=
  ⟨rfl, rfl, rfl, rfl⟩

theorem sameReviews_noted (s : SessionState) (now : String) (verdict : Viability.Verdict)
    (review : Review) (outcome : IterationOutcome) (tokensBefore : Int) :
    s.SameReviews (s.noted now verdict review outcome tokensBefore) :=
  ⟨rfl, rfl, rfl, rfl⟩

theorem asking_feedback (s : SessionState) (now : String) (p : Pause) (verdict : Viability.Verdict)
    (review : Review) (outcome : IterationOutcome) (tokensBefore : Int) :
    ((s.noted now verdict review outcome tokensBefore).asking now p).pendingFeedback =
      s.pendingFeedback := rfl

theorem sameReviews_withFeedback (s : SessionState) (feedback : List String) :
    s.SameReviews (s.withFeedback feedback) :=
  ⟨rfl, rfl, rfl, rfl⟩

theorem sameReviews_revising (s : SessionState) (now : String) (j : Judged) (review : Review)
    (tokensBefore : Int) : s.SameReviews (s.revising now j review tokensBefore) :=
  ⟨rfl, rfl, rfl, rfl⟩

theorem sameReviews_completed (s : SessionState) : s.SameReviews s.completed.updateSummary :=
  ⟨rfl, rfl, rfl, rfl⟩

/-- A state with the review of a judged plan has taken the review in. -/
theorem Judges.takesIn {j : Judged} {u : SessionState} (h : s.Judges c good j t)
    (hsame : (t.absorbing c j.plan (j.finalReview c.scoreThreshold)).SameReviews u) :
    u.humanInputs = s.humanInputs ∧ s.TakesIn c j u := by
  have hstays := h.stays (j.finalReview c.scoreThreshold)
  refine ⟨hsame.humanInputs.trans hstays.humanInputs, h.reviewed, h.verdict, ?_, ?_, ?_⟩
  · exact hsame.currentPlan.trans ((absorb_currentPlan _ _ _).trans h.current)
  · have hreviews : t.reviews = s.reviews := h.works.reviews_eq
    rw [hsame.reviews, absorbing, absorb_reviews, hreviews]
  · exact hsame.iteration.trans hstays.iteration

/-- A move adds no answer, and settles what its review leaves behind, if it takes one in. -/
theorem Move.settles (h : s.Move c good t) : t.humanInputs = s.humanInputs ∧ s.Settles c t := by
  cases h with
  | @phaseError u now message hworks =>
    have hstays := hworks.stays
    exact ⟨hstays.humanInputs, .unreviewed hworks.reviews_eq hstays.feedback hstays.pending
      hworks.current_cases fun _ => hstays.status⟩
  | @failed u f hworks =>
    have hstays := hworks.stays
    refine ⟨hstays.humanInputs, .unreviewed hworks.reviews_eq hstays.feedback hstays.pending
      hworks.current_cases fun hkind => absurd hkind ?_⟩
    change StatusKind.failed ≠ .completed
    decide
  | @asked j u review now hjudges hreview hhuman =>
    subst hreview
    obtain ⟨hinputs, htakes⟩ := hjudges.takesIn (((sameReviews_withFeedback _ _).trans
      (sameReviews_noted _ now _ _ _ _)).trans (sameReviews_asking _ now _))
    refine ⟨hinputs, .asked j _ htakes hhuman rfl rfl rfl ?_⟩
    change StatusKind.paused ≠ .completed
    decide
  | @gated j u review condition now hjudges hreview hhuman hpassed hgate =>
    subst hreview
    have hsame := (sameReviews_noted (u.absorbing c j.plan (j.finalReview c.scoreThreshold)) now
      j.verdict (j.finalReview c.scoreThreshold) .humanInputRequested s.totalTokens).trans
        (sameReviews_asking _ now (approvalOf condition))
    obtain ⟨hinputs, htakes⟩ := hjudges.takesIn hsame
    obtain ⟨hrequire, -, hunapproved⟩ := not_hasApproved_of_gate
      (by rw [absorbing, absorb_reviews, List.getLast?_concat]) hgate
    rw [← hsame.hasApproved_iff] at hunapproved
    have hfeedback := (asking_feedback _ now (approvalOf condition) j.verdict
      (j.finalReview c.scoreThreshold) .humanInputRequested s.totalTokens).trans
        (hjudges.stays (j.finalReview c.scoreThreshold)).feedback
    refine ⟨hinputs, .gated j _ htakes hhuman hpassed hrequire hfeedback rfl hunapproved ?_⟩
    change StatusKind.paused ≠ .completed
    decide
  | @revised j u review now hjudges hreview hhuman hpassed =>
    subst hreview
    obtain ⟨hinputs, htakes⟩ := hjudges.takesIn (sameReviews_revising _ now j _ s.totalTokens)
    obtain ⟨hstatus, hpending⟩ :=
      (u.absorbing c j.plan (j.finalReview c.scoreThreshold)).revising_standing now j
        (j.finalReview c.scoreThreshold) s.totalTokens
    have hstays := hjudges.stays (j.finalReview c.scoreThreshold)
    exact ⟨hinputs, .revised j htakes hhuman hpassed rfl (hpending.trans hstays.pending)
      (hstatus.trans hstays.status)⟩
  | @approved j u review now hjudges hreview hhuman hpassed hgate =>
    subst hreview
    have hsame := (sameReviews_noted (u.absorbing c j.plan (j.finalReview c.scoreThreshold)) now
      j.verdict (j.finalReview c.scoreThreshold) .reviewPassed s.totalTokens).trans
        (sameReviews_completed _)
    obtain ⟨hinputs, htakes⟩ := hjudges.takesIn hsame
    have hpending := (u.absorbing c j.plan (j.finalReview c.scoreThreshold)).completed_pending now j
      (j.finalReview c.scoreThreshold) s.totalTokens
    refine ⟨hinputs, .approved j htakes hhuman hpassed rfl
      (hpending.trans (hjudges.stays _).pending) rfl fun hrequire k hk => ?_⟩
    rw [hsame.iteration] at hk
    rw [hsame.hasApproved_iff]
    exact hasApproved_of_gate (by rw [absorbing, absorb_reviews, List.getLast?_concat]) hgate
      hrequire k hk
  | @stopped now hard description hcheck hdescribe =>
    refine ⟨rfl, .unreviewed rfl rfl rfl (.inl rfl) fun hkind => absurd hkind ?_⟩
    change (if _ then StatusKind.bestEffort else .hardStopped) ≠ _
    split <;> decide

end SessionState

end PlanReview
