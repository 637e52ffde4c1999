import PlanReview.Proofs.Session.Documents
import PlanReview.Proofs.Session.Saving
import PlanReview.Session.Overview

/-!
# The overview of a stored state

A session whose stored state holds documents of plans and reviews has an overview at any time, and
it shows the state as a file holds it (`Overview.ofSession_stored`).
-/

namespace PlanReview.Overview

open Json (ofOption)
open Schema

variable {s : SessionState}

/-- The overview shows a state as a file holds it. -/
structure Shows (o : Overview) (s : SessionState) : Prop where
  iteration : o.iteration = s.iteration
  status : o.status = statusOfState s.settled
  score : ∀ review, s.lastReview = .ok review → o.latestScore = review.map Review.score
  totalTokens : o.totalTokens = some s.totalTokens

theorem readParts_ofOption (score : Option Float) (reason : Option String) :
    readParts (ofOption .float score) (ofOption .str reason) = .ok (score, reason) := by
  unfold readParts
  rw [nullable_float, nullable_string]
  rfl

/-- The score that the overview reads off the last review is the score of that review. -/
theorem lastScoreOf_eq (h : s.HoldsScores) {review : Option Review}
    (hreview : s.lastReview = .ok review) :
    lastScoreOf s = .ok (ofOption .float (review.map Review.score)) := by
  unfold lastScoreOf
  cases hlast : s.reviews.getLast? with
  | none =>
    rw [SessionState.lastReview, hlast] at hreview
    cases hreview
    rfl
  | some fs =>
    obtain ⟨r, -, rfl⟩ := h.reviews fs (List.mem_of_getLast? hlast)
    cases (h.lastReview_eq hlast).symm.trans hreview
    rfl

theorem ofState_eq (h : s.HoldsScores) {review : Option Review}
    (hreview : s.lastReview = .ok review) (dir : Path) (limits : OverviewLimits) :
    ofState dir limits s = .ok {
      sessionId := dir.name
      sessionDir := dir.text
      iteration := s.iteration
      status := statusOfState s
      latestScore := review.map Review.score
      inputReason := reasonOf s
      title := titleOf (ofOption .obj s.currentPlan)
      totalTokens := some s.totalTokens
      tokensRemaining := remaining s.totalTokens limits.maxTotalTokens } := by
  unfold ofState
  rw [lastScoreOf_eq h hreview]
  change ((readParts (ofOption .float (review.map Review.score)) (ofOption .str
    (reasonOf s))).mapError Failure.invalid >>= _) = _
  rw [readParts_ofOption]
  rfl

/-- A session with a stored state has an overview, and the overview shows the state. -/
theorem ofSession_stored {files : FileTree} {dir : Path} (hplans : s.HoldsPlans Plan.IsPlain)
    (hscores : s.HoldsScores)
    (hheld : files.Holds (dir.resolve files.cwd ++ [SessionState.fileName]) (.text s.storedText))
    (time : String) (limits : OverviewLimits) :
    ∃ o, ofSession files time dir limits = .ok o ∧ o.Shows s := by
  obtain ⟨-, -, hreviews⟩ := SessionState.settled_documents hplans hscores
  obtain ⟨review, hreview⟩ := hscores.exists_lastReview
  have hsettled : s.settled.lastReview = .ok review := by
    rw [SessionState.lastReview, hreviews]
    exact hreview
  have hstate := ofState_eq hscores.settled hsettled dir limits
  refine ⟨_, (?_ : _ = ofState dir limits s.settled).trans hstate, rfl, rfl,
    fun review' h => ?_, rfl⟩
  · unfold ofSession
    rw [SessionState.load_stored hheld hscores.best.isFinite]
  · cases hreview.symm.trans h
    rfl

end PlanReview.Overview
