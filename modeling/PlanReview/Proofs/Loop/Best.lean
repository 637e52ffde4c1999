import PlanReview.Proofs.Loop.Records

/-!
# The best plan of a session

The best score of a saved state is the highest one of its reviews, or zero, and its best plan is
the one that was under review when that score was first reached (`SessionState.TracksBest`). The
plans that the reviews were about are not all in the state; they are kept in a log on the side,
which grows by an entry whenever a state with a new review is saved (`Logs`).

That a state goes with a log is carried over from one saved state to the next, first through a
single review (`TracksBest.absorbing`), then through a move, and so through all that a session saves
(`Course.exists_log`).
-/

namespace PlanReview

open RunM Workspace
open Artifacts (jsonText)
open Decimal (InUnit)

/-- A plan with its review as it counts. -/
structure Reviewed where
  plan : Plan
  review : Review

/-- The best score is the highest one of the reviews, or zero; there is a best plan unless it is
zero, and then it is the plan of the first review with that score. -/
structure SessionState.TracksBest (s : SessionState) (log : List Reviewed) : Prop where
  reviews : s.reviews = log.map fun e => e.review.fields
  nonneg : 0.0 ≤ s.bestScore
  le_best : ∀ e ∈ log, e.review.score ≤ s.bestScore
  none_iff : s.bestPlan = none ↔ s.bestScore = 0.0
  first : s.bestScore ≠ 0.0 → 0.0 < s.bestScore ∧ ∃ before e after, log = before ++ e :: after ∧
    e.review.score = s.bestScore ∧ s.bestPlan = some e.plan.fields ∧
    ∀ d ∈ before, d.review.score < s.bestScore

/-- The reviewer of a visit has reviewed this plan, and this is the review as it counts. -/
def Reviewed.IsBy (v : Visit) (e : Reviewed) : Prop :=
  ∃ j : Judged, v.controller.HasReviewed j.plan j.review ∧ j.checks = Checklist.run j.plan ∧
    j.verdict = Viability.checkPlan v.controller.viability j.plan ∧
    e = ⟨j.plan, j.finalReview v.controller.scoreThreshold⟩

/-- The log of the plans that the saved reviews were about. The first state that was saved with a
review has its plan as the one under review. -/
structure Logs (visits : List Visit) (saves : List SessionState) (log : List Reviewed) : Prop where
  judged : ∀ e ∈ log, ∃ v ∈ visits, e.IsBy v
  saved : ∀ before e after, log = before ++ e :: after → ∃ earlier t later,
    saves = earlier ++ t :: later ∧ (∀ u ∈ earlier, u.reviews.length ≤ before.length) ∧
    t.reviews = (before ++ [e]).map (fun d => d.review.fields) ∧
    t.currentPlan = some e.plan.fields
  length_le : ∀ t ∈ saves, t.reviews.length ≤ log.length

variable {c : Controller} {saves : List SessionState} {s t u : SessionState} {log : List Reviewed}
  {visits : List Visit}

/-! ## One review -/

namespace SessionState

/-- Two states with the same reviews, best score and best plan. -/
structure SameBest (s t : SessionState) : Prop where
  reviews : t.reviews = s.reviews
  bestScore : t.bestScore = s.bestScore
  bestPlan : t.bestPlan = s.bestPlan

theorem SameBest.trans (h : s.SameBest t) (h' : t.SameBest u) : s.SameBest u :=
  ⟨h'.reviews.trans h.reviews, h'.bestScore.trans h.bestScore, h'.bestPlan.trans h.bestPlan⟩

/-- Two states that also have the same plan under review. -/
structure SamePlans (s t : SessionState) : Prop extends SameBest s t where
  currentPlan : t.currentPlan = s.currentPlan

theorem SamePlans.refl (s : SessionState) : s.SamePlans s :=
  ⟨⟨rfl, rfl, rfl⟩, rfl⟩

theorem SamePlans.withFeedback (h : s.SamePlans t) (feedback : List String) :
    s.SamePlans (t.withFeedback feedback) :=
  ⟨⟨h.reviews, h.bestScore, h.bestPlan⟩, h.currentPlan⟩

theorem SamePlans.noted (h : s.SamePlans t) (now : String) (verdict : Viability.Verdict)
    (review : Review) (outcome : IterationOutcome) (tokensBefore : Int) :
    s.SamePlans (t.noted now verdict review outcome tokensBefore) :=
  ⟨⟨h.reviews, h.bestScore, h.bestPlan⟩, h.currentPlan⟩

theorem SamePlans.updateSummary (h : s.SamePlans t) : s.SamePlans t.updateSummary :=
  ⟨⟨h.reviews, h.bestScore, h.bestPlan⟩, h.currentPlan⟩

theorem SamePlans.asking (h : s.SamePlans t) (now : String) (p : Pause) :
    s.SamePlans (t.asking now p) :=
  ⟨⟨h.reviews, h.bestScore, h.bestPlan⟩, h.currentPlan⟩

theorem SamePlans.completed (h : s.SamePlans t) : s.SamePlans t.completed :=
  ⟨⟨h.reviews, h.bestScore, h.bestPlan⟩, h.currentPlan⟩

theorem afterPhaseError_sameBest (s : SessionState) (now message : String) (tokensBefore : Int) :
    s.SameBest (s.afterPhaseError now message tokensBefore) :=
  ⟨rfl, rfl, rfl⟩

theorem failed_sameBest (s : SessionState) (message : String) : s.SameBest (s.failed message) :=
  ⟨rfl, rfl, rfl⟩

theorem SameBest.tracksBest (h : s.SameBest t) (hbest : s.TracksBest log) : t.TracksBest log := by
  obtain ⟨hreviews, hnonneg, hle, hnone, hfirst⟩ := hbest
  rw [← h.reviews] at hreviews
  rw [← h.bestScore] at hnonneg hle hnone hfirst
  rw [← h.bestPlan] at hnone hfirst
  exact ⟨hreviews, hnonneg, hle, hnone, hfirst⟩

theorem Works.sameBest {good : Plan → Prop} (h : s.Works good t) : s.SameBest t := by
  obtain ⟨_, _, _, _, rfl⟩ := h.exists_eq
  exact ⟨rfl, rfl, rfl⟩

/-- What a review that is taken in changes in the best plan and score. -/
theorem absorbing_best (s : SessionState) (c : Controller) (plan : Plan) (review : Review) :
    (s.absorbing c plan review).reviews = s.reviews ++ [review.fields] ∧
      (s.absorbing c plan review).currentPlan = s.currentPlan ∧
      (if s.bestScore < review.score then
        (s.absorbing c plan review).bestScore = review.score ∧
          (s.absorbing c plan review).bestPlan = s.currentPlan
      else (s.absorbing c plan review).bestScore = s.bestScore ∧
          (s.absorbing c plan review).bestPlan = s.bestPlan) := by
  unfold absorbing absorb recordReview isImprovedBy
  dsimp only
  by_cases himproved : s.bestScore < review.score
  · rw [if_pos (decide_eq_true himproved), if_pos himproved]
    exact ⟨rfl, rfl, rfl, rfl⟩
  · rw [if_neg (by simpa using himproved), if_neg himproved]
    exact ⟨rfl, rfl, rfl, rfl⟩

theorem TracksBest.reviews_concat (h : s.TracksBest log) {e : Reviewed}
    (ht : t.reviews = s.reviews ++ [e.review.fields]) :
    t.reviews = (log ++ [e]).map fun d => d.review.fields := by
  rw [ht, h.reviews, List.map_append]
  rfl

/-- A review is added that is better than all before. -/
theorem TracksBest.improve (h : s.TracksBest log) (hscores : ∀ e ∈ log, InUnit e.review.score)
    (hbest : InUnit s.bestScore) {e : Reviewed} (he : InUnit e.review.score)
    (hlt : s.bestScore < e.review.score) (hreviews : t.reviews = s.reviews ++ [e.review.fields])
    (hscore : t.bestScore = e.review.score) (hplan : t.bestPlan = some e.plan.fields) :
    t.TracksBest (log ++ [e]) := by
  have hbelow : ∀ d ∈ log, d.review.score < t.bestScore := by
    rw [hscore]
    exact fun d hd => (hscores d hd).lt_of_le_of_lt hbest he (h.le_best d hd) hlt
  have hpos : 0.0 < t.bestScore := by
    rw [hscore]
    exact Decimal.pos_of_lt hbest.nonneg hlt
  have hne : t.bestScore ≠ 0.0 := by
    intro hzero
    rw [hzero] at hpos
    exact absurd hpos (by decide +kernel)
  rw [← hscore] at he
  exact {
    reviews := h.reviews_concat hreviews
    nonneg := he.nonneg
    le_best := by
      intro d hd
      rcases List.mem_append.1 hd with hd | hd
      · exact (hscores d hd).le_of_lt he (hbelow d hd)
      · rw [List.mem_singleton.1 hd, ← hscore]
        exact he.refl
    none_iff := by
      rw [hplan]
      exact ⟨nofun, fun hzero => absurd hzero hne⟩
    first _ := ⟨hpos, log, e, [], rfl, hscore.symm, hplan, hbelow⟩ }

/-- A review is added that is not better than the best one so far. -/
theorem TracksBest.keep (h : s.TracksBest log) (hbest : InUnit s.bestScore) {e : Reviewed}
    (he : InUnit e.review.score) (hnot : ¬ s.bestScore < e.review.score)
    (hreviews : t.reviews = s.reviews ++ [e.review.fields]) (hscore : t.bestScore = s.bestScore)
    (hplan : t.bestPlan = s.bestPlan) : t.TracksBest (log ++ [e]) where
  reviews := h.reviews_concat hreviews
  nonneg := by
    rw [hscore]
    exact h.nonneg
  le_best := by
    rw [hscore]
    intro d hd
    rcases List.mem_append.1 hd with hd | hd
    · exact h.le_best d hd
    · rw [List.mem_singleton.1 hd]
      exact (hbest.not_lt_iff he).1 hnot
  none_iff := by
    rw [hplan, hscore]
    exact h.none_iff
  first := by
    rw [hplan, hscore]
    intro hne
    obtain ⟨hpos, before, d, after, rfl, hrest⟩ := h.first hne
    exact ⟨hpos, before, d, after ++ [e], by simp, hrest⟩

/-- A review of the plan under review that is taken in. -/
theorem TracksBest.absorbing (h : s.TracksBest log) (hscores : ∀ e ∈ log, InUnit e.review.score)
    (hbest : InUnit s.bestScore) {plan : Plan} {review : Review} (hreview : InUnit review.score)
    (hcurrent : s.currentPlan = some plan.fields) :
    (s.absorbing c plan review).TracksBest (log ++ [⟨plan, review⟩]) := by
  obtain ⟨hreviews, -, himproved⟩ := s.absorbing_best c plan review
  by_cases hlt : s.bestScore < review.score
  · rw [if_pos hlt] at himproved
    exact h.improve hscores hbest hreview hlt hreviews himproved.1 (himproved.2.trans hcurrent)
  · rw [if_neg hlt] at himproved
    exact h.keep hbest hreview hlt hreviews himproved.1 himproved.2

end SessionState

/-! ## Logs -/

namespace Logs

theorem nil (visits : List Visit) : Logs visits [] [] where
  judged := List.forall_mem_nil _
  saved _ _ _ h := absurd h.symm (List.append_ne_nil_of_right_ne_nil _ (List.cons_ne_nil _ _))
  length_le := List.forall_mem_nil _

theorem eq_nil (h : Logs visits [] log) : log = [] := by
  cases log with
  | nil => rfl
  | cons e log =>
    obtain ⟨earlier, t, later, hsaves, -⟩ := h.saved [] e log rfl
    exact absurd hsaves.symm (List.append_ne_nil_of_right_ne_nil _ (List.cons_ne_nil _ _))

/-- A state without a new review is saved. -/
theorem same (h : Logs visits saves log) (ht : t.reviews.length ≤ log.length) :
    Logs visits (saves ++ [t]) log := by
  refine ⟨h.judged, fun before e after hlog => ?_, fun u hu => ?_⟩
  · obtain ⟨earlier, u, later, rfl, hrest⟩ := h.saved before e after hlog
    exact ⟨earlier, u, later ++ [t], by simp, hrest⟩
  · rcases List.mem_append.1 hu with hu | hu
    · exact h.length_le u hu
    · rwa [List.mem_singleton.1 hu]

/-- A state with a new review is saved. -/
theorem add (h : Logs visits saves log) {e : Reviewed}
    (he : ∃ v ∈ visits, e.IsBy v)
    (hreviews : t.reviews = (log ++ [e]).map fun d => d.review.fields)
    (hcurrent : t.currentPlan = some e.plan.fields) :
    Logs visits (saves ++ [t]) (log ++ [e]) := by
  refine ⟨fun d hd => ?_, fun before d after hlog => ?_, fun u hu => ?_⟩
  · rcases List.mem_append.1 hd with hd | hd
    · exact h.judged d hd
    · rwa [List.mem_singleton.1 hd]
  · rcases List.eq_nil_or_concat after with rfl | ⟨after, last, rfl⟩
    · obtain ⟨rfl, heq⟩ := List.append_inj' hlog rfl
      cases heq
      exact ⟨saves, t, [], rfl, h.length_le, hreviews, hcurrent⟩
    · rw [List.concat_eq_append, ← List.cons_append, ← List.append_assoc] at hlog
      obtain ⟨earlier, u, later, rfl, hrest⟩ :=
        h.saved before d after (List.append_inj' hlog rfl).1
      exact ⟨earlier, u, later ++ [t], by simp, hrest⟩
  · rcases List.mem_append.1 hu with hu | hu
    · exact (h.length_le u hu).trans (by simp)
    · rw [List.mem_singleton.1 hu, hreviews, List.length_map]

end Logs

/-! ## Along a course -/

theorem start_sameBest (request : Request) (now : String) (s : SessionState) :
    s.SameBest (request.start now s) := by
  unfold Request.start
  split <;> exact ⟨rfl, rfl, rfl⟩

theorem takeUp_sameBest {request : Request} {now : String} {resume : Option Resume}
    (h : request.takeUp c now s = .ok (t, resume)) : s.SameBest t := by
  rcases takeUp_cases h with ⟨q, -, rfl⟩ | ⟨-, rfl⟩ | ⟨response, rfl⟩
  · exact ⟨rfl, rfl, rfl⟩
  · exact ⟨rfl, rfl, rfl⟩
  · unfold SessionState.answer SessionState.applyHumanResponse
    split <;> exact ⟨rfl, rfl, rfl⟩

/-- A run begins with the reviews and the best plan of the state that it is taken up from. -/
theorem Request.Enters.sameBest {request : Request} {o : Option SessionState}
    (h : request.Enters c o t) : ∃ now s, s = request.session c.artifacts.slug now
      (o.map SessionState.settled) ∧ s.SameBest t := by
  obtain ⟨-, now, s, resume, -, htake, rfl⟩ := h
  exact ⟨now, _, rfl, (takeUp_sameBest htake).trans (start_sameBest request now s)⟩

/-- What a run saves first has the log of what was saved last. -/
theorem Request.Enters.tracksBest {request : Request} (h : request.Enters c saves.getLast? t)
    (hlog : Logs visits saves log) (hbest : ∀ s ∈ saves.getLast?, s.TracksBest log)
    (hdocuments : ∀ s ∈ saves.getLast?, s.HoldsPlans Plan.IsPlain ∧ s.HoldsScores) :
    t.TracksBest log := by
  obtain ⟨now, s, rfl, hsame⟩ := h.sameBest
  refine hsame.tracksBest ?_
  cases hlast : saves.getLast? with
  | none =>
    rw [List.getLast?_eq_none_iff] at hlast
    subst hlast
    rw [hlog.eq_nil]
    refine ⟨rfl, Decimal.inUnit_zero.nonneg, List.forall_mem_nil _, ⟨fun _ => rfl, fun _ => rfl⟩,
      fun hne => absurd rfl hne⟩
  | some u =>
    obtain ⟨hplans, hscores⟩ := hdocuments u hlast
    obtain ⟨-, hbestPlan, hreviews⟩ := SessionState.settled_documents hplans hscores
    obtain ⟨dir, hsession⟩ := session_eq request c.artifacts.slug now u.settled
    have hsame : u.SameBest { u.settled with workingDir := dir } := ⟨hreviews, rfl, hbestPlan⟩
    rw [Option.map_some, hsession]
    exact hsame.tracksBest (hbest u hlast)

/-! ## Moves -/

/-- The reviews of the log have scores. -/
theorem Logs.inUnit (h : Logs visits saves log) (htyped : ∀ v ∈ visits, v.IsTyped) :
    ∀ e ∈ log, InUnit e.review.score := by
  intro e he
  obtain ⟨v, hv, j, ⟨n, ctx, now, hanswer⟩, -, -, rfl⟩ := h.judged e he
  rw [finalReview_score]
  exact (htyped v hv).scores n j.plan ctx now j.review hanswer

/-- What comes of a judged plan has its review in the log. -/
theorem SessionState.Judges.tracksBest {v : Visit} {good : Plan → Prop} {j : Judged}
    {review : Review} (h : s.Judges v.controller good j t)
    (hreview : review = j.finalReview v.controller.scoreThreshold) (hv : v ∈ visits)
    (htyped : ∀ v ∈ visits, v.IsTyped) (hlog : Logs visits saves log) (hbest : s.TracksBest log)
    (hscores : s.HoldsScores) (hu : (t.absorbing v.controller j.plan review).SamePlans u) :
    ∃ log', Logs visits (saves ++ [u]) log' ∧ u.TracksBest log' := by
  have hopened : s.SameBest s.nextIteration := ⟨rfl, rfl, rfl⟩
  have hworked := hopened.trans h.works.sameBest
  have hinUnit : InUnit review.score := by
    obtain ⟨n, ctx, now, hanswer⟩ := h.reviewed
    rw [hreview, finalReview_score]
    exact (htyped v hv).scores n j.plan ctx now j.review hanswer
  have hworkedBest : InUnit t.bestScore := by
    rw [hworked.bestScore]
    exact hscores.best
  have htracks := hu.toSameBest.tracksBest ((hworked.tracksBest hbest).absorbing (c := v.controller)
    (hlog.inUnit htyped) hworkedBest hinUnit h.current)
  refine ⟨_, hlog.add ⟨v, hv, j, h.reviewed, h.checks, h.verdict, ?_⟩ htracks.reviews ?_, htracks⟩
  · rw [hreview]
  · rw [hu.currentPlan, (t.absorbing_best v.controller j.plan review).2.1, h.current]

/-- A move leaves the log as it is, or adds the review that it has taken in. -/
theorem SessionState.Move.tracksBest {v : Visit} {good : Plan → Prop}
    (h : s.Move v.controller good u) (hv : v ∈ visits) (htyped : ∀ v ∈ visits, v.IsTyped)
    (hlog : Logs visits saves log) (hbest : s.TracksBest log) (hscores : s.HoldsScores) :
    ∃ log', Logs visits (saves ++ [u]) log' ∧ u.TracksBest log' := by
  have hopened : s.SameBest s.nextIteration := ⟨rfl, rfl, rfl⟩
  have hunreviewed (hsame : s.SameBest u) :
      ∃ log', Logs visits (saves ++ [u]) log' ∧ u.TracksBest log' := by
    have htracks := hsame.tracksBest hbest
    exact ⟨log, hlog.same (by rw [htracks.reviews, List.length_map]), htracks⟩
  cases h with
  | phaseError now message hworks =>
    exact hunreviewed ((hopened.trans hworks.sameBest).trans (afterPhaseError_sameBest ..))
  | failed f hworks =>
    exact hunreviewed ((hopened.trans hworks.sameBest).trans (failed_sameBest ..))
  | asked now hjudges hreview _ =>
    refine hjudges.tracksBest hreview hv htyped hlog hbest hscores ?_
    exact (((SessionState.SamePlans.refl _).withFeedback _).noted ..).asking ..
  | gated now hjudges hreview _ _ _ =>
    refine hjudges.tracksBest hreview hv htyped hlog hbest hscores ?_
    exact ((SessionState.SamePlans.refl _).noted ..).asking ..
  | revised now hjudges hreview _ _ =>
    refine hjudges.tracksBest hreview hv htyped hlog hbest hscores ?_
    exact (((SessionState.SamePlans.refl _).noted ..).withFeedback _).updateSummary
  | approved now hjudges hreview _ _ _ =>
    refine hjudges.tracksBest hreview hv htyped hlog hbest hscores ?_
    exact ((SessionState.SamePlans.refl _).noted ..).completed.updateSummary
  | stopped _ _ => exact hunreviewed ⟨rfl, rfl, rfl⟩

/-- Whatever visits have saved, there is a log that goes with it. -/
theorem Course.exists_log (htyped : ∀ v ∈ visits, v.IsTyped)
    (h : Course (Begins fun v _ => v ∈ visits) (Continues fun v _ => v ∈ visits) saves) :
    ∃ log, Logs visits saves log ∧ ∀ s ∈ saves.getLast?, s.TracksBest log := by
  have hdocuments {saves : List SessionState} {s : SessionState}
      (h : Course (Begins fun v _ => v ∈ visits) (Continues fun v _ => v ∈ visits) saves)
      (hlast : saves.getLast? = some s) := h.documents (fun v _ => htyped v)
        (List.mem_of_getLast? hlast)
  have hlogged {saves : List SessionState} {t : SessionState}
      (h : ∃ log, Logs visits (saves ++ [t]) log ∧ t.TracksBest log) :
      ∃ log, Logs visits (saves ++ [t]) log ∧ ∀ s ∈ (saves ++ [t]).getLast?, s.TracksBest log := by
    obtain ⟨log, hlog, hbest⟩ := h
    refine ⟨log, hlog, fun s hs => ?_⟩
    rw [List.getLast?_concat] at hs
    cases hs
    exact hbest
  induction h with
  | nil => exact ⟨[], .nil visits, fun _ h => nomatch h⟩
  | @enter saves t hcourse hbegins ih =>
    obtain ⟨log, hlog, hbest⟩ := ih
    obtain ⟨v, -, henters⟩ := hbegins
    have htracks := henters.tracksBest hlog hbest fun s => hdocuments hcourse
    exact hlogged ⟨log, hlog.same (by rw [htracks.reviews, List.length_map]), htracks⟩
  | @move saves s t hcourse hlast hcontinues ih =>
    obtain ⟨log, hlog, hbest⟩ := ih
    obtain ⟨v, -, hv, -, hmove⟩ := hcontinues
    exact hlogged (hmove.tracksBest hv htyped hlog (hbest s hlast) (hdocuments hcourse hlast).2)

end PlanReview
