import PlanReview.Proofs.Plan.ReadBack
import PlanReview.Proofs.Review.ReadBack
import PlanReview.Proofs.Session.History

/-!
# The plans and reviews that a state holds

A state keeps the plan under review and the best one as documents. Each of them is the document of
a plan that was put under review (`Past.holdsPlans`), so it can always be read (`readPlan_fields`),
and the plan that is read has the same document again. The same holds of its reviews, as long as
their scores are scores (`Past.holdsScores`), and there is a best plan only with a positive score.

A file keeps these documents whole (`settled_documents`).
-/

namespace PlanReview

namespace SessionState

open Json (finite kept keptFields)
open Decimal (InUnit inUnit_zero pos_of_lt)

variable {good : Plan → Prop} {fair : Float → Prop} {s t : SessionState}

/-- The documents of plans are those of good plans. -/
structure HoldsPlans (good : Plan → Prop) (s : SessionState) : Prop where
  current : ∀ fs ∈ s.currentPlan, ∃ p, good p ∧ fs = p.fields
  best : ∀ fs ∈ s.bestPlan, ∃ p, good p ∧ fs = p.fields

/-- The plans of a state as a file holds it are good plans. -/
def IsKept (good : Plan → Prop) : Prop :=
  ∀ p, good p → ∃ q, good q ∧ keptFields p.fields = q.fields

theorem isKept_true : IsKept fun _ => True :=
  fun p _ => ⟨p.mapParams kept, trivial, p.keptFields_fields⟩

/-! ## Reading them back -/

/-- What is read from the document of a plan. -/
theorem readPlan_fields (now : String) (p : Plan) :
    readPlan now (some p.fields) = .ok (some (p.mapParams finite)) := by
  have hread : Plan.ofJson now (.obj p.fields) = .ok (p.mapParams finite) := by
    rw [Plan.ofJson, show Json.obj p.fields = p.toJson from rfl, Plan.decode_toJson]
    rfl
  rw [readPlan, hread]
  rfl

/-- The plan under review is the one whose document the state holds. -/
theorem HoldsPlans.fields_of_plan (h : s.HoldsPlans good) {now : String} {p : Plan}
    (hplan : s.plan now = .ok (some p)) : s.currentPlan = some p.fields := by
  unfold plan at hplan
  cases hcurrent : s.currentPlan with
  | none =>
    rw [hcurrent] at hplan
    cases hplan
  | some fs =>
    obtain ⟨q, -, rfl⟩ := h.current fs hcurrent
    rw [hcurrent, readPlan_fields] at hplan
    cases hplan
    rw [Plan.fields_mapParams_finite]

/-- The two plans of a state can be read at any time, with the same documents. -/
theorem HoldsPlans.exists_plans (h : s.HoldsPlans good) : ∃ plan best,
    (∀ now, s.plan now = .ok plan) ∧ (∀ now, s.best now = .ok best) ∧
      plan.map Plan.fields = s.currentPlan ∧ best.map Plan.fields = s.bestPlan := by
  have hread {o : Option Json.Fields} (ho : ∀ fs ∈ o, ∃ p, good p ∧ fs = p.fields) :
      ∃ plan, (∀ now, readPlan now o = .ok plan) ∧ plan.map Plan.fields = o := by
    cases o with
    | none => exact ⟨none, fun _ => rfl, rfl⟩
    | some fs =>
      obtain ⟨p, -, rfl⟩ := ho fs rfl
      refine ⟨some (p.mapParams finite), fun now => readPlan_fields now p, ?_⟩
      rw [Option.map_some, Plan.fields_mapParams_finite]
  obtain ⟨plan, hplan, hcurrent⟩ := hread h.current
  obtain ⟨best, hbest, hbestPlan⟩ := hread h.best
  exact ⟨plan, best, hplan, hbest, hcurrent, hbestPlan⟩

/-! ## In the history of a session -/

/-- The plans of a state are those of another one. -/
theorem HoldsPlans.of_eq (h : s.HoldsPlans good) (hcurrent : t.currentPlan = s.currentPlan)
    (hbest : t.bestPlan = s.bestPlan) : t.HoldsPlans good :=
  ⟨hcurrent ▸ h.current, hbest ▸ h.best⟩

theorem new_holdsPlans (now sessionId task slug : String) (dir : Option String) :
    (new now sessionId task slug dir).HoldsPlans good := by
  refine ⟨?_, ?_⟩
  · intro fs hfs
    cases hfs
  · intro fs hfs
    cases hfs

theorem HoldsPlans.setCurrentPlan (h : s.HoldsPlans good) {p : Plan} (hp : good p) :
    (s.setCurrentPlan p).HoldsPlans good := by
  refine ⟨fun fs hfs => ⟨p, hp, ?_⟩, h.best⟩
  exact (Option.some_inj.1 hfs).symm

theorem Works.holdsPlans (hworks : s.Works good t) (h : s.HoldsPlans good) :
    t.HoldsPlans good := by
  induction hworks with
  | refl => exact h
  | planned _ _ ih => exact ih.of_eq rfl rfl
  | reviewed _ _ ih => exact ih.of_eq rfl rfl
  | plan _ hp ih => exact ih.setCurrentPlan hp

theorem HoldsPlans.recordReview (h : s.HoldsPlans good) (r : Review) :
    (s.recordReview r).HoldsPlans good := by
  unfold SessionState.recordReview
  dsimp only
  split
  · exact ⟨h.current, h.current⟩
  · exact h.of_eq rfl rfl

theorem HoldsPlans.absorb (h : s.HoldsPlans good) (r : Review)
    (conditions : List Guardrail.Condition) : (s.absorb r conditions).HoldsPlans good := by
  have hcleared : ({ s with consecutivePhaseErrors := 0, lastError := none } :
      SessionState).HoldsPlans good := h.of_eq rfl rfl
  have hrecorded := hcleared.recordReview r
  rw [SessionState.absorb]
  generalize SessionState.recordReview _ r = u at hrecorded ⊢
  exact hrecorded.of_eq rfl rfl

theorem HoldsPlans.settled (hgood : IsKept good) (h : s.HoldsPlans good) :
    s.settled.HoldsPlans good := by
  have hmap {o : Option Json.Fields} (ho : ∀ fs ∈ o, ∃ p, good p ∧ fs = p.fields) :
      ∀ fs ∈ o.map keptFields, ∃ p, good p ∧ fs = p.fields := by
    intro fs hfs
    obtain ⟨gs, hgs, rfl⟩ := Option.map_eq_some_iff.1 hfs
    obtain ⟨p, hp, rfl⟩ := ho gs hgs
    exact hgood p hp
  exact ⟨hmap h.current, hmap h.best⟩

theorem stable_holdsPlans (hgood : IsKept good) : Stable good fair (HoldsPlans good) where
  new := new_holdsPlans
  settled _ h _ := h.settled hgood
  move _ _ h := h.of_eq rfl rfl
  answer s response approved h := by
    refine h.of_eq ?_ ?_ <;> unfold SessionState.answer applyHumanResponse <;> split <;> rfl
  setTo _ _ h hp := (HoldsPlans.setCurrentPlan (h.of_eq rfl rfl) hp).of_eq rfl rfl
  start _ request _ h := by refine h.of_eq ?_ ?_ <;> unfold Request.start <;> split <;> rfl
  phaseError _ _ _ _ h hworks := (hworks.holdsPlans (h.of_eq rfl rfl)).of_eq rfl rfl
  fail _ _ _ h hworks := (hworks.holdsPlans (h.of_eq rfl rfl)).of_eq rfl rfl
  review s t _ _ r conditions _ _ h hworks _ _ := by
    have hworked : t.HoldsPlans good := hworks.holdsPlans (h.of_eq rfl rfl)
    have habsorbed := hworked.absorb r conditions
    generalize t.absorb r conditions = u at habsorbed ⊢
    exact habsorbed.of_eq rfl rfl
  ask _ _ _ _ _ h := h.of_eq rfl rfl
  revise _ _ h := h.of_eq rfl rfl
  complete _ h := h.of_eq rfl rfl
  stop _ _ _ h := h.of_eq rfl rfl
  summarize _ h := h.of_eq rfl rfl

/-! ## Scores -/

/-- The reviews are documents of reviews with a score, and the best score is one. -/
structure HoldsScores (s : SessionState) : Prop where
  reviews : ∀ fs ∈ s.reviews, ∃ r : Review, InUnit r.score ∧ fs = r.fields
  best : InUnit s.bestScore
  positive : s.bestPlan ≠ none → 0.0 < s.bestScore

/-- The reviews and the best of a state are those of another one. -/
theorem HoldsScores.of_eq (h : s.HoldsScores) (hreviews : t.reviews = s.reviews)
    (hscore : t.bestScore = s.bestScore) (hbest : t.bestPlan = s.bestPlan) : t.HoldsScores :=
  ⟨hreviews ▸ h.reviews, hscore ▸ h.best, hscore ▸ hbest ▸ h.positive⟩

theorem new_holdsScores (now sessionId task slug : String) (dir : Option String) :
    (new now sessionId task slug dir).HoldsScores where
  reviews _ hfs := absurd hfs List.not_mem_nil
  best := inUnit_zero
  positive h := absurd rfl h

theorem HoldsScores.recordReview (h : s.HoldsScores) {r : Review} (hr : InUnit r.score) :
    (s.recordReview r).HoldsScores := by
  have hreviews : ∀ fs ∈ s.reviews ++ [r.fields], ∃ r : Review, InUnit r.score ∧ fs = r.fields := by
    intro fs hfs
    rcases List.mem_append.1 hfs with hfs | hfs
    · exact h.reviews fs hfs
    · exact ⟨r, hr, List.mem_singleton.1 hfs⟩
  unfold SessionState.recordReview
  dsimp only
  split
  · rename_i himproved
    exact ⟨hreviews, hr, fun _ => pos_of_lt h.best.nonneg (of_decide_eq_true himproved)⟩
  · exact ⟨hreviews, h.best, h.positive⟩

theorem HoldsScores.absorb (h : s.HoldsScores) {r : Review} (hr : InUnit r.score)
    (conditions : List Guardrail.Condition) : (s.absorb r conditions).HoldsScores := by
  have hcleared : ({ s with consecutivePhaseErrors := 0, lastError := none } :
      SessionState).HoldsScores := h.of_eq rfl rfl rfl
  have hrecorded := hcleared.recordReview hr
  rw [SessionState.absorb]
  generalize SessionState.recordReview _ r = u at hrecorded ⊢
  exact hrecorded.of_eq rfl rfl rfl

theorem HoldsScores.kept_reviews (h : s.HoldsScores) : s.reviews.map keptFields = s.reviews := by
  refine (List.map_congr_left fun fs hfs => ?_).trans (List.map_id _)
  obtain ⟨r, hr, rfl⟩ := h.reviews fs hfs
  exact Review.keptFields_fields hr

theorem Works.holdsScores (hworks : s.Works good t) (h : s.HoldsScores) : t.HoldsScores := by
  induction hworks with
  | refl => exact h
  | planned _ _ ih => exact ih.of_eq rfl rfl rfl
  | reviewed _ _ ih => exact ih.of_eq rfl rfl rfl
  | plan _ _ ih => exact ih.of_eq rfl rfl rfl

theorem HoldsScores.settled (h : s.HoldsScores) : s.settled.HoldsScores := by
  refine ⟨?_, h.best, fun hbest => h.positive fun hnone => hbest ?_⟩
  · change ∀ fs ∈ s.reviews.map keptFields, _
    rw [h.kept_reviews]
    exact h.reviews
  · change s.bestPlan.map keptFields = none
    rw [hnone, Option.map_none]

theorem stable_holdsScores : Stable good InUnit HoldsScores where
  new := new_holdsScores
  settled _ h _ := h.settled
  move _ _ h := h.of_eq rfl rfl rfl
  answer s response approved h := by
    refine h.of_eq ?_ ?_ ?_ <;> unfold SessionState.answer applyHumanResponse <;> split <;> rfl
  setTo _ _ h _ := h.of_eq rfl rfl rfl
  start _ request _ h := by
    refine h.of_eq ?_ ?_ ?_ <;> unfold Request.start <;> split <;> rfl
  phaseError _ _ _ _ h hworks := (hworks.holdsScores (h.of_eq rfl rfl rfl)).of_eq rfl rfl rfl
  fail _ _ _ h hworks := (hworks.holdsScores (h.of_eq rfl rfl rfl)).of_eq rfl rfl rfl
  review s t _ _ r conditions _ _ h hworks hr _ := by
    have hworked : t.HoldsScores := hworks.holdsScores (h.of_eq rfl rfl rfl)
    have habsorbed := hworked.absorb hr conditions
    generalize t.absorb r conditions = u at habsorbed ⊢
    exact habsorbed.of_eq rfl rfl rfl
  ask _ _ _ _ _ h := h.of_eq rfl rfl rfl
  revise _ _ h := h.of_eq rfl rfl rfl
  complete _ h := h.of_eq rfl rfl rfl
  stop _ _ _ h := h.of_eq rfl rfl rfl
  summarize _ h := h.of_eq rfl rfl rfl

/-- The last review is the one whose document the state holds last. -/
theorem HoldsScores.lastReview_eq (h : s.HoldsScores) {r : Review}
    (hlast : s.reviews.getLast? = some r.fields) : s.lastReview = .ok (some r) := by
  obtain ⟨r', hr', hfields⟩ := h.reviews _ (List.mem_of_getLast? hlast)
  rw [← Review.score_of_fields hfields] at hr'
  have hread : readReview r.fields = .ok r := by
    unfold readReview
    rw [show Json.obj r.fields = r.toJson from rfl, Review.decode_toJson hr']
    rfl
  rw [SessionState.lastReview, hlast]
  dsimp only
  rw [hread]
  rfl

/-- The last review can be read. -/
theorem HoldsScores.exists_lastReview (h : s.HoldsScores) :
    ∃ review, s.lastReview = .ok review := by
  cases hlast : s.reviews.getLast? with
  | none => exact ⟨none, by rw [SessionState.lastReview, hlast]⟩
  | some fs =>
    obtain ⟨r, -, rfl⟩ := h.reviews fs (List.mem_of_getLast? hlast)
    exact ⟨some r, h.lastReview_eq hlast⟩

/-! ## Documents in a file -/

/-- A plan in whose parameters no key is repeated is good as a file holds it. -/
theorem isKept_isPlain : IsKept Plan.IsPlain :=
  fun p hp => ⟨p, hp, hp.keptFields_eq⟩

/-- A file keeps the documents of plans and reviews whole. -/
theorem settled_documents (hplans : s.HoldsPlans Plan.IsPlain) (hscores : s.HoldsScores) :
    s.settled.currentPlan = s.currentPlan ∧ s.settled.bestPlan = s.bestPlan ∧
      s.settled.reviews = s.reviews := by
  have hmap {o : Option Json.Fields} (ho : ∀ fs ∈ o, ∃ p : Plan, p.IsPlain ∧ fs = p.fields) :
      o.map keptFields = o := by
    cases o with
    | none => rfl
    | some fs =>
      obtain ⟨p, hp, rfl⟩ := ho fs rfl
      rw [Option.map_some, hp.keptFields_eq]
  exact ⟨hmap hplans.current, hmap hplans.best, hscores.kept_reviews⟩

end SessionState

/-- In every state of a run the plans are documents of good plans. -/
theorem Past.holdsPlans {good : Plan → Prop} {fair : Float → Prop} {saves : List SessionState}
    {s : SessionState} (hgood : SessionState.IsKept good) (h : Past good fair saves s) :
    s.HoldsPlans good :=
  (h.of_stable (SessionState.stable_holdsPlans hgood)).1

/-- In every state of a run the reviews are documents of reviews with a score. -/
theorem Past.holdsScores {good : Plan → Prop} {saves : List SessionState} {s : SessionState}
    (h : Past good Decimal.InUnit saves s) : s.HoldsScores :=
  (h.of_stable SessionState.stable_holdsScores).1

end PlanReview
