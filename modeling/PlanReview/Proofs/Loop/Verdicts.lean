import PlanReview.Proofs.Loop.Approval

/-!
# The reviewer's own verdict

A reviewer may say whether a plan passes, and which hard checks it meets. A run works both out
itself, so what the reviewer says of them counts for nothing : sessions that go on side by side,
and are told the same by their reviewers apart from that (`SideBySide`), have the same reports,
visit after visit (`reports_eq_of_sideBySide`). A report holds the answer of a run, the calls that
it made with their contexts, and all changes to the files.

The proof takes two parts of runs that begin at the same point (`Alike`). They end at the same
point, with answers that look the same, if the reviewers agree on the calls that the first one has
made by then. Most parts do not call the reviewer (`Silent`). The call itself tells the two runs
apart, and the review as it counts does not (`Judged.finalReview_unverified`).
-/

namespace PlanReview

open RunM

/-! ## What a reviewer says -/

/-- A review without what a run works out itself. -/
def Review.unverified (r : Review) : Review :=
  { r with passed := false, hardChecks := [] }

/-- Two calls of a reviewer that differ at most in the verdict of the review and in the results of
its hard checks. -/
structure Call.Agrees (a b : Call Review) : Prop where
  delay : a.delay = b.delay
  usage : a.usage = b.usage
  answer : ∀ now, (a.answer now).map Review.unverified = (b.answer now).map Review.unverified

/-- Two reviewers that agree on these calls, the first one first. -/
def Reviewer.AgreeOn (R R' : Reviewer) (calls : List (Plan × ReviewContext)) : Prop :=
  ∀ n p ctx, calls[n]? = some (p, ctx) → (R n p ctx).Agrees (R' n p ctx)

theorem Reviewer.AgreeOn.of_prefix {R R' : Reviewer} {calls calls' : List (Plan × ReviewContext)}
    (h : R.AgreeOn R' calls') (hbefore : calls <+: calls') : R.AgreeOn R' calls := by
  obtain ⟨rest, rfl⟩ := hbefore
  intro n p ctx hn
  refine h n p ctx ?_
  rw [List.getElem?_append_left (List.getElem?_eq_some_iff.1 hn).1, hn]

/-- A controller with another reviewer. -/
def Controller.reviewedBy (c : Controller) (R : Reviewer) : Controller :=
  { c with reviewer := R }

/-- A reviewed plan without what the reviewer said of its verdict and its hard checks. -/
def Judged.unverified (j : Judged) : Judged :=
  { j with review := j.review.unverified }

/-- The review as it counts does not depend on what the reviewer said of them. -/
theorem Judged.finalReview_unverified (j : Judged) (threshold : Float) :
    j.unverified.finalReview threshold = j.finalReview threshold := rfl

/-- So it does not matter for what a reviewed plan leads to. -/
theorem settle_unverified (c : Controller) (tokensBefore : Int) (j : Judged) :
    settle c tokensBefore j.unverified = settle c tokensBefore j := by
  have hreview := j.finalReview_unverified c.scoreThreshold
  unfold settle
  rw [hreview]
  rfl

/-! ## Parts of a run that do not call the reviewer -/

variable {α β γ δ : Type} {R R' : Reviewer} {c : Controller} {view : α → γ} {m m' : RunM α}

/-- A part of a run that does not call the reviewer. -/
def Silent (m : RunM α) : Prop :=
  ∀ r, (m r).2.reviewed = r.reviewed

theorem Silent.bind {f : α → RunM β} (h : Silent m) (hf : ∀ a, Silent (f a)) :
    Silent (m >>= f) := by
  intro r
  have hm := h r
  rw [bind_apply]
  rcases hr : m r with ⟨_ | a, t⟩
  · rwa [hr] at hm
  · rw [hr] at hm
    exact (hf a t).trans hm

theorem silent_pure (a : α) : Silent (pure a) := fun _ => rfl

theorem silent_throw (f : Failure) : Silent (throw f : RunM α) := fun _ => rfl

theorem silent_get : Silent (get : RunM Run) := fun _ => rfl

theorem silent_update (f : SessionState → SessionState) : Silent (update f) := fun _ => rfl

theorem silent_count (event : String) : Silent (count event) := fun _ => rfl

theorem silent_onWorkspace (a : Act α) : Silent (onWorkspace a) := fun _ => rfl

theorem silent_ofExcept (result : Except Failure α) : Silent (ofExcept result : RunM α) := by
  intro r
  cases result <;> rfl

theorem Silent.attempt (h : Silent m) : Silent (attempt m) := h

theorem save_silent (c : Controller) : Silent (save c) :=
  silent_get.bind fun _ => silent_onWorkspace _

theorem callPlanner_silent (c : Controller) (ctx : PlanningContext) :
    Silent (callPlanner c ctx) := by
  unfold callPlanner
  refine (silent_count _).bind fun _ r => ?_
  exact silent_ofExcept _ _

theorem draft_silent (c : Controller) (resume : Option Resume) : Silent (draft c resume) := by
  unfold draft
  refine silent_get.bind fun _ => (silent_ofExcept _).bind fun prior => ?_
  split
  · exact silent_pure _
  · refine (callPlanner_silent c _).bind fun p => silent_get.bind fun _ => ?_
    exact (silent_update _).bind fun _ => silent_pure _

theorem note_silent (verdict : Viability.Verdict) (review : Review) (outcome : IterationOutcome)
    (tokensBefore : Int) : Silent (note verdict review outcome tokensBefore) :=
  silent_get.bind fun _ => silent_update _

theorem pause_silent (c : Controller) (plan : Plan) (p : Pause) : Silent (pause c plan p) := by
  unfold pause
  refine silent_get.bind fun _ => (silent_update _).bind fun _ => (save_silent c).bind fun _ => ?_
  exact (silent_onWorkspace _).bind fun _ => silent_throw _

theorem decide_silent (c : Controller) (tokensBefore : Int) (j : Judged) (review : Review) :
    Silent (decide c tokensBefore j review) := by
  unfold PlanReview.decide
  split
  · exact (silent_update _).bind fun _ => (note_silent _ _ _ _).bind fun _ => pause_silent _ _ _
  · split
    · refine silent_get.bind fun _ => (silent_ofExcept _).bind fun condition => ?_
      cases condition with
      | some condition => exact (note_silent _ _ _ _).bind fun _ => pause_silent _ _ _
      | none =>
        refine (note_silent _ _ _ _).bind fun _ => (silent_update _).bind fun _ => ?_
        exact silent_pure _
    · refine (note_silent _ _ _ _).bind fun _ => (silent_update _).bind fun _ => ?_
      exact (save_silent c).bind fun _ => silent_pure _

theorem settle_silent (c : Controller) (tokensBefore : Int) (j : Judged) :
    Silent (settle c tokensBefore j) := by
  have hlast (review : Review) :
      Silent (modify fun run : Run => { run with lastReview := some review }) := fun _ => rfl
  unfold settle
  refine silent_get.bind fun _ => (silent_onWorkspace _).bind fun _ => (hlast _).bind fun _ => ?_
  exact (silent_update _).bind fun _ => decide_silent _ _ _ _

theorem markFailed_silent (c : Controller) (f : Failure) : Silent (markFailed c f) := by
  unfold markFailed
  refine (silent_update _).bind fun _ => (save_silent c).attempt.bind fun result => ?_
  split
  · exact silent_pure _
  · exact silent_pure _
  · exact silent_throw _

theorem stopAtLimit_silent (c : Controller) : Silent (stopAtLimit c) := by
  unfold stopAtLimit
  refine silent_get.bind fun _ => ?_
  split
  · exact silent_pure _
  · refine (silent_ofExcept _).bind fun _ => (silent_update _).bind fun _ => silent_pure _

theorem conclude_silent (c : Controller) (plan : Option Plan) : Silent (conclude c plan) := by
  unfold conclude
  refine (silent_update _).bind fun _ => (save_silent c).bind fun _ => silent_get.bind fun _ => ?_
  split
  · exact silent_pure _
  · exact (silent_ofExcept _).bind fun _ => silent_pure _

theorem finish_silent (c : Controller) : Silent (finish c) := by
  unfold finish
  refine silent_get.bind fun _ => (silent_ofExcept _).bind fun plan => ?_
  cases plan with
  | none => exact conclude_silent c none
  | some p => exact (silent_onWorkspace _).bind fun _ => conclude_silent c (some p)

theorem recordMetrics_silent (c : Controller) : Silent (recordMetrics c) :=
  silent_get.bind fun _ => silent_onWorkspace _

/-! ## Two runs side by side -/

/-- Two parts of runs, the second one with another reviewer, that go the same way as long as the
reviewers agree on the calls of the first one. Their answers are compared through `view`. -/
structure Alike (R R' : Reviewer) (view : α → γ) (m m' : RunM α) : Prop where
  grows : ∀ r, r.reviewed <+: (m r).2.reviewed
  same : ∀ r, R.AgreeOn R' (m r).2.reviewed →
    ((m' r).1.map view, (m' r).2) = ((m r).1.map view, (m r).2)

namespace Alike

theorem eq (h : Alike R R' id m m') (r : Run) (hagree : R.AgreeOn R' (m r).2.reviewed) :
    m' r = m r := by
  have hmap (x : Except Failure α) : x.map id = x := by cases x <;> rfl
  have hsame := h.same r hagree
  rw [hmap, hmap] at hsame
  exact hsame

theorem answer {a b : α} (h : view a = view b) : Alike R R' view (pure a) (pure b) :=
  ⟨fun _ => List.prefix_rfl, fun r _ => congrArg (fun x => (Except.ok x, r)) h.symm⟩

theorem of_silent (view : α → γ) (h : Silent m) : Alike R R' view m m :=
  ⟨fun r => (h r).symm ▸ List.prefix_rfl, fun _ _ => rfl⟩

theorem bind {view' : β → δ} {f f' : α → RunM β} (h : Alike R R' view m m')
    (hf : ∀ a b, view a = view b → Alike R R' view' (f a) (f' b)) :
    Alike R R' view' (m >>= f) (m' >>= f') := by
  refine ⟨fun r => ?_, fun r hagree => ?_⟩
  · have hgrows := h.grows r
    rw [bind_apply]
    rcases hm : m r with ⟨_ | a, t⟩
    · simpa only [hm] using hgrows
    · rw [hm] at hgrows
      exact hgrows.trans ((hf a a rfl).grows t)
  · have hsame := h.same r
    rw [bind_apply] at hagree ⊢
    rw [bind_apply]
    rcases hm : m r with ⟨e | a, t⟩
    · rw [hm] at hsame hagree
      rcases hm' : m' r with ⟨e' | a', t'⟩
      · rw [hm'] at hsame
        obtain ⟨herror, ht⟩ := Prod.mk.inj (hsame hagree)
        exact Prod.ext (congrArg Except.error (Except.error.inj herror)) ht
      · rw [hm'] at hsame
        exact nomatch (Prod.mk.inj (hsame hagree)).1
    · rw [hm] at hsame hagree
      -- The calls of the first part are among those of the whole.
      have hbefore := hagree.of_prefix ((hf a a rfl).grows t)
      rcases hm' : m' r with ⟨e' | a', t'⟩
      · rw [hm'] at hsame
        exact nomatch (Prod.mk.inj (hsame hbefore)).1
      · rw [hm'] at hsame
        obtain ⟨hview, ht⟩ := Prod.mk.inj (hsame hbefore)
        dsimp only at ht ⊢
        rw [ht]
        exact (hf a a' (Except.ok.inj hview).symm).same t hagree

/-- The same operation, and then parts that are alike. -/
theorem after {view' : β → δ} {f f' : α → RunM β} (h : Silent m)
    (hf : ∀ a, Alike R R' view' (f a) (f' a)) : Alike R R' view' (m >>= f) (m >>= f') := by
  refine bind (of_silent id h) fun a b hab => ?_
  obtain rfl : a = b := hab
  exact hf a

theorem attempt (h : Alike R R' view m m') :
    Alike R R' (Except.map view) (RunM.attempt m) (RunM.attempt m') :=
  ⟨h.grows, fun r hagree => by
    obtain ⟨hresult, hrun⟩ := Prod.mk.inj (h.same r hagree)
    exact Prod.ext (congrArg Except.ok hresult) hrun⟩

end Alike

theorem callReviewer_reviewed (c : Controller) (p : Plan) (ctx : ReviewContext) (r : Run) :
    ((callReviewer c p ctx) r).2.reviewed = r.reviewed ++ [(p, ctx)] :=
  silent_ofExcept _ _

/-- The run after the reviewer is called, and how it is answered. -/
theorem callReviewer_apply (c : Controller) (p : Plan) (ctx : ReviewContext) (r : Run) :
    callReviewer c p ctx r =
      let call := c.reviewer r.reviewed.length p ctx
      let r' := ({ r.count "reviewer_calls" with
        reviewed := r.reviewed ++ [(p, ctx)] }).afterCall "reviewer"
          SessionState.addReviewerUsage call
      (call.answer r'.now, r') := by
  have hofExcept (result : Except Failure Review) (r : Run) :
      (ofExcept result : RunM Review) r = (result, r) := by cases result <;> rfl
  exact hofExcept _ _

/-- Only the review tells two calls apart, and only in what a run works out itself. -/
theorem callReviewer_alike (c : Controller) (R' : Reviewer) (p : Plan) (ctx : ReviewContext) :
    Alike c.reviewer R' Review.unverified (callReviewer c p ctx)
      (callReviewer (c.reviewedBy R') p ctx) := by
  refine ⟨fun r => ⟨[(p, ctx)], (callReviewer_reviewed c p ctx r).symm⟩, fun r hagree => ?_⟩
  rw [callReviewer_reviewed] at hagree
  obtain ⟨hdelay, husage, hanswer⟩ := hagree r.reviewed.length p ctx List.getElem?_concat_length
  have hafter (s : Run) :
      s.afterCall "reviewer" SessionState.addReviewerUsage (R' r.reviewed.length p ctx) =
        s.afterCall "reviewer" SessionState.addReviewerUsage
          (c.reviewer r.reviewed.length p ctx) := by
    unfold Run.afterCall
    rw [hdelay, husage]
  rw [callReviewer_apply, callReviewer_apply]
  dsimp only [Controller.reviewedBy]
  rw [hafter, hanswer]

theorem judge_alike (c : Controller) (R' : Reviewer) (resume : Option Resume) :
    Alike c.reviewer R' Judged.unverified (judge c resume)
      (judge (c.reviewedBy R') resume) := by
  refine .after (draft_silent c resume) fun p => .after silent_get fun r => ?_
  refine .after (silent_onWorkspace _) fun _ => ?_
  refine (callReviewer_alike c R' _ _).bind fun review review' hreview => .answer ?_
  exact congrArg (Judged.mk p (Checklist.run p) (Viability.checkPlan c.viability p)) hreview

theorem iteration_alike (c : Controller) (R' : Reviewer) (resume : Option Resume) :
    Alike c.reviewer R' id (iteration c resume) (iteration (c.reviewedBy R') resume) := by
  unfold iteration
  refine .after (silent_update _) fun _ => .after silent_get fun r => ?_
  refine .after (silent_count _) fun _ => ?_
  refine (judge_alike c R' resume).attempt.bind fun a b hab => ?_
  rcases a with f | j
  · rcases b with f' | j'
    · obtain rfl : f = f' := Except.error.inj hab
      cases f with
      | phase message =>
        refine .of_silent id ?_
        refine (silent_count _).bind fun _ => silent_get.bind fun _ => ?_
        exact (silent_update _).bind fun _ => (save_silent c).bind fun _ => silent_pure _
      | _ => exact .of_silent id ((markFailed_silent c _).bind fun _ => silent_throw _)
    · exact nomatch hab
  · rcases b with f' | j'
    · exact nomatch hab
    · have hsettle : settle c r.state.totalTokens j' = settle c r.state.totalTokens j := by
        rw [← settle_unverified, ← settle_unverified c _ j]
        exact congrArg (settle c _) (Except.ok.inj hab).symm
      change Alike c.reviewer R' id (settle c r.state.totalTokens j)
        (settle c r.state.totalTokens j')
      rw [hsettle]
      exact .of_silent id (settle_silent c _ j)

theorem rounds_alike (c : Controller) (R' : Reviewer) (resume : Option Resume) (left : Nat) :
    Alike c.reviewer R' id (rounds c resume left) (rounds (c.reviewedBy R') resume left) := by
  have hstop : stopAtLimit (c.reviewedBy R') = stopAtLimit c := rfl
  induction left with
  | zero =>
    rw [rounds, rounds, hstop]
    exact .of_silent id ((stopAtLimit_silent c).bind fun _ => silent_pure _)
  | succ left ih =>
    rw [rounds, rounds, hstop]
    refine .after (stopAtLimit_silent c) fun stopped => ?_
    cases stopped with
    | true =>
      rw [if_pos rfl, if_pos rfl]
      exact .of_silent id (silent_pure _)
    | false =>
      rw [if_neg Bool.false_ne_true, if_neg Bool.false_ne_true]
      refine (iteration_alike c R' resume).bind fun next next' hnext => ?_
      obtain rfl : next = next' := hnext
      cases next with
      | finished => exact .of_silent id (silent_pure _)
      | again => exact ih

theorem drive_alike (c : Controller) (R' : Reviewer) (resume : Option Resume) :
    Alike c.reviewer R' id (drive c resume) (drive (c.reviewedBy R') resume) := by
  have hrun : Alike c.reviewer R' id
      (do rounds c resume (c.iterationsLeft (← get).state); finish c)
      (do rounds (c.reviewedBy R') resume (c.iterationsLeft (← get).state); finish c) := by
    refine .after silent_get fun r => ?_
    exact (rounds_alike c R' resume _).bind fun _ _ _ => .of_silent id (finish_silent c)
  have hfinish : finish (c.reviewedBy R') = finish c := rfl
  unfold drive
  rw [hfinish]
  refine hrun.attempt.bind fun result result' hresult => ?_
  obtain rfl : result = result' := by
    cases result <;> cases result' <;> cases hresult <;> rfl
  exact .of_silent id ((recordMetrics_silent c).bind fun _ => silent_ofExcept _)

/-- A run does not depend on what its reviewer says of the verdict and of the hard checks. -/
theorem run_reviewedBy (c : Controller) (request : Request) (w : Workspace) (R' : Reviewer)
    (hagree : c.reviewer.AgreeOn R' (c.run request w).reviewed) :
    (c.reviewedBy R').run request w = c.run request w := by
  have henter (w : Workspace) : enter (c.reviewedBy R') request w = enter c request w := rfl
  have hentry (w : Workspace) (entry : Entry)
      (h : c.reviewer.AgreeOn R' (entry.run c w).reviewed) :
      entry.run (c.reviewedBy R') w = entry.run c w := by
    cases entry with
    | idle result => rfl
    | running s resume =>
      unfold Entry.run at h ⊢
      dsimp only at h ⊢
      rw [(drive_alike c R' resume).eq _ h]
  have hlock : Lock.acquire (c.reviewedBy R').registry (c.reviewedBy R').dir w =
    Lock.acquire c.registry c.dir w := rfl
  unfold Controller.run at hagree ⊢
  rw [hlock]
  rcases hacquire : Lock.acquire c.registry c.dir w with ⟨f | _, w₁⟩
  · rfl
  · rw [hacquire] at hagree
    dsimp only at hagree ⊢
    rw [henter]
    rcases hentered : enter c request w₁ with ⟨f | entry, w₂⟩
    · rfl
    · rw [hentered] at hagree
      exact congrArg (Report.released c) (hentry w₂ entry hagree)

/-! ## Sessions side by side -/

/-- The reports of some visits, one after the other. -/
def reports : List Visit → Workspace → List Report
  | [], _ => []
  | v :: visits, w => v.report w :: reports visits (v.report w).workspace

/-- The visits of two sessions, one after the other, that are the same except for their reviewers.
On the calls that are made the reviewers agree, apart from what a run works out itself. -/
inductive SideBySide : Workspace → List Visit → List Visit → Prop
  | nil (w : Workspace) : SideBySide w [] []
  | cons {w : Workspace} {v : Visit} {visits visits' : List Visit} (R' : Reviewer)
      (hagree : v.controller.reviewer.AgreeOn R' (v.report w).reviewed)
      (hrest : SideBySide (v.report w).workspace visits visits') :
      SideBySide w (v :: visits) ({ v with controller := v.controller.reviewedBy R' } :: visits')

/-- What reviewers say of verdicts and of hard checks makes no difference to any run : neither to
its answer, nor to the contexts of its calls, nor to what it writes. -/
theorem reports_eq_of_sideBySide {w : Workspace} {visits visits' : List Visit}
    (h : SideBySide w visits visits') : reports visits' w = reports visits w := by
  induction h with
  | nil => rfl
  | @cons w v visits visits' R' hagree _ ih =>
    have hreport : ({ v with controller := v.controller.reviewedBy R' } : Visit).report w =
        v.report w :=
      run_reviewedBy v.controller v.request { w with now := v.now, locks := v.locks } R' hagree
    rw [reports, reports, hreport, ih]

/-- A reviewer that says the contrary of another one's verdict, and names a check that failed. -/
def Reviewer.contradicting (R : Reviewer) : Reviewer := fun n p ctx =>
  { R n p ctx with
    answer := fun now => ((R n p ctx).answer now).map fun r =>
      { r with passed := !r.passed, hardChecks := [⟨"honesty", false, "No.", .error⟩] } }

theorem reports_eq_of_approving :
    SideBySide (.untouched bareTree ⟨0⟩) [approving]
      [{ approving with
        controller :=
          approving.controller.reviewedBy approving.controller.reviewer.contradicting }] ∧
    reports [{ approving with
        controller := approving.controller.reviewedBy approving.controller.reviewer.contradicting }]
      (.untouched bareTree ⟨0⟩) = reports [approving] (.untouched bareTree ⟨0⟩) := by
  have hside : SideBySide (.untouched bareTree ⟨0⟩) [approving]
      [{ approving with
        controller :=
          approving.controller.reviewedBy approving.controller.reviewer.contradicting }] :=
    .cons _ (fun _ _ _ _ => ⟨rfl, rfl, fun _ => rfl⟩) (.nil _)
  exact ⟨hside, reports_eq_of_sideBySide hside⟩

end PlanReview
