import PlanReview.Proofs.Loop.Records
import PlanReview.Proofs.Session.Overview

/-!
# What is seen of a session after a run

After a run its caller and anyone who looks at the stored session are told the same, but for one
thing. If the run answers, the overview shows the state that the answer speaks of; if it raises a
question, the session waits on that question; and if planning or reviewing has failed, the session
is seen to have stopped for that reason (`overview_of_visited`). What is not told the same is a time
that is no finite number : a file cannot hold it, so the hard stop is shown without it
(`overview_of_hurried`).

This rests on two things that hold of every state that is saved, as long as a session is only set to
a plan from outside before it has been stored : a question is pending exactly while the session is
paused (`SessionState.Awaits`), and the limit in a hard stop is a number that a file can hold
(`Status.HoldsLimit`).
-/

namespace PlanReview

open RunM Workspace

variable {c : Controller} {good : Plan → Prop}
  {enters : Option SessionState → SessionState → Prop}
  {moves : SessionState → SessionState → Prop} {start : FileTree} {saves : List SessionState}
  {s t : SessionState} {r r' : Run} {w w' : Workspace} {resume : Option Resume} {f : Failure}

/-! ## Pending questions -/

/-- A question is pending exactly while the session is paused, and it is not empty. -/
structure SessionState.Awaits (s : SessionState) : Prop where
  iff_paused : s.pendingHumanInput ≠ none ↔ s.status.kind = .paused
  worded : ∀ h ∈ s.pendingHumanInput, h.question ≠ ""

namespace SessionState

theorem awaits_of_none (hpending : s.pendingHumanInput = none) (hkind : s.status.kind ≠ .paused) :
    s.Awaits := by
  refine ⟨⟨fun h => absurd hpending h, fun h => absurd h hkind⟩, fun h hh => ?_⟩
  rw [hpending] at hh
  cases hh

theorem Awaits.pending_eq_none (h : s.Awaits) (hkind : s.status.kind ≠ .paused) :
    s.pendingHumanInput = none := by
  by_contra hne
  exact hkind (h.iff_paused.1 hne)

theorem Leads.awaits (h : s.Leads t) (hs : s.Awaits) (hrunning : s.status.kind = .running) :
    t.Awaits := by
  have hnone : s.pendingHumanInput = none :=
    hs.pending_eq_none (by rw [hrunning]; exact nofun)
  cases h with
  | on hstatus hpending =>
    exact awaits_of_none (hpending.trans hnone) (by rw [hstatus, hrunning]; exact nofun)
  | asks h hkind hpending hworded =>
    refine ⟨⟨fun _ => hkind, fun _ => by rw [hpending]; exact Option.some_ne_none _⟩, ?_⟩
    rw [hpending]
    rintro _ ⟨⟩
    exact hworded
  | fails hkind hpending =>
    exact awaits_of_none (hpending.trans hnone) (by rw [hkind]; exact nofun)
  | completes hkind hpending =>
    exact awaits_of_none (hpending.trans hnone) (by rw [hkind]; exact nofun)
  | promotes hkind hpending _ =>
    exact awaits_of_none (hpending.trans hnone) (by rw [hkind]; exact nofun)
  | stops hkind hpending _ =>
    exact awaits_of_none (hpending.trans hnone) (by rw [hkind]; exact nofun)

end SessionState

/-- A session that is taken up has no question pending, unless it is set to a plan from outside. -/
theorem takeUp_pending {request : Request} {now : String}
    (h : request.takeUp c now s = .ok (t, resume))
    (hresume : request.resume ≠ none → s.pendingHumanInput = none) :
    t.pendingHumanInput = none := by
  rcases takeUp_cases h with ⟨q, hq, rfl⟩ | ⟨hpending, rfl⟩ | ⟨response, rfl⟩
  · exact hresume (by rw [hq]; exact Option.some_ne_none q)
  · exact hpending
  · unfold SessionState.answer SessionState.applyHumanResponse
    split
    · assumption
    · rfl

/-- What a run saves first is running and waits on nothing. -/
theorem Request.Enters.awaits {request : Request} {o : Option SessionState}
    (h : request.Enters c o t) (hresume : request.resume ≠ none → o = none) :
    t.Awaits := by
  obtain ⟨-, now, s, resume, -, htake, rfl⟩ := h
  obtain ⟨-, -, hrunning⟩ := start_eq request now s
  have hpending : s.pendingHumanInput = none := by
    refine takeUp_pending htake fun hne => ?_
    rw [hresume hne]
    rfl
  refine SessionState.awaits_of_none ?_ (by rw [hrunning]; exact nofun)
  unfold Request.start
  split <;> exact hpending

/-! ## Limits in hard stops -/

/-- The numbers of a hard stop are numbers that a file can hold. -/
structure HardStop.IsFinite (h : HardStop) : Prop where
  limit : ∀ x ∈ h.limit, x.isFinite = true
  elapsed : ∀ x ∈ h.elapsed, x.isFinite = true

theorem HardStop.IsFinite.settled_eq {h : HardStop} (hfinite : h.IsFinite) : h.settled = h := by
  have hkept {o : Option Float} (ho : ∀ x ∈ o, x.isFinite = true) :
      o.filter Float.isFinite = o := by
    cases o with
    | none => rfl
    | some x => exact Option.filter_some_pos (ho x rfl)
  unfold settled
  rw [hkept hfinite.limit, hkept hfinite.elapsed]

/-- Only the times of a hard stop may be numbers that a file cannot hold. -/
def Status.HoldsLimit (s : Status) : Prop :=
  ∀ h ∈ s.hardStop, h.kind ≠ .timeout → h.IsFinite

theorem Status.holdsLimit_of_none {s : Status} (h : s.hardStop = none) : s.HoldsLimit := by
  intro hard hhard
  rw [h] at hhard
  cases hhard

theorem Status.settled_eq {s : Status} (h : s.HoldsLimit)
    (htimeout : ∀ h ∈ s.hardStop, h.kind = .timeout → h.IsFinite) : s.settled = s := by
  obtain ⟨kind, reason, error, hardStop⟩ := s
  cases hardStop with
  | none => rfl
  | some stop =>
    have hfinite : stop.IsFinite := by
      by_cases hkind : stop.kind = .timeout
      · exact htimeout stop rfl hkind
      · exact h stop rfl hkind
    rw [settled, Option.map_some, hfinite.settled_eq]

/-- What a file holds of a hard stop is made of numbers that a file can hold. -/
theorem HardStop.settled_isFinite (h : HardStop) : h.settled.IsFinite :=
  ⟨fun _ hx => (Option.filter_eq_some_iff.1 hx).2, fun _ hx => (Option.filter_eq_some_iff.1 hx).2⟩

theorem Status.isFinite_of_settled {s : Status} {h : HardStop} (hh : h ∈ s.settled.hardStop) :
    h.IsFinite := by
  obtain ⟨stop, -, rfl⟩ := Option.map_eq_some_iff.1 hh
  exact stop.settled_isFinite

/-- A file holds a status whole exactly if it holds the numbers of a hard stop for time. -/
theorem Status.settled_eq_iff {s : Status} (h : s.HoldsLimit) :
    s.settled = s ↔ ∀ h ∈ s.hardStop, h.kind = .timeout → h.IsFinite := by
  refine ⟨fun heq stop hstop _ => ?_, Status.settled_eq h⟩
  rw [← heq] at hstop
  exact Status.isFinite_of_settled hstop

theorem Status.holdsLimit_settled (s : Status) : s.settled.HoldsLimit :=
  fun _ hhard _ => Status.isFinite_of_settled hhard

/-- A limit that can be put in words is a number. -/
theorem HardStop.isFinite_of_usage {h : HardStop} {what between : String} {n : Option Int}
    {text : String} (husage : h.usage what n between = .ok text) :
    ∀ x ∈ h.limit, x.isFinite = true := by
  intro x hx
  unfold usage wholeLimit at husage
  rw [Option.mem_def.1 hx] at husage
  dsimp only at husage
  cases hread : Decimal.Reading.ofFloat x with
  | nan =>
    rw [hread] at husage
    cases husage
  | infinite _ =>
    rw [hread] at husage
    cases husage
  | finite b => exact Decimal.isFinite_iff.2 ⟨b, hread⟩

theorem Guardrail.isFinite_of_check {limits : Guardrail.Limits} {now : Instant} {hard : HardStop}
    {text : String} (hcheck : Guardrail.check limits now s = some hard)
    (hdescribe : hard.describe = .ok text) (hkind : hard.kind ≠ .timeout) : hard.IsFinite := by
  unfold Guardrail.check at hcheck
  dsimp only at hcheck
  repeat' split at hcheck
  · cases hcheck
    exact ⟨nofun, nofun⟩
  · cases hcheck
    exact ⟨HardStop.isFinite_of_usage hdescribe, nofun⟩
  · cases hcheck
    exact ⟨HardStop.isFinite_of_usage hdescribe, nofun⟩
  · cases hcheck
    exact ⟨HardStop.isFinite_of_usage hdescribe, nofun⟩
  · cases hcheck
    exact absurd rfl hkind
  · cases hcheck

/-- A move keeps the limit of a hard stop a number, whatever the limits of the run are. -/
theorem SessionState.Move.holdsLimit (h : s.Move c good t) (hs : s.status.HoldsLimit) :
    t.status.HoldsLimit := by
  cases h with
  | @phaseError u now message hworks =>
    have hstatus : (u.afterPhaseError now message s.totalTokens).status = s.status :=
      hworks.stays.status
    rwa [hstatus]
  | failed _ _ => exact Status.holdsLimit_of_none rfl
  | asked _ _ _ _ => exact Status.holdsLimit_of_none rfl
  | gated _ _ _ _ _ _ => exact Status.holdsLimit_of_none rfl
  | @revised j u review now hjudges _ _ _ =>
    have hstatus := (u.absorbing c j.plan review).revising_standing now j review s.totalTokens
    have hkept : (u.absorbing c j.plan review).status = s.status := (hjudges.stays review).status
    rwa [hstatus.1, hkept]
  | approved _ _ _ _ _ _ => exact Status.holdsLimit_of_none rfl
  | stopped hcheck hdescribe =>
    rintro _ ⟨⟩
    exact Guardrail.isFinite_of_check hcheck hdescribe

/-! ## Along a course -/

/-- A visit whose planner and reviewer answer as their types have it, and that sets the session to a
plan from outside only if it was not stored before. -/
def Visit.IsRegular (v : Visit) (o : Option SessionState) : Prop :=
  v.IsTyped ∧ (v.request.resume ≠ none → o = none)

theorem Visit.isTyped_of_isRegular (v : Visit) (o : Option SessionState) (h : v.IsRegular o) :
    v.IsTyped := h.1

theorem Course.awaits (h : Course (Begins Visit.IsRegular) (Continues Visit.IsRegular) saves) :
    ∀ t ∈ saves, t.Awaits ∧ t.status.HoldsLimit := by
  refine h.forall_mem ?_ ?_
  · rintro o t - ⟨v, hregular, henters⟩
    refine ⟨henters.awaits hregular.2, ?_⟩
    obtain ⟨-, now, s, resume, -, -, rfl⟩ := henters
    unfold Request.start
    split <;> exact fun _ hhard => nomatch hhard
  · rintro s t ⟨hawaits, hlimit⟩ ⟨v, o, -, hrunning, hmove⟩
    exact ⟨hmove.leads.awaits hawaits hrunning, hmove.holdsLimit hlimit⟩

/-! ## Answers -/

/-- The answer of a run speaks of a state. -/
structure LoopResult.SpeaksOf (result : LoopResult) (s : SessionState) : Prop where
  iteration : result.totalIterations = s.iteration
  totalTokens : result.totalTokens = s.totalTokens
  review : s.lastReview = .ok result.finalReview
  status : result.status = s.status ∨ result.status = s.status.settled

/-- The overview of a session agrees with the answer of a run. A hard stop is shown as a file holds
it, which is as it is exactly if it is not for time or its numbers are finite. -/
structure Overview.Agrees (o : Overview) (result : LoopResult) : Prop where
  iteration : o.iteration = result.totalIterations
  totalTokens : o.totalTokens = some result.totalTokens
  score : o.latestScore = result.finalReview.map Review.score
  ended : result.status.kind.IsEnd
  completed : result.status.kind = .completed → o.status.kind = .approved
  bestEffort : result.status.kind = .bestEffort → o.status.kind = .bestEffort
  hardStopped : result.status.kind = .hardStopped → o.status.kind = .hardStopped ∧
    o.status.hardStop = result.status.hardStop.map HardStop.settled ∧
    (o.status.hardStop = result.status.hardStop ↔
      ∀ h ∈ result.status.hardStop, h.kind = .timeout → h.IsFinite)

/-- The overview of an ended state agrees with an answer that speaks of the state. -/
theorem Overview.Shows.agrees {o : Overview} {result : LoopResult} (h : o.Shows s)
    (hspeaks : result.SpeaksOf s) (hend : s.status.kind.IsEnd) (hawaits : s.Awaits)
    (hlimit : s.status.HoldsLimit) : o.Agrees result := by
  have hkind : result.status.kind = s.status.kind := by
    rcases hspeaks.status with h | h
    · rw [h]
    · rw [h]
      rfl
  have hsettled : result.status.settled = s.status.settled := by
    rcases hspeaks.status with h | h
    · rw [h]
    · rw [h, Status.settled_settled]
  have hkept : result.status.HoldsLimit := by
    rcases hspeaks.status with h | h
    · rwa [h]
    · rw [h]
      exact s.status.holdsLimit_settled
  have hnone : s.settled.pendingHumanInput = none :=
    hawaits.pending_eq_none (by rcases hend with h | h | h <;> rw [h] <;> exact nofun)
  have hstatus : o.status = statusOf s.status.settled := by
    rw [h.status, statusOfState, hnone]
    rfl
  have hshown {kind : StatusKind} (h : result.status.kind = kind) :
      s.status.settled.kind = kind := hkind.symm.trans h
  refine ⟨?_, ?_, ?_, ?_, fun hcompleted => ?_, fun hbest => ?_, fun hstopped => ?_⟩
  · rw [h.iteration, hspeaks.iteration]
  · rw [h.totalTokens, hspeaks.totalTokens]
  · exact h.score _ hspeaks.review
  · rw [hkind]
    exact hend
  · rw [hstatus, statusOf, hshown hcompleted]
  · rw [hstatus, statusOf, hshown hbest]
  · have hstop : o.status.kind = .hardStopped ∧
        o.status.hardStop = result.status.settled.hardStop := by
      rw [hstatus, statusOf, hshown hstopped, hsettled]
      exact ⟨rfl, rfl⟩
    refine ⟨hstop.1, hstop.2, ?_⟩
    rw [hstop.2, ← Status.settled_eq_iff hkept]
    exact ⟨fun heq => congrArg (fun stop => { result.status with hardStop := stop }) heq,
      fun heq => by rw [heq]⟩

theorem Run.Concluded.speaksOf {result : LoopResult} (h : r.Concluded c result)
    (hscores : r.state.HoldsScores) : result.SpeaksOf r.state := by
  obtain ⟨plan, review, rfl, -, hreview⟩ := h.result
  refine ⟨rfl, rfl, ?_, .inl rfl⟩
  rcases hreview with ⟨last, rfl, hlast⟩ | hlast
  · exact hscores.lastReview_eq hlast
  · exact hlast

theorem speaksOf_of_stored (hplans : s.HoldsPlans Plan.IsPlain) (hscores : s.HoldsScores)
    {now : String} {result : LoopResult} (hresult : s.settled.storedResult now = .ok result) :
    result.SpeaksOf s := by
  obtain ⟨plan, best, review, -, -, hreview, -, -, hstored⟩ := exists_answer hplans hscores
  rw [hstored] at hresult
  cases hresult
  exact ⟨rfl, rfl, hreview, .inr rfl⟩

/-! ## The state after a visit -/

/-- The stored state of a session can be read, and is one that visits leave. -/
structure Workspace.Stands (w : Workspace) (dir : Path) (s : SessionState) : Prop where
  plans : s.HoldsPlans Plan.IsPlain
  scores : s.HoldsScores
  awaits : s.Awaits
  limit : s.status.HoldsLimit
  held : w.files.Holds (dir.resolve w.files.cwd ++ [SessionState.fileName]) (.text s.storedText)

theorem Workspace.Stands.exists_overview {dir : Path} (h : w.Stands dir s) (time : String)
    (limits : OverviewLimits) :
    ∃ o, Overview.ofSession w.files time dir limits = .ok o ∧ o.Shows s :=
  Overview.ofSession_stored h.plans h.scores h.held time limits

theorem Workspace.Stands.released {report : Report} {dir : Path}
    (h : report.workspace.Stands dir s) : (report.released c).workspace.Stands dir s :=
  ⟨h.plans, h.scores, h.awaits, h.limit, h.held⟩

section

variable {v : Visit}

/-- The state that was saved last stands if it can be read. -/
theorem Workspace.Records.stands {dir : Path}
    (h : w.Records dir (Begins Visit.IsRegular) (Continues Visit.IsRegular) start saves)
    (hlast : saves.getLast? = some s)
    (hheld : w.files.Holds (stateKey dir w.files.cwd) (.text s.storedText)) : w.Stands dir s := by
  have hmem := List.mem_of_getLast? hlast
  obtain ⟨hplans, hscores⟩ := h.course.documents Visit.isTyped_of_isRegular hmem
  obtain ⟨hawaits, hlimit⟩ := h.course.awaits s hmem
  exact ⟨hplans, hscores, hawaits, hlimit, hheld⟩

variable (hregular : v.IsRegular saves.getLast?)
  (h : w.Records v.controller.dir (Begins Visit.IsRegular) (Continues Visit.IsRegular) start saves)

include hregular h

/-- A visit that is answered leaves a state that stands, that has come to its end, and that the
answer speaks of. -/
theorem report_answers {result : LoopResult} (hresult : (v.report w).result = .ok result) :
    ∃ s, (v.report w).workspace.Stands v.controller.dir s ∧ s.status.kind.IsEnd ∧
      result.SpeaksOf s := by
  have hbegin := h.spares (v.saves_begin v.controller.dir w)
  have hacquire := acquire_saves v.controller { w with now := v.now, locks := v.locks }
  have hruns := run_runs v.controller v.request { w with now := v.now, locks := v.locks }
  unfold Visit.report at hresult ⊢
  generalize v.controller.run _ _ = report at hruns hresult ⊢
  cases hruns with
  | barred _ => cases hresult
  | refused _ _ => cases hresult
  | idle hlock henters =>
    cases hresult
    have hrecords := hbegin.spares (hacquire.of_ok hlock)
    have hentered := (enter_saves v.controller v.request _).of_ok henters
    obtain ⟨t, hlast, hend, hstored, hheld⟩ := hrecords.chronicle.exists_of_idle hentered
    obtain ⟨rfl, -⟩ := hentered
    have hstands := hrecords.stands hlast hheld
    exact ⟨t, hstands.released, hend, speaksOf_of_stored hstands.plans hstands.scores hstored⟩
  | @driven s resume out w₁ w₂ r hlock henters hdrive =>
    obtain rfl : out = .ok result := hresult
    have hentered := Visit.entered_of_enter hlock henters
    obtain ⟨hrests, hstands⟩ := Visit.entered_rests Visit.isTyped_of_isRegular hregular h hentered
    obtain ⟨⟨saves', hrecords', hlast⟩, hend⟩ :=
      (drive_follows (fun hrunning hmove => ⟨v, _, hregular, hrunning, hmove⟩)
        hregular.1.plans_succeeding hrests hstands).of_ok hdrive
    have hconcluded := (drive_concludes hstands).of_ok hdrive
    have hheld := hconcluded.stored
    rw [SessionState.resolve_filePath] at hheld
    have hstands' := hrecords'.stands hlast hheld
    exact ⟨r.state, hstands'.released, hend, hconcluded.speaksOf hstands'.scores⟩

/-- The overview agrees with the answer of a visit. -/
theorem overview_agrees {result : LoopResult} (hresult : (v.report w).result = .ok result)
    (time : String) (limits : OverviewLimits) :
    ∃ o, Overview.ofSession (v.report w).workspace.files time v.controller.dir limits = .ok o ∧
      o.Agrees result := by
  obtain ⟨s, hstands, hend, hspeaks⟩ := report_answers hregular h hresult
  obtain ⟨o, hoverview, hshows⟩ := hstands.exists_overview time limits
  exact ⟨o, hoverview, hshows.agrees hspeaks hend hstands.awaits hstands.limit⟩

/-- A visit that raises a question, which planner and reviewer have not raised, leaves a state that
stands and that waits on this question. -/
theorem report_asks {request : HumanRequest}
    (hraises : ¬ v.controller.Raises (.humanInput request))
    (hresult : (v.report w).result = .error (.humanInput request)) :
    ∃ s pending, (v.report w).workspace.Stands v.controller.dir s ∧
      s.pendingHumanInput = some pending ∧ request = v.controller.pendingRequest pending := by
  obtain ⟨saves', hrecords, hasks⟩ :=
    (report_follows Visit.isTyped_of_isRegular hregular h).2 _ hresult
  obtain ⟨s, hlast, pending, hheld, hpending, hrequest⟩ := hasks request rfl hraises
  exact ⟨s, pending, hrecords.stands hlast hheld, hpending, hrequest⟩

end

/-! ## Failed iterations -/

/-- An iteration whose planning or reviewing fails, and after which the session can be stored as
failed, fails alike. -/
theorem iteration_of_failed {r₁ r₂ r₃ : Run} (hjudge : judge c resume r₁.opened = (.error f, r₂))
    (hphase : ∀ message, f ≠ .phase message)
    (hsave : save c (r₂.update (·.failed (failureText f))) = (.ok (), r₃)) :
    iteration c resume r₁ = (.error f, r₃) := by
  have hturn := iteration_turn c resume r₁
  rcases hiteration : iteration c resume r₁ with ⟨g | next, r⟩
  · cases hturn.of_error hiteration with
    | unwritten hjudged _ => cases hjudge.symm.trans hjudged
    | decided hjudged _ _ => cases hjudge.symm.trans hjudged
    | phaseUnsaved hjudged _ =>
      cases hjudge.symm.trans hjudged
      exact absurd rfl (hphase _)
    | failed hjudged _ hsaved =>
      cases hjudge.symm.trans hjudged
      cases hsave.symm.trans hsaved
      rfl
    | failedUnsaved hjudged _ hsaved =>
      cases hjudge.symm.trans hjudged
      cases hsave.symm.trans hsaved
  · cases hturn.of_ok hiteration with
    | decided hjudged _ _ => cases hjudge.symm.trans hjudged
    | phaseError hjudged _ =>
      cases hjudge.symm.trans hjudged
      exact absurd rfl (hphase _)

/-- A loop with an iteration that fails ends with it. -/
theorem Looping.eq_of_error {starts : List Run} {out : Except Failure Unit × Run} {r₁ : Run}
    (h : Looping c resume starts r out) (hr₁ : r₁ ∈ starts)
    (hiteration : iteration c resume r₁ = (.error f, r')) : out = (.error f, r') := by
  induction h with
  | stopped _ => cases hr₁
  | indescribable _ => cases hr₁
  | finished _ hfinished =>
    rw [List.mem_singleton.1 hr₁] at hiteration
    cases hiteration.symm.trans hfinished
  | failed _ hfailed =>
    rw [List.mem_singleton.1 hr₁] at hiteration
    cases hiteration.symm.trans hfailed
    rfl
  | again _ hagain _ ih =>
    rcases List.mem_cons.1 hr₁ with rfl | hr₁
    · cases hiteration.symm.trans hagain
    · exact ih hr₁

/-- A loop that is not stopped at once starts an iteration where it is entered. -/
theorem Looping.mem_start {starts : List Run} {out : Except Failure Unit × Run}
    (h : Looping c resume starts r out) (hstop : (stopAtLimit c r).1 = .ok false) :
    r ∈ starts := by
  cases h with
  | stopped h =>
    rw [h] at hstop
    cases hstop
  | indescribable h =>
    rw [h] at hstop
    cases hstop
  | finished _ _ => exact List.mem_singleton_self r
  | failed _ _ => exact List.mem_singleton_self r
  | again _ _ _ => exact List.mem_cons_self

/-- A run that fails in its iterations or at its end still notes its metrics, and then fails alike,
unless the metrics cannot be written. -/
theorem drive_of_error
    (hrun : (do rounds c resume (c.iterationsLeft (← get).state); finish c : RunM LoopResult) r =
      (.error f, r')) {ok : LoopResult → Run → Prop} {bad : Failure → Run → Prop} :
    Ends (drive c resume) r ok bad ↔ Ends (recordMetrics c) r' (fun _ => bad f) bad := by
  unfold drive
  rw [ends_bind, RunM.ends_attempt, ends_of_error hrun, ends_bind]
  rfl

/-- A run whose iterations fail does not come to its end. -/
theorem run_of_broken (hrounds : rounds c resume (c.iterationsLeft r.state) r = (.error f, r')) :
    (do rounds c resume (c.iterationsLeft (← get).state); finish c : RunM LoopResult) r =
      (.error f, r') := by
  apply Ends.eq_error
  rw [ends_bind, ends_get, ends_bind, ends_of_error hrounds]
  exact ⟨rfl, rfl⟩

/-- A run whose iterations have failed is at its end, apart from its metrics. -/
theorem drive_of_failed (hrounds : rounds c resume (c.iterationsLeft r.state) r = (.error f, r')) :
    Ends (drive c resume) r (fun _ _ => False) fun g r₁ => g.IsFileFault ∨ g = f ∧
      r'.workspace.Leaves
        (fun key => key ≠ c.dir.resolve r'.workspace.files.cwd ++ [Tally.fileName])
        r₁.workspace := by
  rw [drive_of_error (run_of_broken hrounds)]
  rw [ends_recordMetrics, ends_onWorkspace]
  exact ((record_leaves r'.tally c.dir r'.state.outcome r'.workspace fun _ => id).and
    ((r'.tally.byFiles_record c.dir r'.state.outcome).fails r'.workspace)).mono
      (fun _ _ h => .inr ⟨rfl, h.1⟩) fun _ _ h => .inl h.2

/-- In one of the iterations of a visit planning or reviewing fails, and the session can be stored
as failed. -/
def Visit.BreaksOff (v : Visit) (w : Workspace) (f : Failure) : Prop :=
  ∃ r resume starts r₁ r₂ r₃, v.entered? w = some (r, resume) ∧
    Looping v.controller resume starts r
      (rounds v.controller resume (v.controller.iterationsLeft r.state) r) ∧
    r₁ ∈ starts ∧ judge v.controller resume r₁.opened = (.error f, r₂) ∧
    save v.controller (r₂.update (·.failed (failureText f))) = (.ok (), r₃)

/-- Such a visit fails alike, unless its metrics cannot be written, and leaves a failed state. -/
theorem report_fails {v : Visit} (hregular : v.IsRegular saves.getLast?)
    (h : w.Records v.controller.dir (Begins Visit.IsRegular) (Continues Visit.IsRegular) start
      saves) (hbreaks : v.BreaksOff w f) (hphase : ∀ message, f ≠ .phase message) :
    (∃ g, (v.report w).result = .error g ∧ g.IsFileFault) ∨
      (v.report w).result = .error f ∧ ∃ s, (v.report w).workspace.Stands v.controller.dir s ∧
        s.status = { kind := .failed, error := some (failureText f) } := by
  obtain ⟨r, resume, starts, r₁, r₂, r₃, hentered, hloop, hr₁, hjudge, hsave⟩ := hbreaks
  have hmoves {s t : SessionState} (hrunning : s.status.kind = .running)
      (hmove : s.Move v.controller Plan.IsPlain t) : Continues Visit.IsRegular s t :=
    ⟨v, _, hregular, hrunning, hmove⟩
  obtain ⟨hrests, hstands⟩ :=
    Visit.entered_rests Visit.isTyped_of_isRegular hregular h hentered
  -- the iteration starts from what was saved last, so the failed state belongs to the course
  obtain ⟨⟨saves', hrecords, hlast⟩, hstands₁⟩ :=
    hloop.rests hmoves hregular.1.plans_succeeding hrests hstands r₁ hr₁
  obtain ⟨hworks, hspares⟩ := (judge_judges hregular.1.plans_succeeding hstands₁
    (hrecords.there hlast)).of_error hjudge
  obtain ⟨w₃, rfl, hsaves, hheld⟩ :=
    (save_saves v.controller (r₂.update (·.failed (failureText f)))).of_ok hsave
  obtain ⟨hrecords₃, hlast₃⟩ := hrecords.passes hlast
    ⟨hspares.spares_trans hsaves, .single (hmoves hstands₁.running (.failed f hworks))⟩
    fun _ _ => id
  have hstands₃ := hrecords₃.stands hlast₃ hheld
  have hdrive := drive_of_failed (hloop.eq_of_error hr₁ (iteration_of_failed hjudge hphase hsave))
  rw [(Visit.exists_of_entered hentered).2.2]
  rcases hdriven : drive v.controller resume r with ⟨g | result, r'⟩
  · rcases hdrive.of_error hdriven with hfault | ⟨rfl, hleaves⟩
    · exact .inl ⟨g, rfl, hfault⟩
    · refine .inr ⟨rfl, r₂.state.failed (failureText g), ?_, rfl⟩
      have hstays := hleaves.holds _ _ (by
        rw [Ne, List.append_cancel_left_eq, List.singleton_inj]
        decide) hstands₃.held
      rw [← hleaves.cwd] at hstays
      exact ⟨hstands₃.plans, hstands₃.scores, hstands₃.awaits, hstands₃.limit, hstays⟩
  · exact (hdrive.of_ok hdriven).elim

/-- The failure of planning or reviewing in the first iteration of a visit, if the session can be
stored as failed after it. -/
def Visit.firstFailure? (v : Visit) (w : Workspace) : Option Failure :=
  match v.entered? w with
  | none => none
  | some (r, resume) =>
    match (stopAtLimit v.controller r).1, judge v.controller resume r.opened with
    | .ok false, (.error f, r₂) =>
      match save v.controller (r₂.update (·.failed (failureText f))) with
      | (.ok (), _) => some f
      | _ => none
    | _, _ => none

theorem Visit.breaksOff_of_firstFailure {v : Visit} (h : f ∈ v.firstFailure? w) :
    v.BreaksOff w f := by
  unfold firstFailure? at h
  split at h
  · cases h
  · rename_i r resume hentered
    split at h
    · rename_i g r₂ hstop hjudge
      split at h
      · rename_i r₃ hsave
        cases h
        obtain ⟨starts, hloop, -⟩ := rounds_within_limits v.controller resume r
        exact ⟨r, resume, starts, r, r₂, r₃, hentered, hloop, hloop.mem_start hstop, hjudge, hsave⟩
      · cases h
    · cases h

/-! ## Whole sessions -/

/-- Phases that fail with phase errors, and with failures that are not the session's own, ask no
human. -/
theorem Controller.not_raises_humanInput
    (h : ∀ f, c.Raises f → (∃ message, f = .phase message) ∨ f.isOwn = false)
    (request : HumanRequest) : ¬ c.Raises (.humanInput request) := by
  intro hraised
  rcases h _ hraised with ⟨_, heq⟩ | hown
  · cases heq
  · cases hown

/-- A session that is not stored, has no state that was saved last. -/
theorem Workspace.Records.getLast_eq_none {dir : Path}
    (h : w.Records dir enters moves start saves)
    (hfile : w.files.has (SessionState.filePath dir) = false) : saves.getLast? = none := by
  rw [FileTree.has, FileTree.find?, SessionState.resolve_filePath, Option.isSome_eq_false_iff,
    Option.isNone_iff_eq_none, h.chronicle.cwd_eq] at hfile
  have hnode := h.chronicle.node
  unfold stateKey at hnode
  rw [hfile] at hnode
  exact Option.map_eq_none_iff.1 hnode.symm

/-- What the caller of a run is told and what is seen of the session afterwards agree, for any runs
on a session, from one without a stored state on, in which the session is set to a plan from outside
only as long as it is not stored, and the phases of the last run fail only with a phase error or
with a failure that is not the session's own. If the run answers, the overview agrees with the
answer, whose hard stop it shows as a file holds it. If it raises a question, the session is seen
to be paused with this question. If planning or reviewing has failed for good, so has the run, and
the session is seen to be stopped for the reason given, unless the metrics cannot be written. -/
theorem overview_of_visited {files : FileTree} {visits : List Visit} {v : Visit} (now : Instant)
    (hfile : files.has (SessionState.filePath v.controller.dir) = false)
    (hvisits : ∀ u ∈ visits ++ [v], u.controller.dir = v.controller.dir ∧ u.IsTyped)
    (hresumes : ∀ before u after, visits ++ [v] = before ++ u :: after → u.request.resume ≠ none →
      (visited before (.untouched files now)).files.has
        (SessionState.filePath v.controller.dir) = false)
    (hraises : ∀ f, v.controller.Raises f → (∃ message, f = .phase message) ∨ f.isOwn = false)
    {report : Report} (hreport : v.report (visited visits (.untouched files now)) = report)
    (time : String) (limits : OverviewLimits) :
    (∀ result, report.result = .ok result → ∃ o,
      Overview.ofSession report.workspace.files time v.controller.dir limits = .ok o ∧
        o.Agrees result) ∧
    (∀ request, report.result = .error (.humanInput request) → ∃ o,
      Overview.ofSession report.workspace.files time v.controller.dir limits = .ok o ∧
        o.status.kind = .paused ∧ o.status.question = some request.question) ∧
    ∀ f, f.isOwn = false → v.BreaksOff (visited visits (.untouched files now)) f →
      (∃ g, report.result = .error g ∧ g.IsFileFault) ∨
        report.result = .error f ∧ ∃ o,
          Overview.ofSession report.workspace.files time v.controller.dir limits = .ok o ∧
            o.status.kind = .hardStopped ∧ o.status.hardStop =
              some (.ofError (SessionState.textOr (some f.message) "unknown error")) := by
  subst hreport
  have hregular {before after : List Visit} {u : Visit} {saves : List SessionState}
      (heq : visits ++ [v] = before ++ u :: after)
      (hrecords : (visited before (.untouched files now)).Records v.controller.dir
        (Begins Visit.IsRegular) (Continues Visit.IsRegular) files saves) :
      u.IsRegular saves.getLast? := by
    refine ⟨(hvisits u (by simp [heq])).2, fun hne => ?_⟩
    exact hrecords.getLast_eq_none (hresumes before u after heq hne)
  obtain ⟨saves, hrecords⟩ := visited_follows Visit.isTyped_of_isRegular visits
    (fun before u after heq => by
      have heq' : visits ++ [v] = before ++ u :: (after ++ [v]) := by simp [heq]
      exact ⟨(hvisits u (by simp [heq])).1, fun _ => hregular heq'⟩)
    (Workspace.records_untouched now hfile)
  have hlast := hregular rfl hrecords
  generalize visited visits (.untouched files now) = w at hrecords ⊢
  refine ⟨fun result hresult => ?_, fun request hresult => ?_, fun f hown hbreaks => ?_⟩
  · exact overview_agrees hlast hrecords hresult time limits
  · have hunraised := Controller.not_raises_humanInput hraises request
    obtain ⟨s, pending, hstands, hpending, rfl⟩ := report_asks hlast hrecords hunraised hresult
    obtain ⟨o, hoverview, hshows⟩ := hstands.exists_overview time limits
    have hworded : pending.question.isEmpty = false := by
      simpa using hstands.awaits.worded pending hpending
    have hpaused : s.settled.pendingHumanInput = some pending := hpending
    refine ⟨o, hoverview, ?_⟩
    rw [hshows.status, Overview.statusOfState, hpaused]
    simp [Controller.pendingRequest, HumanRequest.of, SessionState.textOr, hworded]
  · have hphase (message : String) : f ≠ .phase message := by
      rintro rfl
      cases hown
    have htext : failureText f = f.message := by
      cases f <;> first | rfl | cases hown
    rcases report_fails hlast hrecords hbreaks hphase with hfault | ⟨hresult, s, hstands, hstatus⟩
    · exact .inl hfault
    · obtain ⟨o, hoverview, hshows⟩ := hstands.exists_overview time limits
      have hnone : s.settled.pendingHumanInput = none :=
        hstands.awaits.pending_eq_none (by simp [hstatus])
      have hfailed : s.settled.status = { kind := .failed, error := some f.message } := by
        rw [SessionState.settled, hstatus, htext]
        rfl
      refine .inr ⟨hresult, o, hoverview, ?_⟩
      rw [hshows.status, Overview.statusOfState, hnone]
      dsimp only
      rw [hfailed]
      exact ⟨rfl, rfl⟩

/-- A visit in which the planner breaks down. -/
def stumbling : Visit where
  controller := {
    planner := fun _ _ => { answer := fun _ => .error (.runtime "out of ideas") }
    reviewer := fun _ _ _ => { answer := fun _ => .error (.phase "nothing to review") }
    artifacts := {
      sessionDir := .ofParts ["home", "runs"]
      activeDir := .ofParts ["home", "active"]
      slug := "demo" } }
  request := { task := "demo" }
  now := .ofCivil 2024 5 17 12 0 0 0

/-- A visit whose reviewer cannot go on without a human. -/
def inquiring : Visit :=
  { approving with controller := { approving.controller with
      reviewer := fun _ _ _ => {
        answer := fun _ => .ok { assessment := {
          score := 0.5, requiresHumanInput := true, humanInputReason := some "Which format?" } } } } }

/-- A visit that has used up its tokens before it has a plan. -/
def exhausted : Visit :=
  { fruitless "demo" with
    controller := { (fruitless "demo").controller with limits := { maxTotalTokens := 5 } } }

/-- A visit that is stopped at once by a limit below all times. -/
def hurried : Visit :=
  { stumbling with
    controller := { stumbling.controller with limits := { timeoutSeconds := -1.0 / 0.0 } } }

/-- A visit that comes first on a session, and whose planner and reviewer answer as their types have
it and fail only with a phase error or with a failure that is not the session's own. -/
structure Visit.IsFirst (v : Visit) : Prop where
  unstored : bareTree.has (SessionState.filePath v.controller.dir) = false
  typed : v.IsTyped
  fresh : v.request.resume = none
  raises : ∀ f, v.controller.Raises f → (∃ message, f = .phase message) ∨ f.isOwn = false

theorem Visit.IsFirst.visits {v : Visit} (h : v.IsFirst) :
    ∀ u ∈ [] ++ [v], u.controller.dir = v.controller.dir ∧ u.IsTyped := by
  intro u hu
  rw [List.mem_singleton.1 hu]
  exact ⟨rfl, h.typed⟩

theorem Visit.IsFirst.resumes {v : Visit} (h : v.IsFirst) (before : List Visit) (u : Visit)
    (after : List Visit) (heq : [] ++ [v] = before ++ u :: after) (hne : u.request.resume ≠ none) :
    (visited before (.untouched bareTree ⟨0⟩)).files.has
      (SessionState.filePath v.controller.dir) = false := by
  have hu : u ∈ [] ++ [v] := by simp [heq]
  rw [List.mem_singleton.1 hu] at hne
  exact absurd h.fresh hne

theorem stumbling_isFirst : stumbling.IsFirst where
  unstored := by decide
  typed := {
    plans := fun _ _ _ _ h => by cases h
    scores := fun _ _ _ _ _ h => by cases h
    resumes := fun _ hq => by cases hq }
  fresh := rfl
  raises := by
    rintro f (⟨n, ctx, now, hanswer⟩ | ⟨n, p, ctx, now, hanswer⟩)
    · cases hanswer
      exact .inr rfl
    · cases hanswer
      exact .inl ⟨_, rfl⟩

theorem hurried_isFirst : hurried.IsFirst where
  unstored := stumbling_isFirst.unstored
  typed := ⟨stumbling_isFirst.typed.plans, stumbling_isFirst.typed.scores,
    stumbling_isFirst.typed.resumes⟩
  fresh := rfl
  raises := stumbling_isFirst.raises

theorem exhausted_isFirst : exhausted.IsFirst where
  unstored := by decide
  typed := {
    plans := fun _ _ _ _ h => by cases h
    scores := fun _ _ _ _ _ h => by cases h
    resumes := fun _ hq => by cases hq }
  fresh := rfl
  raises := by
    rintro f (⟨n, ctx, now, hanswer⟩ | ⟨n, p, ctx, now, hanswer⟩) <;>
      (cases hanswer; exact .inl ⟨_, rfl⟩)

theorem inquiring_isFirst : inquiring.IsFirst where
  unstored := by decide
  typed := {
    plans := fun _ _ _ _ h => by
      cases h
      exact fun i hi => absurd hi List.not_mem_nil
    scores := fun _ _ _ _ _ h => by
      cases h
      exact ⟨by decide +kernel, by decide +kernel⟩
    resumes := fun _ hq => by cases hq }
  fresh := rfl
  raises := by
    rintro f (⟨n, ctx, now, hanswer⟩ | ⟨n, p, ctx, now, hanswer⟩) <;> cases hanswer

/-- The hard stop that a report answers with. -/
def Report.hardStop? (report : Report) : Option HardStop :=
  report.result.toOption.bind (·.status.hardStop)

/-- A session that is out of tokens is seen to be stopped for them, one that asks is seen to wait on
its question, and one that breaks down is seen to be stopped for the reason of it. -/
theorem overview_of_endings :
    (∀ v ∈ [exhausted, inquiring, stumbling], v.IsFirst) ∧
    (∃ report result o hard, exhausted.report (visited [] (.untouched bareTree ⟨0⟩)) = report ∧
      report.result = .ok result ∧ result.status.kind = .hardStopped ∧
      result.status.hardStop = some hard ∧ hard.kind = .tokenBudget ∧
      Overview.ofSession report.workspace.files "" exhausted.controller.dir {} = .ok o ∧
      o.Agrees result ∧ o.status.hardStop = some hard) ∧
    (∃ report request o, inquiring.report (visited [] (.untouched bareTree ⟨0⟩)) = report ∧
      report.result = .error (.humanInput request) ∧ request.question = "Which format?" ∧
      Overview.ofSession report.workspace.files "" inquiring.controller.dir {} = .ok o ∧
      o.status.kind = .paused ∧ o.status.question = some request.question) ∧
    ∃ report f, stumbling.report (visited [] (.untouched bareTree ⟨0⟩)) = report ∧
      f.isOwn = false ∧ f.message = "out of ideas" ∧
      stumbling.BreaksOff (visited [] (.untouched bareTree ⟨0⟩)) f ∧
      ((∃ g, report.result = .error g ∧ g.IsFileFault) ∨
        report.result = .error f ∧ ∃ o,
          Overview.ofSession report.workspace.files "" stumbling.controller.dir {} = .ok o ∧
            o.status.kind = .hardStopped ∧ o.status.hardStop =
              some (.ofError (SessionState.textOr (some f.message) "unknown error"))) := by
  refine ⟨?_, ?_, ?_, ?_⟩
  · simp [exhausted_isFirst, inquiring_isFirst, stumbling_isFirst]
  · have h := exhausted_isFirst
    have hkind : (exhausted.report (visited [] (.untouched bareTree ⟨0⟩))).kind? =
        some .hardStopped := by decide +kernel
    have hstop : ((exhausted.report (visited [] (.untouched bareTree ⟨0⟩))).hardStop?).map
        (·.kind) = some .tokenBudget := by decide +kernel
    obtain ⟨result, hresult, hstopped⟩ := Report.exists_of_kind? hkind
    obtain ⟨hard, hhard, htokens⟩ := Option.map_eq_some_iff.1 hstop
    rw [Report.hardStop?, hresult] at hhard
    obtain ⟨o, hoverview, hagrees⟩ :=
      (overview_of_visited ⟨0⟩ h.unstored h.visits h.resumes h.raises rfl "" {}).1 result hresult
    refine ⟨_, result, o, hard, rfl, hresult, hstopped, hhard, htokens, hoverview, hagrees, ?_⟩
    refine ((hagrees.hardStopped hstopped).2.2.2 fun stop hmem hkind => ?_).trans hhard
    cases hhard.symm.trans hmem
    cases htokens.symm.trans hkind
  · have h := inquiring_isFirst
    have hasked : ((inquiring.report (visited [] (.untouched bareTree ⟨0⟩))).asked?).map
        (·.question) = some "Which format?" := by decide +kernel
    obtain ⟨request, hrequest, hquestion⟩ := Option.map_eq_some_iff.1 hasked
    have hresult := Report.result_of_asked? hrequest
    obtain ⟨o, hoverview, hpaused⟩ :=
      (overview_of_visited ⟨0⟩ h.unstored h.visits h.resumes h.raises rfl "" {}).2.1 request hresult
    exact ⟨_, request, o, rfl, hresult, hquestion, hoverview, hpaused⟩
  · have h := stumbling_isFirst
    have hfailure : (stumbling.firstFailure? (visited [] (.untouched bareTree ⟨0⟩))).map
        (fun f => (f.isOwn, f.message)) = some (false, "out of ideas") := by decide +kernel
    obtain ⟨f, hf, hown⟩ := Option.map_eq_some_iff.1 hfailure
    obtain ⟨hown, hmessage⟩ := Prod.mk.inj hown
    have hbreaks := Visit.breaksOff_of_firstFailure hf
    exact ⟨_, f, rfl, hown, hmessage, hbreaks,
      (overview_of_visited ⟨0⟩ h.unstored h.visits h.resumes h.raises rfl "" {}).2.2 f hown hbreaks⟩

/-- A session that is stopped by a limit below all times, is not shown the same hard stop : the
answer has the limit, and the overview has none. -/
theorem overview_of_hurried : hurried.IsFirst ∧
    ∃ report result o hard shown, hurried.report (visited [] (.untouched bareTree ⟨0⟩)) = report ∧
      report.result = .ok result ∧ result.status.kind = .hardStopped ∧
      result.status.hardStop = some hard ∧ hard.limit ≠ none ∧
      Overview.ofSession report.workspace.files "" hurried.controller.dir {} = .ok o ∧
      o.status.hardStop = some shown ∧ shown.limit = none ∧
      o.status.hardStop ≠ result.status.hardStop := by
  have h := hurried_isFirst
  have hkind : (hurried.report (visited [] (.untouched bareTree ⟨0⟩))).kind? =
      some .hardStopped := by decide +kernel
  have hlimit : ((hurried.report (visited [] (.untouched bareTree ⟨0⟩))).hardStop?).map
      (fun hard => hard.limit.map Float.isFinite) = some (some false) := by decide +kernel
  obtain ⟨result, hresult, hstopped⟩ := Report.exists_of_kind? hkind
  obtain ⟨hard, hhard, hinfinite⟩ := Option.map_eq_some_iff.1 hlimit
  obtain ⟨x, hx, hinfinite⟩ := Option.map_eq_some_iff.1 hinfinite
  rw [Report.hardStop?, hresult] at hhard
  have hhard : result.status.hardStop = some hard := hhard
  obtain ⟨o, hoverview, hagrees⟩ := overview_agrees ⟨h.typed, fun hne => absurd h.fresh hne⟩
    (Workspace.records_untouched ⟨0⟩ h.unstored) hresult "" {}
  have hshown : o.status.hardStop = some hard.settled := by
    rw [(hagrees.hardStopped hstopped).2.1, hhard]
    rfl
  have hlost : hard.settled.limit = none := by
    rw [HardStop.settled, hx]
    exact Option.filter_some_neg hinfinite
  refine ⟨h, _, result, o, hard, hard.settled, rfl, hresult, hstopped, hhard, ?_, hoverview,
    hshown, hlost, fun heq => ?_⟩
  · rw [hx]
    exact Option.some_ne_none x
  · rw [hshown, hhard] at heq
    rw [Option.some.inj heq, hx] at hlost
    cases hlost

end PlanReview
