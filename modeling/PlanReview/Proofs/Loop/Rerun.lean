import PlanReview.Proofs.Loop.Approval
import PlanReview.Proofs.Session.Locking

/-!
# Finished sessions, run again

A session that has come to its end is answered from its stored state. The answer is the one that
the run before got, apart from the plan and from numbers in the status that a file does not hold
(`SessionState.Repeats`). The plan may be another one : a run that ends with best effort answers
with the best plan, and the stored state with the plan under review (`again_of_visited`).
-/

namespace PlanReview

open Workspace

variable {c : Controller} {request : Request} {s : SessionState} {w : Workspace}

/-! ## Requests -/

/-- A request that only asks what a session has come to. -/
structure Request.AsksOnly (request : Request) : Prop where
  unanswered : request.humanResponse = none
  unresumed : request.resume = none
  counted : request.resetTurns = false

theorem isIdle_of_isEnd (hrequest : request.AsksOnly) (hend : s.status.kind.IsEnd) :
    request.isIdle s = true := by
  unfold Request.isIdle SessionState.canResume SessionState.isFinished
  rw [hrequest.unanswered, hrequest.unresumed, hrequest.counted]
  rcases hend with h | h | h <;> rw [h] <;> rfl

theorem session_eq (request : Request) (slug now : String) (s : SessionState) :
    ∃ dir, request.session slug now (some s) = { s with workingDir := dir } := by
  unfold Request.session
  cases request.workingDir with
  | none => exact ⟨_, rfl⟩
  | some dir =>
    dsimp only
    split <;> exact ⟨_, rfl⟩

/-- A session that has come to its end is answered from its stored state. -/
theorem enter_idle (hrequest : request.AsksOnly) (hend : s.status.kind.IsEnd)
    (hload : SessionState.load w.files w.now.text c.dir = .ok (some s)) {result : LoopResult}
    (hresult : s.storedResult w.now.text = .ok result) :
    enter c request w = (.ok (.idle result), w) := by
  obtain ⟨dir, hsession⟩ := session_eq request c.artifacts.slug w.now.text s
  have hidle : request.isIdle ({ s with workingDir := dir } : SessionState) = true :=
    isIdle_of_isEnd hrequest hend
  have hstored : ({ s with workingDir := dir } : SessionState).storedResult w.now.text =
    .ok result := hresult
  apply Ends.eq
  rw [ends_enter, hload]
  dsimp only
  rw [hsession, if_pos hidle, hstored]
  exact ⟨rfl, rfl⟩

/-- So is a run whose lock is ready. -/
theorem run_idle (hrequest : request.AsksOnly) (hend : s.status.kind.IsEnd)
    (hready : Lock.IsReady c.dir w.files.cwd w)
    (hholds : w.locks.holds c.registry (c.dir.resolve w.files.cwd) = false)
    (htaken : w.locks.isTaken (c.dir.resolve w.files.cwd) = false)
    (hload : SessionState.load w.files w.now.text c.dir = .ok (some s)) {result : LoopResult}
    (hresult : s.storedResult w.now.text = .ok result) :
    (c.run request w).result = .ok result := by
  have henter := @enter_idle c request s
    { w with locks := w.locks.take c.registry (c.dir.resolve w.files.cwd) } hrequest hend hload
    result hresult
  unfold Controller.run
  rw [Lock.acquire_eq hready hholds htaken]
  dsimp only
  rw [henter]
  rfl

/-! ## The lock after a run -/

/-- A run that answers leaves its lock ready, and as free as it got it. -/
theorem run_ready {result : LoopResult} (h : (c.run request w).result = .ok result) :
    Lock.IsReady c.dir w.files.cwd (c.run request w).workspace ∧
      w.locks.holds c.registry (c.dir.resolve w.files.cwd) = false ∧
      w.locks.isTaken (c.dir.resolve w.files.cwd) = false ∧
      (c.run request w).workspace.locks = w.locks := by
  obtain ⟨w₁, hacquire, hrun⟩ := run_of_ok h
  obtain ⟨hready, hholds, htaken, hlocks⟩ :=
    (Lock.acquire_ready c.registry c.dir w).of_ok hacquire
  have hrespects := Lock.respects_ready c w.files.cwd w₁.locks
  have hreleased {report : Report}
      (hreport : Lock.IsReady c.dir w.files.cwd report.workspace ∧
        report.workspace.locks = w₁.locks) :
      Lock.IsReady c.dir w.files.cwd (report.released c).workspace ∧
        (report.released c).workspace.locks = w.locks := by
    obtain ⟨hready, hsame⟩ := hreport
    refine ⟨hready.spares (Lock.release_spares _ _ _) (Lock.release_spares _ _ _), ?_⟩
    change report.workspace.locks.release c.registry (c.dir.resolve report.workspace.files.cwd) = _
    rw [hsame, hlocks, hready.cwd_eq, Lock.release_take hholds htaken]
  have hentered := hrespects.enter_respects request ⟨hready, rfl⟩
  rcases hrun with ⟨w₂, henter, heq⟩ | ⟨s, resume, w₂, r, henter, hdrive, heq⟩
  · obtain ⟨hready', hlocks'⟩ := @hreleased { result := .ok result, workspace := w₂ }
      (hentered.of_ok henter)
    rw [heq]
    exact ⟨hready', hholds, htaken, hlocks'⟩
  · have hdriven : Keeping _ (drive c resume) { workspace := w₂, state := s } :=
      hrespects.drive_respects resume (hentered.of_ok henter)
    obtain ⟨hready', hlocks'⟩ := @hreleased {
      result := .ok result
      workspace := r.workspace
      planned := r.planned
      reviewed := r.reviewed } (hdriven.of_ok hdrive)
    rw [heq]
    exact ⟨hready', hholds, htaken, hlocks'⟩

/-! ## The two answers -/

theorem finalPlan_of_plans {now : String} {plan best : Option Plan}
    (hplan : s.plan now = .ok plan) (hbest : s.best now = .ok best) :
    finalPlan s now = .ok (if s.status.kind = .bestEffort then best.or plan else plan) := by
  unfold finalPlan
  rw [hplan, hbest]
  split
  · cases best <;> rfl
  · rfl

theorem storedResult_of_plans {now : String} {plan best : Option Plan} {review : Option Review}
    (hplan : s.plan now = .ok plan) (hbest : s.best now = .ok best)
    (hreview : s.lastReview = .ok review) :
    s.storedResult now = .ok (s.result (plan.or best) review) := by
  unfold SessionState.storedResult
  rw [hplan, hbest, hreview]
  cases plan <;> rfl

/-- The first of two comes first either way only if they agree. -/
theorem or_comm_iff {α : Type} {o o' : Option α} :
    o.or o' = o'.or o ↔ ∀ a ∈ o, ∀ b ∈ o', b = a := by
  cases o <;> cases o' <;> simp [eq_comm]

/-- What is answered from a stored state. -/
theorem exists_answer (hplans : s.HoldsPlans Plan.IsPlain) (hscores : s.HoldsScores) :
    ∃ plan best review, (∀ now, s.plan now = .ok plan) ∧ (∀ now, s.best now = .ok best) ∧
      s.lastReview = .ok review ∧ plan.map Plan.fields = s.currentPlan ∧
      best.map Plan.fields = s.bestPlan ∧
      ∀ now, s.settled.storedResult now = .ok (s.settled.result (plan.or best) review) := by
  obtain ⟨plan, best, hplan, hbest, hcurrent, hbestPlan⟩ := hplans.exists_plans
  obtain ⟨review, hreview⟩ := hscores.exists_lastReview
  obtain ⟨hsettled, hsettledBest, hsettledReviews⟩ := SessionState.settled_documents hplans hscores
  refine ⟨plan, best, review, hplan, hbest, hreview, hcurrent, hbestPlan, fun now => ?_⟩
  refine storedResult_of_plans ?_ ?_ ?_
  · rw [SessionState.plan, hsettled]
    exact hplan now
  · rw [SessionState.best, hsettledBest]
    exact hbest now
  · rw [SessionState.lastReview, hsettledReviews]
    exact hreview

/-- The answer to a finished session that is run again : that of the run before, with the plan
under review, or the best one if there is none, and with the status as a file holds it. -/
structure SessionState.Repeats (s : SessionState) (result again : LoopResult) : Prop where
  eq : again = { result with finalPlan := again.finalPlan, status := result.status.settled }
  finalPlan : again.finalPlan.map Plan.fields = s.currentPlan.or s.bestPlan

/-- The plan under review and the best one are the same, if the state holds both. -/
def SessionState.HoldsOnePlan (s : SessionState) : Prop :=
  ∀ current ∈ s.currentPlan, ∀ best ∈ s.bestPlan, best = current

/-- A session that is answered from its stored state is always answered alike. -/
theorem again_eq_of_stored (hplans : s.HoldsPlans Plan.IsPlain) (hscores : s.HoldsScores)
    {now : String} {result : LoopResult} (hresult : s.settled.storedResult now = .ok result) :
    (∀ now, s.settled.storedResult now = .ok result) ∧ s.Repeats result result ∧
      result.status = s.status.settled := by
  obtain ⟨plan, best, review, -, -, -, hcurrent, hbest, hstored⟩ := exists_answer hplans hscores
  rw [hstored] at hresult
  cases hresult
  have hstatus := s.status.settled_settled
  refine ⟨hstored, ⟨?_, ?_⟩, rfl⟩
  · change _ = { s.settled.result _ review with status := s.status.settled.settled }
    rw [hstatus]
    rfl
  · rw [← hcurrent, ← hbest, ← Option.map_or]
    rfl

/-- Of two readable plans, the first one is the same either way only if the state holds one. -/
theorem or_comm_iff_holdsOnePlan {plan best : Option Plan} {now : String}
    (hplan : s.plan now = .ok plan) (hbest : s.best now = .ok best)
    (hcurrent : plan.map Plan.fields = s.currentPlan)
    (hbestPlan : best.map Plan.fields = s.bestPlan) :
    plan.or best = best.or plan ↔ s.HoldsOnePlan := by
  rw [or_comm_iff]
  unfold SessionState.HoldsOnePlan
  rw [← hcurrent, ← hbestPlan]
  constructor
  · rintro hone _ hfs _ hgs
    obtain ⟨p, hp, rfl⟩ := Option.mem_map.1 hfs
    obtain ⟨q, hq, rfl⟩ := Option.mem_map.1 hgs
    rw [hone p hp q hq]
  · intro hone p hp q hq
    have hfields := hone _ (Option.mem_map_of_mem _ hp) _ (Option.mem_map_of_mem _ hq)
    -- Equal documents are read as equal plans.
    have hdocuments : s.currentPlan = s.bestPlan := by
      rw [← hcurrent, ← hbestPlan, hp, hq, Option.map_some, Option.map_some, hfields]
    rw [SessionState.plan, hdocuments] at hplan
    have hplans := hplan.symm.trans hbest
    rw [hp, hq] at hplans
    cases hplans
    rfl

/-- The plan that a finished session is answered with is the one that it ended with, but for best
effort, where the state has to hold only one. -/
theorem or_eq_finalPlan_iff (hscores : s.HoldsScores) (hend : s.status.kind.IsEnd)
    (hcompleted : s.status.kind = .completed → s.currentPlan ≠ none)
    (hstopped : s.status.kind = .hardStopped → ¬ 0.0 < s.bestScore) {plan best : Option Plan}
    {now : String} (hplan : s.plan now = .ok plan) (hbest : s.best now = .ok best)
    (hcurrent : plan.map Plan.fields = s.currentPlan)
    (hbestPlan : best.map Plan.fields = s.bestPlan) :
    plan.or best = (if s.status.kind = .bestEffort then best.or plan else plan) ↔
      (s.status.kind = .bestEffort → s.HoldsOnePlan) := by
  rcases hend with hkind | hkind | hkind
  · have hnone := hcompleted hkind
    rw [hkind, if_neg (by decide)]
    cases plan with
    | none => exact absurd hcurrent.symm hnone
    | some p => exact ⟨fun _ => nofun, fun _ => rfl⟩
  · rw [hkind, if_pos rfl, or_comm_iff_holdsOnePlan hplan hbest hcurrent hbestPlan]
    exact ⟨fun hone _ => hone, fun hone => hone rfl⟩
  · have hnone : s.bestPlan = none := by
      by_contra hne
      exact hstopped hkind (hscores.positive hne)
    rw [hkind, if_neg (by decide)]
    rw [hnone, Option.map_eq_none_iff] at hbestPlan
    rw [hbestPlan, Option.or_none]
    exact ⟨fun _ => nofun, fun _ => rfl⟩

/-- What a run has answered with, is answered again with the status as a file holds it; with
another plan if the run ended with best effort, and its best plan is not the last one. -/
theorem again_eq_iff (hplans : s.HoldsPlans Plan.IsPlain) (hscores : s.HoldsScores)
    (hend : s.status.kind.IsEnd) (hcompleted : s.status.kind = .completed → s.currentPlan ≠ none)
    (hstopped : s.status.kind = .hardStopped → ¬ 0.0 < s.bestScore) {now : String}
    {plan : Option Plan} {review : Option Review} (hplan : finalPlan s now = .ok plan)
    (hreview : s.lastReview = .ok review) :
    ∃ again, (∀ now, s.settled.storedResult now = .ok again) ∧
      s.Repeats (s.result plan review) again ∧
      (again = s.result plan review ↔ s.status.settled = s.status ∧
        (s.status.kind = .bestEffort → s.HoldsOnePlan)) := by
  obtain ⟨current, best, review', hread, hreadBest, hreview', hcurrent, hbest, hstored⟩ :=
    exists_answer hplans hscores
  rw [hreview] at hreview'
  cases hreview'
  rw [finalPlan_of_plans (hread now) (hreadBest now)] at hplan
  cases hplan
  have hsame := or_eq_finalPlan_iff hscores hend hcompleted hstopped (hread now) (hreadBest now)
    hcurrent hbest
  refine ⟨_, hstored, ⟨rfl, ?_⟩, fun heq => ⟨?_, ?_⟩, fun ⟨hstatus, hplan⟩ => ?_⟩
  · rw [← hcurrent, ← hbest, ← Option.map_or]
    rfl
  · exact congrArg LoopResult.status heq
  · exact hsame.1 (congrArg LoopResult.finalPlan heq)
  · rw [← hsame.2 hplan]
    change { s.result (current.or best) review with status := s.status.settled } = _
    rw [hstatus]
    rfl

/-! ## Run again -/

/-- A session whose run has left it finished, is answered from the state that is stored. -/
theorem run_again {c' : Controller} {request' : Request} {result again : LoopResult}
    (hdir : c'.dir = c.dir) (hregistry : c'.registry = c.registry) (hrequest : request'.AsksOnly)
    (hrun : (c.run request w).result = .ok result)
    (hfile : (c.run request w).workspace.files.Holds
      ((SessionState.filePath c.dir).resolve (c.run request w).workspace.files.cwd)
      (.text s.storedText))
    (hscores : s.HoldsScores) (hend : s.status.kind.IsEnd)
    (hagain : ∀ now, s.settled.storedResult now = .ok again) (later : Instant) :
    (c'.run request' { (c.run request w).workspace with now := later }).result = .ok again := by
  obtain ⟨hready, hholds, htaken, hlocks⟩ := run_ready hrun
  generalize c.run request w = report at hready hlocks hfile ⊢
  have hcwd := hready.cwd_eq
  rw [SessionState.resolve_filePath, ← hdir] at hfile
  rw [← hcwd, ← hdir, ← hlocks] at hholds htaken
  rw [← hregistry] at hholds
  rw [← hcwd, ← hdir] at hready
  have hload := SessionState.load_stored hfile hscores.best.isFinite later.text
  exact run_idle (s := s.settled) (w := { report.workspace with now := later }) hrequest hend
    ⟨rfl, hready.directory, hready.file⟩ hholds htaken hload (hagain _)

/-- A session that is answered at once is answered from the state that is stored. -/
theorem enter_stored {start : FileTree} (request : Request)
    (h : w.Keeps c.dir Plan.IsPlain Decimal.InUnit start) :
    Ends (enter c request) w
      (fun entry w' => match entry with
        | .idle result => w' = w ∧ ∃ s : SessionState, s.HoldsPlans Plan.IsPlain ∧
            s.HoldsScores ∧ w.files.Holds ((SessionState.filePath c.dir).resolve w.files.cwd)
              (.text s.storedText) ∧ s.settled.storedResult w.now.text = .ok result
        | .running _ _ => True)
      fun _ _ => True := by
  obtain ⟨saves, s, hchronicle, hpast⟩ := h
  have hnode := hchronicle.node
  unfold stateKey at hnode
  rw [← hchronicle.cwd_eq] at hnode
  rw [ends_enter]
  cases hload : SessionState.load w.files w.now.text c.dir with
  | error e => exact True.intro
  | ok stored =>
    dsimp only
    split
    · rename_i hidle
      cases hlast : saves.getLast? with
      | none =>
        rw [hlast] at hnode
        rw [SessionState.load_of_none _ hnode] at hload
        cases hload
        have hnew : request.isIdle (request.session c.artifacts.slug w.now.text none) = false := rfl
        rw [hnew] at hidle
        cases hidle
      | some t =>
        rw [hlast] at hnode
        obtain ⟨-, rfl⟩ := SessionState.eq_settled_of_load hnode hload
        obtain ⟨dir, hsession⟩ := session_eq request c.artifacts.slug w.now.text t.settled
        rw [hsession]
        split
        · exact True.intro
        · rename_i result hresult
          have hmem := List.mem_of_getLast? hlast
          refine ⟨rfl, t, ?_, ?_, ?_, hresult⟩
          · exact (hpast.of_stable (SessionState.stable_holdsPlans
              SessionState.isKept_isPlain)).2 t hmem
          · exact (hpast.of_stable SessionState.stable_holdsScores).2 t hmem
          · rw [SessionState.resolve_filePath]
            exact SessionState.holds_of_load hnode hload
    · split
      · exact True.intro
      · exact Ends.trivial _

/-- A visit whose planner and reviewer answer as the types of their answers have it : the
parameters of a plan do not repeat a key, and a score is one from zero to one. -/
structure Visit.IsTyped (v : Visit) : Prop where
  plans : ∀ n ctx now p, (v.controller.planner n ctx).answer now = .ok p → p.IsPlain
  scores : ∀ n p ctx now review, (v.controller.reviewer n p ctx).answer now = .ok review →
    Decimal.InUnit review.score
  resumes : ∀ q ∈ v.request.resume, q.plan.IsPlain

theorem Plan.IsPlain.succeeding {p : Plan} (h : p.IsPlain) (prior : Option Plan) (iteration : Int)
    (now : String) : (p.succeeding prior iteration now).IsPlain := by
  unfold Plan.succeeding
  dsimp only
  split
  · exact h
  · split <;> exact h

theorem Visit.IsTyped.fits {v : Visit} (h : v.IsTyped) {dir : Path}
    (hdir : v.controller.dir = dir) : v.Fits dir Plan.IsPlain Decimal.InUnit :=
  ⟨hdir, ⟨fun n ctx now p hp prior iteration time =>
    (h.plans n ctx now p hp).succeeding prior iteration time, h.scores⟩, h.resumes⟩

/-- The visit gets the lock of the session and makes iterations on it. -/
def Visit.Iterates (v : Visit) (w : Workspace) : Prop :=
  ∃ w₁ s resume w₂,
    Lock.acquire v.controller.registry v.controller.dir
      { w with now := v.now, locks := v.locks } = (.ok (), w₁) ∧
    enter v.controller v.request w₁ = (.ok (.running s resume), w₂)

/-- A visit that leaves a session finished is answered again, by any later run that asks for
nothing else, from the state that it has stored. That answer is the same one, provided that a file
holds the numbers of its status, and that a run that ended with best effort has no better plan than
the one under review. -/
theorem again_of_visited {files : FileTree} {visits : List Visit} {v : Visit} (now later : Instant)
    (hfile : files.has (SessionState.filePath v.controller.dir) = false)
    (hvisits : ∀ u ∈ visits, u.controller.dir = v.controller.dir ∧ u.IsTyped) (hv : v.IsTyped)
    {report : Report} (hreport : v.report (visited visits (.untouched files now)) = report)
    {result : LoopResult} (hresult : report.result = .ok result)
    (hend : result.status.kind.IsEnd) {c : Controller} (hdir : c.dir = v.controller.dir)
    (hregistry : c.registry = v.controller.registry) {request : Request}
    (hrequest : request.AsksOnly) :
    ∃ (s : SessionState) (again : LoopResult),
      report.workspace.files.Holds ((SessionState.filePath v.controller.dir).resolve
        report.workspace.files.cwd) (.text s.storedText) ∧
      (c.run request { report.workspace with now := later }).result = .ok again ∧
      s.Repeats result again ∧
      (again = result ↔ result.status.settled = result.status ∧
        (v.Iterates (visited visits (.untouched files now)) →
          result.status.kind = .bestEffort → s.HoldsOnePlan)) := by
  subst hreport
  have hfits (u) (hu : u ∈ visits) := (hvisits u hu).2.fits (hvisits u hu).1
  have hkept := visited_keeps hfits (Workspace.keeps_untouched now hfile)
  generalize visited visits (.untouched files now) = w at hkept hresult ⊢
  have hkeeps : ({ w with now := v.now, locks := v.locks } : Workspace).Keeps v.controller.dir
      Plan.IsPlain Decimal.InUnit files := by
    obtain ⟨saves, s, hchronicle, hpast⟩ := hkept
    exact ⟨saves, s, hchronicle.spares (Workspace.spares_of_eq rfl rfl), hpast⟩
  have hagain {s : SessionState} {again : LoopResult} := @run_again v.controller v.request s
    { w with now := v.now, locks := v.locks } c request result again hdir hregistry hrequest
    hresult
  obtain ⟨w₁, hacquire, hrun⟩ := run_of_ok hresult
  have hkeeps₁ := (acquire_keeps hkeeps).of_ok hacquire
  rcases hrun with ⟨w₂, henter, heq⟩ | ⟨s₂, resume, w₂, r, henter, hdrive, heq⟩
  · obtain ⟨rfl, s, hplans, hscores, hholds, hstored⟩ :=
      (enter_stored v.request hkeeps₁).of_ok henter
    obtain ⟨hstored', hrepeats, hstatus⟩ := again_eq_of_stored hplans hscores hstored
    have hfile' : (v.report w).workspace.files.Holds ((SessionState.filePath
        v.controller.dir).resolve (v.report w).workspace.files.cwd) (.text s.storedText) := by
      rw [Visit.report, heq]
      exact hholds
    have hsend : s.status.kind.IsEnd := by
      rw [hstatus] at hend
      exact hend
    refine ⟨s, result, hfile', hagain hfile' hscores hsend hstored' later, hrepeats,
      fun _ => ⟨?_, ?_⟩, fun _ => rfl⟩
    · rw [hstatus, Status.settled_settled]
    · rintro ⟨w₁', s', resume, w₂', hacquire', henter'⟩
      rw [hacquire] at hacquire'
      cases hacquire'
      rw [henter] at henter'
      cases henter'
  · have hentered := (enter_keeps v.request hv.resumes hkeeps₁).of_ok henter
    have hstands := (enter_stands SessionState.isKept_isPlain v.request hkeeps₁).of_ok henter
    obtain ⟨saves, -, -, hpast⟩ :=
      (drive_keeps (hv.fits rfl).delivers resume hentered).of_ok hdrive
    have hplans := hpast.holdsPlans SessionState.isKept_isPlain
    have hscores := hpast.holdsScores
    obtain ⟨hholds, ⟨plan, review, rfl, ⟨time, hplan⟩, hreview⟩, happroval, hstopped⟩ :=
      (drive_concludes hstands).of_ok hdrive
    have hlast : r.state.lastReview = .ok review := by
      rcases hreview with ⟨last, rfl, hlast⟩ | hlast
      · exact hscores.lastReview_eq hlast
      · exact hlast
    have hcompleted (hkind : r.state.status.kind = .completed) : r.state.currentPlan ≠ none := by
      obtain ⟨p, ctx, last, happroved, -⟩ := happroval hkind
      rw [happroved.current]
      exact Option.some_ne_none _
    obtain ⟨again, hstored, hrepeats, hiff⟩ :=
      again_eq_iff hplans hscores hend hcompleted hstopped hplan hlast
    have hfile' : (v.report w).workspace.files.Holds ((SessionState.filePath
        v.controller.dir).resolve (v.report w).workspace.files.cwd)
        (.text r.state.storedText) := by
      rw [Visit.report, heq]
      exact hholds
    have hiterates : v.Iterates w := ⟨w₁, s₂, resume, w₂, hacquire, henter⟩
    refine ⟨r.state, again, hfile', hagain hfile' hscores hend hstored later, hrepeats,
      hiff.trans (and_congr_right fun _ => ?_)⟩
    exact ⟨fun h _ => h, fun h => h hiterates⟩

/-- A visit with time for two plans, of which the reviewer likes the first one better. -/
def wavering : Visit where
  controller := {
    planner := fun n _ => {
      answer := fun now => .ok { soundPlan now with title := if n = 0 then "First" else "Second" } }
    reviewer := fun n _ _ => {
      answer := fun _ => .ok { assessment := { score := if n = 0 then 0.6 else 0.5 } } }
    artifacts := {
      sessionDir := .ofParts ["home", "runs"]
      activeDir := .ofParts ["home", "active"]
      slug := "demo" }
    limits := { maxIterations := 2 } }
  request := { task := "demo" }
  now := .ofCivil 2024 5 17 12 0 0 0

theorem wavering_isTyped : wavering.IsTyped where
  plans n ctx now p h := by
    cases h
    exact fun i hi => absurd hi List.not_mem_nil
  scores n p ctx now review h := by
    cases h
    change Decimal.InUnit (if n = 0 then 0.6 else 0.5)
    split <;> exact ⟨by decide +kernel, by decide +kernel⟩
  resumes _ hq := by cases hq

/-- Such a visit can be answered again. -/
theorem again_of_wavering :
    bareTree.has (SessionState.filePath wavering.controller.dir) = false ∧ wavering.IsTyped ∧
    ({ task := "demo" } : Request).AsksOnly ∧
    ∃ report result, wavering.report (visited [] (.untouched bareTree ⟨0⟩)) = report ∧
      report.result = .ok result ∧ result.status.kind.IsEnd ∧
      ∃ (s : SessionState) (again : LoopResult),
        report.workspace.files.Holds ((SessionState.filePath wavering.controller.dir).resolve
          report.workspace.files.cwd) (.text s.storedText) ∧
        (wavering.controller.run { task := "demo" } { report.workspace with now := ⟨1⟩ }).result =
          .ok again ∧
        s.Repeats result again ∧
        (again = result ↔ result.status.settled = result.status ∧
          (wavering.Iterates (visited [] (.untouched bareTree ⟨0⟩)) →
            result.status.kind = .bestEffort → s.HoldsOnePlan)) := by
  have hfile : bareTree.has (SessionState.filePath wavering.controller.dir) = false := by decide
  have hasks : ({ task := "demo" } : Request).AsksOnly := ⟨rfl, rfl, rfl⟩
  have hkind : (wavering.report (visited [] (.untouched bareTree ⟨0⟩))).kind? =
      some .bestEffort := by decide +kernel
  obtain ⟨result, hresult, hbest⟩ := Report.exists_of_kind? hkind
  have hend : result.status.kind.IsEnd := .inr (.inl hbest)
  exact ⟨hfile, wavering_isTyped, hasks, _, result, rfl, hresult, hend,
    again_of_visited ⟨0⟩ ⟨1⟩ hfile (List.forall_mem_nil _) wavering_isTyped rfl hresult hend rfl rfl
      hasks⟩

end PlanReview
