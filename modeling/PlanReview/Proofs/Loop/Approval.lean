import PlanReview.Proofs.Loop.Ending

/-!
# Approved plans

A run that completes a session leaves an approved plan behind (`approval_of_completed`) : the plan
that was checked and reviewed in the last iteration is the one under review in the stored state, the
one in the file of that iteration and the final one, and its review is the last one stored. This
holds of sessions with any number of runs before, because what a run goes on from is the plan that
the stored state holds (`enter_stands`).
-/

namespace PlanReview

open Artifacts (jsonText)

variable {c : Controller} {good : Plan → Prop} {fair : Float → Prop} {start : FileTree}
  {s : SessionState} {w : Workspace}

/-! ## Entering -/

theorem start_eq (request : Request) (now : String) (s : SessionState) :
    (request.start now s).iteration = s.iteration ∧
      (request.start now s).currentPlan = s.currentPlan ∧
      (request.start now s).status.kind = .running := by
  unfold Request.start
  split <;> exact ⟨rfl, rfl, rfl⟩

/-- What a session goes on from is the plan that its state holds, for the next iteration. -/
theorem resumeFrom_follows (h : s.HoldsPlans good) {now : String} {feedback : List String}
    {resume : Option Resume} (hresume : s.resumeFrom now feedback = .ok resume) :
    ∀ q ∈ resume, q.startIteration = s.iteration + 1 ∧ s.currentPlan = some q.plan.fields := by
  unfold SessionState.resumeFrom at hresume
  cases hplan : s.plan now with
  | error e =>
    rw [hplan] at hresume
    cases hresume
  | ok p =>
    rw [hplan] at hresume
    cases hresume
    intro q hq
    obtain ⟨p, rfl, rfl⟩ := Option.map_eq_some_iff.1 hq
    exact ⟨rfl, h.fields_of_plan hplan⟩

theorem answer_eq (s : SessionState) (response : String) (approved : Bool) :
    (s.answer response approved).currentPlan = s.currentPlan ∧
      (s.answer response approved).bestPlan = s.bestPlan := by
  unfold SessionState.answer SessionState.applyHumanResponse
  split <;> exact ⟨rfl, rfl⟩

/-- A session that is taken up is set to the plan that it goes on from. -/
theorem takeUp_follows (request : Request) (h : s.HoldsPlans good) {now : String}
    {s' : SessionState} {resume : Option Resume}
    (htake : request.takeUp c now s = .ok (s', resume)) :
    ∀ q ∈ resume, q.startIteration ≤ s'.iteration ∨
      q.startIteration = s'.iteration + 1 ∧ s'.currentPlan = some q.plan.fields := by
  unfold Request.takeUp at htake
  split at htake
  · rename_i q _
    cases htake
    intro q' hq'
    cases hq'
    change q.startIteration ≤ max 0 (q.startIteration - 1) ∨
      q.startIteration = max 0 (q.startIteration - 1) + 1 ∧ _
    rcases Int.lt_or_le 0 q.startIteration with hlt | hle
    · exact .inr ⟨by omega, rfl⟩
    · exact .inl (by omega)
  · cases htake
  · cases hresume : s.resumeFrom now s.pendingFeedback with
    | error e =>
      rw [hresume] at htake
      cases htake
    | ok q =>
      rw [hresume] at htake
      cases htake
      exact fun q hq => .inr (resumeFrom_follows h hresume q hq)
  · rename_i response _ _
    obtain ⟨hcurrent, hbest⟩ := answer_eq s response request.approved
    dsimp only at htake
    cases hresume : (s.answer response request.approved).resumeFrom now
        (s.answer response request.approved).pendingFeedback with
    | error e =>
      rw [hresume] at htake
      cases htake
    | ok q =>
      rw [hresume] at htake
      cases htake
      exact fun q hq => .inr (resumeFrom_follows (h.of_eq hcurrent hbest) hresume q hq)

/-- A run that begins with a session that was taken up stands at its beginning. -/
theorem stands_of_takeUp (request : Request) (h : s.HoldsPlans good) {now : String}
    {s' : SessionState} {resume : Option Resume}
    (htake : request.takeUp c now s = .ok (s', resume)) (w : Workspace) (time : String) :
    ({ workspace := w, state := request.start time s' } : Run).Stands resume := by
  obtain ⟨hiteration, hcurrent, hrunning⟩ := start_eq request time s'
  refine ⟨fun _ hreview => ?_, hrunning, ?_⟩
  · cases hreview
  · rw [hiteration, hcurrent]
    exact fun q hq => (takeUp_follows request h htake q hq).imp_right
      (And.imp_right fun h _ => h)

/-- A run begins with the plan that the stored state holds, or with one given from outside. -/
theorem enter_stands (hgood : SessionState.IsKept good) (request : Request)
    (h : w.Keeps c.dir good fair start) :
    Ends (enter c request) w
      (fun entry w' => match entry with
        | .idle _ => True
        | .running s resume => ({ workspace := w', state := s } : Run).Stands resume)
      fun _ _ => True := by
  obtain ⟨saves, s, hchronicle, hpast⟩ := h
  rw [ends_enter]
  cases hload : SessionState.load w.files w.now.text c.dir with
  | error e => exact True.intro
  | ok stored =>
    obtain ⟨hfinite, rfl⟩ := stored_of_load hchronicle hload
    have hplans := (past_session request c.artifacts.slug w.now.text hpast hfinite).holdsPlans
      hgood
    dsimp only
    generalize request.session c.artifacts.slug w.now.text _ = s₁ at hplans
    split
    · split <;> exact True.intro
    · cases htake : request.takeUp c w.now.text s₁ with
      | error e => exact True.intro
      | ok result =>
        obtain ⟨s₂, resume⟩ := result
        exact (Ends.trivial _).mono
          (fun _ w' _ => stands_of_takeUp request hplans htake w' w.now.text) fun _ _ => id

/-! ## Answered runs -/

/-- A run that answers has the lock of its session, and either finds the session finished or makes
iterations. -/
theorem run_of_ok {request : Request} {result : LoopResult}
    (h : (c.run request w).result = .ok result) :
    ∃ w₁, Lock.acquire c.registry c.dir w = (.ok (), w₁) ∧
      ((∃ w₂, enter c request w₁ = (.ok (.idle result), w₂) ∧
        c.run request w = Report.released c { result := .ok result, workspace := w₂ }) ∨
      ∃ s resume w₂ r, enter c request w₁ = (.ok (.running s resume), w₂) ∧
        drive c resume { workspace := w₂, state := s } = (.ok result, r) ∧
        c.run request w = Report.released c {
          result := .ok result
          workspace := r.workspace
          planned := r.planned
          reviewed := r.reviewed }) := by
  unfold Controller.run at h ⊢
  rcases hacquire : Lock.acquire c.registry c.dir w with ⟨_ | _, w₁⟩
  · rw [hacquire] at h
    cases h
  · rw [hacquire] at h
    refine ⟨w₁, rfl, ?_⟩
    dsimp only at h ⊢
    rcases henter : enter c request w₁ with ⟨_ | ⟨result'⟩ | ⟨s, resume⟩, w₂⟩
    · rw [henter] at h
      cases h
    · rw [henter] at h
      cases h
      exact .inl ⟨w₂, rfl, rfl⟩
    · rw [henter] at h
      refine .inr ⟨s, resume, w₂, ?_⟩
      rcases hdrive : drive c resume { workspace := w₂, state := s } with ⟨result', r⟩
      dsimp only [Entry.run] at h ⊢
      rw [hdrive] at h ⊢
      obtain rfl : result' = .ok result := h
      exact ⟨r, rfl, rfl, rfl⟩

/-- A run on a session that makes iterations and is answered with a completed session has approved
the plan of its last iteration. The plan is the one that the stored state has under review, the one
in the file of that iteration, and the final one. -/
theorem approval_of_completed {files : FileTree} {visits : List Visit} {v : Visit} (now : Instant)
    (hfile : files.has (SessionState.filePath v.controller.dir) = false)
    (hvisits : ∀ u ∈ visits, u.controller.dir = v.controller.dir) {report : Report}
    (hreport : v.report (visited visits (.untouched files now)) = report) {result : LoopResult}
    (hresult : report.result = .ok result) (hcompleted : result.status.kind = .completed)
    (hcalls : report.planned ≠ [] ∨ report.reviewed ≠ []) :
    ∃ p ctx review s,
      Approval v.controller report.reviewed s report.workspace.files p ctx review ∧
      s.iteration = result.totalIterations ∧
      report.workspace.files.Holds ((SessionState.filePath v.controller.dir).resolve
        report.workspace.files.cwd) (.text s.storedText) ∧
      report.workspace.files.Holds (v.controller.artifacts.finalFile.resolve
        report.workspace.files.cwd) (.text (jsonText p.toJson)) := by
  subst hreport
  have hfits (u) (hu : u ∈ visits) := Visit.fits (hvisits u hu)
  obtain ⟨saves, s, hchronicle, hpast⟩ := visited_keeps hfits (Workspace.keeps_untouched now hfile)
  generalize visited visits (.untouched files now) = w at hchronicle hresult hcalls ⊢
  have hkeeps : ({ w with now := v.now, locks := v.locks } : Workspace).Keeps v.controller.dir
      (fun _ => True) (fun _ => True) files :=
    ⟨saves, s, hchronicle.spares (Workspace.spares_of_eq rfl rfl), hpast⟩
  obtain ⟨w₁, hacquire, hrun⟩ := run_of_ok hresult
  have hkeeps₁ := (acquire_keeps hkeeps).of_ok hacquire
  unfold Visit.report at hcalls ⊢
  rcases hrun with ⟨w₂, -, heq⟩ | ⟨s₂, resume, w₂, r, henter, hdrive, heq⟩
  · rw [heq] at hcalls
    rcases hcalls with hcalls | hcalls <;> exact absurd rfl hcalls
  · have hstands := (enter_stands SessionState.isKept_true v.request hkeeps₁).of_ok henter
    obtain ⟨hstored, ⟨plan, review, rfl, -⟩, happroval, -⟩ :=
      (drive_concludes hstands).of_ok hdrive
    obtain ⟨p, ctx, review', happroved, hfinal⟩ := happroval hcompleted
    rw [heq]
    exact ⟨p, ctx, review', r.state, happroved, rfl, hstored, hfinal⟩

/-- A plan that passes all checks. -/
def soundPlan (now : String) : Plan where
  title := "Demo"
  phases := [{
    name := "Only"
    checkpoints := [{ id := "1", tasks := [{ description := "Do it" }] }] }]
  acceptanceCriteria := [{ description := "It is done" }]
  metadata := { createdAt := now, lastUpdated := now }

/-- A visit in which the planner has a plan that passes, and the reviewer likes it. -/
def approving : Visit where
  controller := {
    planner := fun _ _ => { answer := fun now => .ok (soundPlan now) }
    reviewer := fun _ _ _ => { answer := fun _ => .ok { assessment := { score := 0.9 } } }
    artifacts := {
      sessionDir := .ofParts ["home", "runs"]
      activeDir := .ofParts ["home", "active"]
      slug := "demo" } }
  request := { task := "demo" }
  now := .ofCivil 2024 5 17 12 0 0 0

/-- The status that a report answers with. -/
def Report.kind? (report : Report) : Option StatusKind :=
  report.result.toOption.map (·.status.kind)

theorem eq_ok_of_toOption {ε α : Type} {e : Except ε α} {a : α} (h : e.toOption = some a) :
    e = .ok a := by
  cases e with
  | error _ => cases h
  | ok b =>
    cases h
    rfl

theorem Report.exists_of_kind? {report : Report} {kind : StatusKind}
    (h : report.kind? = some kind) :
    ∃ result, report.result = .ok result ∧ result.status.kind = kind := by
  obtain ⟨result, hresult, hkind⟩ := Option.map_eq_some_iff.1 h
  exact ⟨result, eq_ok_of_toOption hresult, hkind⟩

/-- What a report asks a human. -/
def Report.asked? (report : Report) : Option HumanRequest :=
  match report.result with
  | .error (.humanInput request) => some request
  | _ => none

theorem Report.result_of_asked? {report : Report} {request : HumanRequest}
    (h : report.asked? = some request) : report.result = .error (.humanInput request) := by
  unfold Report.asked? at h
  split at h
  · cases h
    assumption
  · cases h

/-- The plan of such a visit is approved. -/
theorem approval_of_approving :
    bareTree.has (SessionState.filePath approving.controller.dir) = false ∧
    ∃ report result, approving.report (visited [] (.untouched bareTree ⟨0⟩)) = report ∧
      report.result = .ok result ∧ result.status.kind = .completed ∧ report.reviewed ≠ [] ∧
      ∃ p ctx review s,
        Approval approving.controller report.reviewed s report.workspace.files p ctx review ∧
        s.iteration = result.totalIterations ∧
        report.workspace.files.Holds ((SessionState.filePath approving.controller.dir).resolve
          report.workspace.files.cwd) (.text s.storedText) ∧
        report.workspace.files.Holds (approving.controller.artifacts.finalFile.resolve
          report.workspace.files.cwd) (.text (jsonText p.toJson)) := by
  have hfile : bareTree.has (SessionState.filePath approving.controller.dir) = false := by decide
  have hkind : (approving.report (visited [] (.untouched bareTree ⟨0⟩))).kind? =
      some .completed := by decide +kernel
  have hreviewed : (approving.report
      (visited [] (.untouched bareTree ⟨0⟩))).reviewed.isEmpty = false := by decide +kernel
  obtain ⟨result, hresult, hcompleted⟩ := Report.exists_of_kind? hkind
  rw [List.isEmpty_eq_false_iff] at hreviewed
  exact ⟨hfile, _, result, rfl, hresult, hcompleted, hreviewed,
    approval_of_completed ⟨0⟩ hfile (List.forall_mem_nil _) rfl hresult hcompleted
      (.inr hreviewed)⟩

end PlanReview
