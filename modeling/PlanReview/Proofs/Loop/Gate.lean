import PlanReview.Proofs.Loop.Waiting

/-!
# The approval gate

Where the conditions that a plan meets need a human's approval, no run completes a session without
it : for every condition of the final plan an approval is kept with the state (`drive_approvals`).
And what was approved once is not asked for again : no state that is saved waits for the approval of
a condition that a human has approved (`SessionState.Move.asksAnew`, `Request.Enters.asksAnew`).
Both hold of all runs on a session, whatever planner, reviewer and human answer
(`gate_of_visited`).
-/

namespace PlanReview

open Workspace

variable {c : Controller} {good : Plan → Prop} {s t : SessionState} {r r' : Run} {w : Workspace}
  {resume : Option Resume} {result : LoopResult}

/-! ## Questions -/

namespace SessionState

/-- A session that waits for the approval of a condition has not been given it before. -/
def AsksAnew (s : SessionState) : Prop :=
  ∀ h ∈ s.pendingHumanInput, h.category = "clarification" ∨ ¬ s.HasApproved h.category

theorem asksAnew_of_none (h : s.pendingHumanInput = none) : s.AsksAnew := by
  intro q hq
  rw [h] at hq
  cases hq

/-- It depends on the question and the answers only. -/
theorem AsksAnew.of_eq (hs : s.AsksAnew) (hpending : t.pendingHumanInput = s.pendingHumanInput)
    (hinputs : t.humanInputs = s.humanInputs) : t.AsksAnew := by
  intro h hh
  rw [hpending] at hh
  unfold HasApproved
  rw [hinputs]
  exact hs h hh

theorem Move.asksAnew (h : s.Move c good t) (hs : s.AsksAnew) : t.AsksAnew := by
  obtain ⟨hinputs, hsettles⟩ := h.settles
  cases hsettles with
  | unreviewed _ _ hpending _ _ => exact hs.of_eq hpending hinputs
  | asked j q _ _ _ hpending hcategory _ =>
    intro q' hq'
    cases hpending.symm.trans (Option.mem_def.1 hq')
    exact .inl hcategory
  | gated j q _ _ _ _ _ hpending hunapproved _ =>
    intro q' hq'
    cases hpending.symm.trans (Option.mem_def.1 hq')
    exact .inr hunapproved
  | revised j _ _ _ _ hpending _ => exact hs.of_eq hpending hinputs
  | approved j _ _ _ _ hpending _ _ => exact hs.of_eq hpending hinputs

end SessionState

/-- What is loaded at the beginning of a run has the question and the answers of what was saved. -/
theorem asksAnew_session {o : Option SessionState} (request : Request) (slug now : String)
    (ho : ∀ s ∈ o, s.AsksAnew) :
    (request.session slug now (o.map SessionState.settled)).AsksAnew := by
  cases o with
  | none => exact SessionState.asksAnew_of_none rfl
  | some s =>
    obtain ⟨dir, hsession⟩ := session_eq request slug now s.settled
    rw [Option.map_some, hsession]
    exact (ho s rfl).of_eq rfl rfl

theorem Request.Enters.asksAnew {request : Request} {o : Option SessionState}
    (h : request.Enters c o t) (ho : ∀ s ∈ o, s.AsksAnew) : t.AsksAnew := by
  obtain ⟨-, now, s, resume, -, htake, rfl⟩ := h
  have hloaded := asksAnew_session request c.artifacts.slug now ho
  have htaken : s.AsksAnew := by
    rcases takeUp_cases htake with ⟨q, -, rfl⟩ | ⟨hpending, rfl⟩ | ⟨response, rfl⟩
    · exact hloaded.of_eq rfl rfl
    · exact SessionState.asksAnew_of_none hpending
    · refine SessionState.asksAnew_of_none ?_
      unfold SessionState.answer SessionState.applyHumanResponse
      split
      · assumption
      · rfl
  unfold Request.start
  split <;> exact htaken.of_eq rfl rfl

/-! ## Completed runs -/

theorem Walks.exists_last {step : SessionState → SessionState → Prop} {way : List SessionState}
    (h : Walks step s way t) : t = s ∨ ∃ u, step u t := by
  induction h with
  | nil => exact .inl rfl
  | cons hstep _ ih =>
    rcases ih with rfl | hlast
    · exact .inr ⟨_, hstep⟩
    · exact .inr hlast

/-- Only an approval completes a session. -/
theorem SessionState.Settles.exists_approvals (h : s.Settles c t)
    (hrunning : s.status.kind = .running) (hcompleted : t.status.kind = .completed) :
    ∃ j : Judged, s.TakesIn c j t ∧ (c.requireApproval = true →
      ∀ k ∈ Guardrail.conditions c.thresholds j.plan.toJson
        (j.finalReview c.scoreThreshold).score t.iteration, t.HasApproved k.name) := by
  cases h with
  | unreviewed _ _ _ _ hstatus =>
    rw [hstatus hcompleted, hrunning] at hcompleted
    cases hcompleted
  | asked _ _ _ _ _ _ _ hkind => exact absurd hcompleted hkind
  | gated _ _ _ _ _ _ _ _ _ hkind => exact absurd hcompleted hkind
  | revised _ _ _ _ _ _ hstatus =>
    rw [hstatus, hrunning] at hcompleted
    cases hcompleted
  | approved j htakes _ _ _ _ _ happroved => exact ⟨j, htakes, happroved⟩

/-- The plan that a completed session ends with is the current one. -/
theorem finalPlan_of_completed {p : Plan} (hcurrent : s.currentPlan = some p.fields)
    (hcompleted : s.status.kind = .completed) (now : String) :
    finalPlan s now = .ok (some (p.mapParams Json.finite)) := by
  unfold finalPlan SessionState.plan
  rw [hcurrent, SessionState.readPlan_fields, hcompleted]
  rfl

/-- An answer has the score of the review that was stored last. -/
theorem Run.Concluded.exists_finalReview {review : Review} (h : r.Concluded c result)
    (hlast : r.state.reviews.getLast? = some review.fields) :
    ∃ final, result.finalReview = some final ∧ final.score = review.score := by
  obtain ⟨plan, o, rfl, -, ⟨final, rfl, hstored⟩ | hread⟩ := h.result
  · exact ⟨final, rfl, Review.score_of_fields (Option.some_inj.1 (hstored.symm.trans hlast))⟩
  · unfold SessionState.lastReview readReview at hread
    rw [hlast] at hread
    dsimp only at hread
    cases hdecode : Review.decode (.obj review.fields) with
    | bad issues =>
      rw [hdecode] at hread
      cases hread
    | ok final =>
      rw [hdecode] at hread
      cases hread
      exact ⟨final, rfl, by rw [Review.eq_of_decode hdecode]⟩

/-- A run that completes a session ends with a plan whose conditions a human has approved, if they
need it. -/
theorem drive_approvals (hstands : r.Stands resume) (hthere : r.workspace.HasState c.dir)
    (hrequire : c.requireApproval = true) (hdrive : drive c resume r = (.ok result, r'))
    (hcompleted : result.status.kind = .completed) :
    ∃ p review, result.finalPlan = some p ∧ result.finalReview = some review ∧
      ∀ k ∈ Guardrail.conditions c.thresholds p.toJson review.score result.totalIterations,
        r'.state.HasApproved k.name := by
  have hconcluded := (drive_concludes hstands).of_ok hdrive
  obtain ⟨plan, _, hresult, ⟨now, hplan⟩, -⟩ := hconcluded.result
  have hkind : r'.state.status.kind = .completed := by
    rw [hresult] at hcompleted
    exact hcompleted
  obtain ⟨starts, hloop, -⟩ := rounds_within_limits c resume r
  have hdrives : r.DrivesTo c (c.Steps (fun _ => True) resume starts) (drive c resume r) :=
    drive_saves hloop (fun _ _ _ _ _ _ _ _ => trivial) hstands hthere
  rw [hdrive] at hdrives
  obtain ⟨⟨way, hpasses⟩, -⟩ := hdrives
  -- the run was running at first, so it has made the move that completes the session
  obtain ⟨s, hstep⟩ : ∃ s, c.Steps (fun _ => True) resume starts s r'.state := by
    refine hpasses.walks.exists_last.resolve_left fun heq => ?_
    rw [heq, hstands.running] at hkind
    cases hkind
  obtain ⟨j, htakes, happroved⟩ := hstep.move.settles.2.exists_approvals hstep.running hkind
  rw [finalPlan_of_completed htakes.current hkind now] at hplan
  obtain ⟨review, hreview, hscore⟩ :=
    hconcluded.exists_finalReview (by rw [htakes.reviews, List.getLast?_concat])
  refine ⟨j.plan.mapParams Json.finite, review, ?_, hreview, ?_⟩
  · rw [hresult]
    exact (Except.ok.inj hplan).symm
  · rw [hscore, hresult, Plan.toJson, Plan.fields_mapParams_finite]
    exact happroved hrequire

/-! ## Whole sessions -/

variable {v : Visit}

/-- The run of a visit that is answered after some calls. -/
theorem Visit.exists_drive {report : Report} (hreport : v.report w = report)
    (hresult : report.result = .ok result) (hcalls : report.planned ≠ [] ∨ report.reviewed ≠ []) :
    ∃ r resume r', v.entered? w = some (r, resume) ∧
      drive v.controller resume r = (.ok result, r') ∧
      report.workspace.files = r'.workspace.files := by
  subst hreport
  cases hentered : v.entered? w with
  | none =>
    obtain ⟨-, hplanned, hreviewed⟩ := saves_nothing hentered
    rcases hcalls with hcalls | hcalls
    · exact absurd hplanned hcalls
    · exact absurd hreviewed hcalls
  | some entry =>
    obtain ⟨r, resume⟩ := entry
    obtain ⟨-, -, heq⟩ := exists_of_entered hentered
    rw [heq] at hresult ⊢
    rcases hdrive : drive v.controller resume r with ⟨out, r'⟩
    rw [hdrive] at hresult
    obtain rfl : out = .ok result := hresult
    exact ⟨r, resume, r', rfl, hdrive, rfl⟩

/-- Whatever runs a session has, from one without a stored state on : if a run in which conditions
need approval makes calls and is answered with a completed session, the stored state keeps an
approval for every condition that the final plan meets with its review. And of all states that were
saved, none waits for the approval of a condition that a human has approved before. -/
theorem gate_of_visited {files : FileTree} {visits : List Visit} (now : Instant)
    (hfile : files.has (SessionState.filePath v.controller.dir) = false)
    (hvisits : ∀ u ∈ visits, u.controller.dir = v.controller.dir) {report : Report}
    (hreport : v.report (visited visits (.untouched files now)) = report) :
    (v.controller.requireApproval = true → ∀ result, report.result = .ok result →
      result.status.kind = .completed → report.planned ≠ [] ∨ report.reviewed ≠ [] →
      ∃ p review, ∃ s : SessionState, result.finalPlan = some p ∧
        result.finalReview = some review ∧ s.iteration = result.totalIterations ∧
        report.workspace.files.Holds ((SessionState.filePath v.controller.dir).resolve
          report.workspace.files.cwd) (.text s.storedText) ∧
        ∀ k ∈ Guardrail.conditions v.controller.thresholds p.toJson review.score
          result.totalIterations, s.HasApproved k.name) ∧
    ∃ saves : List SessionState,
      files.versions ((SessionState.filePath v.controller.dir).resolve files.cwd)
        report.workspace.history = (saves.map fun s => .text s.storedText) ∧
      ∀ t ∈ saves, ∀ h ∈ t.pendingHumanInput,
        h.category = "clarification" ∨ ¬ t.HasApproved h.category := by
  constructor
  · intro hrequire result hresult hcompleted hcalls
    obtain ⟨r, resume, r', hentered, hdrive, hfiles⟩ := Visit.exists_drive hreport hresult hcalls
    have hkeeps := visited_keeps (fun u hu => Visit.fits (hvisits u hu))
      (Workspace.keeps_untouched now hfile)
    have hstands := Visit.stands_of_entered SessionState.isKept_true hkeeps hentered
    obtain ⟨p, review, hplan, hreview, happroved⟩ :=
      drive_approvals hstands (Visit.hasState_of_entered hentered) hrequire hdrive hcompleted
    have hconcluded := (drive_concludes hstands).of_ok hdrive
    obtain ⟨_, _, hspeaks, -⟩ := hconcluded.result
    refine ⟨p, review, r'.state, hplan, hreview, ?_, ?_, happroved⟩
    · rw [hspeaks]
      rfl
    · rw [hfiles]
      exact hconcluded.stored
  · obtain ⟨saves, hrecords⟩ : ∃ saves, (visited (visits ++ [v]) (.untouched files now)).Records
        v.controller.dir (fun o t => ∃ u : Visit, u.request.Enters u.controller o t)
        (fun s t => ∃ u : Visit, s.Move u.controller (fun _ => True) t) files saves :=
      visited_records now hfile (by simpa [or_imp, forall_and] using hvisits)
        (fun u _ o t henters => ⟨u, henters⟩) fun u _ => fun _ hmove => ⟨u, hmove⟩
    refine ⟨saves, ?_, ?_⟩
    · rw [SessionState.resolve_filePath, ← hreport]
      have hversions := hrecords.chronicle.versions
      unfold visited at hversions
      rw [List.foldl_append] at hversions
      exact hversions
    · exact hrecords.course.forall_mem (P := SessionState.AsksAnew)
        (fun o t ho ⟨u, henters⟩ => henters.asksAnew ho) fun s t hs ⟨u, hmove⟩ => hmove.asksAnew hs

/-- A visit like `approving`, in which conditions need approval and the plan meets one. -/
def guarded : Visit :=
  { approving with controller := { approving.controller with
      planner := fun _ _ => {
        answer := fun now => .ok { soundPlan now with title := "Rotate the token" } }
      requireApproval := true } }

/-- The visit after it, in which a human approves. -/
def consenting : Visit :=
  { guarded with request := { task := "demo", humanResponse := some "Go on" } }

/-- Neither planner nor reviewer asks a human. -/
theorem guarded_asks_none (request : HumanRequest) :
    ¬ guarded.controller.Raises (.humanInput request) := by
  rintro (⟨n, ctx, now, hanswer⟩ | ⟨n, p, ctx, now, hanswer⟩)
  · cases hanswer
  · cases hanswer

/-- The names of the conditions that the plan of an answer meets with its review. -/
def LoopResult.met (thresholds : Guardrail.Thresholds) (result : LoopResult) : List String :=
  match result.finalPlan, result.finalReview with
  | some p, some review =>
    (Guardrail.conditions thresholds p.toJson review.score result.totalIterations).map (·.name)
  | _, _ => []

/-- What the two visits come to : the first one waits for the approval of its condition, and the
second one completes the session. -/
theorem runs_of_guarded : ∃ request s,
    (guarded.report (.untouched bareTree ⟨0⟩)).result = .error (.humanInput request) ∧
    SessionState.load (guarded.report (.untouched bareTree ⟨0⟩)).workspace.files
      consenting.now.text guarded.controller.dir = .ok (some s) ∧
    s.pendingHumanInput.map (·.category) = some "security_sensitive" ∧
    (consenting.report (guarded.report (.untouched bareTree ⟨0⟩)).workspace).reviewed ≠ [] ∧
    ∃ result, (consenting.report (guarded.report (.untouched bareTree ⟨0⟩)).workspace).result =
        .ok result ∧ result.status.kind = .completed ∧
      result.met consenting.controller.thresholds = ["security_sensitive"] := by
  have hfile : bareTree.has (SessionState.filePath guarded.controller.dir) = false := by decide
  have hasked : (guarded.report (.untouched bareTree ⟨0⟩)).asked?.isSome = true := by
    decide +kernel
  have hstate : (guarded.lastState? (.untouched bareTree ⟨0⟩)).map (fun s =>
      (s.bestScore.isFinite, s.pendingHumanInput.map (·.category))) =
        some (true, some "security_sensitive") := by
    decide +kernel
  have hsecond : (fun report : Report => (report.reviewed.isEmpty, report.kind?,
      report.result.toOption.map (·.met consenting.controller.thresholds)))
        (consenting.reportWith
          ((guarded.lastState? (.untouched bareTree ⟨0⟩)).map SessionState.settled)
          (guarded.report (.untouched bareTree ⟨0⟩)).workspace) =
        (false, some .completed, some ["security_sensitive"]) := by
    decide +kernel
  obtain ⟨s, hlast, hs⟩ := Option.map_eq_some_iff.1 hstate
  obtain ⟨hfinite, hpending⟩ := Prod.mk.inj hs
  obtain ⟨request, hresult, hload⟩ :=
    Visit.load_of_asked hfile guarded_asks_none hasked hlast hfinite consenting.now.text
  rw [hlast, Option.map_some, ← Visit.report_eq_reportWith (v := consenting) hload] at hsecond
  obtain ⟨hreviewed, hkind, hmet⟩ := by simpa only [Prod.mk.injEq] using hsecond
  obtain ⟨result, hanswer, hcompleted⟩ := Report.exists_of_kind? hkind
  rw [hanswer] at hmet
  exact ⟨request, s.settled, hresult, hload, hpending, List.isEmpty_eq_false_iff.1 hreviewed,
    result, hanswer, hcompleted, Option.some.inj hmet⟩

/-- The first visit waits for the approval, and the second one completes the session with it. -/
theorem gate_of_consenting :
    bareTree.has (SessionState.filePath consenting.controller.dir) = false ∧
    (∀ u ∈ [guarded], u.controller.dir = consenting.controller.dir) ∧
    consenting.controller.requireApproval = true ∧
    (∃ request s, (guarded.report (visited [] (.untouched bareTree ⟨0⟩))).result =
        .error (.humanInput request) ∧
      SessionState.load (visited [guarded] (.untouched bareTree ⟨0⟩)).files consenting.now.text
        consenting.controller.dir = .ok (some s) ∧
      s.pendingHumanInput.map (·.category) = some "security_sensitive") ∧
    ∃ report result, consenting.report (visited [guarded] (.untouched bareTree ⟨0⟩)) = report ∧
      report.result = .ok result ∧ result.status.kind = .completed ∧ report.reviewed ≠ [] ∧
      (∃ p review, ∃ s : SessionState, result.finalPlan = some p ∧
        result.finalReview = some review ∧ s.iteration = result.totalIterations ∧
        report.workspace.files.Holds ((SessionState.filePath consenting.controller.dir).resolve
          report.workspace.files.cwd) (.text s.storedText) ∧
        (Guardrail.conditions consenting.controller.thresholds p.toJson review.score
          result.totalIterations).map (·.name) = ["security_sensitive"] ∧
        s.HasApproved "security_sensitive") ∧
      ∃ saves : List SessionState,
        bareTree.versions ((SessionState.filePath consenting.controller.dir).resolve bareTree.cwd)
          report.workspace.history = (saves.map fun s => .text s.storedText) ∧
        ∀ t ∈ saves, ∀ h ∈ t.pendingHumanInput,
          h.category = "clarification" ∨ ¬ t.HasApproved h.category := by
  have hfile : bareTree.has (SessionState.filePath consenting.controller.dir) = false := by decide
  have hdirs : ∀ u ∈ [guarded], u.controller.dir = consenting.controller.dir :=
    List.forall_mem_singleton.2 rfl
  obtain ⟨request, s, hasked, hload, hpending, hreviewed, result, hresult, hcompleted, hmet⟩ :=
    runs_of_guarded
  obtain ⟨hgate, hsaves⟩ := gate_of_visited ⟨0⟩ hfile hdirs rfl
  obtain ⟨p, review, t, hplan, hreview, hiteration, hheld, happroved⟩ :=
    hgate rfl result hresult hcompleted (.inr hreviewed)
  have hnames : (Guardrail.conditions consenting.controller.thresholds p.toJson review.score
      result.totalIterations).map (·.name) = ["security_sensitive"] := by
    rw [← hmet, LoopResult.met, hplan, hreview]
  obtain ⟨k, hk, hname⟩ : ∃ k ∈ Guardrail.conditions consenting.controller.thresholds p.toJson
      review.score result.totalIterations, k.name = "security_sensitive" := by
    rw [← List.mem_map, hnames]
    exact List.mem_singleton_self _
  exact ⟨hfile, hdirs, rfl, ⟨request, s, hasked, hload, hpending⟩, _, result, rfl, hresult,
    hcompleted, hreviewed, ⟨p, review, t, hplan, hreview, hiteration, hheld, hnames,
      hname ▸ happroved k hk⟩, hsaves⟩

end PlanReview
