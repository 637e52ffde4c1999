import PlanReview.Proofs.Loop.Best

/-!
# Ending with best effort

A loop that a limit has stopped leaves the session with best effort if its best score is positive,
and stopped for good otherwise. In the first case the run answers with the best plan and writes it
to the final file, unless a file cannot be written (`drive_promotes`). Together with the log of the
reviews (`Course.exists_log`) this says of all runs on a session what becomes of the best plan
(`best_of_visited`).
-/

namespace PlanReview

open RunM Workspace
open Artifacts (jsonText)

variable {c : Controller} {r r' : Run} {w : Workspace} {plan : Plan}

/-! ## The end of a run -/

/-- The end of a run answers with its plan, and leaves the other files of the session alone. -/
theorem conclude_promotes {key : List String} {content : Content} (plan : Option Plan)
    (haside : IsAside c.dir r.workspace.files.cwd key) (hheld : r.workspace.files.Holds key content)
    (hreview : ∃ review, r.state.lastReview = .ok review) :
    Ends (conclude c plan) r
      (fun result r' => result.finalPlan = plan ∧
        r'.workspace.files.cwd = r.workspace.files.cwd ∧ r'.workspace.files.Holds key content)
      fun f _ => f.IsFileFault := by
  obtain ⟨review, hreview⟩ := hreview
  have hlast : r.state.updateSummary.lastReview = .ok review := hreview
  rw [ends_conclude, ends_save, ends_onWorkspace]
  refine ((save_leaves c.dir r.state.updateSummary r.workspace).and
    ((SessionState.byFiles_save c.dir r.state.updateSummary).fails r.workspace)).mono
      (fun _ w ⟨⟨hleaves, _⟩, _⟩ => ?_) fun _ _ h => h.2
  have hstays := hleaves.holds _ _ haside hheld
  split
  · exact ⟨rfl, hleaves.cwd, hstays⟩
  · split
    · exact ⟨rfl, hleaves.cwd, hstays⟩
    · rename_i hunread
      cases hlast.symm.trans hunread

/-- A run that ends with a plan writes it to the final file, and answers with it. -/
theorem finish_promotes (hplan : finalPlan r.state r.now = .ok (some plan))
    (hreview : ∃ review, r.state.lastReview = .ok review) :
    Ends (finish c) r
      (fun result r' => result.finalPlan = some plan ∧ r'.workspace.files.Holds
        (c.artifacts.finalFile.resolve r'.workspace.files.cwd) (.text (jsonText plan.toJson)))
      fun f _ => f.IsFileFault := by
  rw [ends_finish, hplan]
  dsimp only
  rw [ends_onWorkspace]
  refine ((writeFinal_leaves c plan _ _ r.workspace).and
    ((c.artifacts.byFiles_writeFinal plan _ _).fails r.workspace)).mono
      (fun _ w ⟨⟨hleaves, hfinal⟩, _⟩ => ?_) fun _ _ h => h.2
  rw [← hleaves.cwd] at hfinal
  refine (conclude_promotes (r := { r with workspace := w }) (some plan)
    (isAside_finalFile c w.files.cwd) hfinal hreview).mono
      (fun _ r' ⟨hresult, hcwd, hheld⟩ => ⟨hresult, ?_⟩) fun _ _ => id
  rw [hcwd]
  exact hheld

/-- So does a run that has made its iterations. -/
theorem drive_promotes {resume : Option Resume}
    (hrounds : rounds c resume (c.iterationsLeft r.state) r = (.ok (), r'))
    (hplan : finalPlan r'.state r'.now = .ok (some plan))
    (hreview : ∃ review, r'.state.lastReview = .ok review) :
    Ends (drive c resume) r
      (fun result r' => result.finalPlan = some plan ∧ r'.workspace.files.Holds
        (c.artifacts.finalFile.resolve r'.workspace.files.cwd) (.text (jsonText plan.toJson)))
      fun f _ => f.IsFileFault := by
  have hrecord (r : Run) := (record_leaves r.tally c.dir r.state.outcome r.workspace
    (fun key (hkey : IsAside c.dir r.workspace.files.cwd key) => hkey.metrics)).and
      ((r.tally.byFiles_record c.dir r.state.outcome).fails r.workspace)
  have hfaulty {r : Run} {f : Failure} (hfault : f.IsFileFault) :
      Ends (recordMetrics c) r
        (fun _ _ => f.IsFileFault) fun f _ => f.IsFileFault := by
    rw [ends_recordMetrics, ends_onWorkspace]
    exact (hrecord r).mono (fun _ _ _ => hfault) fun _ _ h => h.2
  rw [ends_drive, ends_of_ok hrounds]
  refine (finish_promotes hplan hreview).mono (fun result r₁ ⟨hresult, hheld⟩ => ?_)
    fun _ _ => hfaulty
  rw [ends_recordMetrics, ends_onWorkspace]
  refine (hrecord r₁).mono (fun _ w₂ ⟨hleaves, _⟩ => ⟨hresult, ?_⟩) fun _ _ h => h.2
  change w₂.files.Holds _ _
  rw [hleaves.cwd]
  exact hleaves.holds _ _ (isAside_finalFile c _) hheld

/-! ## The end of a loop -/

/-- The run of a visit at the end of its loop, if the visit makes iterations and none of them
fails. -/
def Visit.loopEnd? (v : Visit) (w : Workspace) : Option Run :=
  match v.entered? w with
  | none => none
  | some (r, resume) =>
    match rounds v.controller resume (v.controller.iterationsLeft r.state) r with
    | (.ok (), r') => some r'
    | (.error _, _) => none

theorem Visit.exists_of_loopEnd {v : Visit} (h : r' ∈ v.loopEnd? w) : ∃ r resume,
    v.entered? w = some (r, resume) ∧
      rounds v.controller resume (v.controller.iterationsLeft r.state) r = (.ok (), r') := by
  unfold loopEnd? at h
  split at h
  · cases h
  · rename_i r resume hentered
    split at h
    · rename_i r'' hrounds
      cases h
      exact ⟨r, resume, hentered, hrounds⟩
    · cases h

/-- What a limit makes of a session : with a best plan it ends with best effort, and without one it
is stopped for good. -/
theorem SessionState.TracksBest.of_leads {s t : SessionState} {log : List Reviewed}
    (hbest : t.TracksBest log) (h : s.Leads t) (hrunning : s.status.kind = .running) :
    (t.status.kind = .bestEffort → 0.0 < t.bestScore ∧ t.bestPlan ≠ none) ∧
      (t.status.kind = .hardStopped → t.bestScore = 0.0) := by
  have hother {kind : StatusKind} (hkind : t.status.kind = kind) (heffort : kind ≠ .bestEffort)
      (hstop : kind ≠ .hardStopped) :
      (t.status.kind = .bestEffort → 0.0 < t.bestScore ∧ t.bestPlan ≠ none) ∧
        (t.status.kind = .hardStopped → t.bestScore = 0.0) :=
    ⟨fun h => absurd (hkind.symm.trans h) heffort, fun h => absurd (hkind.symm.trans h) hstop⟩
  cases h with
  | on hstatus _ =>
    exact hother ((congrArg Status.kind hstatus).trans hrunning) (by decide) (by decide)
  | asks _ hkind _ _ => exact hother hkind (by decide) (by decide)
  | fails hkind _ => exact hother hkind (by decide) (by decide)
  | completes hkind _ => exact hother hkind (by decide) (by decide)
  | promotes hkind _ hpositive =>
    refine ⟨fun _ => ⟨hpositive, fun hnone => ?_⟩, fun h => ?_⟩
    · rw [hbest.none_iff.1 hnone] at hpositive
      exact absurd hpositive (by decide +kernel)
    · cases hkind.symm.trans h
  | stops hkind _ hnot =>
    refine ⟨fun h => ?_, fun _ => ?_⟩
    · cases hkind.symm.trans h
    · by_contra hne
      exact hnot (hbest.first hne).1

/-- At the end of its loop a run has tracked the best plan. -/
theorem Run.Closes.best {visits : List Visit} {v : Visit} {start : FileTree} (hv : v ∈ visits)
    (htyped : ∀ u ∈ visits, u.IsTyped)
    (h : r.Closes v.controller Plan.IsPlain (Begins fun u _ => u ∈ visits)
      (Continues fun u _ => u ∈ visits) start) :
    (∃ log, (∀ e ∈ log, ∃ u ∈ visits, e.IsBy u) ∧ r.state.TracksBest log) ∧
      (r.state.status.kind = .bestEffort → 0.0 < r.state.bestScore ∧ r.state.bestPlan ≠ none) ∧
      (r.state.status.kind = .hardStopped → r.state.bestScore = 0.0) ∧
      r.state.HoldsPlans Plan.IsPlain ∧ r.state.HoldsScores := by
  obtain ⟨⟨saves, s, hrecords, hlast, hrunning, hmove⟩, -⟩ := h
  have hsame : r.state.updateSummary.SameBest r.state := ⟨rfl, rfl, rfl⟩
  obtain ⟨log, hlog, hbest⟩ := hrecords.course.exists_log htyped
  have hscores := (hrecords.course.documents (fun u _ => htyped u) (List.mem_of_getLast? hlast)).2
  obtain ⟨log', hlog', hbest'⟩ := hmove.tracksBest hv htyped hlog (hbest s hlast) hscores
  obtain ⟨heffort, hstopped⟩ := hbest'.of_leads hmove.leads hrunning
  have hcourse := hrecords.course.move hlast ⟨v, none, hv, hrunning, hmove⟩
  have hdocuments := hcourse.documents (fun u _ => htyped u) (List.mem_append_right _
    (List.mem_singleton.2 rfl))
  exact ⟨⟨log', hlog'.judged, hsame.tracksBest hbest'⟩, heffort, hstopped,
    hdocuments.1.of_eq rfl rfl, hdocuments.2.of_eq rfl rfl rfl⟩

/-- With best effort it is the best plan that a run ends with. -/
theorem exists_finalPlan {s : SessionState} (hplans : s.HoldsPlans Plan.IsPlain)
    (hkind : s.status.kind = .bestEffort) (hbest : s.bestPlan ≠ none) (now : String) :
    ∃ p, finalPlan s now = .ok (some p) ∧ s.bestPlan = some p.fields := by
  obtain ⟨plan, best, hplan, hread, -, hfields⟩ := hplans.exists_plans
  rw [finalPlan_of_plans (hplan now) (hread now), if_pos hkind, ← hfields]
  cases best with
  | none => exact absurd hfields.symm hbest
  | some p => exact ⟨p, rfl, rfl⟩

/-! ## Whole sessions -/

/-- Whatever runs a session has, from one without a stored state on, as long as planners and
reviewers answer as their types have it : in every state that is saved the best score is the
highest one of its reviews, or zero, and the best plan is the one that was under review when it was
first reached. A run whose loop has ended with best effort has a positive best score, answers with
the best plan and leaves it in the final file, unless a file cannot be written. A run whose loop
was stopped for good has a best score of zero. -/
theorem best_of_visited {files : FileTree} {visits : List Visit} {v : Visit} (now : Instant)
    (hfile : files.has (SessionState.filePath v.controller.dir) = false)
    (hvisits : ∀ u ∈ visits ++ [v], u.controller.dir = v.controller.dir ∧ u.IsTyped)
    {report : Report} (hreport : v.report (visited visits (.untouched files now)) = report) :
    ∃ saves : List SessionState,
      files.versions ((SessionState.filePath v.controller.dir).resolve files.cwd)
        report.workspace.history = (saves.map fun s => .text s.storedText) ∧
      (∀ before t, before ++ [t] <+: saves → ∃ log,
        Logs (visits ++ [v]) (before ++ [t]) log ∧ t.TracksBest log ∧
          ∀ time t', SessionState.ofText time (SessionState.filePath v.controller.dir)
            t.storedText = .ok t' → t'.TracksBest log) ∧
      ∀ r ∈ v.loopEnd? (visited visits (.untouched files now)),
        (∃ log, (∀ e ∈ log, ∃ u ∈ visits ++ [v], e.IsBy u) ∧ r.state.TracksBest log) ∧
        (r.state.status.kind = .bestEffort → 0.0 < r.state.bestScore ∧
          ((∃ result p, report.result = .ok result ∧ result.finalPlan = some p ∧
            r.state.bestPlan = some p.fields ∧ report.workspace.files.Holds
              (v.controller.artifacts.finalFile.resolve report.workspace.files.cwd)
              (.text (jsonText p.toJson))) ∨
          ∃ f, report.result = .error f ∧ f.IsFileFault)) ∧
        (r.state.status.kind = .hardStopped → r.state.bestScore = 0.0) := by
  subst hreport
  have htyped (u) (hu : u ∈ visits ++ [v]) : u.IsTyped := (hvisits u hu).2
  have hmay (u : Visit) (o : Option SessionState) (hu : u ∈ visits ++ [v]) : u.IsTyped :=
    htyped u hu
  have hv : v ∈ visits ++ [v] := List.mem_append_right _ (List.mem_singleton.2 rfl)
  obtain ⟨saved, hrecords⟩ := visited_follows hmay visits
    (fun before u after heq => by
      have hu : u ∈ visits ++ [v] := by simp [heq]
      exact ⟨(hvisits u hu).1, fun _ _ => hu⟩)
    (Workspace.records_untouched now hfile)
  generalize visited visits (.untouched files now) = w at hrecords ⊢
  obtain ⟨⟨saves, hsaves⟩, -⟩ := report_follows hmay hv hrecords
  refine ⟨saves, ?_, fun before t hbefore => ?_, fun r hr => ?_⟩
  · rw [SessionState.resolve_filePath]
    exact hsaves.chronicle.versions
  · have hcourse := hsaves.course.of_prefix hbefore
    obtain ⟨log, hlog, hbest⟩ := hcourse.exists_log htyped
    have htracks := hbest t List.getLast?_concat
    refine ⟨log, hlog, htracks, fun time t' hof => ?_⟩
    obtain ⟨hplans, hscores⟩ := hcourse.documents hmay (List.mem_append_right _
      (List.mem_singleton.2 rfl))
    obtain ⟨-, hbestPlan, hreviews⟩ := SessionState.settled_documents hplans hscores
    rw [SessionState.ofText_storedText hscores.best.isFinite] at hof
    cases hof
    have hsame : t.SameBest t.settled := ⟨hreviews, rfl, hbestPlan⟩
    exact hsame.tracksBest htracks
  · obtain ⟨r₀, resume, hentered, hrounds⟩ := Visit.exists_of_loopEnd hr
    obtain ⟨hrests, hstands⟩ := Visit.entered_rests hmay hv hrecords hentered
    have hcloses := (rounds_follows (fun hrunning hmove => ⟨v, none, hv, hrunning, hmove⟩)
      (htyped v hv).plans_succeeding hrests hstands).of_ok hrounds
    obtain ⟨hlogged, heffort, hstopped, hplans, hscores⟩ := hcloses.best hv htyped
    refine ⟨hlogged, fun hkind => ?_, hstopped⟩
    obtain ⟨hpositive, hbest⟩ := heffort hkind
    obtain ⟨p, hplan, hfields⟩ := exists_finalPlan hplans hkind hbest r.now
    have hends := drive_promotes hrounds hplan hscores.exists_lastReview
    refine ⟨hpositive, ?_⟩
    rw [(Visit.exists_of_entered hentered).2.2]
    rcases hdrive : drive v.controller resume r₀ with ⟨f | result, r'⟩
    · exact .inr ⟨f, rfl, hends.of_error hdrive⟩
    · obtain ⟨hfinal, hheld⟩ := hends.of_ok hdrive
      exact .inl ⟨result, p, rfl, hfinal, hfields, hheld⟩

/-- A visit whose reviewer likes the first plan better than the second ends with best effort, and
leaves the first plan behind. -/
theorem best_of_wavering :
    bareTree.has (SessionState.filePath wavering.controller.dir) = false ∧
    (∀ u ∈ [] ++ [wavering], u.controller.dir = wavering.controller.dir ∧ u.IsTyped) ∧
    (∃ r ∈ wavering.loopEnd? (visited [] (.untouched bareTree ⟨0⟩)),
      r.state.status.kind = .bestEffort) ∧
    ∃ report, wavering.report (visited [] (.untouched bareTree ⟨0⟩)) = report ∧
    ∃ saves : List SessionState,
      bareTree.versions ((SessionState.filePath wavering.controller.dir).resolve bareTree.cwd)
        report.workspace.history = (saves.map fun s => .text s.storedText) ∧
      (∀ before t, before ++ [t] <+: saves → ∃ log,
        Logs ([] ++ [wavering]) (before ++ [t]) log ∧ t.TracksBest log ∧
          ∀ time t', SessionState.ofText time (SessionState.filePath wavering.controller.dir)
            t.storedText = .ok t' → t'.TracksBest log) ∧
      ∀ r ∈ wavering.loopEnd? (visited [] (.untouched bareTree ⟨0⟩)),
        (∃ log, (∀ e ∈ log, ∃ u ∈ [] ++ [wavering], e.IsBy u) ∧ r.state.TracksBest log) ∧
        (r.state.status.kind = .bestEffort → 0.0 < r.state.bestScore ∧
          ((∃ result p, report.result = .ok result ∧ result.finalPlan = some p ∧
            r.state.bestPlan = some p.fields ∧ report.workspace.files.Holds
              (wavering.controller.artifacts.finalFile.resolve report.workspace.files.cwd)
              (.text (jsonText p.toJson))) ∨
          ∃ f, report.result = .error f ∧ f.IsFileFault)) ∧
        (r.state.status.kind = .hardStopped → r.state.bestScore = 0.0) := by
  have hfile : bareTree.has (SessionState.filePath wavering.controller.dir) = false := by decide
  have hvisits : ∀ u ∈ [] ++ [wavering],
      u.controller.dir = wavering.controller.dir ∧ u.IsTyped := by
    intro u hu
    rw [List.mem_singleton.1 hu]
    exact ⟨rfl, wavering_isTyped⟩
  have hkind : (wavering.loopEnd? (visited [] (.untouched bareTree ⟨0⟩))).map
      (·.state.status.kind) = some .bestEffort := by decide +kernel
  exact ⟨hfile, hvisits, Option.map_eq_some_iff.1 hkind, _, rfl,
    best_of_visited ⟨0⟩ hfile hvisits rfl⟩

end PlanReview
