import PlanReview.Proofs.Loop.Calls
import PlanReview.Proofs.Loop.Records
import PlanReview.Proofs.Loop.Reviews

/-!
# What the planner is told

What a review leaves for the planner depends on the way out of its iteration
(`SessionState.Advises`). A plan that has to be revised leaves the lines of its review and those of
its viability, and a completed session leaves none. A question of the reviewer leaves the lines of
the review alone, and a question of the gate leaves the lines from before.

From then on until the next review only the lines of a human's answers are added. So all states that
a session saves can be traced back to their last review (`Traced`) : one move of a run keeps that
(`Traced.move`), the entry of a run adds its answer (`Traced.enter`), and with it every call of the
planner is known (`feedback_of_visited`).
-/

namespace PlanReview

open RunM Workspace

variable {c : Controller} {good : Plan → Prop} {may : Controller → Prop} {dir : Path}
  {start : FileTree} {saves way : List SessionState} {s t : SessionState} {r : Run}
  {w : Workspace} {resume : Option Resume} {request : Request} {ctx : PlanningContext}
  {responses : Nat → List String} {v : Visit}

/-! ## After a review -/

namespace SessionState

/-- A move takes in the review of a plan, and leaves this feedback for the planner. -/
structure Advises (s : SessionState) (c : Controller) (j : Judged) (t : SessionState) : Prop where
  takes : s.TakesIn c j t
  asked : (j.finalReview c.scoreThreshold).assessment.requiresHumanInput = true →
    t.pendingFeedback = (j.finalReview c.scoreThreshold).feedback
  revised : (j.finalReview c.scoreThreshold).assessment.requiresHumanInput = false →
    (j.finalReview c.scoreThreshold).passed = false →
      t.pendingFeedback = (j.finalReview c.scoreThreshold).feedback ++ j.verdict.feedback
  approved : (j.finalReview c.scoreThreshold).assessment.requiresHumanInput = false →
    (j.finalReview c.scoreThreshold).passed = true → t.status.kind = .completed →
      t.pendingFeedback = []
  gated : (j.finalReview c.scoreThreshold).assessment.requiresHumanInput = false →
    (j.finalReview c.scoreThreshold).passed = true → t.status.kind ≠ .completed →
      t.pendingFeedback = s.pendingFeedback

/-- A move without a review leaves the feedback as it is. -/
theorem Settles.advises (h : s.Settles c t) :
    (t.reviews = s.reviews ∧ t.pendingFeedback = s.pendingFeedback) ∨ ∃ j, s.Advises c j t := by
  cases h with
  | unreviewed hreviews hfeedback _ _ _ => exact .inl ⟨hreviews, hfeedback⟩
  | asked j _ htakes hhuman hfeedback _ _ _ =>
    refine .inr ⟨j, htakes, fun _ => hfeedback, fun hnot => ?_, fun hnot => ?_, fun hnot => ?_⟩
    all_goals cases hhuman.symm.trans hnot
  | gated j _ htakes hhuman hpassed _ hfeedback _ _ hstatus =>
    exact .inr ⟨j, htakes, fun h => (nomatch hhuman.symm.trans h),
      fun _ h => (nomatch hpassed.symm.trans h), fun _ _ h => absurd h hstatus,
      fun _ _ _ => hfeedback⟩
  | revised j htakes hhuman hpassed hfeedback _ _ =>
    exact .inr ⟨j, htakes, fun h => (nomatch hhuman.symm.trans h), fun _ _ => hfeedback,
      fun _ h => (nomatch hpassed.symm.trans h), fun _ h => (nomatch hpassed.symm.trans h)⟩
  | approved j htakes hhuman hpassed hfeedback _ hstatus _ =>
    exact .inr ⟨j, htakes, fun h => (nomatch hhuman.symm.trans h),
      fun _ h => (nomatch hpassed.symm.trans h), fun _ _ _ => hfeedback,
      fun _ _ h => absurd hstatus h⟩

end SessionState

/-! ## From review to review -/

/-- The feedback of the state that was saved last can be traced back : to the state that was saved
with its last review, and to the answers that were given since. The answers are sorted by the number
of reviews that there were when they were given. -/
structure Traced (may : Controller → Prop) (saves : List SessionState)
    (responses : Nat → List String) : Prop where
  unheard : ∀ n, (∀ s ∈ saves.getLast?, s.reviews.length < n) → responses n = []
  unreviewed : ∀ s ∈ saves.getLast?, s.reviews = [] →
    s.pendingFeedback = (responses 0).map userFeedback
  reviewed : ∀ s ∈ saves.getLast?, s.reviews ≠ [] → ∃ c j before t, may c ∧
    before.Advises c j t ∧ [before, t] <:+: saves ∧ t.reviews.length = s.reviews.length ∧
    s.pendingFeedback = t.pendingFeedback ++ (responses s.reviews.length).map userFeedback

namespace Traced

theorem nil : Traced may [] fun _ => [] :=
  ⟨fun _ _ => rfl, fun _ h => (nomatch h), fun _ h => (nomatch h)⟩

/-- The last review is the one of the state before, or of the state itself. -/
theorem move (h : Traced may saves responses) (hc : may c) (hlast : saves.getLast? = some s)
    (hmove : s.Move c good t) : Traced may (saves ++ [t]) responses := by
  rcases hmove.settles.2.advises with ⟨hreviews, hfeedback⟩ | ⟨j, hadvises⟩
  · refine ⟨fun n hn => h.unheard n fun u hu => ?_, fun u hu hnil => ?_, fun u hu hne => ?_⟩
    · cases hlast.symm.trans hu
      rw [← hreviews]
      exact hn t List.getLast?_concat
    all_goals cases List.getLast?_concat.symm.trans hu
    · rw [hfeedback]
      exact h.unreviewed s hlast (hreviews.symm.trans hnil)
    · rw [hreviews] at hne ⊢
      obtain ⟨c', j, before, t', hc', hadvises, hinfix, hrest⟩ := h.reviewed s hlast hne
      rw [hfeedback]
      exact ⟨c', j, before, t', hc', hadvises, hinfix.trans (List.prefix_append saves [t]).isInfix,
        hrest⟩
  · have hlength : t.reviews.length = s.reviews.length + 1 := by
      rw [hadvises.takes.reviews, List.length_append, List.length_singleton]
    have hunheard (n : Nat) (hn : s.reviews.length < n) : responses n = [] := by
      refine h.unheard n fun u hu => ?_
      cases hlast.symm.trans hu
      exact hn
    refine ⟨fun n hn => hunheard n ?_, fun u hu hnil => ?_, fun u hu _ => ?_⟩
    · have hn := hn t List.getLast?_concat
      omega
    all_goals cases List.getLast?_concat.symm.trans hu
    · rw [hnil] at hlength
      cases hlength
    · refine ⟨c, j, s, t, hc, hadvises, ?_, rfl, ?_⟩
      · obtain ⟨past, hpast⟩ := List.getLast?_eq_some_iff.1 hlast
        exact ⟨past, [], by rw [hpast]; simp⟩
      · rw [hunheard _ (by omega), List.map_nil, List.append_nil]

/-- So it is for all states that a run saves on its way. -/
theorem walks {step : SessionState → SessionState → Prop} (h : Traced may saves responses)
    (hc : may c) (hlast : saves.getLast? = some s) (hwalks : Walks step s way t)
    (hstep : ∀ s t, step s t → s.Move c good t) : Traced may (saves ++ way) responses := by
  induction hwalks generalizing saves with
  | nil => rwa [List.append_nil]
  | @cons s t _ way hmove _ ih =>
    rw [List.append_cons]
    exact ih (h.move hc hlast (hstep s t hmove)) List.getLast?_concat

end Traced

/-- A run that is not set to a plan from outside takes up the feedback and the reviews of its
session, and adds the answer that it is given. -/
theorem Request.Enters.takes_feedback {o : Option SessionState} (h : request.Enters c o t)
    (hnone : request.resume = none) :
    t.reviews.length = (o.elim [] SessionState.reviews).length ∧
      t.pendingFeedback = o.elim [] SessionState.pendingFeedback ++
        request.humanResponse.toList.map userFeedback := by
  obtain ⟨-, now, s, resume, -, htake, rfl⟩ := h
  obtain ⟨hreviews, hfeedback, -⟩ := request.start_records now s
  have hsession : (request.session c.artifacts.slug now (o.map SessionState.settled)).reviews.length
        = (o.elim [] SessionState.reviews).length ∧
      (request.session c.artifacts.slug now (o.map SessionState.settled)).pendingFeedback =
        o.elim [] SessionState.pendingFeedback := by
    cases o with
    | none => exact ⟨rfl, rfl⟩
    | some u =>
      obtain ⟨workingDir, hsession⟩ := session_eq request c.artifacts.slug now u.settled
      rw [Option.map_some, hsession]
      exact ⟨List.length_map _, rfl⟩
  rw [hreviews, hfeedback, ← hsession.1, ← hsession.2]
  obtain ⟨htaken, -⟩ := takeUp_of_none hnone htake
  cases hresponse : request.humanResponse with
  | none =>
    rw [hresponse] at htaken
    obtain ⟨-, rfl⟩ := htaken
    exact ⟨rfl, (List.append_nil _).symm⟩
  | some response =>
    rw [hresponse] at htaken
    subst htaken
    obtain ⟨hreviews, hfeedback, -⟩ := SessionState.answer_records
      (request.session c.artifacts.slug now (o.map SessionState.settled)) response request.approved
    exact ⟨congrArg _ hreviews, hfeedback⟩

/-- The answer that a run is given comes to the answers that there are. -/
theorem Traced.enter (h : Traced may saves responses)
    (henters : request.Enters c saves.getLast? t) (hnone : request.resume = none) :
    Traced may (saves ++ [t]) fun n => responses n ++
      if t.reviews.length = n then request.humanResponse.toList else [] := by
  obtain ⟨hlength, hfeedback⟩ := henters.takes_feedback hnone
  refine ⟨fun n hn => ?_, fun u hu hnil => ?_, fun u hu hne => ?_⟩
  · have hlt := hn t List.getLast?_concat
    rw [if_neg hlt.ne, List.append_nil]
    refine h.unheard n fun u hu => ?_
    rw [Option.mem_def.1 hu] at hlength
    exact hlength ▸ hlt
  all_goals cases List.getLast?_concat.symm.trans hu
  · have hzero : t.reviews.length = 0 := List.length_eq_zero_iff.2 hnil
    rw [if_pos hzero, List.map_append, hfeedback]
    cases hlast : saves.getLast? with
    | none => rw [h.unheard 0 (by simp [hlast])]; rfl
    | some s =>
      rw [hlast, hzero] at hlength
      rw [← h.unreviewed s hlast (List.length_eq_zero_iff.1 hlength.symm)]
      rfl
  · rw [if_pos rfl, List.map_append, hfeedback]
    cases hlast : saves.getLast? with
    | none =>
      rw [hlast] at hlength
      exact absurd (List.length_eq_zero_iff.1 hlength) hne
    | some s =>
      rw [hlast] at hlength
      have hne' : s.reviews ≠ [] := by
        intro hnil
        rw [Option.elim_some, hnil] at hlength
        exact hne (List.length_eq_zero_iff.1 hlength)
      obtain ⟨c', j, before, t', hc', hadvises, hinfix, hsame, heq⟩ := h.reviewed s hlast hne'
      rw [Option.elim_some] at hlength
      refine ⟨c', j, before, t', hc', hadvises,
        hinfix.trans (List.prefix_append saves [t]).isInfix, hsame.trans hlength.symm, ?_⟩
      rw [Option.elim_some, heq, hlength, List.append_assoc]

/-! ## Visits -/

/-- The answer that a visit takes up, if there are `n` reviews then. -/
def Visit.responseAt (v : Visit) (n : Nat) (w : Workspace) : List String :=
  match v.entered? w with
  | some (r, _) => if r.state.reviews.length = n then v.request.humanResponse.toList else []
  | none => []

/-- The answers that visits take up, one after the other, while there are `n` reviews. -/
def responsesSince (n : Nat) : List Visit → Workspace → List String
  | [], _ => []
  | v :: visits, w => v.responseAt n w ++ responsesSince n visits (v.report w).workspace

theorem Visit.responseAt_of_none (h : v.request.humanResponse = none) (n : Nat) (w : Workspace) :
    v.responseAt n w = [] := by
  unfold responseAt
  rw [h]
  cases v.entered? w with
  | none => rfl
  | some entry => exact ite_self []

theorem responsesSince_concat (n : Nat) (visits : List Visit) (v : Visit) (w : Workspace) :
    responsesSince n (visits ++ [v]) w =
      responsesSince n visits w ++ v.responseAt n (visited visits w) := by
  induction visits generalizing w with
  | nil => exact List.append_nil _
  | cons u visits ih =>
    rw [List.cons_append, responsesSince, responsesSince, ih, List.append_assoc]
    rfl

/-- All that was saved in the workspace can be traced back. -/
structure Workspace.Traces (may : Controller → Prop) (dir : Path) (start : FileTree)
    (responses : Nat → List String) (w : Workspace) : Prop where
  keeps : w.Keeps dir (fun _ => True) (fun _ => True) start
  saved : ∃ saves, Chronicle (stateKey dir start.cwd) start w saves ∧ Traced may saves responses

theorem Workspace.traces_untouched {files : FileTree} (now : Instant)
    (h : files.has (SessionState.filePath dir) = false) :
    (untouched files now).Traces may dir files fun _ => [] :=
  have hrecords : (untouched files now).Records dir (fun _ _ => True) (fun _ _ => True) files [] :=
    records_untouched now h
  ⟨keeps_untouched now h, [], hrecords.chronicle, .nil⟩

/-- Wherever a visit has come to, what was saved until then can be traced back. -/
theorem Visit.traced_of_passes {starts : List Run} {w' : Workspace}
    (hchronicle : Chronicle (stateKey v.controller.dir start.cwd) start w saves)
    (htraced : Traced may saves responses) (hv : may v.controller)
    (hnone : v.request.resume = none) (hentered : v.entered? w = some (r, resume))
    (hpasses : r.Passes v.controller (v.controller.Steps good resume starts) w' way t) :
    ∃ saves, Chronicle (stateKey v.controller.dir start.cwd) start w' saves ∧
      saves.getLast? = some t ∧ Traced may saves fun n => responses n ++ v.responseAt n w := by
  have henters := htraced.enter (enters_of_entered hchronicle hentered) hnone
  have hresponses : (fun n => responses n ++
        if r.state.reviews.length = n then v.request.humanResponse.toList else []) =
      fun n => responses n ++ v.responseAt n w := by
    unfold responseAt
    rw [hentered]
  rw [hresponses] at henters
  exact ⟨saves ++ [r.state] ++ way,
    (hchronicle.follow (saves_of_entered hentered)).follow hpasses.saves,
    hpasses.walks.getLast_eq _ List.getLast?_concat,
    henters.walks hv List.getLast?_concat hpasses.walks fun _ _ hstep => hstep.move⟩

/-- A visit goes on with what can be traced back, and takes up its answer. -/
theorem Visit.traces_report (h : w.Traces may v.controller.dir start responses)
    (hv : may v.controller) (hnone : v.request.resume = none) :
    (v.report w).workspace.Traces may v.controller.dir start
      fun n => responses n ++ v.responseAt n w := by
  obtain ⟨hkeeps, saves, hchronicle, htraced⟩ := h
  refine ⟨report_keeps (Visit.fits rfl) hkeeps, ?_⟩
  cases hentered : v.entered? w with
  | none =>
    have hchronicle' := hchronicle.follow (saves_nothing hentered).1
    rw [List.append_nil] at hchronicle'
    refine ⟨saves, hchronicle', ?_⟩
    unfold responseAt
    simpa only [hentered, List.append_nil] using htraced
  | some entry =>
    obtain ⟨r, resume⟩ := entry
    have hstands := stands_of_entered SessionState.isKept_true hkeeps hentered
    obtain ⟨starts, way, s, -, hpasses⟩ := exists_way hentered hstands
    obtain ⟨saves', hchronicle', -, htraced'⟩ :=
      traced_of_passes hchronicle htraced hv hnone hentered hpasses
    exact ⟨saves', hchronicle', htraced'⟩

/-- So do visits, one after the other. -/
theorem visited_traces {visits : List Visit} (h : w.Traces may dir start responses)
    (hvisits : ∀ u ∈ visits, u.controller.dir = dir ∧ may u.controller ∧ u.request.resume = none) :
    (visited visits w).Traces may dir start fun n => responses n ++ responsesSince n visits w := by
  induction visits generalizing w responses with
  | nil => simpa only [visited, List.foldl_nil, responsesSince, List.append_nil] using h
  | cons v visits ih =>
    obtain ⟨⟨rfl, hv, hnone⟩, hvisits⟩ := List.forall_mem_cons.1 hvisits
    simpa only [visited, List.foldl_cons, responsesSince, List.append_assoc] using
      ih (Visit.traces_report h hv hnone) hvisits

/-- What was saved before a call of the planner, ends with the state that the call is made from, and
can be traced back. -/
theorem Visit.traced_of_plans (h : w.Traces may v.controller.dir start responses)
    (hv : may v.controller) (hnone : v.request.resume = none) (hplans : v.Plans w r ctx) :
    ctx.pendingFeedback = r.state.pendingFeedback ∧
      ∃ saves, Chronicle (stateKey v.controller.dir start.cwd) start r.workspace saves ∧
        saves.getLast? = some r.state ∧
        Traced may saves fun n => responses n ++ v.responseAt n w := by
  obtain ⟨hkeeps, saves, hchronicle, htraced⟩ := h
  obtain ⟨r₀, resume, _, hentered, -⟩ := id hplans
  have hstands := stands_of_entered SessionState.isKept_true hkeeps hentered
  obtain ⟨htold, starts, way, hpasses⟩ := hplans.exists_way hentered hstands
  exact ⟨htold, traced_of_passes hchronicle htraced hv hnone hentered hpasses⟩

/-- Whatever runs a session has, from one without a stored state on and none of them set to a plan
from outside : a call of the planner is made from the state that was saved last. Before the first
review the planner is told the answers of a human that were taken up. Afterwards it is told what the
move that took in the last review has left for it, and then the answers since that review. -/
theorem feedback_of_visited {files : FileTree} {visits : List Visit} (now : Instant)
    (hfile : files.has (SessionState.filePath v.controller.dir) = false)
    (hvisits : ∀ u ∈ visits, u.controller.dir = v.controller.dir)
    (hnone : ∀ u ∈ visits ++ [v], u.request.resume = none) :
    ∀ ctx ∈ (v.report (visited visits (.untouched files now))).planned, ∃ r saves,
      v.Plans (visited visits (.untouched files now)) r ctx ∧
      files.versions ((SessionState.filePath v.controller.dir).resolve files.cwd)
        r.workspace.history = (saves.map fun s => .text s.storedText) ∧
      saves.getLast? = some r.state ∧
      (r.state.reviews = [] → ctx.pendingFeedback =
        (responsesSince 0 (visits ++ [v]) (.untouched files now)).map userFeedback) ∧
      (r.state.reviews ≠ [] → ∃ u ∈ visits ++ [v], ∃ j before t,
        before.Advises u.controller j t ∧ [before, t] <:+: saves ∧
        t.reviews.length = r.state.reviews.length ∧
        ctx.pendingFeedback = t.pendingFeedback ++ (responsesSince r.state.reviews.length
          (visits ++ [v]) (.untouched files now)).map userFeedback) := by
  intro ctx hctx
  obtain ⟨r, hplans⟩ := Visit.mem_planned_iff.1 hctx
  have hmay (u : Visit) (hu : u ∈ visits ++ [v]) :
      ∃ u' ∈ visits ++ [v], u'.controller = u.controller := ⟨u, hu, rfl⟩
  have hv : v ∈ visits ++ [v] := List.mem_append_right _ (List.mem_singleton_self v)
  have htraces : (visited visits (.untouched files now)).Traces
      (fun c => ∃ u ∈ visits ++ [v], u.controller = c) v.controller.dir files
      fun n => [] ++ responsesSince n visits (.untouched files now) :=
    visited_traces (Workspace.traces_untouched now hfile) fun u hu => ⟨hvisits u hu,
      hmay u (List.mem_append_left _ hu), hnone u (List.mem_append_left _ hu)⟩
  obtain ⟨htold, saves, hchronicle, hlast, htraced⟩ :=
    Visit.traced_of_plans htraces (hmay v hv) (hnone v hv) hplans
  simp only [List.nil_append, ← responsesSince_concat] at htraced
  refine ⟨r, saves, hplans, ?_, hlast, fun hnil => ?_, fun hne => ?_⟩
  · rw [SessionState.resolve_filePath]
    exact hchronicle.versions
  · exact htold.trans (htraced.unreviewed _ hlast hnil)
  · obtain ⟨_, j, before, t, ⟨u, hu, rfl⟩, hadvises, hinfix, hlength, heq⟩ :=
      htraced.reviewed _ hlast hne
    exact ⟨u, hu, j, before, t, hadvises, hinfix, hlength, htold.trans heq⟩

/-- The wavering session calls its planner a second time, with what its first review has left. -/
theorem feedback_of_wavering :
    bareTree.has (SessionState.filePath wavering.controller.dir) = false ∧
    (∀ u ∈ [] ++ [wavering], u.request.resume = none) ∧
    ∃ ctx ∈ (wavering.report (visited [] (.untouched bareTree ⟨0⟩))).planned,
      ctx.pendingFeedback ≠ [] ∧ ∃ r saves,
        wavering.Plans (visited [] (.untouched bareTree ⟨0⟩)) r ctx ∧
        bareTree.versions ((SessionState.filePath wavering.controller.dir).resolve bareTree.cwd)
          r.workspace.history = (saves.map fun s => .text s.storedText) ∧
        ∃ j before t, SessionState.Advises before wavering.controller j t ∧
          [before, t] <:+: saves ∧ ctx.pendingFeedback = t.pendingFeedback := by
  have hfile : bareTree.has (SessionState.filePath wavering.controller.dir) = false := by decide
  have hnone : ∀ u ∈ [] ++ [wavering], u.request.resume = none := by
    rw [List.nil_append, List.forall_mem_singleton]
    rfl
  have hrun : ((wavering.report (visited [] (.untouched bareTree ⟨0⟩))).planned.any
      fun ctx => !ctx.pendingFeedback.isEmpty) = true := by decide +kernel
  obtain ⟨ctx, hctx, htold⟩ := List.any_eq_true.1 hrun
  rw [Bool.not_eq_true', List.isEmpty_eq_false_iff] at htold
  have hunanswered (n : Nat) :
      responsesSince n ([] ++ [wavering]) (.untouched bareTree ⟨0⟩) = [] := by
    rw [responsesSince_concat, Visit.responseAt_of_none rfl]
    rfl
  obtain ⟨r, saves, hplans, hversions, -, hunreviewed, hreviewed⟩ :=
    feedback_of_visited ⟨0⟩ hfile (List.forall_mem_nil _) hnone ctx hctx
  rw [hunanswered] at hunreviewed hreviewed
  obtain ⟨u, hu, j, before, t, hadvises, hinfix, -, heq⟩ :=
    hreviewed fun hnil => htold (hunreviewed hnil)
  rw [List.nil_append, List.mem_singleton] at hu
  subst hu
  rw [List.map_nil, List.append_nil] at heq
  exact ⟨hfile, hnone, ctx, hctx, htold, r, saves, hplans, hversions, j, before, t, hadvises,
    hinfix, heq⟩

end PlanReview
