import PlanReview.Proofs.Loop.Documented
import PlanReview.Proofs.Loop.Growth

/-!
# Versions of plans never go back

When the planner returns a plan the iteration numbers it anew : whatever counters it came with, its
version is above that of the plan before it (`Plan.succeeding_version`). Everything else that a run
does leaves the current plan as it is, so from one saved state to the next the version does not go
down (`SessionState.Ascends`). That is followed through an iteration, which saves one state or none
with the plan that it has judged (`Turn.holdsOn`), through the loop (`Looping.ascends`) and through
a whole visit (`Visit.ascends`).

A session undergoes any number of runs, each made to its end or cut off anywhere (`Undergoes`). What
it loads is what it has saved last, so the versions do not go down from run to run either, unless a
run is set to a plan explicitly. That is allowed here only as long as nothing is stored
(`versions_of_undergone`).
-/

namespace PlanReview

open RunM Workspace
open Artifacts (jsonText)

variable {c : Controller} {dir : Path} {s t u : SessionState} {r r' : Run} {w w' : Workspace}
  {resume : Option Resume} {ctx : PlanningContext}

/-! ## Versions -/

/-- The version that the document of a plan has. -/
def versionOf (plan : Json.Fields) : Option Int :=
  match plan.lookup "metadata" with
  | some (.obj metadata) =>
    match metadata.lookup "version" with
    | some (.int n) => some n
    | _ => none
  | _ => none

theorem versionOf_fields (p : Plan) : versionOf p.fields = some p.metadata.version := rfl

/-- A new plan has the number of its iteration and a version above that of the plan before it. -/
theorem Plan.succeeding_version (p q : Plan) (iteration : Int) (now : String) :
    (p.succeeding (some q) iteration now).metadata.iteration = iteration ∧
      q.metadata.version < (p.succeeding (some q) iteration now).metadata.version := by
  unfold succeeding
  dsimp only
  split
  · exact ⟨rfl, Int.lt_succ q.metadata.version⟩
  · rename_i hlt
    exact ⟨rfl, Int.not_le.1 hlt⟩

namespace SessionState

/-- The version of the current plan. -/
def version? (s : SessionState) : Option Int :=
  s.currentPlan.bind versionOf

/-- The version of the current plan is no lower in the later state. -/
def Precedes (s t : SessionState) : Prop :=
  ∀ m ∈ s.version?, ∃ n ∈ t.version?, m ≤ n

/-- The current plan is the document of a plan. -/
def IsPlanned (s : SessionState) : Prop :=
  ∀ fs ∈ s.currentPlan, ∃ p : Plan, fs = p.fields

/-- A change of the state with which the version of the current plan does not go down. -/
def Ascends (s t : SessionState) : Prop :=
  s.IsPlanned → t.IsPlanned ∧ s.Precedes t

theorem version?_of_fields {p : Plan} (h : s.currentPlan = some p.fields) :
    s.version? = some p.metadata.version := by
  unfold version?
  rw [h]
  exact versionOf_fields p

theorem Precedes.trans (h : s.Precedes t) (h' : t.Precedes u) : s.Precedes u := by
  intro l hl
  obtain ⟨m, hm, hle⟩ := h l hl
  obtain ⟨n, hn, hle'⟩ := h' m hm
  exact ⟨n, hn, hle.trans hle'⟩

theorem Ascends.trans (h : s.Ascends t) (h' : t.Ascends u) : s.Ascends u := by
  intro hs
  obtain ⟨ht, hprecedes⟩ := h hs
  obtain ⟨hu, hprecedes'⟩ := h' ht
  exact ⟨hu, hprecedes.trans hprecedes'⟩

theorem ascends_of_eq (h : t.currentPlan = s.currentPlan) : s.Ascends t := by
  intro hs
  refine ⟨fun fs hfs => hs fs (h ▸ hfs), fun n hn => ⟨n, ?_, le_refl n⟩⟩
  unfold version? at hn ⊢
  rwa [h]

/-- A plan that can be read has the version that stands in its document. -/
theorem IsPlanned.plan_eq (hs : s.IsPlanned) {now : String} {prior : Option Plan}
    (hprior : s.plan now = .ok prior) {fs : Json.Fields} (hfs : s.currentPlan = some fs) :
    ∃ q, prior = some q ∧ versionOf fs = some q.metadata.version := by
  obtain ⟨p, rfl⟩ := hs fs hfs
  unfold plan at hprior
  rw [hfs, readPlan_fields] at hprior
  exact ⟨_, (Except.ok.inj hprior).symm, versionOf_fields p⟩

/-- A plan of the planner takes the place of the current one. -/
theorem ascends_of_succeeding {now time : String} {prior : Option Plan} {p : Plan}
    {iteration : Int} (hprior : s.plan now = .ok prior)
    (ht : t.currentPlan = some (p.succeeding prior iteration time).fields) : s.Ascends t := by
  intro hs
  refine ⟨fun fs hfs => ⟨_, Option.some_inj.1 (hfs.symm.trans ht)⟩, fun m hm => ?_⟩
  obtain ⟨fs, hfs, hversion⟩ := Option.bind_eq_some_iff.1 hm
  obtain ⟨q, rfl, hq⟩ := hs.plan_eq hprior hfs
  obtain rfl := Option.some_inj.1 (hq.symm.trans hversion)
  exact ⟨_, version?_of_fields ht, (p.succeeding_version q iteration time).2.le⟩

/-- What a file holds of a state has the same version. -/
theorem IsPlanned.settled (hs : s.IsPlanned) :
    s.settled.IsPlanned ∧ s.settled.version? = s.version? := by
  have hcurrent : s.settled.currentPlan = s.currentPlan.map Json.keptFields := rfl
  unfold IsPlanned version?
  cases hplan : s.currentPlan with
  | none =>
    rw [hcurrent, hplan]
    exact ⟨nofun, rfl⟩
  | some fs =>
    obtain ⟨p, rfl⟩ := hs fs hplan
    rw [hcurrent, hplan, Option.map_some, p.keptFields_fields]
    refine ⟨fun fs hfs => ⟨_, (Option.some_inj.1 hfs).symm⟩, ?_⟩
    exact (versionOf_fields (p.mapParams Json.kept)).trans (versionOf_fields p).symm

end SessionState

/-! ## Planning -/

/-- When the planner answers that is called in the iteration that begins with the run. -/
def Run.answeredAt (c : Controller) (r : Run) (ctx : PlanningContext) : String :=
  (r.workspace.later (c.planner r.planned.length ctx).delay).now.text

/-- What it answers. -/
def Run.answer (c : Controller) (r : Run) (ctx : PlanningContext) : Except Failure Plan :=
  (c.planner r.planned.length ctx).answer (r.answeredAt c ctx)

/-- The file of the iteration holds the plan, unless it could not be written. -/
def Run.Files (c : Controller) (resume : Option Resume) (r : Run) (p : Plan) (r' : Run) : Prop :=
  r'.workspace.files.Holds
      ((c.artifacts.planFile r.state.iteration).resolve r'.workspace.files.cwd)
      (.text (jsonText p.toJson)) ∨
    ∃ f r₁, draft c resume r = (.ok p, r₁) ∧
      c.artifacts.writePlan p r.state.iteration r₁.workspace = (.error f, r'.workspace)

/-- What planning and reviewing make of the current plan : it stays as it is, or a plan of the
planner takes its place. -/
inductive Run.Redrafts (c : Controller) (resume : Option Resume) (r r' : Run) : Prop where
  | uncalled : r'.planned = r.planned → r'.state.currentPlan = r.state.currentPlan →
      Redrafts c resume r r'
  | unanswered {ctx : PlanningContext} {f : Failure} : r'.planned = r.planned ++ [ctx] →
      r'.state.currentPlan = r.state.currentPlan → r.answer c ctx = .error f →
      Redrafts c resume r r'
  | answered {prior : Option Plan} {ctx : PlanningContext} {p p' : Plan} :
      r.state.plan r.now = .ok prior → ctx = r.state.planningContext prior →
      r.answer c ctx = .ok p →
      p' = p.succeeding prior r.state.iteration (r.answeredAt c ctx) →
      r'.planned = r.planned ++ [ctx] → r'.state.currentPlan = some p'.fields →
      r.Files c resume p' r' → Redrafts c resume r r'

/-- What a call of the reviewer leaves as it is. -/
theorem callReviewer_leaves (c : Controller) (p : Plan) (ctx : ReviewContext) (r : Run) :
    Ends (callReviewer c p ctx) r
      (fun _ r' => r'.planned = r.planned ∧ r'.state.currentPlan = r.state.currentPlan ∧
        r'.workspace.files = r.workspace.files)
      fun _ r' => r'.planned = r.planned ∧ r'.state.currentPlan = r.state.currentPlan ∧
        r'.workspace.files = r.workspace.files := by
  rw [ends_callReviewer, ends_ofExcept]
  split <;> exact ⟨rfl, Run.currentPlan_afterCall accounts_reviewer _ _ _, rfl⟩

theorem callPlanner_answers (c : Controller) (ctx : PlanningContext) (r : Run) :
    Ends (callPlanner c ctx) r
      (fun p r' => r.answer c ctx = .ok p ∧ r'.now = r.answeredAt c ctx ∧
        r'.planned = r.planned ++ [ctx])
      fun f r' => r.answer c ctx = .error f ∧ r'.planned = r.planned ++ [ctx] ∧
        r'.state.currentPlan = r.state.currentPlan := by
  rw [ends_callPlanner, ends_ofExcept]
  split
  · rename_i p hp
    exact ⟨hp, rfl, rfl⟩
  · rename_i f hf
    exact ⟨hf, rfl, Run.currentPlan_afterCall accounts_planner _ _ _⟩

/-- A plan is taken over as it is, or it comes from the planner and is numbered anew. -/
theorem draft_redrafts (c : Controller) (resume : Option Resume) (r : Run) :
    Ends (draft c resume) r
      (fun p' r' => r'.planned = r.planned ∧ r'.state.currentPlan = r.state.currentPlan ∨
        ∃ prior ctx p, r.state.plan r.now = .ok prior ∧ ctx = r.state.planningContext prior ∧
          r.answer c ctx = .ok p ∧
          p' = p.succeeding prior r.state.iteration (r.answeredAt c ctx) ∧
          r'.planned = r.planned ++ [ctx] ∧ r'.state.currentPlan = some p'.fields)
      fun _ r' => r.Redrafts c resume r' := by
  rw [ends_draft]
  cases hprior : r.state.plan r.now with
  | error e => exact .uncalled rfl rfl
  | ok prior =>
    dsimp only
    split
    · exact .inl ⟨rfl, rfl⟩
    · refine (callPlanner_answers c _ r).mono (fun p r₁ ⟨hanswer, htime, hcalled⟩ => ?_) ?_
      · refine .inr ⟨prior, _, p, rfl, rfl, hanswer, ?_, hcalled, rfl⟩
        rw [htime]
      · exact fun f r₁ ⟨hanswer, hcalled, hcurrent⟩ => .unanswered hcalled hcurrent hanswer

theorem judge_redrafts (c : Controller) (resume : Option Resume) (r : Run) :
    r.Redrafts c resume (judge c resume r).2 := by
  refine Ends.state ?_
  rw [ends_judge]
  have hcalls : Ends (draft c resume) r (fun _ r' => r.Calls (fun _ => True) r')
      fun _ r' => r.Calls (fun _ => True) r' :=
    draft_calls (fun _ _ _ _ _ _ _ _ => trivial) resume r
  refine (((draft_redrafts c resume r).and hcalls).and (Ends.self (draft c resume) r)).mono
    (fun p' r₁ ⟨⟨h₁, hcalls⟩, hdraft⟩ => ?_) fun _ _ h => h.1.1
  have hgoes {r' : Run} (hplanned : r'.planned = r₁.planned)
      (hcurrent : r'.state.currentPlan = r₁.state.currentPlan)
      (hfiles : r.Files c resume p' r') : r.Redrafts c resume r' := by
    rcases h₁ with ⟨hsame, hplan⟩ | ⟨prior, ctx, p, hprior, hctx, hanswer, hp', hcalled, hplan⟩
    · exact .uncalled (hplanned.trans hsame) (hcurrent.trans hplan)
    · exact .answered hprior hctx hanswer hp' (hplanned.trans hcalled) (hcurrent.trans hplan) hfiles
  have hwrite := @Artifacts.writePlan_ends [] r₁.workspace c.artifacts p' r.state.iteration
    (Option.some_ne_none _) fun _ => rfl
  rw [hcalls.works.stays.iteration, ends_onWorkspace]
  refine (hwrite.and (Ends.self _ _)).mono (fun _ w ⟨⟨hspares, hholds⟩, _⟩ => ?_)
    fun f w ⟨_, hfails⟩ => hgoes rfl rfl (.inr ⟨f, r₁, hdraft, hfails⟩)
  rw [← Artifacts.resolve_planFile, ← hspares.cwd_eq] at hholds
  have hreviewed {r' : Run} (h : r'.planned = r₁.planned ∧
      r'.state.currentPlan = r₁.state.currentPlan ∧ r'.workspace.files = w.files) :
      r.Redrafts c resume r' := by
    obtain ⟨hplanned, hcurrent, hfiles⟩ := h
    refine hgoes hplanned hcurrent (.inl ?_)
    rwa [hfiles]
  exact (callReviewer_leaves c p' _ { r₁ with workspace := w }).mono
    (fun _ _ => hreviewed) fun _ _ => hreviewed

theorem judge_ascends (c : Controller) (resume : Option Resume) (r : Run) :
    r.state.Ascends (judge c resume r.opened).2.state := by
  cases judge_redrafts c resume r.opened with
  | uncalled _ hcurrent => exact SessionState.ascends_of_eq hcurrent
  | unanswered _ hcurrent _ => exact SessionState.ascends_of_eq hcurrent
  | answered hprior _ _ hp' _ hcurrent _ =>
    rw [hp'] at hcurrent
    exact SessionState.ascends_of_succeeding hprior hcurrent

/-- A plan that the planner returns is the current one then, numbered after the one before it. -/
theorem Run.Plans.redrafts {p : Plan} (h : r.Plans c resume ctx)
    (hanswer : r.answer c ctx = .ok p) :
    ∃ prior p', r.state.plan r.now = .ok prior ∧
      ctx = r.state.nextIteration.planningContext prior ∧
      p' = p.succeeding prior ctx.iteration (r.answeredAt c ctx) ∧
      (judge c resume r.opened).2.state.currentPlan = some p'.fields ∧
      r.opened.Files c resume p' (judge c resume r.opened).2 := by
  have hopened : r.opened.planned = r.planned := rfl
  have hsame {ctx' : PlanningContext}
      (hcalled : (judge c resume r.opened).2.planned = r.opened.planned ++ [ctx']) : ctx = ctx' :=
    List.singleton_inj.1 (List.append_cancel_left (h.symm.trans (hopened ▸ hcalled)))
  cases judge_redrafts c resume r.opened with
  | uncalled hplanned _ =>
    have hlength := congrArg List.length (h.symm.trans (hplanned.trans hopened))
    simp at hlength
  | unanswered hcalled _ hfails =>
    obtain rfl := hsame hcalled
    cases hanswer.symm.trans hfails
  | @answered prior ctx' p₁ p' hprior hctx hanswered hp' hcalled hcurrent hfiles =>
    obtain rfl := hsame hcalled
    obtain rfl := Except.ok.inj (hanswer.symm.trans hanswered)
    refine ⟨prior, p', hprior, hctx, ?_, hcurrent, hfiles⟩
    rw [hp', hctx]
    rfl

/-! ## Iterations -/

/-- On the way from `r` to `r'` at most one state is saved, and the current plan stays the same. -/
def Run.HoldsOn (c : Controller) (r r' : Run) : Prop :=
  ∃ o : Option SessionState, r.workspace.Saves c.dir r'.workspace o.toList ∧
    ∀ t ∈ o.toList ++ [r'.state], t.currentPlan = r.state.currentPlan

theorem Run.holdsOn_of_spares (hspares : r.workspace.Saves c.dir r'.workspace [])
    (hcurrent : r'.state.currentPlan = r.state.currentPlan) : r.HoldsOn c r' :=
  ⟨none, hspares, List.forall_mem_singleton.2 hcurrent⟩

/-- A state with the same plan is saved, or none. -/
theorem Run.holdsOn_of_save {r₀ : Run} {out : Except Failure Unit} (h : save c r₀ = (out, r'))
    (hworkspace : r₀.workspace = r.workspace)
    (hcurrent : r₀.state.currentPlan = r.state.currentPlan) : r.HoldsOn c r' := by
  have hends := save_saves c r₀
  rw [hworkspace] at hends
  cases out with
  | ok _ =>
    obtain ⟨w, rfl, hsaves, -⟩ := hends.of_ok h
    exact ⟨some _, hsaves, List.forall_mem_cons.2 ⟨hcurrent, List.forall_mem_singleton.2 hcurrent⟩⟩
  | error _ =>
    obtain ⟨w, rfl, hspares, -⟩ := hends.of_error h
    exact holdsOn_of_spares hspares hcurrent

/-- Nothing is saved before. -/
theorem Run.HoldsOn.of_spares {r₀ : Run} (h : r.HoldsOn c r')
    (hspares : r₀.workspace.Saves c.dir r.workspace [])
    (hcurrent : r.state.currentPlan = r₀.state.currentPlan) : r₀.HoldsOn c r' := by
  obtain ⟨o, hsaves, hall⟩ := h
  exact ⟨o, hspares.spares_trans hsaves, fun t ht => (hall t ht).trans hcurrent⟩

/-- Nothing is saved after it. -/
theorem Run.HoldsOn.spares (h : r.HoldsOn c r') (hspares : r'.workspace.Saves c.dir w []) :
    r.HoldsOn c { r' with workspace := w } := by
  obtain ⟨o, hsaves, hall⟩ := h
  exact ⟨o, hsaves.trans_spares hspares, hall⟩

theorem Pauses.holdsOn {plan : Plan} {p : Pause} {f : Failure} (h : Pauses c plan p r f r')
    (hthere : r.workspace.HasState c.dir) : r.HoldsOn c r' := by
  have hwritten {r₁ : Run} {out : Except Failure Unit} (h₁ : r.HoldsOn c r₁)
      (hwrite : onWorkspace (c.artifacts.writeFinal plan .draft none) r₁ = (out, r')) :
      r.HoldsOn c r' := by
    obtain ⟨o, hsaves, -⟩ := id h₁
    have hends := writeFinal_saves c plan .draft none (hsaves.hasState hthere)
    cases out with
    | ok _ =>
      obtain ⟨w, rfl, hspares⟩ := hends.of_ok hwrite
      exact h₁.spares hspares
    | error _ =>
      obtain ⟨w, rfl, hspares, -⟩ := hends.of_error hwrite
      exact h₁.spares hspares
  cases h with
  | unsaved hsave => exact Run.holdsOn_of_save hsave rfl rfl
  | undrafted hsave hwrite => exact hwritten (Run.holdsOn_of_save hsave rfl rfl) hwrite
  | asked hsave hwrite => exact hwritten (Run.holdsOn_of_save hsave rfl rfl) hwrite

theorem Decides.holdsOn {tokensBefore : Int} {j : Judged} {review : Review}
    {out : Except Failure Next} (h : Decides c tokensBefore j review r out r')
    (hthere : r.workspace.HasState c.dir) : r.HoldsOn c r' := by
  cases h with
  | asks _ hpauses => exact (hpauses.holdsOn hthere).of_spares (Saves.refl _ _) rfl
  | ungated _ _ _ => exact Run.holdsOn_of_spares (Saves.refl _ _) rfl
  | gated _ _ _ hpauses => exact (hpauses.holdsOn hthere).of_spares (Saves.refl _ _) rfl
  | approved _ _ _ => exact Run.holdsOn_of_spares (Saves.refl _ _) rfl
  | unsaved _ _ hsave => exact Run.holdsOn_of_save hsave rfl rfl
  | revised _ _ hsave => exact Run.holdsOn_of_save hsave rfl rfl

/-- After planning and reviewing an iteration leaves the current plan as it is. -/
theorem Turn.holdsOn {out : Except Failure Next} (h : Turn c resume r out r')
    (hthere : r.workspace.HasState c.dir) :
    r.workspace.Saves c.dir (judge c resume r.opened).2.workspace [] ∧
      (judge c resume r.opened).2.HoldsOn c r' := by
  have hjudge : r.workspace.Saves c.dir (judge c resume r.opened).2.workspace [] :=
    Ends.state (P := fun r₁ : Run => r.workspace.Saves c.dir r₁.workspace [])
      ((judge_saves c resume hthere).mono (fun _ _ => And.left) fun _ _ => And.left)
  refine ⟨hjudge, ?_⟩
  have hjudged {out : Except Failure Judged} {r₁ : Run}
      (heq : judge c resume r.opened = (out, r₁)) (h : r₁.workspace.HasState c.dir → r₁.HoldsOn c r') :
      (judge c resume r.opened).2.HoldsOn c r' := by
    rw [heq] at hjudge ⊢
    exact h (hjudge.hasState hthere)
  cases h with
  | unwritten heq hwrite =>
    refine hjudged heq fun hthere => ?_
    obtain ⟨w, rfl, hspares, -⟩ := (writeReview_saves c _ _ hthere).of_error hwrite
    exact Run.holdsOn_of_spares hspares rfl
  | decided heq hwrite hdecides =>
    refine hjudged heq fun hthere => ?_
    obtain ⟨w, rfl, hspares⟩ := (writeReview_saves c _ _ hthere).of_ok hwrite
    exact (hdecides.holdsOn (hspares.hasState hthere)).of_spares hspares
      (SessionState.absorb_currentPlan _ _ _)
  | phaseUnsaved heq hsave => exact hjudged heq fun _ => Run.holdsOn_of_save hsave rfl rfl
  | phaseError heq hsave => exact hjudged heq fun _ => Run.holdsOn_of_save hsave rfl rfl
  | failed heq _ hsave => exact hjudged heq fun _ => Run.holdsOn_of_save hsave rfl rfl
  | failedUnsaved heq _ hsave => exact hjudged heq fun _ => Run.holdsOn_of_save hsave rfl rfl

/-! ## Whole runs -/

/-- A limit leaves the current plan as it is. -/
theorem stopAtLimit_holdsOn (c : Controller) (r : Run) :
    (stopAtLimit c r).2.workspace = r.workspace ∧
      (stopAtLimit c r).2.state.currentPlan = r.state.currentPlan := by
  refine Ends.state (P := fun r' : Run => r'.workspace = r.workspace ∧
    r'.state.currentPlan = r.state.currentPlan) ?_
  rw [ends_stopAtLimit]
  split
  · exact ⟨rfl, rfl⟩
  · split <;> exact ⟨rfl, rfl⟩

/-- The states `way` lead from `r` over `r₁` to the state `last`, and the next one after `r₁` has the
plan that is judged in the iteration of `r₁`. -/
def Run.Resaves (c : Controller) (resume : Option Resume) (r : Run) (way : List SessionState)
    (last : SessionState) (r₁ : Run) : Prop :=
  ∃ before after, way = before ++ after ∧
    r.Passes c SessionState.Ascends r₁.workspace before r₁.state ∧
    ∀ t ∈ (after ++ [last]).head?, t.currentPlan = (judge c resume r₁.opened).2.state.currentPlan

theorem stopAtLimit_ascends {r r' : Run} {out : Except Failure Bool}
    (hstop : stopAtLimit c r = (out, r')) :
    r.Passes c SessionState.Ascends r'.workspace [] r.state ∧ r.state.Ascends r'.state := by
  obtain ⟨hsame, hcurrent⟩ := stopAtLimit_holdsOn c r
  rw [hstop] at hsame hcurrent
  rw [hsame]
  exact ⟨.refl c _ r, SessionState.ascends_of_eq hcurrent⟩

/-- One iteration saves the plan that it has judged, or its run ends with it. -/
theorem Turn.ascends {r r' : Run} {out : Except Failure Next} (h : Turn c resume r out r')
    (hthere : r.workspace.HasState c.dir) :
    ∃ way s, r.Passes c SessionState.Ascends r'.workspace way s ∧ s.Ascends r'.state ∧
      r.Resaves c resume way r'.state r := by
  obtain ⟨hspares, o, hsaves, hall⟩ := h.holdsOn hthere
  have hjudged (t : SessionState)
      (ht : t.currentPlan = (judge c resume r.opened).2.state.currentPlan) :
      r.state.Ascends t :=
    (judge_ascends c resume r).trans (SessionState.ascends_of_eq ht)
  have hlast := hall r'.state (List.mem_append_right _ (List.mem_singleton_self _))
  have hresaves : r.Resaves c resume o.toList r'.state r :=
    ⟨[], o.toList, rfl, .refl c _ r, fun t ht => hall t (List.mem_of_head? ht)⟩
  cases o with
  | none =>
    exact ⟨[], r.state, ⟨hspares.spares_trans hsaves, .nil⟩, hjudged _ hlast, hresaves⟩
  | some t =>
    have ht := hall t List.mem_cons_self
    exact ⟨[t], t, ⟨hspares.spares_trans hsaves, .single (hjudged t ht)⟩,
      SessionState.ascends_of_eq (hlast.trans ht.symm), hresaves⟩

/-- The versions do not go down along the loop, and each of its iterations saves the plan that it
has judged, or the loop is at its end with it. -/
theorem Looping.ascends {starts : List Run} {out : Except Failure Unit × Run}
    (h : Looping c resume starts r out) (hthere : r.workspace.HasState c.dir) :
    ∃ way s, r.Passes c SessionState.Ascends out.2.workspace way s ∧ s.Ascends out.2.state ∧
      ∀ r₁ ∈ starts, r.Resaves c resume way out.2.state r₁ := by
  induction h with
  | stopped hstop | indescribable hstop =>
    obtain ⟨hpasses, hlast⟩ := stopAtLimit_ascends hstop
    exact ⟨[], _, hpasses, hlast, List.forall_mem_nil _⟩
  | @finished r r' _ hiteration =>
    obtain ⟨way, s, hpasses, hlast, hresaves⟩ :=
      ((iteration_turn c resume r).of_ok hiteration).ascends hthere
    exact ⟨way, s, hpasses, hlast, List.forall_mem_singleton.2 hresaves⟩
  | @failed r r' f _ hiteration =>
    obtain ⟨way, s, hpasses, hlast, hresaves⟩ :=
      ((iteration_turn c resume r).of_error hiteration).ascends hthere
    exact ⟨way, s, hpasses, hlast, List.forall_mem_singleton.2 hresaves⟩
  | @again r r₁ starts out _ hiteration _ ih =>
    have hturn := (iteration_turn c resume r).of_ok hiteration
    obtain ⟨hsaves, -⟩ := hturn.again_saves hthere
    obtain ⟨_, _, _, hall⟩ := hturn.holdsOn hthere
    have hcurrent := hall r₁.state (List.mem_append_right _ (List.mem_singleton_self _))
    have hstep : r.state.Ascends r₁.state :=
      (judge_ascends c resume r).trans (SessionState.ascends_of_eq hcurrent)
    obtain ⟨way, s, hpasses, hlast, hresaves⟩ := ih (hsaves.hasState hthere)
    refine ⟨r₁.state :: way, s, hpasses.cons hsaves hstep, hlast,
      List.forall_mem_cons.2 ⟨⟨[], _, rfl, .refl c _ r, ?_⟩, fun r₂ hr₂ => ?_⟩⟩
    · rintro _ ⟨⟩
      exact hcurrent
    · obtain ⟨before, after, rfl, hbefore, hafter⟩ := hresaves r₂ hr₂
      exact ⟨r₁.state :: before, after, rfl, hbefore.cons hsaves hstep, hafter⟩

/-- Up to the workspace `w` the run saves at most one more state, with the plan that it has. -/
def Run.ClosesWith (c : Controller) (r : Run) (w : Workspace) : Prop :=
  ∃ o : Option SessionState, r.workspace.Saves c.dir w o.toList ∧
    ∀ t ∈ o, t.currentPlan = r.state.currentPlan

theorem finish_closesWith (hthere : r.workspace.HasState c.dir) :
    Ends (finish c) r (fun _ r' => r.ClosesWith c r'.workspace)
      fun _ r' => r.ClosesWith c r'.workspace := by
  refine (finish_saves hthere).mono ?_ ?_
  · rintro _ r' ⟨hsaves, hstate⟩
    refine ⟨some r'.state, hsaves, fun t ht => ?_⟩
    rw [← Option.some_inj.1 ht, hstate]
    rfl
  · rintro _ r' ⟨-, o, hsaves, ho⟩
    refine ⟨o, hsaves, fun t ht => ?_⟩
    rw [ho t ht]
    rfl

/-- After its loop a run saves the plan that it has then, or nothing. -/
theorem drive_closesWith {r₁ : Run} {out : Except Failure Unit}
    (hrounds : rounds c resume (c.iterationsLeft r.state) r = (out, r₁))
    (hthere : r₁.workspace.HasState c.dir) : r₁.ClosesWith c (drive c resume r).2.workspace := by
  have hrecord {r₂ : Run} (h₂ : r₁.ClosesWith c r₂.workspace) :
      Ends (recordMetrics c) r₂ (fun _ r' => r₁.ClosesWith c r'.workspace)
        fun _ r' => r₁.ClosesWith c r'.workspace := by
    obtain ⟨o, hsaves, ho⟩ := h₂
    refine (recordMetrics_saves c r₂).mono ?_ fun _ _ h => ⟨o, hsaves.trans_spares h.1, ho⟩
    rintro _ _ ⟨w, rfl, hspares, -⟩
    exact ⟨o, hsaves.trans_spares hspares, ho⟩
  refine Ends.state (P := fun r' : Run => r₁.ClosesWith c r'.workspace) ?_
  rw [ends_drive]
  refine (Ends.self (rounds c resume _) r).mono (fun _ r₂ h₂ => ?_) fun _ r₂ h₂ => ?_
  · obtain ⟨-, rfl⟩ := Prod.mk.inj (hrounds.symm.trans h₂)
    exact (finish_closesWith hthere).mono (fun _ _ => hrecord) fun _ _ => hrecord
  · obtain ⟨-, rfl⟩ := Prod.mk.inj (hrounds.symm.trans h₂)
    refine hrecord ⟨none, .refl _ _, fun t ht => ?_⟩
    cases ht

/-- What a visit saves after the first state : the versions do not go down, and each iteration
saves the plan that it has judged, or nothing is saved any more. -/
theorem Visit.ascends {v : Visit} {starts : List Run} (hentered : v.entered? w = some (r, resume))
    (hloop : Looping v.controller resume starts r
      (rounds v.controller resume (v.controller.iterationsLeft r.state) r)) :
    ∃ way s, r.Passes v.controller SessionState.Ascends (v.report w).workspace way s ∧
      ∀ r₁ ∈ starts, ∃ before after, way = before ++ after ∧
        r.Passes v.controller SessionState.Ascends r₁.workspace before r₁.state ∧
        ∀ t ∈ after.head?,
          t.currentPlan = (judge v.controller resume r₁.opened).2.state.currentPlan := by
  have hthere := hasState_of_entered hentered
  obtain ⟨way, s, hpasses, hlast, hresaves⟩ := hloop.ascends hthere
  rcases hrounds : rounds v.controller resume (v.controller.iterationsLeft r.state) r with ⟨out, r₂⟩
  rw [hrounds] at hpasses hlast hresaves
  obtain ⟨o, hsaves, ho⟩ := drive_closesWith hrounds (hpasses.saves.hasState hthere)
  have hreport : (drive v.controller resume r).2.workspace.Saves v.controller.dir
      (v.report w).workspace [] := by
    rw [(exists_of_entered hentered).2.2]
    exact released_saves (.refl _ _)
  have hall := hsaves.trans_spares hreport
  refine ⟨way ++ o.toList, o.getD s, ?_, fun r₁ hr₁ => ?_⟩
  · cases o with
    | none =>
      rw [Option.toList_none, List.append_nil]
      exact hpasses.spares hall
    | some t => exact hpasses.snoc hall (hlast.trans (SessionState.ascends_of_eq (ho t rfl)))
  · obtain ⟨before, after, rfl, hbefore, hafter⟩ := hresaves r₁ hr₁
    refine ⟨before, after ++ o.toList, List.append_assoc _ _ _, hbefore, fun t ht => ?_⟩
    cases after with
    | cons u after => exact hafter t ht
    | nil =>
      -- the iteration has saved nothing, so the run ends with its plan
      have hjudged := hafter r₂.state rfl
      cases o with
      | none => cases ht
      | some u => exact (ho t ht).trans hjudged

/-! ## Sessions -/

/-- A session undergoes runs, one after the other, each made to its end or cut off. A run is set to
a plan explicitly only while no state is stored. -/
inductive Undergoes (dir : Path) (w : Workspace) : Workspace → Prop where
  | start : Undergoes dir w w
  | visit {w₁ w₂ : Workspace} {v : Visit} : Undergoes dir w w₁ → v.controller.dir = dir →
      (v.request.resume ≠ none → w₁.files.has (SessionState.filePath dir) = false) →
      v.CutsTo w₁ w₂ → Undergoes dir w w₂

/-- A visit that is not cut off goes on to its end. -/
theorem Visit.cutsTo_end (v : Visit) (w : Workspace) : v.CutsTo w (v.report w).workspace := by
  obtain ⟨saves, hsaves⟩ : ∃ saves, w.Saves v.controller.dir (v.report w).workspace saves := by
    cases hentered : v.entered? w with
    | none => exact ⟨[], (saves_nothing hentered).1⟩
    | some entry =>
      obtain ⟨starts, hloop, -⟩ := rounds_within_limits v.controller entry.2 entry.1
      obtain ⟨way, s, hpasses, -⟩ := Visit.ascends hentered hloop
      exact ⟨_, (saves_of_entered hentered).trans hpasses.saves⟩
  obtain ⟨cs, hjournal, hfiles, -⟩ := hsaves.stores.changes
  exact ⟨cs, [], by rwa [List.append_nil], hjournal, hfiles⟩

/-- What a run saves first, after the state that was saved last. -/
def Follows (o : Option SessionState) (t : SessionState) : Prop :=
  match o with
  | none => t.IsPlanned
  | some s => s.Ascends t

theorem takeUp_currentPlan {request : Request} {now : String} (hnone : request.resume = none)
    (h : request.takeUp c now s = .ok (t, resume)) : t.currentPlan = s.currentPlan := by
  rcases takeUp_cases h with ⟨q, hq, -⟩ | ⟨-, rfl⟩ | ⟨response, rfl⟩
  · rw [hnone] at hq
    cases hq
  · rfl
  · exact (answer_eq s response request.approved).1

theorem Request.Enters.follows {request : Request} {o : Option SessionState}
    (h : request.Enters c o t) (hresume : request.resume ≠ none → o = none) : Follows o t := by
  obtain ⟨-, now, s, resume, -, htake, rfl⟩ := h
  obtain ⟨-, hcurrent, -⟩ := start_eq request now s
  cases o with
  | none =>
    have htaken : s.IsPlanned := by
      rcases takeUp_cases htake with ⟨q, -, rfl⟩ | ⟨-, rfl⟩ | ⟨response, rfl⟩
      · exact fun fs hfs => ⟨q.plan, (Option.some_inj.1 hfs).symm⟩
      · exact nofun
      · intro fs hfs
        rw [(answer_eq _ response request.approved).1] at hfs
        cases hfs
    exact fun fs hfs => htaken fs (hcurrent ▸ hfs)
  | some u =>
    have hnone : request.resume = none := by
      by_contra hgiven
      cases hresume hgiven
    obtain ⟨workingDir, hsession⟩ := session_eq request c.artifacts.slug now u.settled
    rw [Option.map_some, hsession] at htake
    have htaken := hcurrent.trans (takeUp_currentPlan hnone htake)
    intro hu
    obtain ⟨hsettled, hversion⟩ := hu.settled
    have hloaded : u.Precedes u.settled := by
      intro m hm
      exact ⟨m, hversion ▸ hm, le_refl m⟩
    obtain ⟨ht, hprecedes⟩ := SessionState.ascends_of_eq htaken hsettled
    exact ⟨ht, hloaded.trans hprecedes⟩

section

variable {v : Visit} {start : FileTree} {saves : List SessionState}

/-- A visit begins its iterations with a state that goes on with the course. -/
theorem Workspace.Records.follows
    (h : w.Records v.controller.dir Follows SessionState.Ascends start saves)
    (hresume : v.request.resume ≠ none →
      w.files.has (SessionState.filePath v.controller.dir) = false)
    (hentered : v.entered? w = some (r, resume)) :
    Course Follows SessionState.Ascends (saves ++ [r.state]) := by
  refine h.course.enter ((Visit.enters_of_entered h.chronicle hentered).follows fun hgiven => ?_)
  by_contra hlast
  refine h.chronicle.node_ne_none (mt List.getLast?_eq_none_iff.2 hlast) ?_
  rw [← h.chronicle.cwd_eq]
  exact has_filePath_eq_false_iff.1 (hresume hgiven)

theorem Course.isPlanned (h : Course Follows SessionState.Ascends saves) :
    ∀ s ∈ saves, s.IsPlanned := by
  refine h.forall_mem (fun o t ho ht => ?_) fun s t hs hstep => (hstep hs).1
  cases o with
  | none => exact ht
  | some s => exact (ht (ho s rfl)).1

/-- Cut off anywhere, a visit has gone on with the course. -/
theorem Workspace.Records.cutsTo
    (h : w.Records v.controller.dir Follows SessionState.Ascends start saves)
    (hresume : v.request.resume ≠ none →
      w.files.has (SessionState.filePath v.controller.dir) = false)
    (hcut : v.CutsTo w w') :
    ∃ saves', w'.Records v.controller.dir Follows SessionState.Ascends start saves' := by
  cases hentered : v.entered? w with
  | none =>
    obtain ⟨before, hbefore, hsaves⟩ := Visit.saves_of_cutsTo hcut (Visit.saves_nothing hentered).1
    rw [List.prefix_nil.1 hbefore] at hsaves
    exact ⟨saves, h.spares hsaves⟩
  | some entry =>
    obtain ⟨r, resume⟩ := entry
    obtain ⟨starts, hloop, -⟩ := rounds_within_limits v.controller resume r
    obtain ⟨way, s, hpasses, -⟩ := Visit.ascends hentered hloop
    obtain ⟨before, hbefore, hsaves⟩ :=
      Visit.saves_of_cutsTo hcut ((Visit.saves_of_entered hentered).trans hpasses.saves)
    have hcourse := (h.follows hresume hentered).walks List.getLast?_concat hpasses.walks
    rw [List.append_assoc] at hcourse
    exact ⟨saves ++ before, h.chronicle.follow hsaves,
      hcourse.of_prefix ((List.prefix_append_right_inj saves).2 hbefore)⟩

end

/-- The states that a session saves through all that it undergoes. -/
theorem Undergoes.records {files : FileTree} (now : Instant)
    (hfile : files.has (SessionState.filePath dir) = false)
    (h : Undergoes dir (.untouched files now) w) :
    ∃ saves, w.Records dir Follows SessionState.Ascends files saves := by
  induction h with
  | start => exact ⟨[], Workspace.records_untouched now hfile⟩
  | visit _ hdir hresume hcut ih =>
    subst hdir
    obtain ⟨saves, hrecords⟩ := ih
    exact hrecords.cutsTo hresume hcut

/-- The plan of an iteration that begins with the run `r` comes after the one with the version
`old` : it has a higher version and the number of the iteration, the state that is saved next has
it, if there is one, and it is written to the file of the iteration. -/
structure Visit.Brings (v : Visit) (w : Workspace) (resume : Option Resume) (r : Run) (old : Int)
    (p : Plan) : Prop where
  version : old < p.metadata.version
  iteration : p.metadata.iteration = r.state.iteration + 1
  stored : ∃ before after,
    w.Saves v.controller.dir (v.report w).workspace (before ++ after) ∧
    before.getLast? = some r.state ∧ ∀ t ∈ after.head?, t.currentPlan = some p.fields
  written : r.opened.Files v.controller resume p (judge v.controller resume r.opened).2

/-- Whatever a session undergoes that begins without a stored state, of any two states that it saves
the later one has no lower version, and every plan that it saves has one. Each time the planner
returns a plan while there is a current one, the plan that is stored and written for the iteration
has a higher version than the current one and the number of the iteration, whatever counters the
planner has put in. -/
theorem versions_of_undergone {files : FileTree} (now : Instant)
    (hfile : files.has (SessionState.filePath dir) = false)
    (h : Undergoes dir (.untouched files now) w) :
    (∃ saves : List SessionState,
      files.versions ((SessionState.filePath dir).resolve files.cwd) w.history =
        (saves.map fun s => .text s.storedText) ∧
      saves.Pairwise SessionState.Precedes ∧
      ∀ s ∈ saves, s.settled.version? = s.version? ∧
        (s.currentPlan ≠ none → ∃ n, s.version? = some n)) ∧
    ∀ (v : Visit) r₀ resume r ctx p plan, v.controller.dir = dir →
      (v.request.resume ≠ none → w.files.has (SessionState.filePath dir) = false) →
      v.entered? w = some (r₀, resume) → r₀.Reaches v.controller resume r →
      r.Plans v.controller resume ctx → r.answer v.controller ctx = .ok p →
      r.state.currentPlan = some plan →
      ∃ q, ctx.currentPlan = some q ∧ versionOf plan = some q.metadata.version ∧
        v.Brings w resume r q.metadata.version
          (p.succeeding (some q) ctx.iteration (r.answeredAt v.controller ctx)) := by
  obtain ⟨saves, hrecords⟩ := h.records now hfile
  refine ⟨⟨saves, ?_, ?_, fun s hs => ?_⟩, ?_⟩
  · rw [SessionState.resolve_filePath]
    exact hrecords.chronicle.versions
  · refine (hrecords.course.pairwise (P := SessionState.IsPlanned)
      (fun s t u _ h h' => h.trans h') ?_ fun s t hs hstep => hstep hs).2
    intro o t ho ht
    cases o with
    | none => exact ⟨ht, fun s hs => nomatch hs⟩
    | some u =>
      obtain ⟨htaken, hprecedes⟩ := ht (ho u rfl)
      exact ⟨htaken, fun s hs => Option.some_inj.1 hs ▸ hprecedes⟩
  · have hplanned := hrecords.course.isPlanned s hs
    refine ⟨hplanned.settled.2, fun hplan => ?_⟩
    obtain ⟨fs, hfs⟩ := Option.ne_none_iff_exists'.1 hplan
    obtain ⟨p, rfl⟩ := hplanned fs hfs
    exact ⟨_, SessionState.version?_of_fields hfs⟩
  · rintro v r₀ resume r ctx p plan rfl hresume hentered ⟨starts, hloop, hr⟩ hcall hanswer hplan
    obtain ⟨way, s, hpasses, hstarts⟩ := Visit.ascends hentered hloop
    obtain ⟨before, after, rfl, hbefore, hafter⟩ := hstarts r hr
    have hplanned : r.state.IsPlanned :=
      (hbefore.walks.forall_mem ((hrecords.follows hresume hentered).isPlanned r₀.state
        (List.mem_append_right _ (List.mem_singleton_self _))) fun s t hs hstep => (hstep hs).1).2
    obtain ⟨prior, p', hprior, rfl, rfl, hcurrent, hfiles⟩ := hcall.redrafts hanswer
    obtain ⟨q, rfl, hversion⟩ := hplanned.plan_eq hprior hplan
    refine ⟨q, rfl, hversion, (p.succeeding_version q _ _).2, (p.succeeding_version q _ _).1,
      ⟨r₀.state :: before, after, ?_, ?_, fun t ht => (hafter t ht).trans hcurrent⟩, hfiles⟩
    · exact (Visit.saves_of_entered hentered).trans hpasses.saves
    · exact hbefore.walks.getLast_eq [r₀.state] rfl

/-- A visit with two plans numbers the second one after the first. -/
theorem versions_of_wavering :
    bareTree.has (SessionState.filePath wavering.controller.dir) = false ∧
    (∃ report saves, wavering.report (.untouched bareTree ⟨0⟩) = report ∧ saves ≠ [] ∧
      bareTree.versions ((SessionState.filePath wavering.controller.dir).resolve bareTree.cwd)
        report.workspace.history = (saves.map fun s => .text s.storedText) ∧
      saves.Pairwise SessionState.Precedes) ∧
    ∃ r₀ resume r ctx p q, wavering.entered? (.untouched bareTree ⟨0⟩) = some (r₀, resume) ∧
      r₀.Reaches wavering.controller resume r ∧ r.Plans wavering.controller resume ctx ∧
      r.answer wavering.controller ctx = .ok p ∧ ctx.currentPlan = some q ∧
      wavering.Brings (.untouched bareTree ⟨0⟩) resume r q.metadata.version
        (p.succeeding (some q) ctx.iteration (r.answeredAt wavering.controller ctx)) := by
  have hfile : bareTree.has (SessionState.filePath wavering.controller.dir) = false := by decide
  have hunset : wavering.request.resume ≠ none →
      (Workspace.untouched bareTree ⟨0⟩).files.has
        (SessionState.filePath wavering.controller.dir) = false := fun h => absurd rfl h
  have hundergoes := Undergoes.start.visit rfl hunset
    (wavering.cutsTo_end (.untouched bareTree ⟨0⟩))
  obtain ⟨⟨saves, hversions, hpairs, -⟩, -⟩ := versions_of_undergone ⟨0⟩ hfile hundergoes
  obtain ⟨-, hbrings⟩ := versions_of_undergone ⟨0⟩ hfile Undergoes.start
  have hstored : (bareTree.versions
      ((SessionState.filePath wavering.controller.dir).resolve bareTree.cwd)
      (wavering.report (.untouched bareTree ⟨0⟩)).workspace.history).isEmpty = false := by
    decide +kernel
  have hcalls : ((wavering.report (.untouched bareTree ⟨0⟩)).planned.any
      fun ctx => ctx.currentPlan.isSome) = true := by decide +kernel
  obtain ⟨ctx, hctx, hcurrent⟩ := List.any_eq_true.1 hcalls
  obtain ⟨q, hq⟩ := Option.isSome_iff_exists.1 hcurrent
  obtain ⟨r, r₀, resume, starts, hentered, hloop, hr, hplans⟩ := Visit.mem_planned_iff.1 hctx
  have hreaches : r₀.Reaches wavering.controller resume r := ⟨starts, hloop, hr⟩
  refine ⟨hfile, ⟨_, saves, rfl, ?_, hversions, hpairs⟩, ?_⟩
  · rintro rfl
    rw [hversions] at hstored
    cases hstored
  · obtain ⟨prior, hprior, heq⟩ := hplans.eq_planningContext
    obtain ⟨plan, hplan⟩ : ∃ plan, r.state.currentPlan = some plan := by
      refine Option.ne_none_iff_exists'.1 fun hnone => ?_
      unfold SessionState.plan at hprior
      rw [hnone] at hprior
      cases hprior
      rw [heq] at hq
      cases hq
    obtain ⟨q', hq', -, hbrings⟩ := hbrings wavering r₀ resume r ctx _ plan rfl hunset hentered
      hreaches hplans rfl hplan
    exact ⟨r₀, resume, r, ctx, _, q', hentered, hreaches, hplans, rfl, hq', hbrings⟩

end PlanReview
