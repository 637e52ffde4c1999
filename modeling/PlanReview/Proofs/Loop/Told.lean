import PlanReview.Phase.Chat
import PlanReview.Proofs.Loop.Feedback
import PlanReview.Proofs.Loop.Resumed
import PlanReview.Proofs.Text.Delimiter

/-!
# What a model is told of the feedback

The prompt of a planner has a section with the feedback if there is a plan to be revised, after the
first iteration; every line of the feedback occurs in it then (`Prompt.tells_of_isUpdate`). Else the
prompt is the same without feedback (`Prompt.planning_of_not_isUpdate`).

A session that is never set to a plan from outside has no plan before its first iteration, and has
one as soon as it has a review (`SessionState.IsSteady`) : every move of a run keeps that, and so
does the entry of a run. So the planner of such a session is told all its feedback in every
iteration that has a plan to go on from, and in particular after every review
(`told_of_visited`).
-/

namespace PlanReview

open Workspace

theorem PlanningContext.isUpdate_iff {ctx : PlanningContext} :
    ctx.isUpdate = true ↔ ctx.currentPlan ≠ none ∧ 1 < ctx.iteration := by
  unfold isUpdate
  rw [Bool.and_eq_true, decide_eq_true_eq, Option.isSome_iff_ne_none]

/-! ## Prompts -/

/-- The prompt of a planner holds every line of the feedback. -/
def Prompt.Tells (recipe : Recipe) (ctx : PlanningContext) : Prop :=
  ∀ line ∈ ctx.pendingFeedback, line.toList <:+: (planning recipe ctx).toList

namespace Prompt

variable {recipe : Recipe} {ctx : PlanningContext}

/-- What is joined occurs in the whole. -/
theorem infix_intercalate (between : String) {text : String} {texts : List String}
    (h : text ∈ texts) : text.toList <:+: (String.intercalate between texts).toList := by
  rw [String.toList_intercalate]
  induction texts with
  | nil => cases h
  | cons first rest ih =>
    cases rest with
    | nil =>
      rw [List.mem_singleton.1 h, List.map_cons, List.map_nil, List.intercalate_singleton]
    | cons second rest =>
      rw [List.map_cons, List.map_cons, List.intercalate_cons_cons]
      rcases List.mem_cons.1 h with rfl | h
      · rw [List.append_assoc]
        exact (List.prefix_append _ _).isInfix
      · exact (ih h).trans (List.suffix_append _ _).isInfix

theorem revision_of_isUpdate (h : ctx.isUpdate = true) : ∃ p,
    revision ctx = ("Previous plan:\n" ++ planText p) :: feedback ctx.pendingFeedback := by
  obtain ⟨hplan, -⟩ := PlanningContext.isUpdate_iff.1 h
  obtain ⟨p, hp⟩ := Option.ne_none_iff_exists'.1 hplan
  refine ⟨p, ?_⟩
  unfold revision
  rw [hp]
  exact if_pos h

theorem revision_of_not_isUpdate (h : ctx.isUpdate = false) : revision ctx = [] := by
  unfold revision
  split
  · exact if_neg (by rw [h]; exact Bool.false_ne_true)
  · rfl

/-- If a plan has to be revised, all feedback is told. -/
theorem tells_of_isUpdate (recipe : Recipe) (h : ctx.isUpdate = true) : Tells recipe ctx := by
  intro line hline
  have hne : ctx.pendingFeedback.isEmpty = false :=
    List.isEmpty_eq_false_iff.2 (List.ne_nil_of_mem hline)
  have hsection : feedback ctx.pendingFeedback =
      ["Address this feedback in the revised plan:\n" ++
        String.intercalate "\n" ctx.pendingFeedback] := by
    unfold feedback
    rw [if_neg (by rw [hne]; exact Bool.false_ne_true)]
  obtain ⟨p, hrevision⟩ := revision_of_isUpdate h
  have hjoined := infix_intercalate "\n\n" (List.mem_append_left [planHint]
    (List.mem_append_right (opening recipe ++ ["Task: " ++ Text.strip ctx.task] ++
      place ctx.workingDir ++ ["Iteration: " ++ toString ctx.iteration] ++
      part (some ctx.contextSummary) ("Session so far:\n" ++ ·))
      (hrevision ▸ List.mem_cons_of_mem _ (hsection ▸ List.mem_singleton_self _))))
  rw [String.toList_append] at hjoined
  exact ((infix_intercalate "\n" hline).trans (List.suffix_append _ _).isInfix).trans hjoined

/-- Else none is. -/
theorem planning_of_not_isUpdate (recipe : Recipe) (h : ctx.isUpdate = false) :
    planning recipe ctx = planning recipe { ctx with pendingFeedback := [] } := by
  unfold planning
  have hsame : revision { ctx with pendingFeedback := [] } = [] := revision_of_not_isUpdate h
  rw [revision_of_not_isUpdate h, hsame]

end Prompt

/-! ## Sessions -/

variable {c : Controller} {good : Plan → Prop} {s t : SessionState} {r : Run} {w : Workspace}
  {resume : Option Resume} {request : Request} {ctx : PlanningContext} {v : Visit}

/-- A session has a plan from its first iteration on at the earliest, and as soon as it has a
review. -/
structure SessionState.IsSteady (s : SessionState) : Prop where
  counted : 0 ≤ s.iteration
  planned : s.currentPlan ≠ none → 1 ≤ s.iteration
  reviewed : s.reviews ≠ [] → s.currentPlan ≠ none

namespace SessionState

/-- A move takes in the review of its plan, or none; it does not take a plan away. -/
theorem Settles.reviewed_cases (h : s.Settles c t) : t.currentPlan ≠ none ∨
    t.reviews = s.reviews ∧ t.currentPlan = s.currentPlan := by
  have htaken {j : Judged} (htakes : s.TakesIn c j t) : t.currentPlan ≠ none :=
    htakes.current ▸ Option.some_ne_none _
  cases h with
  | unreviewed hreviews _ _ hcurrent _ =>
    rcases hcurrent with hcurrent | ⟨p, hcurrent⟩
    · exact .inr ⟨hreviews, hcurrent⟩
    · exact .inl (hcurrent ▸ Option.some_ne_none _)
  | asked j _ htakes => exact .inl (htaken htakes)
  | gated j _ htakes => exact .inl (htaken htakes)
  | revised j htakes => exact .inl (htaken htakes)
  | approved j htakes => exact .inl (htaken htakes)

theorem Move.isSteady (h : s.Move c good t) (hs : s.IsSteady) : t.IsSteady := by
  have hcounted := hs.counted
  have hreviewed : t.reviews ≠ [] → t.currentPlan ≠ none := by
    intro hne
    rcases h.settles.2.reviewed_cases with hcurrent | ⟨hreviews, hcurrent⟩
    · exact hcurrent
    · rw [hcurrent]
      exact hs.reviewed (hreviews ▸ hne)
  rcases h.count with hcount | ⟨hcount, hcurrent⟩
  · obtain ⟨hiteration, -⟩ := Prod.mk.inj hcount
    exact ⟨by omega, fun _ => by omega, hreviewed⟩
  · obtain ⟨hiteration, -⟩ := Prod.mk.inj hcount
    refine ⟨hiteration ▸ hcounted, fun hne => ?_, hreviewed⟩
    rw [hiteration]
    exact hs.planned (hcurrent ▸ hne)

end SessionState

/-- A run that is not set to a plan from outside goes on from the iteration and the plan of its
session. -/
theorem Request.Enters.takes_plan {o : Option SessionState} (h : request.Enters c o t)
    (hnone : request.resume = none) : t.iteration = o.elim 0 SessionState.iteration ∧
      t.currentPlan = o.bind fun s => s.currentPlan.map Json.keptFields := by
  obtain ⟨-, now, s, resume, -, htake, rfl⟩ := h
  have hstart : (request.start now s).iteration = s.iteration ∧
      (request.start now s).currentPlan = s.currentPlan := by
    unfold Request.start
    split <;> exact ⟨rfl, rfl⟩
  have hsession (u : SessionState)
      (hu : u = request.session c.artifacts.slug now (o.map SessionState.settled)) :
      u.iteration = o.elim 0 SessionState.iteration ∧
        u.currentPlan = o.bind fun s => s.currentPlan.map Json.keptFields := by
    subst hu
    cases o with
    | none => exact ⟨rfl, rfl⟩
    | some s =>
      obtain ⟨dir, heq⟩ := session_eq request c.artifacts.slug now s.settled
      rw [Option.map_some, heq]
      exact ⟨rfl, rfl⟩
  rw [hstart.1, hstart.2]
  rcases takeUp_cases htake with ⟨q, hq, -⟩ | ⟨-, rfl⟩ | ⟨response, rfl⟩
  · rw [hnone] at hq
    cases hq
  · exact hsession _ rfl
  · obtain ⟨hiteration, hcurrent⟩ := hsession _ rfl
    rw [← hiteration, ← hcurrent]
    unfold SessionState.answer SessionState.applyHumanResponse
    split <;> exact ⟨rfl, rfl⟩

theorem Request.Enters.isSteady {o : Option SessionState} (h : request.Enters c o t)
    (hnone : request.resume = none) (ho : ∀ s ∈ o, s.IsSteady) : t.IsSteady := by
  obtain ⟨hiteration, hcurrent⟩ := h.takes_plan hnone
  obtain ⟨hreviews, -⟩ := h.takes_feedback hnone
  cases o with
  | none =>
    refine ⟨hiteration.ge, fun hne => absurd hcurrent hne, fun hne => ?_⟩
    exact absurd (List.length_eq_zero_iff.1 hreviews) hne
  | some s =>
    have hs := ho s rfl
    rw [Option.elim_some] at hiteration hreviews
    rw [Option.bind_some] at hcurrent
    have hplan : t.currentPlan ≠ none ↔ s.currentPlan ≠ none := by
      rw [hcurrent, Ne, Option.map_eq_none_iff]
    refine ⟨hiteration ▸ hs.counted, fun hne => ?_, fun hne => ?_⟩
    · rw [hiteration]
      exact hs.planned (hplan.1 hne)
    · refine hplan.2 (hs.reviewed fun hnil => hne ?_)
      rw [hnil] at hreviews
      exact List.length_eq_zero_iff.1 hreviews

/-! ## Calls -/

/-- The plan of a state is there exactly if the state holds one. -/
theorem SessionState.plan_eq_none_iff {now : String} {prior : Option Plan}
    (h : s.plan now = .ok prior) : prior = none ↔ s.currentPlan = none := by
  unfold SessionState.plan SessionState.readPlan at h
  cases hcurrent : s.currentPlan with
  | none =>
    rw [hcurrent] at h
    cases h
    exact iff_of_true rfl rfl
  | some fields =>
    rw [hcurrent] at h
    dsimp only at h
    cases hread : Plan.ofJson now (.obj fields) with
    | error e =>
      rw [hread] at h
      cases h
    | ok p =>
      rw [hread] at h
      cases h
      exact iff_of_false (Option.some_ne_none _) (Option.some_ne_none _)

/-- The planner of a steady session has a plan to revise exactly if there is one. -/
theorem Run.Plans.isUpdate_iff (h : r.Plans c resume ctx) (hr : r.state.IsSteady) :
    1 ≤ ctx.iteration ∧ (ctx.currentPlan = none ↔ r.state.currentPlan = none) ∧
      (ctx.isUpdate = true ↔ ctx.currentPlan ≠ none) := by
  obtain ⟨prior, hprior, rfl⟩ := h.eq_planningContext
  have hnone := SessionState.plan_eq_none_iff hprior
  have hcounted := hr.counted
  have hiteration : (r.state.nextIteration.planningContext prior).iteration =
      r.state.iteration + 1 := rfl
  refine ⟨by omega, hnone, PlanningContext.isUpdate_iff.trans ?_⟩
  refine and_iff_left_of_imp fun hne => ?_
  have hplanned := hr.planned fun hcurrent => hne (hnone.2 hcurrent)
  omega

/-- In a session that is never set to a plan from outside, the planner is called from the state that
was saved last, which is steady. -/
theorem Visit.isSteady_of_plans {files : FileTree} {visits : List Visit} (now : Instant)
    (hfile : files.has (SessionState.filePath v.controller.dir) = false)
    (hvisits : ∀ u ∈ visits, u.controller.dir = v.controller.dir)
    (hnone : ∀ u ∈ visits ++ [v], u.request.resume = none)
    (hplans : v.Plans (visited visits (.untouched files now)) r ctx) :
    r.state.IsSteady ∧ ∃ saves : List SessionState,
      files.versions ((SessionState.filePath v.controller.dir).resolve files.cwd)
        r.workspace.history = (saves.map fun s => .text s.storedText) ∧
      saves.getLast? = some r.state := by
  obtain ⟨saves, hrecords⟩ : ∃ saves, (visited visits (.untouched files now)).Records
      v.controller.dir (fun o t => (∀ s ∈ o, s.IsSteady) → t.IsSteady)
      (fun s t => s.IsSteady → t.IsSteady) files saves :=
    visited_records now hfile hvisits
      (fun u hu _ _ henters => henters.isSteady (hnone u (List.mem_append_left _ hu)))
      fun _ _ _ _ _ hmove => hmove.isSteady
  have hkeeps := visited_keeps (fun u hu => Visit.fits (hvisits u hu))
    (keeps_untouched now hfile)
  obtain ⟨r₀, resume, starts, hentered, hloop, hr, -⟩ := hplans
  have henters := (enters_of_entered hrecords.chronicle hentered).isSteady
    (hnone v (List.mem_append_right _ (List.mem_singleton_self v)))
  have hrests : r₀.Rests v.controller.dir (fun o t => (∀ s ∈ o, s.IsSteady) → t.IsSteady)
      (fun s t => s.IsSteady → t.IsSteady) files :=
    ⟨saves ++ [r₀.state], ⟨hrecords.chronicle.follow (saves_of_entered hentered),
      hrecords.course.enter henters⟩, List.getLast?_concat⟩
  obtain ⟨⟨saves', hrecords', hlast⟩, -⟩ := hloop.rests
    (fun _ (hmove : SessionState.Move _ (fun _ => True) _ _) => hmove.isSteady)
    (fun _ _ _ _ _ _ _ _ => trivial) hrests
    (stands_of_entered SessionState.isKept_true hkeeps hentered) r hr
  have hsteady := hrecords'.course.forall_mem (fun o t ho henter => henter ho)
    fun s t hs hmove => hmove hs
  refine ⟨hsteady _ (List.mem_of_getLast? hlast), saves', ?_, hlast⟩
  rw [SessionState.resolve_filePath]
  exact hrecords'.chronicle.versions

/-- What a model is told of the feedback that its planner is to take up. Whatever state the session
is in, every line occurs in the prompt of an iteration after the first with a plan to be revised. If
the session began without a stored state and no run is set to a plan from outside, there is no plan
in the first iteration, whose prompt is the one without feedback; every line occurs in the prompt as
soon as there is a plan, and so whenever the state that was saved last has a review. -/
theorem told_of_visited {model : Chat.Model} {recipe : Recipe}
    (hchat : v.controller.planner = ChatPhase.planner model recipe) (w : Workspace) :
    ∀ ctx ∈ (v.report w).planned,
      (∀ n, v.controller.planner n ctx = ChatPhase.call "planner" "plan" Plan.ofJson
        (model n (ChatPhase.conversation recipe (Prompt.planning recipe ctx)))) ∧
      (1 < ctx.iteration → ctx.currentPlan ≠ none → Prompt.Tells recipe ctx) ∧
      ∀ files visits now, w = visited visits (.untouched files now) →
        files.has (SessionState.filePath v.controller.dir) = false →
        (∀ u ∈ visits, u.controller.dir = v.controller.dir) →
        (∀ u ∈ visits ++ [v], u.request.resume = none) →
        (ctx.iteration ≤ 1 → ctx.currentPlan = none ∧ Prompt.planning recipe ctx =
          Prompt.planning recipe { ctx with pendingFeedback := [] }) ∧
        (ctx.currentPlan ≠ none → Prompt.Tells recipe ctx) ∧
        ∃ r, ∃ saves : List SessionState, v.Plans w r ctx ∧
          files.versions ((SessionState.filePath v.controller.dir).resolve files.cwd)
            r.workspace.history = (saves.map fun s => .text s.storedText) ∧
          saves.getLast? = some r.state ∧
          (r.state.reviews ≠ [] → Prompt.Tells recipe ctx) := by
  intro ctx hctx
  refine ⟨fun n => by rw [hchat]; rfl, fun hiteration hne => ?_, ?_⟩
  · exact Prompt.tells_of_isUpdate recipe (PlanningContext.isUpdate_iff.2 ⟨hne, hiteration⟩)
  · rintro files visits now rfl hfile hvisits hnone
    obtain ⟨r, hplans⟩ := Visit.mem_planned_iff.1 hctx
    obtain ⟨hsteady, saves, hversions, hlast⟩ :=
      Visit.isSteady_of_plans now hfile hvisits hnone hplans
    obtain ⟨_, _, _, -, -, -, hcall⟩ := id hplans
    obtain ⟨hiteration, hplan, hupdate⟩ := hcall.isUpdate_iff hsteady
    have htells (hne : ctx.currentPlan ≠ none) : Prompt.Tells recipe ctx :=
      Prompt.tells_of_isUpdate recipe (hupdate.2 hne)
    refine ⟨fun hfirst => ?_, htells, r, saves, hplans, hversions, hlast, fun hreviews => ?_⟩
    · have hnot : ¬ ctx.isUpdate = true := fun h =>
        absurd (PlanningContext.isUpdate_iff.1 h).2 (by omega)
      refine ⟨?_, Prompt.planning_of_not_isUpdate recipe (Bool.not_eq_true _ ▸ hnot)⟩
      by_contra hne
      exact hnot (hupdate.2 hne)
    · exact htells fun hcurrent => hsteady.reviewed hreviews (hplan.1 hcurrent)

/-- A recipe without a prompt. -/
def bareRecipe : Recipe where
  path := .ofParts ["home", "recipe.yaml"]
  instructions := "Plan."

/-- A visit with time for two plans, for which a model is asked; a human has said something from the
beginning. -/
def advised (answer : Chat.Answer) : Visit where
  controller := { wavering.controller with
    planner := ChatPhase.planner (fun _ _ => answer) bareRecipe }
  request := { task := "Add foo", humanResponse := some "use serde" }
  now := .ofCivil 2024 5 17 12 0 0 0

/-- The document of a plan with nothing but a title. -/
def titled : Json := .obj [("title", .str "Foo")]

/-- The answer of a model that always has this plan. -/
def titledAnswer : Chat.Answer where
  reply := .ok { text := some (Json.write Json.stored titled) }

/-- The call in which a planner is given this answer. -/
def titledCall : Call Plan where
  answer now := (Plan.ofJson now titled).mapError fun e =>
    .phase ("planner returned an invalid plan: " ++ e.message)

theorem call_titledAnswer :
    ChatPhase.call "planner" "plan" Plan.ofJson titledAnswer = titledCall := by
  have hparse : Json.parse (Json.write Json.stored titled) = .ok titled :=
    Json.parse_write Json.isReadable_stored (.inl Json.writesNull_stored)
  have hink : Text.hasInk (Json.write Json.stored titled) = true := by decide +kernel
  have hpayload : ChatPhase.payload "planner"
      { text := some (Json.write Json.stored titled) } = .ok titled := by
    unfold ChatPhase.payload Reply.readObject
    dsimp only [Option.getD_some]
    rw [hink, hparse]
    rfl
  unfold ChatPhase.call titledAnswer titledCall
  dsimp only [Except.mapError]
  congr 1
  funext now
  dsimp only [bind, Except.bind]
  rw [hpayload]
  rfl

/-- The model is told the feedback of the review with its second plan. -/
theorem tells_of_advised :
    (advised titledAnswer).controller.planner =
      ChatPhase.planner (fun _ _ => titledAnswer) bareRecipe ∧
    bareTree.has (SessionState.filePath (advised titledAnswer).controller.dir) = false ∧
    (∀ u ∈ [] ++ [advised titledAnswer], u.request.resume = none) ∧
    ∃ ctx ∈ ((advised titledAnswer).report (visited [] (.untouched bareTree ⟨0⟩))).planned,
      1 < ctx.iteration ∧ ctx.currentPlan ≠ none ∧ ctx.pendingFeedback ≠ [] ∧
      Prompt.Tells bareRecipe ctx := by
  have hchat : (advised titledAnswer).controller.planner =
      ChatPhase.planner (fun _ _ => titledAnswer) bareRecipe := rfl
  have hfile : bareTree.has (SessionState.filePath (advised titledAnswer).controller.dir) = false :=
    by decide
  have hnone : ∀ u ∈ [] ++ [advised titledAnswer], u.request.resume = none := by
    rw [List.nil_append, List.forall_mem_singleton]
    rfl
  have hvisit : advised titledAnswer = { advised titledAnswer with
      controller := { wavering.controller with planner := fun _ _ => titledCall } } := by
    rw [← call_titledAnswer]
    rfl
  have hrun : (((advised titledAnswer).report (.untouched bareTree ⟨0⟩)).planned.any fun ctx =>
      ctx.isUpdate && !ctx.pendingFeedback.isEmpty) = true := by
    rw [hvisit]
    decide +kernel
  obtain ⟨ctx, hctx, hwhere⟩ := List.any_eq_true.1 hrun
  rw [Bool.and_eq_true, PlanningContext.isUpdate_iff, Bool.not_eq_true',
    List.isEmpty_eq_false_iff] at hwhere
  obtain ⟨⟨hplan, hiteration⟩, hfeedback⟩ := hwhere
  obtain ⟨-, -, hsession⟩ := told_of_visited hchat _ ctx hctx
  obtain ⟨-, htells, -⟩ := hsession bareTree [] ⟨0⟩ rfl hfile (List.forall_mem_nil _) hnone
  exact ⟨hchat, hfile, hnone, ctx, hctx, hiteration, hplan, hfeedback, htells hplan⟩

/-- What a human has said before the first iteration does not occur in its prompt. -/
theorem not_tells_of_advised :
    (advised { reply := .error (.chat "no model") }).controller.planner =
      ChatPhase.planner (fun _ _ => { reply := .error (.chat "no model") }) bareRecipe ∧
    ∃ ctx ∈ ((advised { reply := .error (.chat "no model") }).report
        (.untouched bareTree ⟨0⟩)).planned,
      ctx.iteration = 1 ∧ userFeedback "use serde" ∈ ctx.pendingFeedback ∧
        ¬ (userFeedback "use serde").toList <:+: (Prompt.planning bareRecipe ctx).toList := by
  have hrun : ((advised { reply := .error (.chat "no model") }).report
      (.untouched bareTree ⟨0⟩)).planned.any (fun ctx => ctx.iteration == 1 &&
        (ctx.pendingFeedback.contains (userFeedback "use serde") &&
        !Text.occurs (userFeedback "use serde").toList
          (Prompt.planning bareRecipe ctx).toList)) = true := by decide +kernel
  obtain ⟨ctx, hctx, hwhere⟩ := List.any_eq_true.1 hrun
  rw [Bool.and_eq_true, Bool.and_eq_true, beq_iff_eq, List.contains_iff_mem,
    Bool.not_eq_true'] at hwhere
  obtain ⟨hiteration, hline, hmissing⟩ := hwhere
  refine ⟨rfl, ctx, hctx, hiteration, hline, fun hinfix => ?_⟩
  rw [Text.occurs_eq_true_iff.2 hinfix] at hmissing
  cases hmissing

end PlanReview
