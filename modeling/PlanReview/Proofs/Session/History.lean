import PlanReview.Loop.Rounds
import PlanReview.Proofs.Session.Saving

/-!
# The history of a session

`Past saves s` : a run can have the state `s` in memory once the states `saves` were saved. Its
rules are the moves that runs make, in any order; what is proved of them by induction holds of
every state that is ever saved. A move may lead to a plan or a score that planner and reviewer
made, so the rules speak of the plans that are `good` and the scores that are `fair`.

A property of states that every move keeps, loading included, is `Stable`; it holds of the state in
memory and of all states that were saved (`Past.of_stable`).

`Chronicle key start w saves` ties the states to the files : in the workspace `w`, which began with
the files `start`, the file under `key` was given the texts of exactly these states, in their
order, and holds the last of them.
-/

namespace PlanReview

section

variable (good : Plan → Prop) (fair : Float → Prop)

/-- What calls of the planner and the reviewer do to the state of a session : usage is counted, and
a plan is put under review. -/
inductive SessionState.Works : SessionState → SessionState → Prop where
  | refl (s : SessionState) : Works s s
  | planned {s t : SessionState} (u : TokenUsage) : Works s t → Works s (t.addPlannerUsage u)
  | reviewed {s t : SessionState} (u : TokenUsage) : Works s t → Works s (t.addReviewerUsage u)
  | plan {s t : SessionState} {p : Plan} : Works s t → good p → Works s (t.setCurrentPlan p)

/-- The states that a run can have in memory once the states `saves` were saved. -/
inductive Past : List SessionState → SessionState → Prop where
  | new (now sessionId task slug : String) (dir : Option String) :
      Past [] (.new now sessionId task slug dir)
  | load {saves : List SessionState} {s t : SessionState} : Past saves s →
      saves.getLast? = some t → t.bestScore.isFinite = true → Past saves t.settled
  | save {saves : List SessionState} {s : SessionState} : Past saves s → Past (saves ++ [s]) s
  | move {saves : List SessionState} {s : SessionState} (dir : Option String) : Past saves s →
      Past saves { s with workingDir := dir }
  | answer {saves : List SessionState} {s : SessionState} (response : String) (approved : Bool) :
      Past saves s → Past saves (s.answer response approved)
  | setTo {saves : List SessionState} {s : SessionState} (resume : Resume) : Past saves s →
      good resume.plan → Past saves (s.setTo resume)
  | start {saves : List SessionState} {s : SessionState} (request : Request) (now : String) :
      Past saves s → Past saves (request.start now s)
  | phaseError {saves : List SessionState} {s t : SessionState} (now message : String) :
      Past saves s → s.nextIteration.Works good t →
        Past saves (t.afterPhaseError now message s.totalTokens)
  | fail {saves : List SessionState} {s t : SessionState} (message : String) : Past saves s →
      s.nextIteration.Works good t → Past (saves ++ [t.failed message]) (t.failed message)
  | review {saves : List SessionState} {s t u : SessionState} {r : Review}
      {outcome : IterationOutcome} (now : String) (verdict : Viability.Verdict)
      (conditions : List Guardrail.Condition) (feedback : List String) : Past saves s →
        s.nextIteration.Works good t → fair r.score → outcome ≠ .phaseError →
        u = (t.absorb r conditions).withFeedback feedback →
        Past saves (u.addHistory (historyLine u now verdict r outcome s.totalTokens))
  | ask {saves : List SessionState} {s : SessionState} (now question category : String)
      (reason : Option String) : Past saves s →
        Past saves (s.requestHumanInput now question category reason)
  | revise {saves : List SessionState} {s : SessionState} (feedback : List String) :
      Past saves s → Past saves (s.withFeedback feedback)
  | complete {saves : List SessionState} {s : SessionState} : Past saves s →
      Past saves s.completed
  | stop {saves : List SessionState} {s : SessionState} (hard : HardStop) (description : String) :
      Past saves s → Past saves (s.stopped hard description)
  | summarize {saves : List SessionState} {s : SessionState} : Past saves s →
      Past saves s.updateSummary

end

/-! ## What an iteration changes -/

namespace SessionState

variable {good : Plan → Prop} {s t u : SessionState}

theorem Works.trans (h : s.Works good t) (h' : t.Works good u) : s.Works good u := by
  induction h' with
  | refl => exact h
  | planned u _ ih => exact ih.planned u
  | reviewed u _ ih => exact ih.reviewed u
  | plan _ hp ih => exact ih.plan hp

/-- Calls change the account and the plan under review only. -/
theorem Works.exists_eq (h : s.Works good t) : ∃ tokens breakdown toolCalls plan, t = { s with
    totalTokens := tokens
    tokenBreakdown := breakdown
    toolCalls := toolCalls
    currentPlan := plan } := by
  induction h with
  | refl => exact ⟨_, _, _, _, rfl⟩
  | planned u _ ih =>
    obtain ⟨_, _, _, _, rfl⟩ := ih
    exact ⟨_, _, _, _, rfl⟩
  | reviewed u _ ih =>
    obtain ⟨_, _, _, _, rfl⟩ := ih
    exact ⟨_, _, _, _, rfl⟩
  | plan _ _ ih =>
    obtain ⟨_, _, _, _, rfl⟩ := ih
    exact ⟨_, _, _, _, rfl⟩

theorem recordReview_eq (s : SessionState) (r : Review) : ∃ score plan,
    s.recordReview r = { s with
      reviews := s.reviews ++ [r.fields]
      lastReviewPassed := r.passed
      bestScore := score
      bestPlan := plan } := by
  unfold recordReview
  dsimp only
  split
  · exact ⟨_, _, rfl⟩
  · exact ⟨s.bestScore, s.bestPlan, rfl⟩

/-- A review that is taken in changes the reviews, the best plan, the errors and the conditions. -/
theorem absorb_exists_eq (s : SessionState) (r : Review) (conditions : List Guardrail.Condition) :
    ∃ score plan names, s.absorb r conditions = { s with
      consecutivePhaseErrors := 0
      lastError := none
      reviews := s.reviews ++ [r.fields]
      lastReviewPassed := r.passed
      bestScore := score
      bestPlan := plan
      triggeredConditions := names } := by
  obtain ⟨score, plan, hrecord⟩ :=
    recordReview_eq { s with consecutivePhaseErrors := 0, lastError := none } r
  rw [absorb, hrecord]
  exact ⟨score, plan, _, rfl⟩

theorem absorb_reviews (s : SessionState) (r : Review) (conditions : List Guardrail.Condition) :
    (s.absorb r conditions).reviews = s.reviews ++ [r.fields] := by
  obtain ⟨_, _, _, habsorb⟩ := s.absorb_exists_eq r conditions
  rw [habsorb]

theorem absorb_currentPlan (s : SessionState) (r : Review)
    (conditions : List Guardrail.Condition) :
    (s.absorb r conditions).currentPlan = s.currentPlan := by
  obtain ⟨_, _, _, habsorb⟩ := s.absorb_exists_eq r conditions
  rw [habsorb]

/-- What stays of a state until the outcome of its iteration is known : its status and its counts,
what it waits on, what it was answered, its feedback and its history. -/
structure Stays (s t : SessionState) : Prop where
  status : t.status = s.status
  iteration : t.iteration = s.iteration
  turnBase : t.turnBase = s.turnBase
  pending : t.pendingHumanInput = s.pendingHumanInput
  humanInputs : t.humanInputs = s.humanInputs
  feedback : t.pendingFeedback = s.pendingFeedback
  history : t.iterationHistory = s.iterationHistory

theorem Stays.trans (h : s.Stays t) (h' : t.Stays u) : s.Stays u where
  status := h'.status.trans h.status
  iteration := h'.iteration.trans h.iteration
  turnBase := h'.turnBase.trans h.turnBase
  pending := h'.pending.trans h.pending
  humanInputs := h'.humanInputs.trans h.humanInputs
  feedback := h'.feedback.trans h.feedback
  history := h'.history.trans h.history

theorem Works.stays (h : s.Works good t) : s.Stays t := by
  obtain ⟨_, _, _, _, rfl⟩ := h.exists_eq
  exact ⟨rfl, rfl, rfl, rfl, rfl, rfl, rfl⟩

theorem Works.reviews_eq (h : s.Works good t) : t.reviews = s.reviews := by
  obtain ⟨_, _, _, _, rfl⟩ := h.exists_eq
  rfl

theorem absorb_stays (s : SessionState) (r : Review) (conditions : List Guardrail.Condition) :
    s.Stays (s.absorb r conditions) := by
  obtain ⟨_, _, _, habsorb⟩ := s.absorb_exists_eq r conditions
  rw [habsorb]
  exact ⟨rfl, rfl, rfl, rfl, rfl, rfl, rfl⟩

end SessionState

/-! ## What every move keeps -/

/-- A property of states that every move of a run keeps. -/
structure SessionState.Stable (good : Plan → Prop) (fair : Float → Prop)
    (P : SessionState → Prop) : Prop where
  new : ∀ now sessionId task slug dir, P (.new now sessionId task slug dir)
  settled : ∀ s, P s → s.bestScore.isFinite = true → P s.settled
  move : ∀ s dir, P s → P { s with workingDir := dir }
  answer : ∀ s response approved, P s → P (s.answer response approved)
  setTo : ∀ s resume, P s → good resume.plan → P (s.setTo resume)
  start : ∀ s (request : Request) now, P s → P (request.start now s)
  phaseError : ∀ s t now message, P s → s.nextIteration.Works good t →
    P (t.afterPhaseError now message s.totalTokens)
  fail : ∀ s t message, P s → s.nextIteration.Works good t → P (t.failed message)
  review : ∀ s t now verdict r conditions feedback outcome, P s → s.nextIteration.Works good t →
    fair r.score → outcome ≠ .phaseError →
    P (((t.absorb r conditions).withFeedback feedback).addHistory
      (historyLine ((t.absorb r conditions).withFeedback feedback) now verdict r outcome
        s.totalTokens))
  ask : ∀ s now question category reason, P s →
    P (s.requestHumanInput now question category reason)
  revise : ∀ s feedback, P s → P (s.withFeedback feedback)
  complete : ∀ s, P s → P s.completed
  stop : ∀ s hard description, P s → P (s.stopped hard description)
  summarize : ∀ s, P s → P s.updateSummary

/-- What every move keeps, holds in memory and of all that was saved. -/
theorem Past.of_stable {good : Plan → Prop} {fair : Float → Prop} {P : SessionState → Prop}
    (hP : SessionState.Stable good fair P) {saves : List SessionState} {s : SessionState}
    (h : Past good fair saves s) : P s ∧ ∀ t ∈ saves, P t := by
  have hsave {saves : List SessionState} {t : SessionState} (ht : P t) (hsaves : ∀ u ∈ saves, P u) :
      ∀ u ∈ saves ++ [t], P u := by
    intro u hu
    rcases List.mem_append.1 hu with hu | hu
    · exact hsaves u hu
    · rw [List.mem_singleton.1 hu]
      exact ht
  induction h with
  | new => exact ⟨hP.new _ _ _ _ _, List.forall_mem_nil _⟩
  | load _ hlast hfinite ih =>
    exact ⟨hP.settled _ (ih.2 _ (List.mem_of_getLast? hlast)) hfinite, ih.2⟩
  | save _ ih => exact ⟨ih.1, hsave ih.1 ih.2⟩
  | move _ _ ih => exact ih.imp_left (hP.move _ _)
  | answer _ _ _ ih => exact ih.imp_left (hP.answer _ _ _)
  | setTo resume _ hgood ih => exact ih.imp_left fun hs => hP.setTo _ resume hs hgood
  | start _ _ _ ih => exact ih.imp_left (hP.start _ _ _)
  | phaseError _ _ _ hworks ih => exact ih.imp_left fun hs => hP.phaseError _ _ _ _ hs hworks
  | fail message _ hworks ih =>
    have hfailed := hP.fail _ _ message ih.1 hworks
    exact ⟨hfailed, hsave hfailed ih.2⟩
  | review _ _ _ _ _ hworks hfair houtcome hu ih =>
    subst hu
    exact ih.imp_left fun hs => hP.review _ _ _ _ _ _ _ _ hs hworks hfair houtcome
  | ask _ _ _ _ _ ih => exact ih.imp_left (hP.ask _ _ _ _ _)
  | revise _ _ ih => exact ih.imp_left (hP.revise _ _)
  | complete _ ih => exact ih.imp_left (hP.complete _)
  | stop _ _ _ ih => exact ih.imp_left (hP.stop _ _ _)
  | summarize _ ih => exact ih.imp_left (hP.summarize _)

/-! ## The states in the file -/

/-- The file under `key` was given the texts of these states, and holds the last of them. -/
structure Chronicle (key : List String) (start : FileTree) (w : Workspace)
    (saves : List SessionState) : Prop where
  files : w.files = start.applyAll w.history
  versions : start.versions key w.history = saves.map fun s => .text s.storedText
  node : w.files.node? key = saves.getLast?.map fun s => .file (.text s.storedText)

namespace Chronicle

open Workspace

variable {key : List String} {start : FileTree} {w w' : Workspace} {saves : List SessionState}

/-- The texts that the file was given decide what it holds. -/
theorem of_versions {before : List SessionState} (h : Chronicle key start w before)
    (hversions : start.versions key w.history = saves.map fun s => .text s.storedText) :
    Chronicle key start w saves := by
  have hlast : (before.map fun s => Content.text s.storedText).getLast? =
      (saves.map fun s => Content.text s.storedText).getLast? := by
    rw [← h.versions, hversions]
  rw [List.getLast?_map, List.getLast?_map] at hlast
  have hnode := congrArg (Option.map Node.file) hlast
  rw [Option.map_map, Option.map_map] at hnode
  exact ⟨h.files, hversions, h.node.trans hnode⟩

theorem cwd_eq (h : Chronicle key start w saves) : w.files.cwd = start.cwd := by
  rw [h.files, FileTree.cwd_applyAll]

/-- The beginning of a session whose file is not there. -/
theorem begin (hfile : start.node? key = none) (hfiles : w.files = start)
    (hjournal : w.journal = []) : Chronicle key start w [] := by
  have hhistory : w.history = [] := by rw [history, hjournal, List.reverse_nil]
  refine ⟨?_, ?_, ?_⟩
  · rw [hhistory, hfiles]
    rfl
  · rw [hhistory]
    rfl
  · rw [hfiles, hfile]
    rfl

/-- The file is there as soon as a state was saved. -/
theorem node_ne_none (h : Chronicle key start w saves) (hne : saves ≠ []) :
    w.files.node? key ≠ none := by
  rw [h.node, List.getLast?_eq_some_getLast hne]
  exact Option.some_ne_none _

/-- On a way on which states are saved, they are added to the chronicle. -/
theorem stores (h : Chronicle key start w saves) (more : List SessionState)
    (hstores : w.Stores key w' (more.map SessionState.storedText)) :
    Chronicle key start w' (saves ++ more) := by
  obtain ⟨cs, hjournal, hfiles, hversions, -⟩ := hstores.changes
  have hhistory : w'.history = w.history ++ cs := by
    rw [history, hjournal, List.reverse_append, List.reverse_reverse, history]
  refine ⟨?_, ?_, ?_⟩
  · rw [hfiles, h.files, hhistory, FileTree.applyAll_append]
  · rw [hhistory, FileTree.versions_append, h.versions, ← h.files, hversions, List.map_map,
      List.map_append]
    rfl
  · rw [hstores.node, List.getLast?_map, List.getLast?_append]
    cases more.getLast? with
    | none => exact h.node
    | some s => rfl

theorem spares (h : Chronicle key start w saves) (hspares : w.Spares key w') :
    Chronicle key start w' saves := by
  simpa using h.stores [] hspares

end Chronicle

end PlanReview
