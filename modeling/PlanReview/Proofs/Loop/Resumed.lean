import PlanReview.Proofs.Loop.Bounds
import PlanReview.Proofs.Loop.Reload
import PlanReview.Proofs.Loop.Rerun
import PlanReview.Proofs.Loop.Waiting

/-!
# Sessions set to a plan from outside

A session is well formed if its turns are counted from no later iteration than the present one, and
if a question is pending only while the session is paused (`SessionState.IsWellFormed`). A new
session is, every move of a run keeps it so (`SessionState.Move.isWellFormed`), and so does every
run that goes on from the stored state alone (`visited_wellFormed_of_unresumed`).

A run that is given a plan from outside sets the iteration back and starts without a look at the
question or at the iteration that turns are counted from. What it saves is well formed exactly if
the session it finds has no question pending, and has not counted its turns from an iteration that
the run is set back behind (`resume_saves_wellFormed_iff`).
-/

namespace PlanReview

open Workspace

variable {c : Controller} {good : Plan → Prop} {saves : List SessionState} {s t : SessionState}
  {request : Request} {resume : Option Resume} {q : Resume}

/-! ## Well-formed states -/

/-- Turns are counted from no later iteration than the present one, and a question is pending only
while the session is paused. -/
structure SessionState.IsWellFormed (s : SessionState) : Prop where
  turns : s.turnBase ≤ s.iteration
  paused : s.pendingHumanInput ≠ none → s.status.kind = .paused

namespace SessionState

theorem isWellFormed_of_none (hturns : s.turnBase ≤ s.iteration)
    (hpending : s.pendingHumanInput = none) : s.IsWellFormed :=
  ⟨hturns, fun h => absurd hpending h⟩

theorem IsWellFormed.pending_eq_none (h : s.IsWellFormed) (hkind : s.status.kind ≠ .paused) :
    s.pendingHumanInput = none := by
  by_contra hne
  exact hkind (h.paused hne)

/-! ## Moves -/

/-- Neither a line of the history nor a question counts. -/
theorem noted_count (s : SessionState) (now : String) (verdict : Viability.Verdict)
    (review : Review) (outcome : IterationOutcome) (tokensBefore : Int) :
    (s.noted now verdict review outcome tokensBefore).count = s.count := rfl

theorem asking_count (s : SessionState) (now : String) (p : Pause) :
    (s.asking now p).count = s.count := rfl

theorem withFeedback_count (s : SessionState) (lines : List String) :
    (s.withFeedback lines).count = s.count := rfl

theorem completed_count (s : SessionState) : s.completed.updateSummary.count = s.count := rfl

/-- A move counts one iteration or, at a limit, none; then it leaves the plan. -/
theorem Move.count (h : s.Move c good t) : t.count = (s.iteration + 1, s.turnBase) ∨
    t.count = s.count ∧ t.currentPlan = s.currentPlan := by
  cases h with
  | phaseError now message hworks => exact .inl hworks.stays.count
  | failed f hworks => exact .inl hworks.stays.count
  | asked now hjudges hreview _ =>
    rw [asking_count, noted_count, withFeedback_count]
    exact .inl (hjudges.stays _).count
  | gated now hjudges hreview _ _ _ =>
    rw [asking_count, noted_count]
    exact .inl (hjudges.stays _).count
  | revised now hjudges hreview _ _ =>
    rw [revising_count]
    exact .inl (hjudges.stays _).count
  | approved now hjudges hreview _ _ _ =>
    rw [completed_count, noted_count]
    exact .inl (hjudges.stays _).count
  | stopped hcheck hdescribe => exact .inr ⟨rfl, rfl⟩

/-- A move away from a running session that is well formed leads to one that is. -/
theorem Move.isWellFormed (h : s.Move c good t) (hs : s.IsWellFormed)
    (hrunning : s.status.kind = .running) : t.IsWellFormed := by
  have hnone : s.pendingHumanInput = none :=
    hs.pending_eq_none (by rw [hrunning]; exact nofun)
  have hturns : t.turnBase ≤ t.iteration := by
    have hbase := hs.turns
    rcases h.count with hcount | ⟨hcount, -⟩
    · obtain ⟨hiteration, hkept⟩ := Prod.mk.inj hcount
      omega
    · obtain ⟨hiteration, hkept⟩ := Prod.mk.inj hcount
      omega
  cases h.leads with
  | on _ hpending => exact isWellFormed_of_none hturns (hpending.trans hnone)
  | asks _ hkind _ _ => exact ⟨hturns, fun _ => hkind⟩
  | fails _ hpending => exact isWellFormed_of_none hturns (hpending.trans hnone)
  | completes _ hpending => exact isWellFormed_of_none hturns (hpending.trans hnone)
  | promotes _ hpending _ => exact isWellFormed_of_none hturns (hpending.trans hnone)
  | stops _ hpending _ => exact isWellFormed_of_none hturns (hpending.trans hnone)

end SessionState

/-! ## The first state of a run -/

/-- The session that a request is about has no question pending and counts no turns, if it is new;
else both are those of the stored state. -/
theorem session_standing (request : Request) (slug now : String) (o : Option SessionState) :
    (request.session slug now (o.map SessionState.settled)).pendingHumanInput =
        o.bind SessionState.pendingHumanInput ∧
      (request.session slug now (o.map SessionState.settled)).count =
        (o.map SessionState.count).getD (0, 0) := by
  cases o with
  | none => exact ⟨rfl, rfl⟩
  | some s =>
    obtain ⟨dir, heq⟩ := session_eq request slug now s.settled
    rw [Option.map_some, heq]
    exact ⟨rfl, rfl⟩

/-- A run begins with a state that is well formed exactly if its turns are, and no question is
pending. -/
theorem start_isWellFormed_iff (request : Request) (now : String) (s : SessionState) :
    (request.start now s).IsWellFormed ↔
      s.pendingHumanInput = none ∧ (request.resetTurns = true ∨ s.turnBase ≤ s.iteration) := by
  have hstart : (request.start now s).pendingHumanInput = s.pendingHumanInput ∧
      ((request.start now s).turnBase ≤ (request.start now s).iteration ↔
        request.resetTurns = true ∨ s.turnBase ≤ s.iteration) := by
    unfold Request.start
    cases request.resetTurns <;> simp
  obtain ⟨hpending, hturns⟩ := hstart
  have hrunning := (start_eq request now s).2.2
  constructor
  · intro h
    have hnone := h.pending_eq_none (by rw [hrunning]; exact nofun)
    exact ⟨hpending ▸ hnone, hturns.1 h.turns⟩
  · rintro ⟨hnone, hcounted⟩
    exact SessionState.isWellFormed_of_none (hturns.2 hcounted) (hpending.trans hnone)

/-- After a plan from outside it is well formed exactly if the session found waits for no answer,
and has not counted its turns from a later iteration. -/
theorem Request.Enters.isWellFormed_iff {o : Option SessionState} (h : request.Enters c o t)
    (hresume : request.resume = some q) :
    t.IsWellFormed ↔ ∀ s ∈ o, s.pendingHumanInput = none ∧
      (request.resetTurns = true ∨ s.turnBase ≤ max 0 (q.startIteration - 1)) := by
  obtain ⟨-, now, s, resume, -, htake, rfl⟩ := h
  obtain ⟨hpending, hcount⟩ := session_standing request c.artifacts.slug now o
  have hset : s = (request.session c.artifacts.slug now (o.map SessionState.settled)).setTo q := by
    unfold Request.takeUp at htake
    rw [hresume] at htake
    cases htake
    rfl
  have hbase : s.turnBase = ((o.map SessionState.count).getD (0, 0)).2 := by
    rw [hset, ← hcount]
    rfl
  have hiteration : s.iteration = max 0 (q.startIteration - 1) := by rw [hset]; rfl
  have hnone : s.pendingHumanInput = o.bind SessionState.pendingHumanInput := by
    rw [hset, ← hpending]
    rfl
  rw [start_isWellFormed_iff, hbase, hiteration, hnone]
  cases o with
  | none => simp
  | some u => simp [SessionState.count]

/-- Without one it is well formed, if the session found counts its turns from no later iteration. -/
theorem Request.Enters.isWellFormed {o : Option SessionState} (h : request.Enters c o t)
    (hresume : request.resume = none) (ho : ∀ s ∈ o, s.turnBase ≤ s.iteration) :
    t.IsWellFormed := by
  obtain ⟨-, now, s, resume, -, htake, rfl⟩ := h
  obtain ⟨-, hcount⟩ := session_standing request c.artifacts.slug now o
  rw [start_isWellFormed_iff]
  refine ⟨takeUp_pending htake fun hne => absurd hresume hne, .inr ?_⟩
  have hsame : s.count =
      (request.session c.artifacts.slug now (o.map SessionState.settled)).count := by
    rcases takeUp_cases htake with ⟨q, hq, -⟩ | ⟨-, rfl⟩ | ⟨response, rfl⟩
    · rw [hresume] at hq
      cases hq
    · rfl
    · unfold SessionState.answer SessionState.applyHumanResponse
      split <;> rfl
  rw [hcount] at hsame
  obtain ⟨hiteration, hbase⟩ := Prod.mk.inj hsame
  rw [hiteration, hbase]
  cases o with
  | none => exact Int.le_refl 0
  | some u => exact ho u rfl

/-! ## Runs -/

variable {dir : Path} {files : FileTree} {visits : List Visit} {v : Visit}

/-- All that is saved is well formed, as long as no run is given a plan from outside. -/
theorem visited_wellFormed_of_unresumed (now : Instant)
    (hfile : files.has (SessionState.filePath dir) = false)
    (hvisits : ∀ u ∈ visits, u.controller.dir = dir ∧ u.request.resume = none) :
    ∃ saves, Chronicle (stateKey dir files.cwd) files (visited visits (.untouched files now))
      saves ∧ ∀ s ∈ saves, s.IsWellFormed := by
  obtain ⟨saves, hrecords⟩ : ∃ saves, (visited visits (.untouched files now)).Records dir
      (fun o t => (∀ s ∈ o, s.IsWellFormed) → t.IsWellFormed)
      (fun s t => s.IsWellFormed → t.IsWellFormed) files saves := by
    refine visited_records now hfile (fun u hu => (hvisits u hu).1) ?_ ?_
    · intro u hu o t henters ho
      exact henters.isWellFormed (hvisits u hu).2 fun s hs => (ho s hs).turns
    · intro u hu s t hrunning hmove hs
      exact hmove.isWellFormed hs hrunning
  exact ⟨saves, hrecords.chronicle,
    hrecords.course.forall_mem (fun o t ho henter => henter ho) fun s t hs hmove => hmove hs⟩

/-- A run that is given a plan from outside, in any session : it saves a state as soon as it begins,
and all that it saves is well formed exactly if the state stored before it waits for no answer, and
has not counted its turns from an iteration that the run is set back behind, unless the turns are
counted anew. -/
theorem resume_saves_wellFormed_iff (now : Instant)
    (hfile : files.has (SessionState.filePath v.controller.dir) = false)
    (hvisits : ∀ u ∈ visits, u.controller.dir = v.controller.dir)
    (hresume : v.request.resume = some q) :
    ∃ before saves,
      Chronicle (stateKey v.controller.dir files.cwd) files
        (visited visits (.untouched files now)) before ∧
      (visited visits (.untouched files now)).Saves v.controller.dir
        (v.report (visited visits (.untouched files now))).workspace saves ∧
      (saves = [] ↔ v.entered? (visited visits (.untouched files now)) = none) ∧
      (saves ≠ [] → ((∀ s ∈ saves, s.IsWellFormed) ↔
        ∀ s ∈ before.getLast?, s.pendingHumanInput = none ∧
          (v.request.resetTurns = true ∨ s.turnBase ≤ max 0 (q.startIteration - 1)))) := by
  have hkeeps := visited_keeps (fun u hu => Visit.fits (hvisits u hu))
    (Workspace.keeps_untouched now hfile)
  generalize visited visits (.untouched files now) = w at hkeeps ⊢
  obtain ⟨before, s, hchronicle, hpast⟩ := hkeeps
  refine ⟨before, ?_⟩
  cases hentered : v.entered? w with
  | none =>
    exact ⟨[], hchronicle, (Visit.saves_nothing hentered).1, by simp, fun hne => absurd rfl hne⟩
  | some entry =>
    obtain ⟨r, resume⟩ := entry
    have hstands := Visit.stands_of_entered SessionState.isKept_true
      ⟨before, s, hchronicle, hpast⟩ hentered
    obtain ⟨starts, way, u, -, hpasses⟩ := Visit.exists_way hentered hstands
    have hiff := (Visit.enters_of_entered hchronicle hentered).isWellFormed_iff hresume
    refine ⟨r.state :: way, hchronicle,
      (Visit.saves_of_entered hentered).trans hpasses.saves, by simp, fun _ => ?_⟩
    rw [← hiff]
    refine ⟨fun hall => hall _ List.mem_cons_self, fun hbegins => ?_⟩
    have hway := hpasses.walks.forall_mem hbegins fun s t hs hstep =>
      hstep.move.isWellFormed hs hstep.running
    exact List.forall_mem_cons.2 ⟨hbegins, hway.1⟩

/-- A visit that is given a plan to begin with, as the one of a fourth iteration. -/
def returning : Visit where
  controller := wavering.controller
  request := { task := "demo", resume := some { plan := outline, startIteration := 4 } }
  now := .ofCivil 2024 5 17 12 0 0 0

/-- What such a visit finds if it comes after one that has asked a human : a state with a question
pending. It goes on all the same. -/
theorem returning_of_inquiring : ∃ s,
    SessionState.load (inquiring.report (.untouched bareTree ⟨0⟩)).workspace.files
      returning.now.text returning.controller.dir = .ok (some s) ∧
    s.pendingHumanInput ≠ none ∧
    returning.entered? (inquiring.report (.untouched bareTree ⟨0⟩)).workspace ≠ none := by
  have hfirst := inquiring_isFirst
  have hasked : (inquiring.report (.untouched bareTree ⟨0⟩)).asked?.isSome = true := by
    decide +kernel
  have hstate : (inquiring.lastState? (.untouched bareTree ⟨0⟩)).map (fun s =>
      (s.bestScore.isFinite, s.pendingHumanInput.isSome)) = some (true, true) := by
    decide +kernel
  have hentered : (returning.enteredWith?
      ((inquiring.lastState? (.untouched bareTree ⟨0⟩)).map SessionState.settled)
      (inquiring.report (.untouched bareTree ⟨0⟩)).workspace).isSome = true := by
    decide +kernel
  obtain ⟨s, hlast, hs⟩ := Option.map_eq_some_iff.1 hstate
  obtain ⟨hfinite, hpending⟩ := Prod.mk.inj hs
  obtain ⟨_, -, hload⟩ := Visit.load_of_asked hfirst.unstored
    (Controller.not_raises_humanInput hfirst.raises) hasked hlast hfinite returning.now.text
  rw [hlast, Option.map_some, ← Visit.entered_eq_enteredWith (v := returning) hload] at hentered
  exact ⟨s.settled, hload, Option.isSome_iff_ne_none.1 hpending,
    Option.isSome_iff_ne_none.1 hentered⟩

/-- In a session without a stored state all is well formed that such a visit saves. After a visit
that has asked a human not all is. -/
theorem returning_saves_wellFormed :
    bareTree.has (SessionState.filePath returning.controller.dir) = false ∧
    (∀ u ∈ [inquiring], u.controller.dir = returning.controller.dir) ∧
    returning.request.resume = some { plan := outline, startIteration := 4 } ∧
    (∃ saves, saves ≠ [] ∧ (visited [] (.untouched bareTree ⟨0⟩)).Saves returning.controller.dir
        (returning.report (visited [] (.untouched bareTree ⟨0⟩))).workspace saves ∧
      ∀ s ∈ saves, s.IsWellFormed) ∧
    ∃ before s saves, Chronicle (stateKey returning.controller.dir bareTree.cwd) bareTree
        (visited [inquiring] (.untouched bareTree ⟨0⟩)) before ∧
      before.getLast? = some s ∧ s.pendingHumanInput ≠ none ∧ saves ≠ [] ∧
      (visited [inquiring] (.untouched bareTree ⟨0⟩)).Saves returning.controller.dir
        (returning.report (visited [inquiring] (.untouched bareTree ⟨0⟩))).workspace saves ∧
      ¬ ∀ s ∈ saves, s.IsWellFormed := by
  have hfile : bareTree.has (SessionState.filePath returning.controller.dir) = false := by decide
  have hdirs : ∀ u ∈ [inquiring], u.controller.dir = returning.controller.dir :=
    List.forall_mem_singleton.2 rfl
  refine ⟨hfile, hdirs, rfl, ?_, ?_⟩
  · have hentered : (returning.entered? (visited [] (.untouched bareTree ⟨0⟩))).isSome = true := by
      decide +kernel
    obtain ⟨before, saves, hchronicle, hsaves, hnil, hiff⟩ :=
      @resume_saves_wellFormed_iff _ bareTree [] returning ⟨0⟩ hfile (List.forall_mem_nil _) rfl
    have hne : saves ≠ [] := by
      intro heq
      rw [hnil.1 heq] at hentered
      cases hentered
    have hbefore : before = [] := by
      have hversions := hchronicle.versions
      exact List.map_eq_nil_iff.1 hversions.symm
    refine ⟨saves, hne, hsaves, (hiff hne).2 ?_⟩
    rw [hbefore]
    exact fun s hs => nomatch hs
  · obtain ⟨t, hload, hpending, hentered⟩ := returning_of_inquiring
    obtain ⟨before, saves, hchronicle, hsaves, hnil, hiff⟩ :=
      @resume_saves_wellFormed_iff _ bareTree [inquiring] returning ⟨0⟩ hfile hdirs rfl
    have hne : saves ≠ [] := fun heq => hentered (hnil.1 heq)
    have hnode := hchronicle.node
    rw [← hchronicle.cwd_eq] at hnode
    obtain ⟨-, hstored⟩ := SessionState.stored_of_node hnode hload
    obtain ⟨s, hlast, rfl⟩ := Option.map_eq_some_iff.1 hstored.symm
    refine ⟨before, s, saves, hchronicle, hlast, hpending, hne, hsaves, fun hall => ?_⟩
    exact hpending (((hiff hne).1 hall) s hlast).1

end PlanReview
