import PlanReview.Proofs.Loop.Following
import PlanReview.Proofs.Loop.Rerun

/-!
# Whole runs, from save to save

What is followed through a loop in `Looping.saves` is carried on here : to the end of a run
(`drive_saves`), from its entry on (`enter_saves`), and over a whole visit to a session : a visit
either saves nothing and calls nobody (`Visit.saves_nothing`), or it saves the state with which its
run begins and those that the run walks over (`Visit.exists_passes`).
-/

namespace PlanReview

open RunM Workspace

variable {c : Controller} {good : Plan → Prop} {dir : Path}
  {enters : Option SessionState → SessionState → Prop}
  {moves : SessionState → SessionState → Prop} {start : FileTree} {saves : List SessionState}
  {s t : SessionState} {r r' : Run} {w w' : Workspace} {resume : Option Resume} {f : Failure}

/-! ## Reading what is stored -/

/-- An answer that is missing only where a stored document cannot be read. -/
def IsReading {α : Type} (result : Except Failure α) : Prop :=
  ∀ f, result = .error f → ∃ e, f = .invalid e

namespace IsReading

variable {α β : Type}

theorem ok (a : α) : IsReading (.ok a) := fun _ h => nomatch h

theorem mapError (result : Except Schema.Invalid α) :
    IsReading (result.mapError Failure.invalid) := by
  intro f h
  cases result with
  | error e =>
    cases h
    exact ⟨e, rfl⟩
  | ok a => cases h

theorem bind {result : Except Failure α} {g : α → Except Failure β} (h : IsReading result)
    (hg : ∀ a, IsReading (g a)) : IsReading (result >>= g) := by
  cases result with
  | error e => exact fun f hf => h f (by cases hf; rfl)
  | ok a => exact hg a

theorem map {result : Except Failure α} (h : IsReading result) (g : α → β) :
    IsReading (result.map g) := by
  cases result with
  | error e => exact fun f hf => h f (by cases hf; rfl)
  | ok a => exact ok (g a)

theorem ne_humanInput {result : Except Failure α} (h : IsReading result)
    (hf : result = .error f) (request : HumanRequest) : f ≠ .humanInput request := by
  obtain ⟨e, rfl⟩ := h f hf
  exact nofun

end IsReading

theorem isReading_lastReview (s : SessionState) : IsReading s.lastReview := by
  unfold SessionState.lastReview
  split
  · exact .ok none
  · rename_i review _
    exact (IsReading.mapError _).bind fun r => .ok (some r)

theorem isReading_finalPlan (s : SessionState) (now : String) : IsReading (finalPlan s now) := by
  unfold finalPlan
  refine (IsReading.mapError _).bind fun current => ?_
  split
  · refine (IsReading.mapError _).bind fun best => ?_
    cases best <;> exact .ok _
  · exact .ok current

theorem isReading_storedResult (s : SessionState) (now : String) :
    IsReading (s.storedResult now) := by
  unfold SessionState.storedResult
  have hresult (plan : Option Plan) : IsReading (do return s.result plan (← s.lastReview)) :=
    (isReading_lastReview s).bind fun review => .ok _
  refine (IsReading.mapError _).bind fun current => ?_
  cases current with
  | some p => exact hresult (some p)
  | none => exact (IsReading.mapError _).bind hresult

/-! ## The end of a run -/

/-- The end of a run saves its state, unless a file cannot be used. -/
theorem conclude_saves (plan : Option Plan) (r : Run) :
    Ends (conclude c plan) r
      (fun _ r' => r.workspace.Saves c.dir r'.workspace [r'.state] ∧
        r'.state = r.state.updateSummary)
      fun f r' => (∀ request, f ≠ .humanInput request) ∧ ∃ o : Option SessionState,
        r.workspace.Saves c.dir r'.workspace o.toList ∧ ∀ t ∈ o, t = r.state.updateSummary := by
  rw [ends_conclude]
  refine (save_saves c (r.update SessionState.updateSummary)).mono ?_ ?_
  · rintro _ _ ⟨w, rfl, hsaves, -⟩
    split
    · exact ⟨hsaves, rfl⟩
    · cases hlast : (r.update SessionState.updateSummary).state.lastReview with
      | ok review => exact ⟨hsaves, rfl⟩
      | error e =>
        refine ⟨(isReading_lastReview _).ne_humanInput hlast, some _, hsaves, ?_⟩
        rintro _ ⟨⟩
        rfl
  · rintro f _ ⟨w, rfl, hspares, hfault⟩
    refine ⟨hfault.ne_humanInput, none, hspares, fun t ht => ?_⟩
    cases ht

theorem finish_saves (hthere : r.workspace.HasState c.dir) :
    Ends (finish c) r
      (fun _ r' => r.workspace.Saves c.dir r'.workspace [r'.state] ∧
        r'.state = r.state.updateSummary)
      fun f r' => (∀ request, f ≠ .humanInput request) ∧ ∃ o : Option SessionState,
        r.workspace.Saves c.dir r'.workspace o.toList ∧ ∀ t ∈ o, t = r.state.updateSummary := by
  rw [ends_finish]
  rcases hplan : finalPlan r.state r.now with e | _ | p
  · refine ⟨(isReading_finalPlan _ _).ne_humanInput hplan, none, .refl _ _, fun t ht => ?_⟩
    cases ht
  · exact conclude_saves none r
  · refine (writeFinal_saves c p _ _ hthere).mono ?_ ?_
    · rintro _ _ ⟨w, rfl, hspares⟩
      refine (conclude_saves (some p) { r with workspace := w }).mono
        (fun _ r' ⟨hsaves, hstate⟩ => ⟨hspares.spares_trans hsaves, hstate⟩) ?_
      rintro f r' ⟨hf, o, hsaves, ho⟩
      exact ⟨hf, o, hspares.spares_trans hsaves, ho⟩
    · rintro f _ ⟨w, rfl, hspares, hfault⟩
      refine ⟨hfault.ne_humanInput, none, hspares, fun t ht => ?_⟩
      cases ht

/-- The metrics of a run leave the file of the state alone. -/
theorem recordMetrics_saves (c : Controller) (r : Run) :
    Ends (recordMetrics c) r
      (fun _ r' => ∃ w, r' = { r with workspace := w } ∧ r.workspace.Saves c.dir w [] ∧
        r.workspace.Leaves (· = stateKey c.dir r.workspace.files.cwd) w)
      fun f r' => r.workspace.Saves c.dir r'.workspace [] ∧ f.IsFileFault := by
  have hfails : Ends (recordMetrics c) r (fun _ _ => True) fun f _ => f.IsFileFault := by
    rw [ends_recordMetrics, ends_onWorkspace]
    exact (r.tally.byFiles_record c.dir r.state.outcome).fails r.workspace
  have hleaves : Ends (recordMetrics c) r
      (fun _ r' => r.workspace.Leaves (· = stateKey c.dir r.workspace.files.cwd) r'.workspace)
      fun _ _ => True := by
    rw [ends_recordMetrics, ends_onWorkspace]
    refine record_leaves r.tally c.dir r.state.outcome r.workspace fun key hkey => ?_
    rw [hkey]
    exact stateKey_ne c _ (by decide)
  have hspares := @recordMetrics_spares c r.workspace.files r rfl
  refine ((hspares.and hfails).and hleaves).mono ?_ ?_
  · rintro _ _ ⟨⟨⟨w, rfl, hspares⟩, -⟩, hleaves⟩
    exact ⟨w, rfl, ⟨hspares⟩, hleaves⟩
  · rintro f _ ⟨⟨⟨w, rfl, hspares⟩, hfault⟩, -⟩
    exact ⟨⟨hspares⟩, hfault⟩

/-- Where a run leads that makes iterations from `r` on : it ends with a state that was saved, or
it fails. -/
def Run.DrivesTo (c : Controller) (step : SessionState → SessionState → Prop) (r : Run) :
    Except Failure LoopResult × Run → Prop
  | (.ok _, r') => (∃ way, r.Passes c step r'.workspace way r'.state) ∧
      r'.state.status.kind.IsEnd
  | (.error f, r') => ∃ way s, r.Passes c step r'.workspace way s ∧
      c.Asks f way.getLast? r'.workspace

/-- A run that has failed records its metrics without touching the state that was saved last. -/
theorem recordMetrics_asks {step : SessionState → SessionState → Prop} {r₁ : Run}
    {way : List SessionState} (hpasses : r.Passes c step r₁.workspace way s)
    (hasks : c.Asks f way.getLast? r₁.workspace) :
    Ends (recordMetrics c) r₁
      (fun _ r₂ => r.Passes c step r₂.workspace way s ∧ c.Asks f way.getLast? r₂.workspace)
      fun f r₂ => r.Passes c step r₂.workspace way s ∧ c.Asks f way.getLast? r₂.workspace := by
  refine (recordMetrics_saves c r₁).mono ?_ ?_
  · rintro _ _ ⟨w, rfl, hspares, hleaves⟩
    refine ⟨hpasses.spares hspares, fun request heq hraises => ?_⟩
    obtain ⟨t, ht, pending, hheld, hpending⟩ := hasks request heq hraises
    refine ⟨t, ht, pending, ?_, hpending⟩
    rw [hspares.cwd_eq]
    exact hleaves.holds _ _ rfl hheld
  · rintro g r₂ ⟨hspares, hfault⟩
    exact ⟨hpasses.spares hspares, Controller.asks_of_fault hfault⟩

/-- A run from its first iteration on saves a walk of states. -/
theorem drive_saves {starts : List Run}
    (hloop : Looping c resume starts r (rounds c resume (c.iterationsLeft r.state) r))
    (hplans : ∀ n ctx now p, (c.planner n ctx).answer now = .ok p →
      ∀ prior iteration time, good (p.succeeding prior iteration time))
    (hstands : r.Stands resume) (hthere : r.workspace.HasState c.dir) :
    r.DrivesTo c (c.Steps good resume starts) (drive c resume r) := by
  have hrounds := (hloop.saves (List.Subset.refl starts) hplans hstands hthere).2
  have hfails {f : Failure} {r₁ : Run} {way : List SessionState} {s : SessionState}
      (hpasses : r.Passes c (c.Steps good resume starts) r₁.workspace way s)
      (hasks : c.Asks f way.getLast? r₁.workspace) :
      Ends (recordMetrics c) r₁
        (fun _ r₂ => ∃ way s, r.Passes c (c.Steps good resume starts) r₂.workspace way s ∧
          c.Asks f way.getLast? r₂.workspace)
        fun f r₂ => ∃ way s, r.Passes c (c.Steps good resume starts) r₂.workspace way s ∧
          c.Asks f way.getLast? r₂.workspace :=
    (recordMetrics_asks hpasses hasks).mono (fun _ _ h => ⟨way, s, h⟩) fun _ _ h => ⟨way, s, h⟩
  have hdrive : Ends (drive c resume) r
      (fun _ r' => (∃ way, r.Passes c (c.Steps good resume starts) r'.workspace way r'.state) ∧
        r'.state.status.kind.IsEnd)
      fun f r' => ∃ way s, r.Passes c (c.Steps good resume starts) r'.workspace way s ∧
        c.Asks f way.getLast? r'.workspace := by
    rw [ends_drive]
    refine (Ends.self (rounds c resume _) r).mono (fun _ r₁ h₁ => ?_) fun f r₁ h₁ => ?_
    · rw [h₁] at hrounds
      obtain ⟨way, s, hpasses, hstep, hended⟩ := hrounds
      refine (finish_saves (hpasses.saves.hasState hthere)).mono ?_ ?_
      · rintro _ r₂ ⟨hsaves, hstate⟩
        rw [← hstate] at hstep
        refine (recordMetrics_saves c r₂).mono ?_ ?_
        · rintro _ _ ⟨w, rfl, hspares, -⟩
          refine ⟨⟨_, (hpasses.snoc hsaves hstep).spares hspares⟩, ?_⟩
          rw [hstate]
          exact hended
        · rintro f r₃ ⟨hspares, hfault⟩
          exact ⟨_, _, (hpasses.snoc hsaves hstep).spares hspares,
            Controller.asks_of_fault hfault⟩
      · rintro f r₂ ⟨hf, o, hsaves, ho⟩
        cases o with
        | none => exact hfails (hpasses.spares hsaves) (Controller.asks_of_ne hf)
        | some t =>
          obtain rfl := ho t rfl
          exact hfails (hpasses.snoc hsaves hstep) (Controller.asks_of_ne hf)
    · rw [h₁] at hrounds
      obtain ⟨way, s, hpasses, hasks⟩ := hrounds
      exact hfails hpasses hasks
  exact hdrive.result

/-! ## Entering a session -/

theorem isEnd_of_isIdle {request : Request} (h : request.isIdle s = true) :
    s.status.kind.IsEnd := by
  unfold Request.isIdle SessionState.canResume SessionState.isFinished at h
  unfold StatusKind.IsEnd
  cases hkind : s.status.kind <;> simp [hkind] at h ⊢

/-- What becomes of a session that is taken up : it is set to a plan from outside, or it goes on as
it is, without a question, or with an answer. -/
theorem takeUp_cases {request : Request} {now : String}
    (h : request.takeUp c now s = .ok (t, resume)) :
    (∃ q, request.resume = some q ∧ t = s.setTo q) ∨
      (s.pendingHumanInput = none ∧ t = s) ∨
      ∃ response, t = s.answer response request.approved := by
  have hread {u : SessionState} (h : ((u.resumeFrom now u.pendingFeedback).mapError
      Failure.invalid).map (fun resume => (u, resume)) = .ok (t, resume)) : t = u := by
    cases hread : (u.resumeFrom now u.pendingFeedback).mapError Failure.invalid with
    | error e =>
      rw [hread] at h
      cases h
    | ok _ =>
      rw [hread] at h
      cases h
      rfl
  unfold Request.takeUp at h
  split at h
  · rename_i q hresume
    cases h
    exact .inl ⟨q, hresume, rfl⟩
  · cases h
  · rename_i hpending
    exact .inr (.inl ⟨hpending, hread h⟩)
  · rename_i response _ _
    exact .inr (.inr ⟨response, hread h⟩)

/-- A session that cannot be taken up waits for an answer, or its plan cannot be read. -/
theorem takeUp_breaks {request : Request} {now : String} (h : request.takeUp c now s = .error f) :
    (∃ h, s.pendingHumanInput = some h ∧ f = .humanInput (c.pendingRequest h)) ∨
      ∃ e, f = .invalid e := by
  have hresume (s' : SessionState) : IsReading (((s'.resumeFrom now s'.pendingFeedback).mapError
      Failure.invalid).map fun resume => (s', resume)) := (IsReading.mapError _).map _
  unfold Request.takeUp at h
  split at h
  · cases h
  · rename_i pending _ _ hpending
    cases h
    exact .inl ⟨pending, hpending, rfl⟩
  · exact .inr (hresume _ f h)
  · exact .inr (hresume _ f h)

/-- How a session is entered : it is found ended, or what was loaded is taken up and saved as
running. -/
def Controller.EntersAs (c : Controller) (request : Request) (w w' : Workspace) : Entry → Prop
  | .idle result => w' = w ∧ ∃ stored, SessionState.load w.files w.now.text c.dir = .ok stored ∧
      request.isIdle (request.session c.artifacts.slug w.now.text stored) = true ∧
      (request.session c.artifacts.slug w.now.text stored).storedResult w.now.text = .ok result
  | .running s resume => w.Saves c.dir w' [s] ∧ ∃ stored s₁,
      SessionState.load w.files w.now.text c.dir = .ok stored ∧
      request.isIdle (request.session c.artifacts.slug w.now.text stored) = false ∧
      request.takeUp c w.now.text (request.session c.artifacts.slug w.now.text stored) =
        .ok (s₁, resume) ∧
      s = request.start w.now.text s₁

/-- Entering a session either works, or saves nothing; if it asks a human, the question is the one
that the session waits on. -/
theorem enter_saves (c : Controller) (request : Request) (w : Workspace) :
    Ends (enter c request) w (fun entry w' => c.EntersAs request w w' entry)
      fun f w' => w.Saves c.dir w' [] ∧ ∀ asked, f = .humanInput asked → w' = w ∧
        ∃ stored pending, SessionState.load w.files w.now.text c.dir = .ok stored ∧
          (request.session c.artifacts.slug w.now.text stored).pendingHumanInput = some pending ∧
          asked = c.pendingRequest pending := by
  rw [ends_enter]
  cases hload : SessionState.load w.files w.now.text c.dir with
  | error e =>
    refine ⟨.refl _ _, fun asked heq => ?_⟩
    cases heq
    unfold SessionState.load at hload
    dsimp only at hload
    repeat' split at hload
    all_goals cases hload
  | ok stored =>
    dsimp only
    split
    · rename_i hidle
      cases hresult : (request.session c.artifacts.slug w.now.text stored).storedResult
          w.now.text with
      | error e =>
        exact ⟨.refl _ _, fun asked heq =>
          absurd heq ((isReading_storedResult _ _).ne_humanInput hresult asked)⟩
      | ok result => exact ⟨rfl, stored, hload, hidle, hresult⟩
    · rename_i hidle
      cases htake : request.takeUp c w.now.text
          (request.session c.artifacts.slug w.now.text stored) with
      | error e =>
        refine ⟨.refl _ _, fun asked heq => ⟨rfl, stored, ?_⟩⟩
        rcases takeUp_breaks htake with ⟨pending, hpending, rfl⟩ | ⟨e, rfl⟩
        · cases heq
          exact ⟨pending, rfl, hpending, rfl⟩
        · cases heq
      | ok result =>
        obtain ⟨s₁, resume⟩ := result
        have hsave := (request.start w.now.text s₁).save_ends (w := w) c.dir
        have hfails := (SessionState.byFiles_save c.dir (request.start w.now.text s₁)).fails w
        refine (hsave.and hfails).mono (fun _ w' ⟨hsaves, _⟩ => ?_)
          fun f w' ⟨hspares, hfault⟩ => ⟨⟨hspares⟩, fun asked heq =>
            absurd heq (hfault.ne_humanInput asked)⟩
        exact ⟨⟨hsaves⟩, stored, s₁, hload, Bool.eq_false_iff.2 hidle, htake, rfl⟩

/-! ## The ways out of a run -/

/-- The ways out of a run. -/
inductive Controller.Runs (c : Controller) (request : Request) (w : Workspace) : Report → Prop where
  | barred {f : Failure} {w₁ : Workspace} : Lock.acquire c.registry c.dir w = (.error f, w₁) →
      Runs c request w { result := .error f, workspace := w₁ }
  | refused {f : Failure} {w₁ w₂ : Workspace} : Lock.acquire c.registry c.dir w = (.ok (), w₁) →
      enter c request w₁ = (.error f, w₂) →
      Runs c request w (Report.released c { result := .error f, workspace := w₂ })
  | idle {result : LoopResult} {w₁ w₂ : Workspace} :
      Lock.acquire c.registry c.dir w = (.ok (), w₁) →
      enter c request w₁ = (.ok (.idle result), w₂) →
      Runs c request w (Report.released c { result := .ok result, workspace := w₂ })
  | driven {s : SessionState} {resume : Option Resume} {result : Except Failure LoopResult}
      {w₁ w₂ : Workspace} {r : Run} : Lock.acquire c.registry c.dir w = (.ok (), w₁) →
      enter c request w₁ = (.ok (.running s resume), w₂) →
      drive c resume { workspace := w₂, state := s } = (result, r) →
      Runs c request w (Report.released c {
        result := result
        workspace := r.workspace
        planned := r.planned
        reviewed := r.reviewed })

theorem run_runs (c : Controller) (request : Request) (w : Workspace) :
    c.Runs request w (c.run request w) := by
  unfold Controller.run
  rcases hacquire : Lock.acquire c.registry c.dir w with ⟨_ | _, w₁⟩
  · exact .barred hacquire
  · dsimp only
    rcases henter : enter c request w₁ with ⟨_ | ⟨result⟩ | ⟨s, resume⟩, w₂⟩
    · exact .refused hacquire henter
    · exact .idle hacquire henter
    · exact .driven hacquire henter rfl

/-- Taking the lock saves nothing, and asks no human. -/
theorem acquire_saves (c : Controller) (w : Workspace) :
    Ends (Lock.acquire c.registry c.dir) w (fun _ w' => w.Saves c.dir w' [])
      fun f w' => w.Saves c.dir w' [] ∧ ∀ request, f ≠ .humanInput request := by
  have hspares := @Lock.acquire_ends (stateKey c.dir w.files.cwd) w c.registry c.dir
    (.inr (Lock.not_prefix_place _ _ _)) (by
      intro heq
      exact absurd (List.singleton_inj.1 (List.append_inj_right' heq rfl)) (by decide))
  have hunasked : Ends (Lock.acquire c.registry c.dir) w (fun _ _ => True)
      fun f _ => ∀ request, f ≠ .humanInput request := by
    unfold Lock.acquire
    rw [ends_bind, ends_get]
    dsimp only
    split
    · exact fun _ => nofun
    · refine Ends.bind ((Act.byFiles_makeDirectories _).fails w) (fun made w₁ _ => ?_)
        fun f _ h => h.ne_humanInput
      rw [ends_bind, Lock.requireFile_ends]
      cases made with
      | error e => exact fun _ => nofun
      | ok _ =>
        refine Ends.bind ((Lock.byFiles_touch _).fails w₁) (fun touched w₂ _ => ?_)
          fun f _ h => h.ne_humanInput
        rw [ends_bind, Lock.requireFile_ends]
        cases touched with
        | error e => exact fun _ => nofun
        | ok _ =>
          dsimp only
          split
          · exact fun _ => nofun
          · exact True.intro
  exact (hspares.and hunasked).mono (fun _ w' h' => ⟨h'.1⟩) fun f w' h' => ⟨⟨h'.1⟩, h'.2⟩

/-! ## Visits -/

/-- The run with which a visit begins its iterations, if it makes any, and what it goes on from. -/
def Visit.entered? (v : Visit) (w : Workspace) : Option (Run × Option Resume) :=
  match Lock.acquire v.controller.registry v.controller.dir
      { w with now := v.now, locks := v.locks } with
  | (.error _, _) => none
  | (.ok (), w₁) =>
    match enter v.controller v.request w₁ with
    | (.ok (.running s resume), w₂) => some ({ workspace := w₂, state := s }, resume)
    | _ => none

/-- The state that the run of a visit ends with. -/
def Visit.lastState? (v : Visit) (w : Workspace) : Option SessionState :=
  (v.entered? w).map fun (r, resume) => (drive v.controller resume r).2.state

theorem Visit.entered_of_enter {v : Visit} {w₁ w₂ : Workspace}
    (hacquire : Lock.acquire v.controller.registry v.controller.dir
      { w with now := v.now, locks := v.locks } = (.ok (), w₁))
    (henter : enter v.controller v.request w₁ = (.ok (.running s resume), w₂)) :
    v.entered? w = some ({ workspace := w₂, state := s }, resume) := by
  unfold entered?
  rw [hacquire]
  dsimp only
  rw [henter]

/-- Such a visit reports what its run has come to. -/
theorem Visit.exists_of_entered {v : Visit} (h : v.entered? w = some (r, resume)) :
    (∃ w₁, Lock.acquire v.controller.registry v.controller.dir
        { w with now := v.now, locks := v.locks } = (.ok (), w₁) ∧
      enter v.controller v.request w₁ = (.ok (.running r.state resume), r.workspace)) ∧
    r = { workspace := r.workspace, state := r.state } ∧
    v.report w = Report.released v.controller {
      result := (drive v.controller resume r).1
      workspace := (drive v.controller resume r).2.workspace
      planned := (drive v.controller resume r).2.planned
      reviewed := (drive v.controller resume r).2.reviewed } := by
  unfold entered? at h
  split at h
  · cases h
  · rename_i w₁ hacquire
    split at h
    · rename_i s resume' w₂ henter
      cases h
      refine ⟨⟨w₁, hacquire, henter⟩, rfl, ?_⟩
      unfold Visit.report Controller.run
      rw [hacquire]
      dsimp only
      rw [henter]
      rfl
    · cases h

/-- The workspace in which a visit begins. -/
theorem Visit.saves_begin (v : Visit) (dir : Path) (w : Workspace) :
    w.Saves dir { w with now := v.now, locks := v.locks } [] :=
  ⟨spares_of_eq rfl rfl⟩

/-- Nothing is saved before a visit has the lock of its session. -/
theorem Visit.saves_locked {v : Visit} {w₁ : Workspace}
    (hacquire : Lock.acquire v.controller.registry v.controller.dir
      { w with now := v.now, locks := v.locks } = (.ok (), w₁)) :
    w.Saves v.controller.dir w₁ [] :=
  (v.saves_begin v.controller.dir w).trans ((acquire_saves v.controller _).of_ok hacquire)

/-- Whoever has entered a session has saved the state with which the run begins. -/
theorem Visit.saves_of_entered {v : Visit} (h : v.entered? w = some (r, resume)) :
    w.Saves v.controller.dir r.workspace [r.state] := by
  obtain ⟨⟨w₁, hacquire, henter⟩, -⟩ := exists_of_entered h
  exact (saves_locked hacquire).spares_trans
    ((enter_saves v.controller v.request w₁).of_ok henter).1

theorem Visit.hasState_of_entered {v : Visit} (h : v.entered? w = some (r, resume)) :
    r.workspace.HasState v.controller.dir := by
  have hstores := (saves_of_entered h).stores
  unfold HasState
  rw [hstores.cwd_eq, hstores.node]
  exact Option.some_ne_none _

theorem released_saves {report : Report} {saved : List SessionState}
    (h : w.Saves dir report.workspace saved) : w.Saves dir (report.released c).workspace saved :=
  h.trans_spares ⟨Lock.release_spares _ _ _⟩

/-- The way of a visit that has entered the session. -/
theorem Visit.exists_passes {v : Visit} {starts : List Run}
    (hentered : v.entered? w = some (r, resume))
    (hloop : Looping v.controller resume starts r
      (rounds v.controller resume (v.controller.iterationsLeft r.state) r))
    (hplans : ∀ n ctx now p, (v.controller.planner n ctx).answer now = .ok p →
      ∀ prior iteration time, good (p.succeeding prior iteration time))
    (hstands : r.Stands resume) :
    ∃ way s, r.Passes v.controller (v.controller.Steps good resume starts) (v.report w).workspace
      way s := by
  have hdrives := drive_saves hloop hplans hstands (hasState_of_entered hentered)
  rw [(exists_of_entered hentered).2.2]
  rcases hdrive : drive v.controller resume r with ⟨f | result, r'⟩
  all_goals rw [hdrive] at hdrives
  · obtain ⟨way, s, hpasses, -⟩ := hdrives
    exact ⟨way, s, released_saves hpasses.saves, hpasses.walks⟩
  · obtain ⟨⟨way, hpasses⟩, -⟩ := hdrives
    exact ⟨way, _, released_saves hpasses.saves, hpasses.walks⟩

/-- The way of such a visit, whatever its plans are. -/
theorem Visit.exists_way {v : Visit} (hentered : v.entered? w = some (r, resume))
    (hstands : r.Stands resume) : ∃ starts way s,
      Looping v.controller resume starts r
        (rounds v.controller resume (v.controller.iterationsLeft r.state) r) ∧
      r.Passes v.controller (v.controller.Steps (fun _ => True) resume starts)
        (v.report w).workspace way s := by
  obtain ⟨starts, hloop, -⟩ := rounds_within_limits v.controller resume r
  obtain ⟨way, s, hpasses⟩ : ∃ way s, r.Passes v.controller
      (v.controller.Steps (fun _ => True) resume starts) (v.report w).workspace way s :=
    exists_passes hentered hloop (fun _ _ _ _ _ _ _ _ => trivial) hstands
  exact ⟨starts, way, s, hloop, hpasses⟩

/-- A visit that does not enter the session saves nothing and calls nobody. -/
theorem Visit.saves_nothing {v : Visit} (h : v.entered? w = none) :
    w.Saves v.controller.dir (v.report w).workspace [] ∧ (v.report w).planned = [] ∧
      (v.report w).reviewed = [] := by
  have hacquire := acquire_saves v.controller { w with now := v.now, locks := v.locks }
  unfold entered? at h
  unfold Visit.report Controller.run
  rcases hlock : Lock.acquire v.controller.registry v.controller.dir
      { w with now := v.now, locks := v.locks } with ⟨f | _, w₁⟩
  · exact ⟨(v.saves_begin v.controller.dir w).trans (hacquire.of_error hlock).1, rfl, rfl⟩
  · have hlocked := saves_locked hlock
    rw [hlock] at h
    have henter := enter_saves v.controller v.request w₁
    dsimp only at h ⊢
    rcases hentry : enter v.controller v.request w₁ with ⟨f | ⟨result⟩ | ⟨s, resume⟩, w₂⟩
    · exact ⟨released_saves (hlocked.trans (henter.of_error hentry).1), rfl, rfl⟩
    · obtain ⟨rfl, -⟩ := henter.of_ok hentry
      exact ⟨released_saves hlocked, rfl, rfl⟩
    · rw [hentry] at h
      cases h

end PlanReview
