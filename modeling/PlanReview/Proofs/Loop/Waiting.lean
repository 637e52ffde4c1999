import PlanReview.Proofs.Loop.Answers

/-!
# What a pause leaves

A run that asks a human stores the state it stops with, question and all, and nothing that comes
after the pause touches it (`drive_waits`). So the next run on the session finds this state
(`Visit.load_report`), and what it comes to can be worked out from the state alone
(`Visit.report_eq_reportWith`).
-/

namespace PlanReview

open RunM Workspace

variable {c : Controller} {r r' : Run} {w : Workspace} {resume : Option Resume} {f : Failure}

/-- If a human is asked something, and neither planner nor reviewer have asked, the state of the run
is stored. -/
def Run.Waits (c : Controller) (f : Failure) (r : Run) : Prop :=
  ∀ request, f = .humanInput request → ¬ c.Raises f →
    r.workspace.files.Holds (stateKey c.dir r.workspace.files.cwd) (.text r.state.storedText)

theorem Run.waits_of_ne (h : ∀ request, f ≠ .humanInput request) : r.Waits c f :=
  fun request heq => absurd heq (h request)

theorem Run.waits_of_fault (h : f.IsFileFault) : r.Waits c f :=
  waits_of_ne h.ne_humanInput

/-! ## One iteration -/

/-- However a pause ends, the run has the state that asks. -/
theorem Pauses.state_eq {plan : Plan} {p : Pause} (h : Pauses c plan p r f r') :
    r'.state = r.state.asking r.now p := by
  cases h with
  | unsaved hunsaved =>
    obtain ⟨w, -, rfl⟩ := save_run hunsaved
    rfl
  | undrafted hsaved hunwritten =>
    obtain ⟨w, -, rfl⟩ := save_run hsaved
    obtain ⟨w', -, rfl⟩ := onWorkspace_run hunwritten
    rfl
  | asked hsaved hwritten =>
    obtain ⟨w, -, rfl⟩ := save_run hsaved
    obtain ⟨w', -, rfl⟩ := onWorkspace_run hwritten
    rfl

theorem Pauses.waits {plan : Plan} {p : Pause} (h : Pauses c plan p r f r')
    (hthere : r.workspace.HasState c.dir) (hworded : p.IsWorded) : r'.Waits c f := by
  intro request heq hraises
  have hgoes : r.Goes c (· = r.state.asking r.now p) r' (.error f) := h.saves hthere rfl hworded
  obtain ⟨o, -, hasking, hasks⟩ := hgoes
  obtain ⟨t, ht, -, hheld, -⟩ := hasks request heq hraises
  rwa [hasking t ht, ← h.state_eq] at hheld

theorem Decides.waits {tokensBefore : Int} {j : Judged} {review : Review}
    (h : Decides c tokensBefore j review r (.error f) r') (hthere : r.workspace.HasState c.dir) :
    r'.Waits c f := by
  cases h with
  | asks _ hpauses => exact hpauses.waits hthere (clarification_isWorded review)
  | ungated _ _ hgate => exact Run.waits_of_ne (gate_raises hgate)
  | gated _ _ _ hpauses => exact hpauses.waits hthere (approvalOf_isWorded _)
  | unsaved _ _ hunsaved =>
    obtain ⟨-, -, -, hfault⟩ := (save_saves c _).of_error hunsaved
    exact Run.waits_of_fault hfault

theorem Turn.waits (h : Turn c resume r (.error f) r') (hthere : r.workspace.HasState c.dir) :
    r'.Waits c f := by
  have hjudge := judge_spares (r := r.opened) c resume rfl hthere
  cases h with
  | unwritten hjudged hunwritten =>
    have h₁ : r.workspace.Saves c.dir _ [] := ⟨hjudge.of_ok hjudged⟩
    obtain ⟨-, -, -, hfault⟩ :=
      (writeReview_saves c _ _ (h₁.hasState hthere)).of_error hunwritten
    exact Run.waits_of_fault hfault
  | decided hjudged hwrite hdecides =>
    have h₁ : r.workspace.Saves c.dir _ [] := ⟨hjudge.of_ok hjudged⟩
    obtain ⟨w, rfl, hspares⟩ :=
      (writeReview_saves c _ _ (h₁.hasState hthere)).of_ok hwrite
    exact hdecides.waits ((h₁.trans hspares).hasState hthere)
  | phaseUnsaved _ hunsaved =>
    obtain ⟨-, -, -, hfault⟩ := (save_saves c _).of_error hunsaved
    exact Run.waits_of_fault hfault
  | failed hfailed _ _ =>
    rintro request rfl hraises
    exact absurd (raises_of_judge hfailed) hraises
  | @failedUnsaved f g _ _ hfailed _ hunsaved =>
    obtain ⟨-, -, -, hfault⟩ := (save_saves c _).of_error hunsaved
    rcases unmarked_eq_or f g with hraised | hraised
    · rw [hraised]
      rintro request rfl hraises
      exact absurd (raises_of_judge hfailed) hraises
    · rw [hraised]
      exact Run.waits_of_fault hfault

/-! ## A whole run -/

/-- A limit that is reached asks no human. -/
theorem stopAtLimit_raises (c : Controller) (r : Run) :
    Ends (stopAtLimit c) r (fun _ _ => True) fun f _ => ∀ request, f ≠ .humanInput request := by
  rw [ends_stopAtLimit]
  split
  · exact trivial
  · split
    · rename_i e _
      cases e <;> exact fun _ => nofun
    · exact trivial

/-- A loop that asks a human has asked in one of its iterations. -/
theorem Looping.exists_failed {starts : List Run}
    (h : Looping c resume starts r (.error f, r')) :
    (∃ r₁ ∈ starts, iteration c resume r₁ = (.error f, r')) ∨ ∀ request, f ≠ .humanInput request := by
  generalize hout : (Except.error f, r') = out at h
  induction h with
  | stopped _ => cases hout
  | finished _ _ => cases hout
  | @indescribable r r₁ g hstop =>
    cases hout
    exact .inr ((stopAtLimit_raises c r).of_error hstop)
  | @failed r r₁ g _ hfailed =>
    cases hout
    exact .inl ⟨r, List.mem_singleton_self r, hfailed⟩
  | again _ _ _ ih =>
    exact (ih hout).imp_left fun ⟨r₁, hr₁, hfailed⟩ => ⟨r₁, List.mem_cons_of_mem _ hr₁, hfailed⟩

/-- What a run stops with when it asks a human is stored. -/
theorem drive_waits (hstands : r.Stands resume) (hthere : r.workspace.HasState c.dir) :
    Ends (drive c resume) r (fun _ _ => True) fun f r' => r'.Waits c f := by
  have hmetrics {f : Failure} {r₁ : Run} (hwaits : r₁.Waits c f) :
      Ends (recordMetrics c) r₁ (fun _ r₂ => r₂.Waits c f) fun g r₂ => r₂.Waits c g := by
    refine (recordMetrics_saves c r₁).mono ?_ fun g r₂ h => Run.waits_of_fault h.2
    rintro _ _ ⟨w, rfl, hspares, hleaves⟩ request heq hraises
    rw [hspares.cwd_eq]
    exact hleaves.holds _ _ rfl (hwaits request heq hraises)
  obtain ⟨starts, hloop, -⟩ := rounds_within_limits c resume r
  obtain ⟨hstarts, hloops⟩ : (∀ r₁ ∈ starts, r₁.Stands resume ∧ ∃ way, r.Passes c
        (c.Steps (fun _ => True) resume starts) r₁.workspace way r₁.state) ∧
      r.LoopsTo c (c.Steps (fun _ => True) resume starts)
        (rounds c resume (c.iterationsLeft r.state) r) :=
    hloop.saves (List.Subset.refl starts) (fun _ _ _ _ _ _ _ _ => trivial) hstands hthere
  rw [ends_drive]
  refine (Ends.self (rounds c resume _) r).mono (fun _ r₁ h₁ => ?_) fun f r₁ h₁ => ?_
  · rw [h₁] at hloops
    obtain ⟨way, s, hpasses, -⟩ := hloops
    refine (finish_saves (hpasses.saves.hasState hthere)).mono (fun _ r₂ _ => ?_) fun f r₂ h₂ => ?_
    · exact (recordMetrics_saves c r₂).mono (fun _ _ _ => trivial)
        fun g r₃ h => Run.waits_of_fault h.2
    · exact hmetrics (Run.waits_of_ne h₂.1)
  · rw [h₁] at hloop
    refine hmetrics ?_
    rcases hloop.exists_failed with ⟨r₂, hr₂, hfailed⟩ | hne
    · obtain ⟨-, way, hpasses⟩ := hstarts r₂ hr₂
      exact ((iteration_turn c resume r₂).of_error hfailed).waits (hpasses.saves.hasState hthere)
    · exact Run.waits_of_ne hne

/-! ## The next run -/

/-- After a visit that asks a human its last state is loaded. -/
theorem Visit.load_report {v : Visit} {start : FileTree} {s : SessionState} {request : HumanRequest}
    (hkeeps : w.Keeps v.controller.dir (fun _ => True) (fun _ => True) start)
    (hresult : (v.report w).result = .error (.humanInput request))
    (hraises : ¬ v.controller.Raises (.humanInput request)) (hlast : v.lastState? w = some s)
    (hfinite : s.bestScore.isFinite = true) (now : String) :
    SessionState.load (v.report w).workspace.files now v.controller.dir = .ok (some s.settled) := by
  obtain ⟨⟨r, resume⟩, hentered, rfl⟩ := Option.map_eq_some_iff.1 hlast
  have hstands := stands_of_entered SessionState.isKept_true hkeeps hentered
  have hdrive := drive_waits hstands (hasState_of_entered hentered)
  rw [(exists_of_entered hentered).2.2] at hresult ⊢
  have hresult : (drive v.controller resume r).1 = .error (.humanInput request) := hresult
  have hheld := (hdrive.of_error (Prod.ext hresult rfl)) request rfl hraises
  exact SessionState.load_stored hheld hfinite now

/-- So it is after a first visit that asks a human. -/
theorem Visit.load_of_asked {v : Visit} {files : FileTree} {s : SessionState} {start : Instant}
    (hfile : files.has (SessionState.filePath v.controller.dir) = false)
    (hraises : ∀ request, ¬ v.controller.Raises (.humanInput request))
    (hasked : (v.report (.untouched files start)).asked?.isSome = true)
    (hlast : v.lastState? (.untouched files start) = some s) (hfinite : s.bestScore.isFinite = true)
    (now : String) :
    ∃ request, (v.report (.untouched files start)).result = .error (.humanInput request) ∧
      SessionState.load (v.report (.untouched files start)).workspace.files now v.controller.dir =
        .ok (some s.settled) := by
  obtain ⟨request, hrequest⟩ := Option.isSome_iff_exists.1 hasked
  have hresult := Report.result_of_asked? hrequest
  exact ⟨request, hresult, load_report (keeps_untouched start hfile) hresult (hraises request) hlast
    hfinite now⟩

/-- Enter a session of which this is stored. -/
def enterWith (c : Controller) (request : Request) (stored : Option SessionState) : Act Entry := do
  let w ← get
  let now := w.now.text
  let s := request.session c.artifacts.slug now stored
  if request.isIdle s then
    return .idle (← ofExcept (s.storedResult now))
  else
    let (s, resume) ← ofExcept (request.takeUp c now s)
    let s := request.start now s
    s.save c.dir
    return .running s resume

theorem enter_eq_enterWith {request : Request} {stored : Option SessionState}
    (hload : SessionState.load w.files w.now.text c.dir = .ok stored) :
    enter c request w = enterWith c request stored w := by
  have hget {α : Type} (f : Workspace → Act α) : (get >>= f) w = f w w := rfl
  have hok {α β : Type} (a : α) (f : α → Act β) : (ofExcept (.ok a) >>= f) w = f a w := rfl
  unfold enter enterWith
  rw [hget, hget, hload, hok]

/-- The run of a visit to a session of which this is stored. -/
def Visit.reportWith (v : Visit) (stored : Option SessionState) (w : Workspace) : Report :=
  match Lock.acquire v.controller.registry v.controller.dir
      { w with now := v.now, locks := v.locks } with
  | (.error f, w) => { result := .error f, workspace := w }
  | (.ok (), w) =>
    match enterWith v.controller v.request stored w with
    | (.error f, w) => Report.released v.controller { result := .error f, workspace := w }
    | (.ok entry, w) => Report.released v.controller (entry.run v.controller w)

/-- The run with which a visit to such a session begins its iterations, if it makes any. -/
def Visit.enteredWith? (v : Visit) (stored : Option SessionState) (w : Workspace) :
    Option (Run × Option Resume) :=
  match Lock.acquire v.controller.registry v.controller.dir
      { w with now := v.now, locks := v.locks } with
  | (.error _, _) => none
  | (.ok (), w) =>
    match enterWith v.controller v.request stored w with
    | (.ok (.running s resume), w) => some ({ workspace := w, state := s }, resume)
    | _ => none

/-- How a run begins depends on the stored state only as it is loaded. -/
theorem Visit.entered_eq_enteredWith {v : Visit} {s : SessionState}
    (hload : SessionState.load w.files v.now.text v.controller.dir = .ok (some s)) :
    v.entered? w = v.enteredWith? (some s) w := by
  unfold entered? enteredWith?
  rcases hacquire : Lock.acquire v.controller.registry v.controller.dir
    { w with now := v.now, locks := v.locks } with ⟨_ | _, w₁⟩
  · rfl
  · dsimp only
    rewrite [enter_eq_enterWith (load_of_acquire hload hacquire)]
    rfl

/-- The state that the run of such a visit ends with. -/
def Visit.lastStateWith? (v : Visit) (stored : Option SessionState) (w : Workspace) :
    Option SessionState :=
  (v.enteredWith? stored w).map fun (r, resume) => (drive v.controller resume r).2.state

theorem Visit.lastState_eq_lastStateWith {v : Visit} {s : SessionState}
    (hload : SessionState.load w.files v.now.text v.controller.dir = .ok (some s)) :
    v.lastState? w = v.lastStateWith? (some s) w := by
  rw [lastState?, lastStateWith?, entered_eq_enteredWith hload]

/-- What the run comes to depends on the stored state only as it is loaded, too. -/
theorem Visit.report_eq_reportWith {v : Visit} {s : SessionState}
    (hload : SessionState.load w.files v.now.text v.controller.dir = .ok (some s)) :
    v.report w = v.reportWith (some s) w := by
  unfold report reportWith Controller.run
  rcases hacquire : Lock.acquire v.controller.registry v.controller.dir
    { w with now := v.now, locks := v.locks } with ⟨_ | _, w₁⟩
  · rfl
  · dsimp only
    rewrite [enter_eq_enterWith (load_of_acquire hload hacquire)]
    rfl

end PlanReview
