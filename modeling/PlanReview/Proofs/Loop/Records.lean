import PlanReview.Proofs.Loop.Visits

/-!
# The course of a session

The states that a run saves are a walk, and go on with the course of what was saved before
(`Workspace.Records.passes`). So while a run makes iterations, the state in memory is the one that
was saved last (`Run.Rests`), until the run comes to its end (`Run.Closes`) or fails
(`Workspace.Breaks`); and whatever the runs on a session do, all states that they save form one
course (`visited_follows`).
-/

namespace PlanReview

open RunM Workspace

section

variable (dir : Path) (enters : Option SessionState → SessionState → Prop)
  (moves : SessionState → SessionState → Prop) (start : FileTree)

/-- The states that were saved in the workspace form a course. -/
structure Workspace.Records (w : Workspace) (saves : List SessionState) : Prop where
  chronicle : Chronicle (stateKey dir start.cwd) start w saves
  course : Course enters moves saves

/-- The state in memory is the one that was saved last. -/
def Run.Rests (r : Run) : Prop :=
  ∃ saves, r.workspace.Records dir enters moves start saves ∧ saves.getLast? = some r.state

end

section

variable (c : Controller) (good : Plan → Prop)
  (enters : Option SessionState → SessionState → Prop)
  (moves : SessionState → SessionState → Prop) (start : FileTree)

/-- The state in memory has come to its end, and is not saved yet. -/
structure Run.Closes (r : Run) : Prop where
  saved : ∃ saves s, r.workspace.Records c.dir enters moves start saves ∧
    saves.getLast? = some s ∧ s.status.kind = .running ∧ s.Move c good r.state.updateSummary
  ended : r.state.status.kind.IsEnd

/-- After a failure : if a human is asked something, and neither planner nor reviewer have asked,
the state that was saved last waits for the answer. -/
def Workspace.Breaks (f : Failure) (w : Workspace) : Prop :=
  ∃ saves, w.Records c.dir enters moves start saves ∧ c.Asks f saves.getLast? w

end

variable {c : Controller} {good : Plan → Prop} {dir : Path}
  {enters : Option SessionState → SessionState → Prop}
  {moves : SessionState → SessionState → Prop} {start : FileTree} {saves way : List SessionState}
  {s t : SessionState} {r r' : Run} {w w' : Workspace} {resume : Option Resume} {f : Failure}

/-! ## What was saved -/

theorem Chronicle.follow (h : Chronicle (stateKey dir start.cwd) start w saves)
    (hsaves : w.Saves dir w' way) : Chronicle (stateKey dir start.cwd) start w' (saves ++ way) := by
  have hstores := hsaves.stores
  rw [h.cwd_eq] at hstores
  exact h.stores way hstores

/-- A walk goes on with a course. -/
theorem Course.walks (h : Course enters moves saves) (hlast : saves.getLast? = some s)
    (hwalks : Walks moves s way t) : Course enters moves (saves ++ way) := by
  induction hwalks generalizing saves with
  | nil => rwa [List.append_nil]
  | @cons s t _ way hmove _ ih =>
    rw [List.append_cons]
    exact ih (h.move hlast hmove) List.getLast?_concat

namespace Workspace.Records

theorem spares (h : w.Records dir enters moves start saves) (hspares : w.Saves dir w' []) :
    w'.Records dir enters moves start saves := by
  have hchronicle := h.chronicle.follow hspares
  rw [List.append_nil] at hchronicle
  exact ⟨hchronicle, h.course⟩

theorem there (h : w.Records dir enters moves start saves) (hlast : saves.getLast? = some s) :
    w.HasState dir := by
  unfold HasState
  rw [h.chronicle.cwd_eq]
  refine h.chronicle.node_ne_none ?_
  rintro rfl
  cases hlast

/-- What a run saves on its way goes on with the course. -/
theorem passes {step : SessionState → SessionState → Prop}
    (h : r.workspace.Records c.dir enters moves start saves)
    (hlast : saves.getLast? = some r.state) (hpasses : r.Passes c step w way t)
    (hstep : ∀ s t, step s t → moves s t) :
    w.Records c.dir enters moves start (saves ++ way) ∧ (saves ++ way).getLast? = some t :=
  ⟨⟨h.chronicle.follow hpasses.saves, h.course.walks hlast (hpasses.walks.mono hstep)⟩,
    hpasses.walks.getLast_eq saves hlast⟩

theorem breaks (h : w.Records c.dir enters moves start saves)
    (hf : ∀ request, f ≠ .humanInput request) : w.Breaks c enters moves start f :=
  ⟨saves, h, Controller.asks_of_ne hf⟩

end Workspace.Records

theorem Controller.Asks.append (h : c.Asks f way.getLast? w) (saves : List SessionState) :
    c.Asks f (saves ++ way).getLast? w := by
  intro request heq hraises
  obtain ⟨t, ht, hrest⟩ := h request heq hraises
  refine ⟨t, ?_, hrest⟩
  rw [List.getLast?_append, Option.mem_def.1 ht]
  rfl

/-! ## Iterations -/

section

variable (hmoves : ∀ {s t}, s.status.kind = .running → s.Move c good t → moves s t)
  (hplans : ∀ n ctx now p, (c.planner n ctx).answer now = .ok p →
    ∀ prior iteration time, good (p.succeeding prior iteration time))
  (hrests : r.Rests c.dir enters moves start) (hstands : r.Stands resume)

include hmoves hplans hrests hstands

/-- Each iteration of the loop starts at a state that was saved. -/
theorem Looping.rests {starts : List Run} {out : Except Failure Unit × Run}
    (h : Looping c resume starts r out) :
    ∀ r₁ ∈ starts, r₁.Rests c.dir enters moves start ∧ r₁.Stands resume := by
  obtain ⟨saves, hrecords, hlast⟩ := hrests
  intro r₁ hr₁
  obtain ⟨hstands₁, way, hpasses⟩ :=
    (h.saves (List.Subset.refl starts) hplans hstands (hrecords.there hlast)).1 r₁ hr₁
  exact ⟨⟨_, hrecords.passes hlast hpasses fun _ _ h => hmoves h.running h.move⟩, hstands₁⟩

/-- After the loop the run has come to its end or has failed. -/
theorem rounds_follows :
    Ends (rounds c resume (c.iterationsLeft r.state)) r
      (fun _ r' => r'.Closes c good enters moves start)
      fun f r' => r'.workspace.Breaks c enters moves start f := by
  obtain ⟨saves, hrecords, hlast⟩ := hrests
  obtain ⟨starts, hloop, -⟩ := rounds_within_limits c resume r
  have hleads := (hloop.saves (List.Subset.refl starts) hplans hstands (hrecords.there hlast)).2
  unfold Ends
  generalize rounds c resume (c.iterationsLeft r.state) r = out at hleads ⊢
  rcases out with ⟨_ | _, r'⟩
  · obtain ⟨way, s, hpasses, hasks⟩ := hleads
    exact ⟨_, (hrecords.passes hlast hpasses fun _ _ h => hmoves h.running h.move).1,
      hasks.append saves⟩
  · obtain ⟨way, s, hpasses, hstep, hended⟩ := hleads
    obtain ⟨hrecords', hlast'⟩ :=
      hrecords.passes hlast hpasses fun _ _ h => hmoves h.running h.move
    exact ⟨⟨_, s, hrecords', hlast', hstep.running, hstep.move⟩, hended⟩

/-- A run that answers leaves the state of its session saved and ended. -/
theorem drive_follows :
    Ends (drive c resume) r
      (fun _ r' => r'.Rests c.dir enters moves start ∧ r'.state.status.kind.IsEnd)
      fun f r' => r'.workspace.Breaks c enters moves start f := by
  obtain ⟨saves, hrecords, hlast⟩ := hrests
  obtain ⟨starts, hloop, -⟩ := rounds_within_limits c resume r
  have hdrives := drive_saves hloop hplans hstands (hrecords.there hlast)
  unfold Ends
  generalize drive c resume r = out at hdrives ⊢
  rcases out with ⟨_ | _, r'⟩
  · obtain ⟨way, s, hpasses, hasks⟩ := hdrives
    exact ⟨_, (hrecords.passes hlast hpasses fun _ _ h => hmoves h.running h.move).1,
      hasks.append saves⟩
  · obtain ⟨⟨way, hpasses⟩, hended⟩ := hdrives
    exact ⟨⟨_, hrecords.passes hlast hpasses fun _ _ h => hmoves h.running h.move⟩, hended⟩

end

/-! ## Entering a session -/

/-- An answer adds its line to the feedback, and goes to the archive with its question, if there is
one. -/
theorem SessionState.answer_records (s : SessionState) (response : String) (approved : Bool) :
    (s.answer response approved).reviews = s.reviews ∧
      (s.answer response approved).pendingFeedback =
        s.pendingFeedback ++ [userFeedback response] ∧
      (s.answer response approved).humanInputs = s.humanInputs ++
        (s.pendingHumanInput.map fun h => answered h response approved).toList := by
  unfold answer applyHumanResponse
  cases s.pendingHumanInput with
  | none => exact ⟨rfl, rfl, (List.append_nil _).symm⟩
  | some h => exact ⟨rfl, rfl, rfl⟩

theorem Request.start_records (request : Request) (now : String) (s : SessionState) :
    (request.start now s).reviews = s.reviews ∧
      (request.start now s).pendingFeedback = s.pendingFeedback ∧
      (request.start now s).humanInputs = s.humanInputs := by
  unfold start
  split <;> exact ⟨rfl, rfl, rfl⟩

/-- What a session is taken up with, unless it is set to a plan from outside : the answer that is
given, and what it goes on from. -/
theorem takeUp_of_none {request : Request} {now : String} (hnone : request.resume = none)
    (htake : request.takeUp c now s = .ok (t, resume)) :
    (match request.humanResponse with
      | some response => t = s.answer response request.approved
      | none => s.pendingHumanInput = none ∧ t = s) ∧
    t.resumeFrom now t.pendingFeedback = .ok resume := by
  have hread {u : SessionState} (h : ((u.resumeFrom now u.pendingFeedback).mapError
      Failure.invalid).map (fun resume => (u, resume)) = .ok (t, resume)) :
      t = u ∧ u.resumeFrom now u.pendingFeedback = .ok resume := by
    cases hread : u.resumeFrom now u.pendingFeedback with
    | error e =>
      rw [hread] at h
      cases h
    | ok _ =>
      rw [hread] at h
      cases h
      exact ⟨rfl, rfl⟩
  unfold Request.takeUp at htake
  rw [hnone] at htake
  cases hresponse : request.humanResponse with
  | some response =>
    rw [hresponse] at htake
    obtain ⟨rfl, hresume⟩ := hread htake
    exact ⟨rfl, hresume⟩
  | none =>
    rw [hresponse] at htake
    cases hpending : s.pendingHumanInput with
    | some h =>
      rw [hpending] at htake
      cases htake
    | none =>
      rw [hpending] at htake
      obtain ⟨rfl, hresume⟩ := hread htake
      exact ⟨⟨rfl, rfl⟩, hresume⟩

/-- A session is entered with what is left of the state that was saved last. -/
theorem Chronicle.enters_of_running {request : Request}
    (h : Chronicle (stateKey c.dir start.cwd) start w saves)
    (henters : c.EntersAs request w w' (.running s resume)) :
    request.Enters c saves.getLast? s := by
  obtain ⟨-, stored, s₁, hload, hidle, htake, rfl⟩ := henters
  obtain ⟨hfinite, rfl⟩ := stored_of_load h hload
  exact ⟨hfinite, w.now.text, s₁, resume, hidle, htake, rfl⟩

/-- A session that is found ended, has ended with the state that was saved last. -/
theorem Chronicle.exists_of_idle {request : Request} {result : LoopResult}
    (h : Chronicle (stateKey c.dir start.cwd) start w saves)
    (henters : c.EntersAs request w w' (.idle result)) :
    ∃ t, saves.getLast? = some t ∧ t.status.kind.IsEnd ∧
      t.settled.storedResult w.now.text = .ok result ∧
      w.files.Holds (stateKey c.dir w.files.cwd) (.text t.storedText) := by
  obtain ⟨-, stored, hload, hidle, hresult⟩ := henters
  have hnode := h.node
  rw [← h.cwd_eq] at hnode
  obtain ⟨-, rfl⟩ := stored_of_load h hload
  cases hlast : saves.getLast? with
  | none =>
    rw [hlast] at hidle
    cases (show request.isIdle (request.session c.artifacts.slug w.now.text none) = false
      from rfl).symm.trans hidle
  | some t =>
    rw [hlast] at hidle hresult hnode hload
    obtain ⟨dir, hsession⟩ := session_eq request c.artifacts.slug w.now.text t.settled
    rw [Option.map_some, hsession] at hidle hresult
    exact ⟨t, rfl, isEnd_of_isIdle hidle, hresult, SessionState.holds_of_load hnode hload⟩

/-- If entering a session asks a human, the state that was saved last waits for the answer. -/
theorem Chronicle.asks_of_refused {request : Request}
    (h : Chronicle (stateKey c.dir start.cwd) start w saves)
    (hrefused : ∀ asked, f = .humanInput asked → w' = w ∧
      ∃ stored pending, SessionState.load w.files w.now.text c.dir = .ok stored ∧
        (request.session c.artifacts.slug w.now.text stored).pendingHumanInput = some pending ∧
        asked = c.pendingRequest pending) : c.Asks f saves.getLast? w' := by
  intro asked heq _
  obtain ⟨rfl, stored, pending, hload, hpending, hasked⟩ := hrefused asked heq
  have hnode := h.node
  rw [← h.cwd_eq] at hnode
  obtain ⟨-, rfl⟩ := stored_of_load h hload
  cases hlast : saves.getLast? with
  | none =>
    rw [hlast] at hpending
    cases hpending
  | some t =>
    obtain ⟨dir, hsession⟩ := session_eq request c.artifacts.slug w'.now.text t.settled
    rw [hlast, Option.map_some, hsession] at hpending
    rw [hlast] at hnode hload
    exact ⟨t, rfl, pending, SessionState.holds_of_load hnode hload, hpending, hasked⟩

/-! ## Visits -/

variable {v : Visit}

/-- What a visit saves first. -/
theorem Visit.enters_of_entered
    (h : Chronicle (stateKey v.controller.dir start.cwd) start w saves)
    (hentered : v.entered? w = some (r, resume)) :
    v.request.Enters v.controller saves.getLast? r.state := by
  obtain ⟨⟨w₁, hacquire, henter⟩, -⟩ := exists_of_entered hentered
  have hlocked := saves_locked hacquire
  have h₁ := h.follow hlocked
  rw [List.append_nil] at h₁
  exact h₁.enters_of_running ((enter_saves v.controller v.request w₁).of_ok henter)

/-- A run that goes on with the history of its session stands at its beginning. -/
theorem Visit.stands_of_entered {fair : Float → Prop} (hgood : SessionState.IsKept good)
    (h : w.Keeps v.controller.dir good fair start) (hentered : v.entered? w = some (r, resume)) :
    r.Stands resume := by
  obtain ⟨⟨w₁, hacquire, henter⟩, hr, -⟩ := exists_of_entered hentered
  obtain ⟨saves, s, hchronicle, hpast⟩ := h
  have hbegin : ({ w with now := v.now, locks := v.locks } : Workspace).Keeps v.controller.dir
      good fair start := ⟨saves, s, hchronicle.spares (spares_of_eq rfl rfl), hpast⟩
  rw [hr]
  exact (enter_stands hgood v.request ((acquire_keeps hbegin).of_ok hacquire)).of_ok henter

/-- The beginning of a session without a stored state. -/
theorem Workspace.records_untouched {files : FileTree} (now : Instant)
    (h : files.has (SessionState.filePath dir) = false) :
    (untouched files now).Records dir enters moves files [] := by
  rw [FileTree.has, FileTree.find?, SessionState.resolve_filePath, Option.isSome_eq_false_iff,
    Option.isNone_iff_eq_none] at h
  exact ⟨.begin h rfl rfl, .nil⟩

/-- A visit goes on with a course that allows for what it saves. -/
theorem Visit.records_report
    (hplans : ∀ n ctx now p, (v.controller.planner n ctx).answer now = .ok p →
      ∀ prior iteration time, good (p.succeeding prior iteration time))
    (henters : ∀ o t, v.request.Enters v.controller o t → enters o t)
    (hmoves : ∀ {s t}, s.status.kind = .running → s.Move v.controller good t → moves s t)
    (hstands : ∀ r resume, v.entered? w = some (r, resume) → r.Stands resume)
    (h : w.Records v.controller.dir enters moves start saves) :
    ∃ saves', (v.report w).workspace.Records v.controller.dir enters moves start saves' := by
  cases hentered : v.entered? w with
  | none => exact ⟨saves, h.spares (saves_nothing hentered).1⟩
  | some entry =>
    obtain ⟨r, resume⟩ := entry
    obtain ⟨starts, hloop, -⟩ := rounds_within_limits v.controller resume r
    obtain ⟨way, s, hpasses⟩ := exists_passes hentered hloop hplans (hstands r resume hentered)
    have hrecords : r.workspace.Records v.controller.dir enters moves start (saves ++ [r.state]) :=
      ⟨h.chronicle.follow (saves_of_entered hentered),
        h.course.enter (henters _ _ (enters_of_entered h.chronicle hentered))⟩
    exact ⟨_, (hrecords.passes List.getLast?_concat hpasses
      fun _ _ hstep => hmoves hstep.running hstep.move).1⟩

/-- So do visits, one after the other, from a session without a stored state on. -/
theorem visited_records {files : FileTree} {visits : List Visit} (now : Instant)
    (hfile : files.has (SessionState.filePath dir) = false)
    (hvisits : ∀ u ∈ visits, u.controller.dir = dir)
    (henters : ∀ u ∈ visits, ∀ o t, u.request.Enters u.controller o t → enters o t)
    (hmoves : ∀ u ∈ visits, ∀ {s t}, s.status.kind = .running →
      s.Move u.controller (fun _ => True) t → moves s t) :
    ∃ saves, (visited visits (.untouched files now)).Records dir enters moves files saves := by
  have hgo {w : Workspace} {saves : List SessionState} (visits' : List Visit)
      (hsub : visits' ⊆ visits) (hkeeps : w.Keeps dir (fun _ => True) (fun _ => True) files)
      (h : w.Records dir enters moves files saves) :
      ∃ saves', (visited visits' w).Records dir enters moves files saves' := by
    induction visits' generalizing w saves with
    | nil => exact ⟨saves, h⟩
    | cons v visits' ih =>
      obtain ⟨hv, hsub⟩ := List.cons_subset.1 hsub
      obtain rfl := hvisits v hv
      obtain ⟨saves₁, h₁⟩ := Visit.records_report (fun _ _ _ _ _ _ _ _ => trivial) (henters v hv)
        (hmoves v hv) (fun _ _ => Visit.stands_of_entered SessionState.isKept_true hkeeps) h
      exact ih hsub (report_keeps (Visit.fits rfl) hkeeps) h₁
  exact hgo visits (List.Subset.refl visits) (Workspace.keeps_untouched now hfile)
    (Workspace.records_untouched now hfile)

/-- What a visit saves first, if it may be made after a session was left with a state. -/
def Begins (may : Visit → Option SessionState → Prop) (o : Option SessionState)
    (t : SessionState) : Prop :=
  ∃ v, may v o ∧ v.request.Enters v.controller o t

/-- What a visit saves next. -/
def Continues (may : Visit → Option SessionState → Prop) (s t : SessionState) : Prop :=
  ∃ v o, may v o ∧ s.status.kind = .running ∧ s.Move v.controller Plan.IsPlain t

variable {may : Visit → Option SessionState → Prop}

theorem Visit.IsTyped.plans_succeeding (h : v.IsTyped) : ∀ n ctx now p,
    (v.controller.planner n ctx).answer now = .ok p →
      ∀ prior iteration time, (p.succeeding prior iteration time).IsPlain :=
  (h.fits rfl).delivers.plans

section

variable (hmay : ∀ v o, may v o → v.IsTyped)

include hmay

theorem Course.history (h : Course (Begins may) (Continues may) saves) :
    ∃ s, Past Plan.IsPlain Decimal.InUnit saves s := by
  obtain ⟨s, hpast, -⟩ := h.past
    (fun o t ⟨v, hv, henters⟩ => ⟨v.controller, v.request, henters, (hmay v o hv).resumes⟩)
    fun s t ⟨v, o, hv, _, hmove⟩ => ⟨v.controller, hmove,
      fun p review ⟨n, ctx, now, hanswer⟩ => (hmay v o hv).scores n p ctx now review hanswer⟩
  exact ⟨s, hpast⟩

/-- All that was saved holds documents of plans, and reviews with scores. -/
theorem Course.documents (h : Course (Begins may) (Continues may) saves) (ht : t ∈ saves) :
    t.HoldsPlans Plan.IsPlain ∧ t.HoldsScores := by
  obtain ⟨s, hpast⟩ := h.history hmay
  exact ⟨(hpast.of_stable (SessionState.stable_holdsPlans SessionState.isKept_isPlain)).2 t ht,
    (hpast.of_stable SessionState.stable_holdsScores).2 t ht⟩

theorem Workspace.Records.keeps (h : w.Records dir (Begins may) (Continues may) start saves) :
    w.Keeps dir Plan.IsPlain Decimal.InUnit start := by
  obtain ⟨s, hpast⟩ := h.course.history hmay
  exact ⟨saves, s, h.chronicle, hpast⟩

/-- A run begins its iterations with the state that it has saved first. -/
theorem Visit.entered_rests (hv : may v saves.getLast?)
    (h : w.Records v.controller.dir (Begins may) (Continues may) start saves)
    (hentered : v.entered? w = some (r, resume)) :
    r.Rests v.controller.dir (Begins may) (Continues may) start ∧ r.Stands resume := by
  have henters := enters_of_entered h.chronicle hentered
  refine ⟨⟨saves ++ [r.state], ⟨?_, h.course.enter ⟨v, hv, henters⟩⟩, List.getLast?_concat⟩, ?_⟩
  · exact h.chronicle.follow (saves_of_entered hentered)
  · exact stands_of_entered SessionState.isKept_isPlain (h.keeps hmay) hentered

/-- A visit goes on with the course of its session, and if it raises a question that planner and
reviewer have not raised, the session waits for the answer. -/
theorem report_follows (hv : may v saves.getLast?)
    (h : w.Records v.controller.dir (Begins may) (Continues may) start saves) :
    (∃ saves', (v.report w).workspace.Records v.controller.dir (Begins may) (Continues may) start
      saves') ∧
    ∀ f, (v.report w).result = .error f →
      (v.report w).workspace.Breaks v.controller (Begins may) (Continues may) start f := by
  have hreleased {report : Report} {saves' : List SessionState}
      (h' : report.workspace.Records v.controller.dir (Begins may) (Continues may) start saves') :
      (report.released v.controller).workspace.Records v.controller.dir (Begins may)
        (Continues may) start saves' := h'.spares (released_saves (.refl _ _))
  have hbroken {report : Report} {f : Failure} (hresult : report.result = .error f)
      (h' : report.workspace.Breaks v.controller (Begins may) (Continues may) start f) :
      (∃ saves', (report.released v.controller).workspace.Records v.controller.dir (Begins may)
        (Continues may) start saves') ∧
      ∀ g, (report.released v.controller).result = .error g →
        (report.released v.controller).workspace.Breaks v.controller (Begins may) (Continues may)
          start g := by
    obtain ⟨saves', hrecords, hasks⟩ := h'
    refine ⟨⟨saves', hreleased hrecords⟩, fun g hg => ?_⟩
    cases hresult.symm.trans hg
    exact ⟨saves', hreleased hrecords, hasks⟩
  have hbegin := h.spares (v.saves_begin v.controller.dir w)
  have hacquire := acquire_saves v.controller { w with now := v.now, locks := v.locks }
  have hruns := run_runs v.controller v.request { w with now := v.now, locks := v.locks }
  unfold Visit.report
  generalize v.controller.run _ _ = report at hruns ⊢
  cases hruns with
  | barred hlock =>
    obtain ⟨hspares, hunasked⟩ := hacquire.of_error hlock
    refine ⟨⟨saves, hbegin.spares hspares⟩, fun f hf => ?_⟩
    cases hf
    exact (hbegin.spares hspares).breaks hunasked
  | refused hlock henters =>
    have h₁ := hbegin.spares (hacquire.of_ok hlock)
    obtain ⟨hspares, hasks⟩ := (enter_saves v.controller v.request _).of_error henters
    exact hbroken rfl ⟨saves, h₁.spares hspares, h₁.chronicle.asks_of_refused hasks⟩
  | idle hlock henters =>
    obtain ⟨rfl, -⟩ := (enter_saves v.controller v.request _).of_ok henters
    exact ⟨⟨saves, hreleased (hbegin.spares (hacquire.of_ok hlock))⟩, fun f hf => nomatch hf⟩
  | @driven s resume result w₁ w₂ r hlock henters hdrive =>
    have hentered := Visit.entered_of_enter hlock henters
    obtain ⟨hrests, hstands⟩ := Visit.entered_rests hmay hv h hentered
    have hfollows := drive_follows (fun hrunning hmove => ⟨v, _, hv, hrunning, hmove⟩)
      (hmay v _ hv).plans_succeeding hrests hstands
    cases result with
    | error f => exact hbroken rfl (hfollows.of_error hdrive)
    | ok result =>
      obtain ⟨⟨saves', hrecords, -⟩, -⟩ := hfollows.of_ok hdrive
      exact ⟨⟨saves', hreleased hrecords⟩, fun f hf => nomatch hf⟩

/-- Visits to a session, one after the other, go on with its course. -/
theorem visited_follows (visits : List Visit)
    (hvisits : ∀ before u after, visits = before ++ u :: after → u.controller.dir = dir ∧
      ∀ saves, (visited before w).Records dir (Begins may) (Continues may) start saves →
        may u saves.getLast?)
    (h : w.Records dir (Begins may) (Continues may) start saves) :
    ∃ saves', (visited visits w).Records dir (Begins may) (Continues may) start saves' := by
  induction visits generalizing w saves with
  | nil => exact ⟨saves, h⟩
  | cons v visits ih =>
    obtain ⟨rfl, hv⟩ := hvisits [] v visits rfl
    obtain ⟨saves₁, h₁⟩ := (report_follows hmay (hv saves h) h).1
    exact ih (fun before u after heq => hvisits (v :: before) u after (congrArg _ heq)) h₁

end

end PlanReview
