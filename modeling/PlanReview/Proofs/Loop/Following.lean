import PlanReview.Proofs.Loop.Approval
import PlanReview.Proofs.Loop.Bounds
import PlanReview.Proofs.Loop.Moves
import PlanReview.Proofs.Workspace.OnFiles

/-!
# Following a run

A run is followed here from save to save. `Workspace.Saves` says which states of a session are saved
between two workspaces, and nothing else happens to the file of the state in between. An iteration
saves one state and goes on with it, or it ends the run with a state that is not saved yet, or it
fails and has saved one state or none; each time the state is a move away from the one with which
the iteration began (`Turn.saves`). So the states that a loop saves form a walk (`Walks`), and each
of its iterations begins with one of them (`Looping.saves`).

When a run fails because a human is asked, the last state that was saved holds the question, unless
planner or reviewer have asked themselves (`Controller.Asks`).
-/

namespace PlanReview

open RunM Workspace

/-! ## Saves -/

section

variable (dir : Path) (w : Workspace)

/-- On the way from `w` to `w'` these states of a session are saved, one after the other, and the
file of the state is otherwise left alone. -/
structure Workspace.Saves (w' : Workspace) (saves : List SessionState) : Prop where
  stores : w.Stores (stateKey dir w.files.cwd) w' (saves.map SessionState.storedText)

/-- Something stands under the name of the state. -/
def Workspace.HasState : Prop :=
  w.files.node? (stateKey dir w.files.cwd) ≠ none

end

variable {c : Controller} {good : Plan → Prop} {dir : Path} {s t u : SessionState} {r r' : Run}
  {w w' w'' : Workspace} {saved saved' : List SessionState} {resume : Option Resume} {f : Failure}

namespace Workspace

theorem Saves.refl (dir : Path) (w : Workspace) : w.Saves dir w [] :=
  ⟨Spares.refl _ w⟩

theorem Saves.cwd_eq (h : w.Saves dir w' saved) : w'.files.cwd = w.files.cwd :=
  h.stores.cwd_eq

theorem Saves.trans (h : w.Saves dir w' saved) (h' : w'.Saves dir w'' saved') :
    w.Saves dir w'' (saved ++ saved') := by
  have hstores := h'.stores
  rw [h.cwd_eq] at hstores
  refine ⟨?_⟩
  rw [List.map_append]
  exact h.stores.trans hstores

theorem Saves.trans_spares (h : w.Saves dir w' saved) (h' : w'.Saves dir w'' []) :
    w.Saves dir w'' saved := by
  simpa using h.trans h'

theorem Saves.spares_trans (h : w.Saves dir w' []) (h' : w'.Saves dir w'' saved) :
    w.Saves dir w'' saved :=
  h.trans h'

theorem Saves.hasState (h : w.Saves dir w' saved) (hthere : w.HasState dir) : w'.HasState dir := by
  unfold HasState at hthere ⊢
  rw [h.cwd_eq, h.stores.node]
  split
  · exact Option.some_ne_none _
  · exact hthere

end Workspace

/-- A save adds the state of the run, which can be read then, or adds nothing. -/
theorem save_saves (c : Controller) (r : Run) :
    Ends (save c) r
      (fun _ r' => ∃ w, r' = { r with workspace := w } ∧ r.workspace.Saves c.dir w [r.state] ∧
        w.files.Holds (stateKey c.dir w.files.cwd) (.text r.state.storedText))
      fun f r' => ∃ w, r' = { r with workspace := w } ∧ r.workspace.Saves c.dir w [] ∧
        f.IsFileFault := by
  have hends := r.state.save_ends (w := r.workspace) c.dir
  have hstored := SessionState.save_stored (w := r.workspace) c.dir r.state
  have hfails := (SessionState.byFiles_save c.dir r.state).fails r.workspace
  rw [ends_save, ends_onWorkspace]
  refine ((hends.and hstored).and hfails).mono (fun _ w ⟨⟨hsaves, hheld⟩, _⟩ => ?_)
    fun f w ⟨⟨hspares, _⟩, hfault⟩ => ⟨w, rfl, ⟨hspares⟩, hfault⟩
  refine ⟨w, rfl, ⟨hsaves⟩, ?_⟩
  rw [hsaves.cwd_eq]
  exact hheld

/-- Work on other files saves nothing. -/
theorem onWorkspace_saves {α : Type} {a : Act α} (hfiles : a.ByFiles)
    (ha : Ends a r.workspace (fun _ w => r.workspace.Saves dir w [])
      fun _ w => r.workspace.Saves dir w []) :
    Ends (onWorkspace a) r
      (fun _ r' => ∃ w, r' = { r with workspace := w } ∧ r.workspace.Saves dir w [])
      fun f r' => ∃ w, r' = { r with workspace := w } ∧ r.workspace.Saves dir w [] ∧
        f.IsFileFault := by
  rw [ends_onWorkspace]
  exact (ha.and (hfiles.fails _)).mono (fun _ w h => ⟨w, rfl, h.1⟩) fun f w h => ⟨w, rfl, h.1, h.2⟩

theorem writeFinal_saves (c : Controller) (p : Plan) (status : FinalStatus) (score : Option Float)
    (hthere : r.workspace.HasState c.dir) :
    Ends (onWorkspace (c.artifacts.writeFinal p status score)) r
      (fun _ r' => ∃ w, r' = { r with workspace := w } ∧ r.workspace.Saves c.dir w [])
      fun f r' => ∃ w, r' = { r with workspace := w } ∧ r.workspace.Saves c.dir w [] ∧
        f.IsFileFault :=
  onWorkspace_saves (c.artifacts.byFiles_writeFinal p status score)
    ((c.artifacts.writeFinal_ends p status score hthere
      (.inl ⟨_, _, rfl, isOwnName_fileName⟩)).mono (fun _ _ h => ⟨h.1⟩) fun _ _ h => ⟨h⟩)

theorem writeReview_saves (c : Controller) (review : Review) (n : Int)
    (hthere : r.workspace.HasState c.dir) :
    Ends (onWorkspace (c.artifacts.writeReview review n)) r
      (fun _ r' => ∃ w, r' = { r with workspace := w } ∧ r.workspace.Saves c.dir w [])
      fun f r' => ∃ w, r' = { r with workspace := w } ∧ r.workspace.Saves c.dir w [] ∧
        f.IsFileFault :=
  onWorkspace_saves (c.artifacts.byFiles_writeReview review n)
    ((c.artifacts.writeReview_ends review n hthere fun heq =>
      absurd heq (stateKey_ne c _ (fileName_ne_reviewName n))).mono (fun _ _ h => ⟨h.1⟩)
        fun _ _ h => ⟨h⟩)

/-! ## Walks -/

/-- From the state `s` a walk leads over the given states, each of them a step away from the one
before it, to the last of them. -/
inductive Walks (step : SessionState → SessionState → Prop) :
    SessionState → List SessionState → SessionState → Prop where
  | nil {s : SessionState} : Walks step s [] s
  | cons {s t u : SessionState} {way : List SessionState} : step s t → Walks step t way u →
      Walks step s (t :: way) u

namespace Walks

variable {step step' : SessionState → SessionState → Prop} {way way' : List SessionState}

theorem single (h : step s t) : Walks step s [t] t :=
  .cons h .nil

theorem mono (hstep : ∀ s t, step s t → step' s t) (h : Walks step s way t) :
    Walks step' s way t := by
  induction h with
  | nil => exact .nil
  | cons h _ ih => exact .cons (hstep _ _ h) ih

theorem append (h : Walks step s way t) (h' : Walks step t way' u) :
    Walks step s (way ++ way') u := by
  induction h with
  | nil => exact h'
  | cons h _ ih => exact .cons h (ih h')

theorem of_append (h : Walks step s (way ++ way') u) :
    ∃ t, Walks step s way t ∧ Walks step t way' u := by
  induction way generalizing s with
  | nil => exact ⟨s, .nil, h⟩
  | cons v way ih =>
    cases h with
    | cons hstep h =>
      obtain ⟨t, hbefore, hafter⟩ := ih h
      exact ⟨t, .cons hstep hbefore, hafter⟩

/-- A walk leads to the last of its states. -/
theorem getLast_eq (h : Walks step s way t) (saves : List SessionState)
    (hlast : saves.getLast? = some s) : (saves ++ way).getLast? = some t := by
  induction h generalizing saves with
  | nil => rw [List.append_nil, hlast]
  | @cons _ t _ way _ _ ih =>
    rw [List.append_cons]
    exact ih (saves ++ [t]) List.getLast?_concat

/-- What every step keeps holds along a walk. -/
theorem forall_mem {P : SessionState → Prop} (h : Walks step s way t) (hs : P s)
    (hstep : ∀ s t, P s → step s t → P t) : (∀ u ∈ way, P u) ∧ P t := by
  induction h with
  | nil => exact ⟨List.forall_mem_nil _, hs⟩
  | cons h _ ih =>
    obtain ⟨hway, hlast⟩ := ih (hstep _ _ hs h)
    exact ⟨List.forall_mem_cons.2 ⟨hstep _ _ hs h, hway⟩, hlast⟩

end Walks

/-! ## Planning and reviewing -/

/-- A call of the planner or the reviewer can raise this failure. -/
def Controller.Raises (c : Controller) (f : Failure) : Prop :=
  (∃ n ctx now, (c.planner n ctx).answer now = .error f) ∨
    ∃ n p ctx now, (c.reviewer n p ctx).answer now = .error f

/-- What planning and reviewing raise comes from one of the two, from a file, or from a plan that
cannot be read. -/
theorem judge_raises (c : Controller) (resume : Option Resume) (r : Run) :
    Ends (judge c resume) r (fun _ _ => True)
      fun f _ => c.Raises f ∨ f.IsFileFault ∨ ∃ e, f = .invalid e := by
  have hplanner (ctx : PlanningContext) (r : Run) :
      Ends (callPlanner c ctx) r (fun _ _ => True) fun f _ => c.Raises f := by
    rw [ends_callPlanner, ends_ofExcept]
    split
    · exact True.intro
    · rename_i hanswer
      exact .inl ⟨_, _, _, hanswer⟩
  have hreviewer (p : Plan) (ctx : ReviewContext) (r : Run) :
      Ends (callReviewer c p ctx) r (fun _ _ => True) fun f _ => c.Raises f := by
    rw [ends_callReviewer, ends_ofExcept]
    split
    · exact True.intro
    · rename_i hanswer
      exact .inr ⟨_, _, _, _, hanswer⟩
  have hdraft : Ends (draft c resume) r (fun _ _ => True)
      fun f _ => c.Raises f ∨ ∃ e, f = .invalid e := by
    rw [ends_draft]
    split
    · exact .inr ⟨_, rfl⟩
    · split
      · exact True.intro
      · exact (hplanner _ r).mono (fun _ _ _ => True.intro) fun _ _ => .inl
  rw [ends_judge]
  refine hdraft.mono (fun p r₁ _ => ?_) fun f _ h => h.imp_right .inr
  rw [ends_onWorkspace]
  refine ((c.artifacts.byFiles_writePlan p _).fails _).mono (fun _ w _ => ?_)
    fun f _ h => .inr (.inl h)
  exact (hreviewer _ _ _).mono (fun _ _ _ => True.intro) fun _ _ => .inl

/-- A question that comes out of planning and reviewing was asked by the planner or the reviewer. -/
theorem raises_of_judge {request : HumanRequest}
    (h : judge c resume r.opened = (.error (.humanInput request), r')) :
    c.Raises (.humanInput request) := by
  rcases (judge_raises c resume r.opened).of_error h with hraised | hfault | ⟨e, heq⟩
  · exact hraised
  · exact absurd rfl (hfault.ne_humanInput request)
  · cases heq

/-- The iteration that begins with the run comes to a review. -/
def Run.Reviews (c : Controller) (resume : Option Resume) (r : Run) : Prop :=
  ∃ j r₁, judge c resume r.opened = (.ok j, r₁)

/-- An iteration judges the plan that the state holds, and saves nothing until then. -/
theorem judge_judges (hplans : ∀ n ctx now p, (c.planner n ctx).answer now = .ok p →
      ∀ prior iteration time, good (p.succeeding prior iteration time))
    (hstands : r.Stands resume) (hthere : r.workspace.HasState c.dir) :
    Ends (judge c resume) r.opened
      (fun j r₁ => r.state.Judges c good j r₁.state ∧ r.workspace.Saves c.dir r₁.workspace [])
      fun _ r₁ => r.state.nextIteration.Works good r₁.state ∧
        r.workspace.Saves c.dir r₁.workspace [] := by
  have hworks := judge_works hplans resume r.opened
  have hspares := judge_spares (r := r.opened) c resume rfl hthere
  have hpresents := @judge_presents r.opened c resume hstands.current_of_standsFor
  refine ((hworks.and hspares).and hpresents).mono ?_ ?_
  · rintro j r₁ ⟨⟨⟨hworks, hreviewed, hchecks, hverdict⟩, hspares⟩, -, hpresents⟩
    exact ⟨⟨hworks, hpresents.current, hreviewed, hchecks, hverdict⟩, ⟨hspares⟩⟩
  · rintro f r₁ ⟨⟨hworks, hspares⟩, -⟩
    exact ⟨hworks, ⟨hspares⟩⟩

/-! ## One iteration -/

/-- If a human is asked something, and neither planner nor reviewer have asked, the state that was
saved last can be read, and waits for the answer. -/
def Controller.Asks (c : Controller) (f : Failure) (last : Option SessionState) (w : Workspace) :
    Prop :=
  ∀ request, f = .humanInput request → ¬ c.Raises f → ∃ t ∈ last, ∃ h,
    w.files.Holds (stateKey c.dir w.files.cwd) (.text t.storedText) ∧
      t.pendingHumanInput = some h ∧ request = c.pendingRequest h

theorem Controller.asks_of_ne {last : Option SessionState}
    (h : ∀ request, f ≠ .humanInput request) : c.Asks f last w :=
  fun request heq => absurd heq (h request)

theorem Controller.asks_of_fault {last : Option SessionState} (h : f.IsFileFault) :
    c.Asks f last w :=
  asks_of_ne h.ne_humanInput

/-- Where an iteration leads from `r` on, if `next` holds of the states that may come next. -/
def Run.Goes (c : Controller) (next : SessionState → Prop) (r r' : Run) : Except Failure Next → Prop
  | .ok .again => r.workspace.Saves c.dir r'.workspace [r'.state] ∧ next r'.state
  | .ok .finished => r.workspace.Saves c.dir r'.workspace [] ∧ next r'.state.updateSummary ∧
      r'.state.status.kind.IsEnd
  | .error f => ∃ o : Option SessionState, r.workspace.Saves c.dir r'.workspace o.toList ∧
      (∀ t ∈ o, next t) ∧ c.Asks f o r'.workspace

section

variable {next next' : SessionState → Prop}

/-- What is done before leaves the file of the state alone. -/
theorem Run.Goes.of_spares {r₀ : Run} {out : Except Failure Next} (h : r.Goes c next r' out)
    (hspares : r₀.workspace.Saves c.dir r.workspace []) (hnext : ∀ t, next t → next' t) :
    r₀.Goes c next' r' out := by
  cases out with
  | error f =>
    obtain ⟨o, hsaves, ho, hasks⟩ := h
    exact ⟨o, hspares.spares_trans hsaves, fun t ht => hnext t (ho t ht), hasks⟩
  | ok n =>
    cases n with
    | finished => exact ⟨hspares.spares_trans h.1, hnext _ h.2.1, h.2.2⟩
    | again => exact ⟨hspares.spares_trans h.1, hnext _ h.2⟩

/-- A failure after which nothing was saved. -/
theorem Run.goes_of_fault (hspares : r.workspace.Saves c.dir r'.workspace [])
    (hf : ∀ request, f ≠ .humanInput request) : r.Goes c next r' (.error f) := by
  refine ⟨none, hspares, fun t ht => ?_, Controller.asks_of_ne hf⟩
  cases ht

/-- A pause saves the question that it asks. -/
theorem Pauses.saves {plan : Plan} {p : Pause} (h : Pauses c plan p r f r')
    (hthere : r.workspace.HasState c.dir) (hnext : next (r.state.asking r.now p))
    (hworded : p.IsWorded) : r.Goes c next r' (.error f) := by
  have hsave := save_saves c (r.update (·.asking r.now p))
  have hmember : ∀ t ∈ some (r.state.asking r.now p), next t := by
    rintro _ ⟨⟩
    exact hnext
  cases h with
  | unsaved hunsaved =>
    obtain ⟨w, rfl, hspares, hfault⟩ := hsave.of_error hunsaved
    exact Run.goes_of_fault hspares hfault.ne_humanInput
  | undrafted hsaved hunwritten =>
    obtain ⟨w, rfl, hsaves, -⟩ := hsave.of_ok hsaved
    obtain ⟨w', rfl, hspares, hfault⟩ :=
      (writeFinal_saves c plan .draft none (hsaves.hasState hthere)).of_error hunwritten
    exact ⟨some _, hsaves.trans_spares hspares, hmember, Controller.asks_of_fault hfault⟩
  | asked hsaved hwritten =>
    obtain ⟨w, rfl, hsaves, hheld⟩ := hsave.of_ok hsaved
    have hstays := writeFinal_holds c.artifacts plan .draft none hheld
      ⟨_, _, rfl, isOwnName_fileName⟩
    obtain ⟨w', hrun, rfl⟩ := onWorkspace_run hwritten
    obtain ⟨_, heq, hspares⟩ :=
      (writeFinal_saves c plan .draft none (hsaves.hasState hthere)).of_ok hwritten
    cases heq
    refine ⟨some _, hsaves.trans_spares hspares, hmember, fun request heq _ =>
      ⟨_, rfl, _, ?_, rfl, ?_⟩⟩
    · rw [hspares.cwd_eq]
      exact hstays.of_ok hrun
    · cases heq
      have hempty : p.reason.isEmpty = false := by simpa using hworded.reason
      simp [Pause.request, Controller.pendingRequest, SessionState.reasonOr, hempty]

/-- The gate asks no human. -/
theorem gate_raises {p : Plan} (h : gate c p s = .error f) (request : HumanRequest) :
    f ≠ .humanInput request := by
  unfold gate at h
  split at h
  · cases houtstanding : Guardrail.outstanding c.thresholds p.toJson s with
    | error bad =>
      rw [houtstanding] at h
      cases h
      cases bad <;> exact nofun
    | ok conditions =>
      rw [houtstanding] at h
      cases h
  · cases h

/-- What comes of a judged plan is a move away from the state with which the iteration began. -/
theorem Decides.saves {j : Judged} {review : Review} {out : Except Failure Next}
    (h : Decides c s.totalTokens j review r out r') (hjudges : s.Judges c good j t)
    (hreview : review = j.finalReview c.scoreThreshold)
    (hstate : r.state = t.absorbing c j.plan review) (hthere : r.workspace.HasState c.dir) :
    r.Goes c (s.Move c good) r' out := by
  cases h with
  | asks hhuman hpauses =>
    refine hpauses.saves hthere ?_ (clarification_isWorded review)
    have hmove := SessionState.Move.asked r.now hjudges hreview hhuman
    rwa [← hstate] at hmove
  | ungated _ _ hgate => exact Run.goes_of_fault (Saves.refl _ _) (gate_raises hgate)
  | gated hhuman hpassed hgate hpauses =>
    refine hpauses.saves hthere ?_ (approvalOf_isWorded _)
    have hmove := SessionState.Move.gated r.now hjudges hreview hhuman hpassed (hstate ▸ hgate)
    rwa [← hstate] at hmove
  | approved hhuman hpassed hgate =>
    refine ⟨Saves.refl _ _, ?_, .inl rfl⟩
    have hmove := SessionState.Move.approved r.now hjudges hreview hhuman hpassed (hstate ▸ hgate)
    rwa [← hstate] at hmove
  | unsaved _ _ hunsaved =>
    obtain ⟨w, rfl, hspares, hfault⟩ :=
      (save_saves c (r.update (·.revising r.now j review s.totalTokens))).of_error hunsaved
    exact Run.goes_of_fault hspares hfault.ne_humanInput
  | revised hhuman hpassed hsaved =>
    have hmove := SessionState.Move.revised r.now hjudges hreview hhuman hpassed
    rw [← hstate] at hmove
    obtain ⟨w, rfl, hsaves, -⟩ :=
      (save_saves c (r.update (·.revising r.now j review s.totalTokens))).of_ok hsaved
    exact ⟨hsaves, hmove⟩

/-- A state that may come next after the state of a run : a move away from it, and with the same
reviews unless the iteration comes to one. -/
structure Run.Makes (c : Controller) (good : Plan → Prop) (resume : Option Resume) (r : Run)
    (t : SessionState) : Prop where
  move : r.state.Move c good t
  reviews : t.reviews = r.state.reviews ∨ r.Reviews c resume

/-- An iteration saves a state that is a move away from its own, or none. -/
theorem Turn.saves {out : Except Failure Next} (h : Turn c resume r out r')
    (hplans : ∀ n ctx now p, (c.planner n ctx).answer now = .ok p →
      ∀ prior iteration time, good (p.succeeding prior iteration time))
    (hstands : r.Stands resume) (hthere : r.workspace.HasState c.dir) :
    r.Goes c (r.Makes c good resume) r' out := by
  have hjudge := judge_judges hplans hstands hthere
  have hunasked {f : Failure} {r₁ : Run} {o : Option SessionState} {w : Workspace}
      (hfailed : judge c resume r.opened = (.error f, r₁)) : c.Asks f o w := by
    rintro request rfl hraises
    exact absurd (raises_of_judge hfailed) hraises
  cases h with
  | unwritten hjudged hunwritten =>
    obtain ⟨-, h₁⟩ := hjudge.of_ok hjudged
    obtain ⟨w, rfl, hspares, hfault⟩ :=
      (writeReview_saves c _ _ (h₁.hasState hthere)).of_error hunwritten
    exact Run.goes_of_fault (h₁.trans hspares) hfault.ne_humanInput
  | @decided j r₁ _ _ _ hjudged hwrite hdecides =>
    obtain ⟨hjudges, h₁⟩ := hjudge.of_ok hjudged
    obtain ⟨w, rfl, hspares⟩ :=
      (writeReview_saves c _ _ (h₁.hasState hthere)).of_ok hwrite
    exact (hdecides.saves hjudges rfl rfl ((h₁.trans hspares).hasState hthere)).of_spares
      (h₁.trans hspares) fun t hmove => ⟨hmove, .inr ⟨j, r₁, hjudged⟩⟩
  | @phaseUnsaved message r₁ _ _ hphase hunsaved =>
    obtain ⟨-, h₁⟩ := hjudge.of_error hphase
    obtain ⟨w, rfl, hspares, hfault⟩ :=
      (save_saves c (r₁.afterPhaseError message r.state.totalTokens)).of_error hunsaved
    exact Run.goes_of_fault (h₁.trans hspares) hfault.ne_humanInput
  | @phaseError message r₁ _ hphase hsaved =>
    obtain ⟨hworks, h₁⟩ := hjudge.of_error hphase
    obtain ⟨w, rfl, hsaves, -⟩ :=
      (save_saves c (r₁.afterPhaseError message r.state.totalTokens)).of_ok hsaved
    exact ⟨h₁.spares_trans hsaves, .phaseError r₁.now message hworks, .inl hworks.reviews_eq⟩
  | @failed f r₁ _ hfailed _ hsaved =>
    obtain ⟨hworks, h₁⟩ := hjudge.of_error hfailed
    obtain ⟨w, rfl, hsaves, -⟩ := (save_saves c (r₁.update (·.failed (failureText f)))).of_ok hsaved
    refine ⟨some _, h₁.spares_trans hsaves, ?_, hunasked hfailed⟩
    rintro _ ⟨⟩
    exact ⟨.failed f hworks, .inl hworks.reviews_eq⟩
  | @failedUnsaved f g r₁ _ hfailed _ hunsaved =>
    obtain ⟨-, h₁⟩ := hjudge.of_error hfailed
    obtain ⟨w, rfl, hspares, hfault⟩ :=
      (save_saves c (r₁.update (·.failed (failureText f)))).of_error hunsaved
    refine ⟨none, h₁.trans hspares, fun t ht => ?_, ?_⟩
    · cases ht
    · rcases unmarked_eq_or f g with hraised | hraised
      · rw [hraised]
        exact hunasked hfailed
      · rw [hraised]
        exact Controller.asks_of_fault hfault

end

/-! ## The loop -/

/-- A step of a loop that starts iterations at the runs `starts` : a move, with which a new review
is recorded only if an iteration has come to one. -/
structure Controller.Steps (c : Controller) (good : Plan → Prop) (resume : Option Resume)
    (starts : List Run) (s t : SessionState) : Prop where
  running : s.status.kind = .running
  move : s.Move c good t
  reviews : t.reviews = s.reviews ∨ ∃ r ∈ starts, r.state = s ∧ r.Reviews c resume

/-- On the way from the run `r` to the workspace `w` the states `way` are saved; they form a walk
from the state of the run to the state `t`. -/
structure Run.Passes (c : Controller) (step : SessionState → SessionState → Prop) (r : Run)
    (w : Workspace) (way : List SessionState) (t : SessionState) : Prop where
  saves : r.workspace.Saves c.dir w way
  walks : Walks step r.state way t

/-- Where a loop leads from the run `r` on : it ends with a state that is not saved yet, or it
fails. -/
def Run.LoopsTo (c : Controller) (step : SessionState → SessionState → Prop) (r : Run) :
    Except Failure Unit × Run → Prop
  | (.ok (), r') => ∃ way s, r.Passes c step r'.workspace way s ∧ step s r'.state.updateSummary ∧
      r'.state.status.kind.IsEnd
  | (.error f, r') => ∃ way s, r.Passes c step r'.workspace way s ∧
      c.Asks f way.getLast? r'.workspace

section

variable {step : SessionState → SessionState → Prop} {way : List SessionState}

theorem Run.Passes.refl (c : Controller) (step : SessionState → SessionState → Prop) (r : Run) :
    r.Passes c step r.workspace [] r.state :=
  ⟨.refl _ _, .nil⟩

theorem Run.Passes.spares (h : r.Passes c step w way t) (hspares : w.Saves c.dir w' []) :
    r.Passes c step w' way t :=
  ⟨h.saves.trans_spares hspares, h.walks⟩

/-- A step before the rest of the way. -/
theorem Run.Passes.cons {r₁ : Run} (h : r₁.Passes c step w way t)
    (hsaves : r.workspace.Saves c.dir r₁.workspace [r₁.state]) (hstep : step r.state r₁.state) :
    r.Passes c step w (r₁.state :: way) t :=
  ⟨hsaves.trans h.saves, .cons hstep h.walks⟩

/-- A step after the rest of the way. -/
theorem Run.Passes.snoc (h : r.Passes c step w way s) (hsaves : w.Saves c.dir w' [t])
    (hstep : step s t) : r.Passes c step w' (way ++ [t]) t :=
  ⟨h.saves.trans hsaves, h.walks.append (.single hstep)⟩

/-- A loop that is entered after a step. -/
theorem Run.LoopsTo.cons {r₁ : Run} {out : Except Failure Unit × Run} (h : r₁.LoopsTo c step out)
    (hsaves : r.workspace.Saves c.dir r₁.workspace [r₁.state]) (hstep : step r.state r₁.state) :
    r.LoopsTo c step out := by
  obtain ⟨_ | _, r'⟩ := out
  · obtain ⟨way, s, hpasses, hasks⟩ := h
    refine ⟨_, s, hpasses.cons hsaves hstep, fun request heq hraises => ?_⟩
    obtain ⟨t, ht, hrest⟩ := hasks request heq hraises
    refine ⟨t, ?_, hrest⟩
    rw [List.getLast?_cons, Option.mem_def.1 ht]
    rfl
  · obtain ⟨way, s, hpasses, hcloses⟩ := h
    exact ⟨_, s, hpasses.cons hsaves hstep, hcloses⟩

end

/-- At a limit a run comes to its end, without a new review. -/
theorem stopAtLimit_saves (hrunning : r.state.status.kind = .running) (starts : List Run) :
    Ends (stopAtLimit c) r
      (fun stopped r' => stopped = true → r.LoopsTo c (c.Steps good resume starts) (.ok (), r'))
      fun f r' => r.LoopsTo c (c.Steps good resume starts) (.error f, r') := by
  rw [ends_stopAtLimit]
  cases hcheck : Guardrail.check c.limits r.workspace.now r.state with
  | none => exact fun h => Bool.noConfusion h
  | some stop =>
    dsimp only
    cases hdescribe : stop.describe with
    | error e =>
      refine ⟨[], r.state, .refl _ _ _, Controller.asks_of_ne ?_⟩
      cases e <;> exact nofun
    | ok description =>
      intro _
      refine ⟨[], r.state, .refl _ _ _, ⟨hrunning, .stopped hcheck hdescribe, .inl rfl⟩, ?_⟩
      change StatusKind.IsEnd (if _ then _ else _)
      split
      · exact .inr (.inl rfl)
      · exact .inr (.inr rfl)

/-- Each iteration of a loop begins with the state that was saved last, and after the last one the
run has come to its end or has failed. -/
theorem Looping.saves {starts all : List Run} {out : Except Failure Unit × Run}
    (h : Looping c resume starts r out) (hall : starts ⊆ all)
    (hplans : ∀ n ctx now p, (c.planner n ctx).answer now = .ok p →
      ∀ prior iteration time, good (p.succeeding prior iteration time))
    (hstands : r.Stands resume) (hthere : r.workspace.HasState c.dir) :
    (∀ r₁ ∈ starts, r₁.Stands resume ∧
      ∃ way, r.Passes c (c.Steps good resume all) r₁.workspace way r₁.state) ∧
    r.LoopsTo c (c.Steps good resume all) out := by
  have hstart {r : Run} (hstands : r.Stands resume) : ∀ r₁ ∈ [r], r₁.Stands resume ∧
      ∃ way, r.Passes c (c.Steps good resume all) r₁.workspace way r₁.state :=
    List.forall_mem_singleton.2 ⟨hstands, [], .refl _ _ _⟩
  have hstep {r : Run} {t : SessionState} (hr : r ∈ all) (hstands : r.Stands resume)
      (hmakes : r.Makes c good resume t) : c.Steps good resume all r.state t :=
    ⟨hstands.running, hmakes.move, hmakes.reviews.imp_right fun h => ⟨r, hr, rfl, h⟩⟩
  induction h with
  | stopped hstop =>
    exact ⟨List.forall_mem_nil _, (stopAtLimit_saves hstands.running all).of_ok hstop rfl⟩
  | indescribable hstop =>
    exact ⟨List.forall_mem_nil _, (stopAtLimit_saves hstands.running all).of_error hstop⟩
  | @finished r r' _ hiteration =>
    obtain ⟨hspares, hmakes, hended⟩ :=
      ((iteration_turn c resume r).of_ok hiteration).saves hplans hstands hthere
    exact ⟨hstart hstands, [], r.state, ⟨hspares, .nil⟩,
      hstep (hall (List.mem_singleton_self r)) hstands hmakes, hended⟩
  | @failed r r' f _ hiteration =>
    obtain ⟨o, hsaves, hmakes, hasks⟩ :=
      ((iteration_turn c resume r).of_error hiteration).saves hplans hstands hthere
    refine ⟨hstart hstands, ?_⟩
    cases o with
    | none => exact ⟨[], r.state, ⟨hsaves, .nil⟩, hasks⟩
    | some t =>
      exact ⟨[t], t, ⟨hsaves, .single (hstep (hall (List.mem_singleton_self r)) hstands
        (hmakes t rfl))⟩, hasks⟩
  | @again r r₁ starts out _ hiteration _ ih =>
    obtain ⟨hsaves, hmakes⟩ :=
      ((iteration_turn c resume r).of_ok hiteration).saves hplans hstands hthere
    have hmove := hstep (hall List.mem_cons_self) hstands hmakes
    obtain ⟨hstarts, hout⟩ := ih (fun r₂ hr₂ => hall (List.mem_cons_of_mem r hr₂))
      (hstands.again ((iteration_ends hstands).of_ok hiteration)) (hsaves.hasState hthere)
    refine ⟨List.forall_mem_cons.2 ⟨⟨hstands, [], .refl _ _ _⟩, fun r₂ hr₂ => ?_⟩,
      hout.cons hsaves hmove⟩
    obtain ⟨hstands₂, way, hpasses⟩ := hstarts r₂ hr₂
    exact ⟨hstands₂, _, hpasses.cons hsaves hmove⟩

end PlanReview
