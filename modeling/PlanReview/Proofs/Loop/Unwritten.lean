import PlanReview.Proofs.Loop.Status
import PlanReview.Proofs.Loop.Answers

/-!
# Documents that cannot be written

Besides its state a run writes the plan and the review of every iteration, a draft when it pauses,
and the final plan when it ends. If one of these cannot be written the run raises the failure. What
it leaves behind depends on the document (`stored_of_misses`) : only a plan that cannot be written
has the session marked as failed. A review and the final plan are written where nothing marks it, so
the stored session goes on as running, with the state that was saved before; a draft is written when
the pause is stored already.
-/

namespace PlanReview

open RunM Workspace

variable {c : Controller} {dir : Path} {s t : SessionState} {r r' : Run} {w w' : Workspace}
  {resume : Option Resume} {f : Failure}

/-! ## The documents -/

/-- A document that a run writes besides its state. -/
inductive Document where
  | plan
  | review
  | draft
  | final
  deriving Repr, DecidableEq

/-- What is stored of a session after this document could not be written. -/
def Document.leaves : Document → StatusKind
  | .plan => .failed
  | .review => .running
  | .draft => .paused
  | .final => .running

/-- The loop that is entered at `r` starts an iteration at `r₁`. -/
def Run.Reaches (c : Controller) (resume : Option Resume) (r r₁ : Run) : Prop :=
  ∃ starts, Looping c resume starts r (rounds c resume (c.iterationsLeft r.state) r) ∧ r₁ ∈ starts

/-- The iteration that begins with `r` comes to a review, which is written; the run is at `r'`
then. -/
def Run.Settles (c : Controller) (resume : Option Resume) (r : Run) (j : Judged) (r' : Run) :
    Prop :=
  ∃ r₁ r₂, judge c resume r.opened = (.ok j, r₁) ∧
    onWorkspace (c.artifacts.writeReview (j.finalReview c.scoreThreshold) r₁.state.iteration) r₁ =
      (.ok (), r₂) ∧
    r' = r₂.absorbing c j.plan (j.finalReview c.scoreThreshold)

/-- The pause that a reviewed plan leads to, and the run in which it is made. -/
inductive Run.PausesFor (c : Controller) (tokensBefore : Int) (j : Judged) (review : Review)
    (r : Run) : Pause → Run → Prop where
  | asked : review.assessment.requiresHumanInput = true →
      PausesFor c tokensBefore j review r (clarification review)
        (r.update fun s => (s.withFeedback review.feedback).noted r.now j.verdict review
          .humanInputRequested tokensBefore)
  | gated {condition : Guardrail.Condition} : review.assessment.requiresHumanInput = false →
      review.passed = true → gate c j.plan r.state = .ok (some condition) →
      PausesFor c tokensBefore j review r (approvalOf condition)
        (r.update (·.noted r.now j.verdict review .humanInputRequested tokensBefore))

/-- In the run that begins its iterations at `r` a document cannot be written because of `f`; the
run is at `r'` then. -/
inductive Run.Misses (c : Controller) (resume : Option Resume) (r : Run) :
    Document → Failure → Run → Prop where
  | plan {p : Plan} {r₁ r₂ r' : Run} {f : Failure} : r.Reaches c resume r₁ →
      draft c resume r₁.opened = (.ok p, r₂) →
      onWorkspace (c.artifacts.writePlan p r₂.state.iteration) r₂ = (.error f, r') →
      Misses c resume r .plan f r'
  | review {j : Judged} {r₁ r₂ r' : Run} {f : Failure} : r.Reaches c resume r₁ →
      judge c resume r₁.opened = (.ok j, r₂) →
      onWorkspace (c.artifacts.writeReview (j.finalReview c.scoreThreshold) r₂.state.iteration)
        r₂ = (.error f, r') →
      Misses c resume r .review f r'
  | draft {j : Judged} {p : Pause} {r₁ r₂ r₃ r₄ r' : Run} {f : Failure} : r.Reaches c resume r₁ →
      r₁.Settles c resume j r₂ →
      r₂.PausesFor c r₁.state.totalTokens j (j.finalReview c.scoreThreshold) p r₃ →
      save c (r₃.update (·.asking r₃.now p)) = (.ok (), r₄) →
      onWorkspace (c.artifacts.writeFinal j.plan .draft none) r₄ = (.error f, r') →
      Misses c resume r .draft f r'
  | final {p : Plan} {r₁ r' : Run} {f : Failure} :
      rounds c resume (c.iterationsLeft r.state) r = (.ok (), r₁) →
      finalPlan r₁.state r₁.now = .ok (some p) →
      onWorkspace (c.artifacts.writeFinal p (finalStatus r₁.state.status.kind)
        (some r₁.state.bestScore)) r₁ = (.error f, r') →
      Misses c resume r .final f r'

/-! ## The stored state along a run -/

/-- Planning and reviewing save nothing and leave the status as it is. -/
theorem judge_saves (c : Controller) (resume : Option Resume)
    (hthere : r.workspace.HasState c.dir) :
    Ends (judge c resume) r.opened
      (fun _ r' => r.workspace.Saves c.dir r'.workspace [] ∧ r'.state.status = r.state.status)
      fun _ r' => r.workspace.Saves c.dir r'.workspace [] ∧ r'.state.status = r.state.status := by
  have hworks := @judge_works c (fun _ => True) (fun _ _ _ _ _ _ _ _ => trivial) resume r.opened
  have hspares := judge_spares (r := r.opened) c resume rfl hthere
  exact (hworks.and hspares).mono (fun _ _ h => ⟨⟨h.2⟩, h.1.1.stays.status⟩)
    fun _ _ h => ⟨⟨h.2⟩, h.1.stays.status⟩

/-- So does an iteration until its review is taken in. -/
theorem Run.Settles.saves {j : Judged} (h : r.Settles c resume j r')
    (hthere : r.workspace.HasState c.dir) :
    r.workspace.Saves c.dir r'.workspace [] ∧ r'.state.status = r.state.status := by
  obtain ⟨r₁, r₂, hjudged, hwrite, rfl⟩ := h
  obtain ⟨hspares₁, hstatus₁⟩ := (judge_saves c resume hthere).of_ok hjudged
  obtain ⟨w₂, rfl, hspares₂⟩ :=
    (writeReview_saves c _ _ (hspares₁.hasState hthere)).of_ok hwrite
  exact ⟨hspares₁.trans hspares₂, (r₁.state.absorb_stays _ _).status.trans hstatus₁⟩

/-- A run that goes on after an iteration has saved the state that it goes on with. -/
theorem Turn.again_saves (h : Turn c resume r (.ok .again) r')
    (hthere : r.workspace.HasState c.dir) :
    r.workspace.Saves c.dir r'.workspace [r'.state] ∧ r'.state.status = r.state.status := by
  cases h with
  | @decided j r₁ r₂ _ _ hjudged hwrite hdecides =>
    obtain ⟨hspares, hstatus⟩ := Run.Settles.saves ⟨r₁, r₂, hjudged, hwrite, rfl⟩ hthere
    generalize r₂.absorbing c j.plan (j.finalReview c.scoreThreshold) = r₃
      at hdecides hspares hstatus
    cases hdecides with
    | revised _ _ hsave =>
      obtain ⟨w, rfl, hsaves, -⟩ := (save_saves c (r₃.update (·.revising r₃.now j
        (j.finalReview c.scoreThreshold) r.state.totalTokens))).of_ok hsave
      exact ⟨hspares.spares_trans hsaves,
        (r₃.state.revising_standing r₃.now j _ r.state.totalTokens).1.trans hstatus⟩
  | @phaseError message r₁ _ hjudged hsave =>
    obtain ⟨hspares, hstatus⟩ := (judge_saves c resume hthere).of_error hjudged
    obtain ⟨w, rfl, hsaves, -⟩ :=
      (save_saves c (r₁.afterPhaseError message r.state.totalTokens)).of_ok hsave
    exact ⟨hspares.spares_trans hsaves, hstatus⟩

/-- A run that is finished by an iteration has not saved its state yet. -/
theorem Turn.finished_saves (h : Turn c resume r (.ok .finished) r')
    (hthere : r.workspace.HasState c.dir) : r.workspace.Saves c.dir r'.workspace [] := by
  cases h with
  | decided hjudged hwrite hdecides =>
    have hspares := (Run.Settles.saves ⟨_, _, hjudged, hwrite, rfl⟩ hthere).1
    cases hdecides with
    | approved _ _ _ => exact hspares

theorem stopAtLimit_workspace (c : Controller) (r : Run) :
    Ends (stopAtLimit c) r (fun _ r' => r'.workspace = r.workspace) fun _ _ => True := by
  rw [ends_stopAtLimit]
  split
  · rfl
  · split
    · exact True.intro
    · rfl

/-- The run is at the state that was saved last, and running. -/
structure Run.IsSaved (c : Controller) (r : Run) : Prop where
  stored : r.workspace.HasStored c.dir r.state
  running : r.state.status.kind = .running

/-- Each iteration starts at the state that was saved last, and after the last one a running state
is still stored. -/
theorem Looping.stored {starts : List Run} {out : Except Failure Unit × Run}
    (h : Looping c resume starts r out) (hsaved : r.IsSaved c) :
    (∀ r₁ ∈ starts, r₁.IsSaved c) ∧
      (out.1 = .ok () → ∃ s, out.2.workspace.HasStored c.dir s ∧ s.status.kind = .running) := by
  induction h with
  | @stopped r r' hstop =>
    refine ⟨List.forall_mem_nil _, fun _ => ⟨r.state, ?_, hsaved.running⟩⟩
    rw [(stopAtLimit_workspace c r).of_ok hstop]
    exact hsaved.stored
  | indescribable _ => exact ⟨List.forall_mem_nil _, nofun⟩
  | @finished r r' _ hiteration =>
    have hspares := ((iteration_turn c resume r).of_ok hiteration).finished_saves
      hsaved.stored.hasState
    exact ⟨List.forall_mem_singleton.2 hsaved, fun _ =>
      ⟨r.state, hspares.keeps_stored hsaved.stored, hsaved.running⟩⟩
  | failed _ _ => exact ⟨List.forall_mem_singleton.2 hsaved, nofun⟩
  | @again r r₁ _ _ _ hiteration _ ih =>
    obtain ⟨hsaves, hstatus⟩ := ((iteration_turn c resume r).of_ok hiteration).again_saves
      hsaved.stored.hasState
    have hsaved₁ : r₁.IsSaved c := ⟨hsaves.hasStored, by rw [hstatus, hsaved.running]⟩
    obtain ⟨hstarts, hout⟩ := ih hsaved₁
    exact ⟨List.forall_mem_cons.2 ⟨hsaved, hstarts⟩, hout⟩

/-! ## Where the documents are written -/

section

variable {ok : Next → Run → Prop} {bad : Failure → Run → Prop}

theorem ends_iteration_of_judged {j : Judged} {r₁ : Run}
    (hjudge : judge c resume r.opened = (.ok j, r₁)) :
    Ends (iteration c resume) r ok bad ↔ Ends (settle c r.state.totalTokens j) r₁ ok bad := by
  rw [ends_iteration]
  exact ends_of_ok hjudge

theorem ends_iteration_of_settles {j : Judged} (h : r.Settles c resume j r') :
    Ends (iteration c resume) r ok bad ↔
      Ends (decide c r.state.totalTokens j (j.finalReview c.scoreThreshold)) r' ok bad := by
  obtain ⟨r₁, r₂, hjudge, hwrite, rfl⟩ := h
  rw [ends_iteration_of_judged hjudge, ends_settle, ends_of_ok hwrite]

theorem Run.PausesFor.ends_decide {tokensBefore : Int} {j : Judged} {review : Review} {p : Pause}
    (h : r.PausesFor c tokensBefore j review p r') :
    Ends (decide c tokensBefore j review) r ok bad ↔ Ends (pause c j.plan p) r' ok bad := by
  rw [PlanReview.ends_decide]
  cases h with
  | asked hhuman => rw [if_pos hhuman]
  | gated hhuman hpassed hgate =>
    rw [hhuman, if_neg Bool.false_ne_true, if_pos hpassed, hgate]

end

/-- A review that cannot be written ends its iteration. -/
theorem iteration_of_unwritten {j : Judged} {r₂ : Run}
    (hjudge : judge c resume r.opened = (.ok j, r₂))
    (hwrite : onWorkspace (c.artifacts.writeReview (j.finalReview c.scoreThreshold)
      r₂.state.iteration) r₂ = (.error f, r')) :
    iteration c resume r = (.error f, r') := by
  apply Ends.eq_error
  rw [ends_iteration_of_judged hjudge, ends_settle, ends_of_error hwrite]
  exact ⟨rfl, rfl⟩

/-- So does a draft, after the pause is stored. -/
theorem iteration_of_undrafted {j : Judged} {p : Pause} {r₂ r₃ r₄ : Run}
    (hsettles : r.Settles c resume j r₂)
    (hpauses : r₂.PausesFor c r.state.totalTokens j (j.finalReview c.scoreThreshold) p r₃)
    (hsave : save c (r₃.update (·.asking r₃.now p)) = (.ok (), r₄))
    (hwrite : onWorkspace (c.artifacts.writeFinal j.plan .draft none) r₄ = (.error f, r')) :
    iteration c resume r = (.error f, r') := by
  apply Ends.eq_error
  rw [ends_iteration_of_settles hsettles, hpauses.ends_decide]
  rw [ends_pause, ends_of_ok hsave, ends_of_error hwrite]
  exact ⟨rfl, rfl⟩

/-- A plan that cannot be written ends its iteration too, after the session was marked as failed. -/
theorem iteration_of_unplanned {p : Plan} {r₂ r₃ r₄ : Run}
    (hdraft : draft c resume r.opened = (.ok p, r₂))
    (hwrite : onWorkspace (c.artifacts.writePlan p r₂.state.iteration) r₂ = (.error f, r₃))
    (hsave : save c (r₃.update (·.failed (failureText f))) = (.ok (), r₄)) :
    iteration c resume r = (.error f, r₄) := by
  have hjudge : judge c resume r.opened = (.error f, r₃) := by
    apply Ends.eq_error
    rw [ends_judge, ends_of_ok hdraft, ends_of_error hwrite]
    exact ⟨rfl, rfl⟩
  obtain ⟨w, hfails, -⟩ := onWorkspace_run hwrite
  have hfault := ((c.artifacts.byFiles_writePlan p _).fails _).of_error hfails
  refine iteration_of_failed hjudge (fun message heq => ?_) hsave
  rw [heq] at hfault
  exact hfault

/-- What is stored where a document could not be written, and how the run fails. -/
theorem Run.Misses.stored {d : Document} (h : r.Misses c resume d f r') (hsaved : r.IsSaved c)
    (hmarked : d = .plan → ∃ r₁, save c (r'.update (·.failed (failureText f))) = (.ok (), r₁)) :
    ∃ r₁ s, (do rounds c resume (c.iterationsLeft (← get).state); finish c : RunM LoopResult) r =
        (.error f, r₁) ∧ r₁.workspace.HasStored c.dir s ∧ s.status.kind = d.leaves ∧
      (d = .plan → s.status.error = some (failureText f)) := by
  have hbroken {r₁ r₂ : Run} (hreaches : r.Reaches c resume r₁)
      (hiteration : iteration c resume r₁ = (.error f, r₂)) :
      (do rounds c resume (c.iterationsLeft (← get).state); finish c : RunM LoopResult) r =
        (.error f, r₂) := by
    obtain ⟨starts, hloop, hr₁⟩ := hreaches
    exact run_of_broken (hloop.eq_of_error hr₁ hiteration)
  have hstart {r₁ : Run} (hreaches : r.Reaches c resume r₁) : r₁.IsSaved c := by
    obtain ⟨starts, hloop, hr₁⟩ := hreaches
    exact (hloop.stored hsaved).1 r₁ hr₁
  cases h with
  | plan hreaches hdraft hwrite =>
    obtain ⟨r₄, hsave⟩ := hmarked rfl
    obtain ⟨w, rfl, hsaves, -⟩ := (save_saves c (r'.update (·.failed (failureText f)))).of_ok hsave
    exact ⟨_, _, hbroken hreaches (iteration_of_unplanned hdraft hwrite hsave), hsaves.hasStored,
      rfl, fun _ => rfl⟩
  | @review _ r₁ _ _ _ hreaches hjudge hwrite =>
    have hstored := (hstart hreaches).stored
    obtain ⟨hspares, -⟩ := (judge_saves c resume hstored.hasState).of_ok hjudge
    obtain ⟨w, rfl, hspares', -⟩ :=
      (writeReview_saves c _ _ (hspares.hasState hstored.hasState)).of_error hwrite
    exact ⟨_, r₁.state, hbroken hreaches (iteration_of_unwritten hjudge hwrite),
      (hspares.trans hspares').keeps_stored hstored, (hstart hreaches).running, nofun⟩
  | @draft _ p r₁ r₂ r₃ r₄ _ _ hreaches hsettles hpauses hsave hwrite =>
    have hthere := (hstart hreaches).stored.hasState
    obtain ⟨w, rfl, hsaves, -⟩ := (save_saves c (r₃.update (·.asking r₃.now p))).of_ok hsave
    have hsaves' : r₃.workspace.Saves c.dir w [r₃.state.asking r₃.now p] := hsaves
    obtain ⟨w', rfl, hspares, -⟩ :=
      (writeFinal_saves c _ .draft none hsaves'.hasStored.hasState).of_error hwrite
    exact ⟨_, _, hbroken hreaches (iteration_of_undrafted hsettles hpauses hsave hwrite),
      hspares.keeps_stored hsaves'.hasStored, rfl, nofun⟩
  | @final p r₁ _ _ hrounds hplan hwrite =>
    obtain ⟨starts, hloop, -⟩ := rounds_within_limits c resume r
    rw [hrounds] at hloop
    obtain ⟨s, hstored, hrunning⟩ := (hloop.stored hsaved).2 rfl
    obtain ⟨w, rfl, hspares, -⟩ := (writeFinal_saves c p _ _ hstored.hasState).of_error hwrite
    refine ⟨{ r₁ with workspace := w }, s, ?_, hspares.keeps_stored hstored, hrunning, nofun⟩
    apply Ends.eq_error
    rw [ends_bind, ends_get, ends_bind, ends_of_ok hrounds]
    rw [ends_finish, hplan]
    dsimp only
    rw [ends_of_error hwrite]
    exact ⟨rfl, rfl⟩

/-! ## Visits -/

/-- A run begins its iterations with the state that it has saved first. -/
theorem Visit.isSaved_of_entered {v : Visit} (h : v.entered? w = some (r, resume)) :
    r.IsSaved v.controller := by
  refine ⟨(saves_of_entered h).hasStored, ?_⟩
  obtain ⟨⟨w₁, -, henter⟩, -⟩ := exists_of_entered h
  obtain ⟨-, _, s₁, -, -, -, hstate⟩ := (enter_saves v.controller v.request w₁).of_ok henter
  rw [hstate]
  exact (start_eq v.request w₁.now.text s₁).2.2

/-- If a document of a run cannot be written, the run raises the failure, unless its metrics cannot
be written either. Only for a plan the session is marked as failed, if its state can be stored : a
review and the final plan leave the state that was saved before, which is running, and a draft
leaves the pause. -/
theorem stored_of_misses {v : Visit} {d : Document} (hentered : v.entered? w = some (r, resume))
    (hmisses : r.Misses v.controller resume d f r')
    (hmarked : d = .plan →
      ∃ r₁, save v.controller (r'.update (·.failed (failureText f))) = (.ok (), r₁)) :
    (∃ g, (v.report w).result = .error g ∧
      (g = f ∨ ∃ r₁ r₂, recordMetrics v.controller r₁ = (.error g, r₂))) ∧
    ∃ s, (v.report w).workspace.HasStored v.controller.dir s ∧ s.status.kind = d.leaves ∧
      (d = .plan → s.status.error = some (failureText f)) := by
  obtain ⟨r₁, s, hrun, hstored, hkind, herror⟩ :=
    hmisses.stored (Visit.isSaved_of_entered hentered) hmarked
  have hdrive : Ends (drive v.controller resume) r (fun _ _ => False) fun g r₂ =>
      (g = f ∨ ∃ r₁ r₂, recordMetrics v.controller r₁ = (.error g, r₂)) ∧
        r₂.workspace.HasStored v.controller.dir s := by
    rw [drive_of_error hrun]
    refine ((recordMetrics_saves v.controller r₁).and (Ends.self _ _)).mono ?_ ?_
    · rintro _ _ ⟨⟨w₂, rfl, hspares, -⟩, -⟩
      exact ⟨.inl rfl, hspares.keeps_stored hstored⟩
    · rintro g r₂ ⟨⟨hspares, -⟩, hmetrics⟩
      exact ⟨.inr ⟨r₁, r₂, hmetrics⟩, hspares.keeps_stored hstored⟩
  rw [(Visit.exists_of_entered hentered).2.2]
  rcases hdriven : drive v.controller resume r with ⟨g | result, r₂⟩
  · obtain ⟨hraised, hstored₂⟩ := hdrive.of_error hdriven
    exact ⟨⟨g, rfl, hraised⟩, s, hstored₂, hkind, herror⟩
  · exact (hdrive.of_ok hdriven).elim

/-- A visit with a good plan whose review cannot be written. -/
def refusing : Visit where
  controller := { approving.controller with
    artifacts := { approving.controller.artifacts with
      refuses := fun
        | .review _ => some "disk full"
        | _ => none } }
  request := approving.request
  now := approving.now

/-- After such a visit the stored session is running. -/
theorem stored_of_refusing : ∃ r resume r',
    refusing.entered? (.untouched bareTree ⟨0⟩) = some (r, resume) ∧
    r.Misses refusing.controller resume .review (.persistence (.reported "disk full")) r' ∧
    (∃ g, (refusing.report (.untouched bareTree ⟨0⟩)).result = .error g ∧
      (g = .persistence (.reported "disk full") ∨
        ∃ r₁ r₂, recordMetrics refusing.controller r₁ = (.error g, r₂))) ∧
    ∃ s, (refusing.report (.untouched bareTree ⟨0⟩)).workspace.HasStored refusing.controller.dir s ∧
      s.status.kind = .running := by
  have hfirst : ((refusing.entered? (.untouched bareTree ⟨0⟩)).map fun e =>
      ((stopAtLimit refusing.controller e.1).1.toOption,
        (judge refusing.controller e.2 e.1.opened).1.isOk)) = some (some false, true) := by
    decide +kernel
  obtain ⟨⟨r, resume⟩, hentered, hfirst⟩ := Option.map_eq_some_iff.1 hfirst
  obtain ⟨hstop, hok⟩ := Prod.mk.inj hfirst
  have hgoes : (stopAtLimit refusing.controller r).1 = .ok false := by
    rcases hresult : (stopAtLimit refusing.controller r).1 with _ | stopped
    · rw [hresult] at hstop
      cases hstop
    · rw [hresult] at hstop
      cases hstop
      rfl
  obtain ⟨j, r₁, hjudge⟩ : ∃ j r₁, judge refusing.controller resume r.opened = (.ok j, r₁) := by
    rcases hjudged : judge refusing.controller resume r.opened with ⟨_ | j, r₁⟩
    · rw [hjudged] at hok
      cases hok
    · exact ⟨j, r₁, rfl⟩
  obtain ⟨starts, hloop, -⟩ := rounds_within_limits refusing.controller resume r
  have hmisses : r.Misses refusing.controller resume .review
      (.persistence (.reported "disk full")) r₁ :=
    .review ⟨starts, hloop, hloop.mem_start hgoes⟩ hjudge rfl
  obtain ⟨hraised, s, hstored, hkind, -⟩ := stored_of_misses hentered hmisses nofun
  exact ⟨r, resume, r₁, hentered, hmisses, hraised, s, hstored, hkind⟩

end PlanReview
