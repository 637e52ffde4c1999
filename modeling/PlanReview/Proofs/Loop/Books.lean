import PlanReview.Proofs.Loop.Waiting

/-!
# The books of all runs

The accounts that a stored state keeps (`SessionState.IsConsistent`) agree in every state that any
runs on a session save, and as long as none of these states was a failure, the iterations account
for all tokens (`books_of_visited`).
-/

namespace PlanReview

open SessionState Workspace

variable {w : Workspace}

/-- Whatever runs a session has, from one without a stored state on : its file is only ever given
the texts of states whose accounts agree, which they also do once such a text is read. As long as
none of the saved states was a failure, the iterations account for all tokens. -/
theorem books_of_visited {files : FileTree} {dir : Path} {visits : List Visit} (now : Instant)
    (hfile : files.has (filePath dir) = false)
    (hvisits : ∀ v ∈ visits, v.controller.dir = dir) :
    ∃ saves : List SessionState,
      files.versions ((filePath dir).resolve files.cwd)
        (visited visits (.untouched files now)).history = (saves.map fun s => .text s.storedText) ∧
      (∀ s ∈ saves, s.IsConsistent) ∧
      (∀ before s, before ++ [s] <+: saves → NoFailure (before ++ [s]) → s.IsBalanced) ∧
      ∀ s ∈ saves, ∀ time s', ofText time (filePath dir) s.storedText = .ok s' →
        s'.IsConsistent ∧ (s.IsBalanced → s'.IsBalanced) := by
  have hfits (v) (hv : v ∈ visits) := Visit.fits (hvisits v hv)
  obtain ⟨saves, s, hchronicle, hpast⟩ := visited_keeps hfits (Workspace.keeps_untouched now hfile)
  have hbooks := hpast.books
  refine ⟨saves, ?_, hbooks.saved, hbooks.savedBalanced, ?_⟩
  · rw [resolve_filePath]
    exact hchronicle.versions
  · intro t ht time t' hof
    cases hfinite : t.bestScore.isFinite with
    | true =>
      rw [ofText_storedText hfinite] at hof
      cases hof
      exact ⟨(hbooks.saved t ht).settled, IsBalanced.settled⟩
    | false => exact absurd hof (ofText_storedText_of_not_isFinite hfinite time _)

/-- After a visit that is answered its last state is loaded. -/
theorem Visit.load_of_answered {v : Visit} {start : FileTree} {s : SessionState}
    {result : LoopResult}
    (hkeeps : w.Keeps v.controller.dir (fun _ => True) (fun _ => True) start)
    (hresult : (v.report w).result = .ok result) (hlast : v.lastState? w = some s)
    (hfinite : s.bestScore.isFinite = true) (now : String) :
    SessionState.load (v.report w).workspace.files now v.controller.dir = .ok (some s.settled) := by
  obtain ⟨⟨r, resume⟩, hentered, rfl⟩ := Option.map_eq_some_iff.1 hlast
  have hstands := stands_of_entered SessionState.isKept_true hkeeps hentered
  rw [(exists_of_entered hentered).2.2] at hresult ⊢
  have hresult : (drive v.controller resume r).1 = .ok result := hresult
  have hheld := ((drive_concludes hstands).of_ok (Prod.ext hresult rfl)).stored
  rw [resolve_filePath] at hheld
  exact SessionState.load_stored hheld hfinite now

/-- A visit like `approving`, in which tokens are used, the planner has a plan only the second time
that it is called, and the reviewer cannot go on without a human. -/
def stuttering : Visit :=
  { approving with controller := { approving.controller with
      planner := fun n _ => {
        usage := some { inputTokens := 7, outputTokens := 2 }
        answer := fun now =>
          if n = 0 then .error (.phase "nothing to plan") else .ok (soundPlan now) }
      reviewer := fun _ _ _ => {
        usage := some { inputTokens := 3, outputTokens := 1 }
        answer := fun _ => .ok { assessment := { score := 0.5, requiresHumanInput := true } } } } }

/-- The visit after it, with an answer and a review that approves. -/
def settling : Visit :=
  { approving with
    controller := { approving.controller with
      planner := fun _ _ => {
        usage := some { inputTokens := 7, outputTokens := 2 }
        answer := fun now => .ok (soundPlan now) } }
    request := { task := "demo", humanResponse := some "Go on" } }

theorem stuttering_asks_none (request : HumanRequest) :
    ¬ stuttering.controller.Raises (.humanInput request) := by
  rintro (⟨n, ctx, now, hanswer⟩ | ⟨n, p, ctx, now, hanswer⟩)
  · have hplan : (if n = 0 then .error (.phase "nothing to plan") else .ok (soundPlan now) :
        Except Failure Plan) = .error (.humanInput request) := hanswer
    split at hplan <;> cases hplan
  · cases hanswer

/-- The two visits come to a state with a failed phase, two reviews and all tokens in its books. -/
theorem load_of_settling : ∃ s : SessionState,
    SessionState.load (visited [stuttering, settling] (.untouched bareTree ⟨0⟩)).files ""
      settling.controller.dir = .ok (some s) ∧
    s.iterationHistory.map (·.isPhaseError) = [true, false, false] ∧ s.reviews.length = 2 ∧
    s.totalTokens = 31 := by
  have hfile : bareTree.has (filePath stuttering.controller.dir) = false := by decide
  have hasked : (stuttering.report (.untouched bareTree ⟨0⟩)).asked?.isSome = true := by
    decide +kernel
  have hfirst : ((stuttering.lastState? (.untouched bareTree ⟨0⟩)).map (·.bestScore.isFinite)) =
      some true := by decide +kernel
  have hkind : (settling.reportWith ((stuttering.lastState? (.untouched bareTree ⟨0⟩)).map settled)
      (stuttering.report (.untouched bareTree ⟨0⟩)).workspace).kind? = some .completed := by
    decide +kernel
  have hstate : ((settling.lastStateWith? ((stuttering.lastState?
      (.untouched bareTree ⟨0⟩)).map settled)
      (stuttering.report (.untouched bareTree ⟨0⟩)).workspace).map fun s =>
        (s.bestScore.isFinite, s.settled.iterationHistory.map (·.isPhaseError),
          s.settled.reviews.length, s.totalTokens)) = some (true, [true, false, false], 2, 31) := by
    decide +kernel
  obtain ⟨s, hlast, hfinite⟩ := Option.map_eq_some_iff.1 hfirst
  obtain ⟨_, -, hload⟩ := Visit.load_of_asked hfile stuttering_asks_none hasked hlast hfinite
    settling.now.text
  rw [hlast, Option.map_some, ← Visit.report_eq_reportWith (v := settling) hload] at hkind
  rw [hlast, Option.map_some, ← Visit.lastState_eq_lastStateWith (v := settling) hload] at hstate
  obtain ⟨result, hresult, -⟩ := Report.exists_of_kind? hkind
  obtain ⟨t, hlast', ht⟩ := Option.map_eq_some_iff.1 hstate
  obtain ⟨hfinite', hlines, hreviews, htokens⟩ := by simpa only [Prod.mk.injEq] using ht
  have hfits : stuttering.Fits settling.controller.dir (fun _ => True) fun _ => True :=
    Visit.fits rfl
  have hkeeps := report_keeps hfits (Workspace.keeps_untouched ⟨0⟩ hfile)
  unfold visited
  rw [List.foldl_cons, List.foldl_cons, List.foldl_nil]
  exact ⟨t.settled, Visit.load_of_answered (v := settling) hkeeps hresult hlast' hfinite' "", hlines,
    hreviews, htokens⟩

/-- The books of the two visits agree, up to the last state, with its failed phase, its reviews and
its tokens. -/
theorem books_of_settling :
    bareTree.has (filePath settling.controller.dir) = false ∧
    (∀ v ∈ [stuttering, settling], v.controller.dir = settling.controller.dir) ∧
    ∃ (saves : List SessionState) (last : SessionState),
      bareTree.versions ((filePath settling.controller.dir).resolve bareTree.cwd)
        (visited [stuttering, settling] (.untouched bareTree ⟨0⟩)).history =
          (saves.map fun s => .text s.storedText) ∧
      (∀ s ∈ saves, s.IsConsistent) ∧
      (∀ before s, before ++ [s] <+: saves → NoFailure (before ++ [s]) → s.IsBalanced) ∧
      (∀ s ∈ saves, ∀ time s',
        ofText time (filePath settling.controller.dir) s.storedText = .ok s' →
          s'.IsConsistent ∧ (s.IsBalanced → s'.IsBalanced)) ∧
      saves.getLast? = some last ∧
      last.iterationHistory.map (·.isPhaseError) = [true, false, false] ∧
      last.reviews.length = 2 ∧ last.totalTokens = 31 := by
  have hfile : bareTree.has (filePath settling.controller.dir) = false := by decide
  have hdirs : ∀ v ∈ [stuttering, settling], v.controller.dir = settling.controller.dir :=
    List.forall_mem_cons.2 ⟨rfl, List.forall_mem_singleton.2 rfl⟩
  obtain ⟨saves, hversions, hbooks⟩ := books_of_visited ⟨0⟩ hfile hdirs
  obtain ⟨t, hload, hlines, hreviews, htokens⟩ := load_of_settling
  -- the file holds the last of the saved texts, so this is what is loaded
  obtain ⟨_, -, hchronicle, -⟩ := visited_keeps (fun v hv => Visit.fits (hdirs v hv))
    (Workspace.keeps_untouched ⟨0⟩ hfile)
  generalize visited [stuttering, settling] (.untouched bareTree ⟨0⟩) = w
    at hversions hload hchronicle ⊢
  have hnode := (hchronicle.of_versions (by rwa [resolve_filePath] at hversions)).node
  rw [← hchronicle.cwd_eq] at hnode
  obtain ⟨-, hstored⟩ := SessionState.stored_of_node hnode hload
  obtain ⟨last, hlast, rfl⟩ := Option.map_eq_some_iff.1 hstored.symm
  have hsettled : last.settled.iterationHistory.map (·.isPhaseError) =
      last.iterationHistory.map (·.isPhaseError) := by
    rw [SessionState.settled, List.map_map]
    rfl
  refine ⟨hfile, hdirs, saves, last, hversions, hbooks.1, hbooks.2.1, hbooks.2.2, hlast,
    hsettled.symm.trans hlines, ?_, htokens⟩
  rw [← hreviews, SessionState.settled, List.length_map]

end PlanReview
