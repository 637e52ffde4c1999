import PlanReview.Proofs.Json.Grammar
import PlanReview.Proofs.Loop.Answers
import PlanReview.Proofs.Loop.Status
import PlanReview.Proofs.Schema.Accepted

/-!
# States loaded as they were saved

A state is built from a new one by the operations on states and by what else a run does to its
state (`SessionState.Alters`), or it is loaded from the text of a state that was built
(`SessionState.IsBuilt`). Whatever runs save is built so (`visited_saves_built`).

Every built state is whole (`IsBuilt.isWhole`) : it has the present version, its documents are those
of plans without repeated keys and of reviews with scores, the numbers in its history are scores,
and the limit in its hard stop is a number that a file can hold. One limit is not checked on its way
there : that on time, which may be infinite. So a built state that was saved is loaded as an equal
one exactly if it was not stopped by such a limit (`load_save_of_isBuilt`); otherwise the limit is
missing in the state that is loaded. And a built state can be saved as far as files go, but its text
may have no bytes (`Encoder`) : a plan may hold half a pair of UTF-16 units, and with such a plan
no state is saved.
-/

namespace PlanReview

open Decimal (InUnit)
open Workspace

variable {c : Controller} {dir : Path} {s t : SessionState} {w w' : Workspace}
  {resume : Option Resume} {request : Request} {v : Visit} {saves : List SessionState}

/-! ## Whole states -/

namespace SessionState

/-- A state that a file holds whole, but for the numbers of a hard stop for time. -/
structure IsWhole (s : SessionState) : Prop where
  version : s.schemaVersion = PlanReview.schemaVersion
  plans : s.HoldsPlans Plan.IsPlain
  scores : s.HoldsScores
  lines : ∀ line ∈ s.iterationHistory, ∀ x ∈ line.reviewScore, InUnit x
  limit : s.status.HoldsLimit

/-- What decides whether a state is whole, besides its status. -/
def holdings (s : SessionState) :
    Int × Option Json.Fields × Option Json.Fields × Float × List Json.Fields ×
      List IterationRecord :=
  (s.schemaVersion, s.currentPlan, s.bestPlan, s.bestScore, s.reviews, s.iterationHistory)

theorem IsWhole.of_eq (h : s.IsWhole) (heq : t.holdings = s.holdings)
    (hlimit : t.status.HoldsLimit) : t.IsWhole := by
  simp only [holdings, Prod.mk.injEq] at heq
  obtain ⟨hversion, hcurrent, hbest, hscore, hreviews, hlines⟩ := heq
  exact ⟨hversion.trans h.version, h.plans.of_eq hcurrent hbest,
    h.scores.of_eq hreviews hscore hbest, hlines ▸ h.lines, hlimit⟩

theorem IsWhole.settled_lines (h : s.IsWhole) :
    s.iterationHistory.map IterationRecord.settled = s.iterationHistory := by
  refine (List.map_congr_left fun line hline => ?_).trans (List.map_id _)
  have hscore : line.reviewScore.filter Float.isFinite = line.reviewScore := by
    cases hx : line.reviewScore with
    | none => rfl
    | some x => exact Option.filter_some_pos (h.lines line hline x hx).isFinite
  rw [IterationRecord.settled, hscore]
  rfl

/-- What a file holds of a whole state differs from it in the status only. -/
theorem IsWhole.settled_eq (h : s.IsWhole) : s.settled = { s with status := s.status.settled } := by
  obtain ⟨hcurrent, hbest, hreviews⟩ := settled_documents h.plans h.scores
  have hlines : s.settled.iterationHistory = s.iterationHistory := h.settled_lines
  calc s.settled = { s with
        schemaVersion := PlanReview.schemaVersion
        status := s.status.settled
        currentPlan := s.settled.currentPlan
        bestPlan := s.settled.bestPlan
        reviews := s.settled.reviews
        iterationHistory := s.settled.iterationHistory } := rfl
    _ = { s with status := s.status.settled } := by
      rw [hcurrent, hbest, hreviews, hlines, ← h.version]

/-- So it differs at all only in the numbers of a hard stop for time. -/
theorem IsWhole.settled_eq_iff (h : s.IsWhole) :
    s.settled = s ↔ ∀ hard ∈ s.status.hardStop, hard.kind = .timeout → hard.IsFinite := by
  rw [h.settled_eq, ← Status.settled_eq_iff h.limit]
  exact ⟨congrArg SessionState.status, fun heq => by rw [heq]⟩

theorem IsWhole.settled (h : s.IsWhole) : s.settled.IsWhole := by
  rw [h.settled_eq]
  exact h.of_eq rfl s.status.holdsLimit_settled

theorem new_isWhole (now sessionId task slug : String) (dir : Option String) :
    (new now sessionId task slug dir).IsWhole where
  version := rfl
  plans := new_holdsPlans ..
  scores := new_holdsScores ..
  lines := List.forall_mem_nil _
  limit := Status.holdsLimit_of_none rfl

/-! ## Operations -/

/-- What an operation on a state, or a run between two operations, makes of a state. The plans repeat
no key in their parameters, and the scores are from zero to one. -/
inductive Alters (s : SessionState) : SessionState → Prop where
  | tokens (planner reviewer : Option (Option Int × Option Int)) :
      Alters s (s.addTokens planner reviewer)
  | toolCalls (count : Option Int) : Alters s (s.addToolCalls count)
  | estimate (estimated : Bool) : Alters s (s.noteEstimate estimated)
  | plan {p : Plan} : p.IsPlain → Alters s (s.setCurrentPlan p)
  | review {r : Review} : InUnit r.score → Alters s (s.recordReview r)
  | conditions (names : List String) : Alters s (s.addConditions names)
  | ask (now question category : String) (reason : Option String) :
      Alters s (s.requestHumanInput now question category reason)
  | answer (response : String) (approved : Bool) : Alters s (s.applyHumanResponse response approved)
  | summary : Alters s s.updateSummary
  | workingDir (dir : Option String) : Alters s { s with workingDir := dir }
  | iteration (n : Int) : Alters s { s with iteration := n }
  | feedback (lines : List String) : Alters s (s.withFeedback lines)
  | errors (count : Int) (last : Option String) :
      Alters s { s with consecutivePhaseErrors := count, lastError := last }
  | line {line : IterationRecord} : (∀ x ∈ line.reviewScore, InUnit x) →
      Alters s (s.addHistory line)
  | start (request : Request) (now : String) : Alters s (request.start now s)
  | completed : Alters s s.completed
  | failed (message : String) : Alters s (s.failed message)
  | stopped {limits : Guardrail.Limits} {now : Instant} {hard : HardStop} {description : String} :
      Guardrail.check limits now s = some hard → hard.describe = .ok description →
      Alters s (s.stopped hard description)

theorem Alters.isWhole (h : s.Alters t) (hs : s.IsWhole) : t.IsWhole := by
  cases h with
  | tokens planner reviewer => exact hs.of_eq rfl hs.limit
  | toolCalls count => exact hs.of_eq rfl hs.limit
  | estimate estimated => exact hs.of_eq rfl hs.limit
  | plan hp =>
    exact ⟨hs.version, hs.plans.setCurrentPlan hp, hs.scores.of_eq rfl rfl rfl, hs.lines, hs.limit⟩
  | @review r hr =>
    have hplans := hs.plans.recordReview r
    have hscores := hs.scores.recordReview hr
    obtain ⟨score, plan, heq⟩ := s.recordReview_eq r
    rw [heq] at hplans hscores ⊢
    exact ⟨hs.version, hplans, hscores, hs.lines, hs.limit⟩
  | conditions names => exact hs.of_eq rfl hs.limit
  | ask now question category reason => exact hs.of_eq rfl (Status.holdsLimit_of_none rfl)
  | answer response approved =>
    unfold applyHumanResponse
    split
    · exact hs
    · exact hs.of_eq rfl (Status.holdsLimit_of_none rfl)
  | summary => exact hs.of_eq rfl hs.limit
  | workingDir dir => exact hs.of_eq rfl hs.limit
  | iteration n => exact hs.of_eq rfl hs.limit
  | feedback lines => exact hs.of_eq rfl hs.limit
  | errors count last => exact hs.of_eq rfl hs.limit
  | @line line hline =>
    refine ⟨hs.version, hs.plans.of_eq rfl rfl, hs.scores.of_eq rfl rfl rfl, fun l hl => ?_,
      hs.limit⟩
    rcases List.mem_append.1 hl with hl | hl
    · exact hs.lines l hl
    · rw [List.mem_singleton.1 hl]
      exact hline
  | start request now =>
    unfold Request.start
    split <;> exact hs.of_eq rfl (Status.holdsLimit_of_none rfl)
  | completed => exact hs.of_eq rfl (Status.holdsLimit_of_none rfl)
  | failed message => exact hs.of_eq rfl (Status.holdsLimit_of_none rfl)
  | stopped hcheck hdescribe =>
    refine hs.of_eq rfl ?_
    rintro _ ⟨⟩
    exact Guardrail.isFinite_of_check hcheck hdescribe

/-- The states that a session can come to have. The plans and reviews of a payload that is accepted
are such as are meant here (`Plan.isPlain_of_ofJson`, `Review.inUnit_of_ofJson`). -/
inductive IsBuilt : SessionState → Prop where
  | new (now sessionId task slug : String) (dir : Option String) :
      IsBuilt (.new now sessionId task slug dir)
  | alter {s t : SessionState} : IsBuilt s → s.Alters t → IsBuilt t
  | load {s t : SessionState} {files : FileTree} {now : String} {dir : Path} : IsBuilt s →
      files.node? (stateKey dir files.cwd) = some (.file (.text s.storedText)) →
      SessionState.load files now dir = .ok (some t) → IsBuilt t

theorem IsBuilt.isWhole (h : s.IsBuilt) : s.IsWhole := by
  induction h with
  | new now sessionId task slug dir => exact new_isWhole now sessionId task slug dir
  | alter _ h ih => exact h.isWhole ih
  | load _ hnode hload ih =>
    obtain ⟨-, heq⟩ := eq_settled_of_load hnode hload
    rw [Option.some.inj heq]
    exact ih.settled

/-! ## Between two saves -/

theorem Works.isBuilt (h : s.Works Plan.IsPlain t) (hs : s.IsBuilt) : t.IsBuilt := by
  induction h with
  | refl => exact hs
  | planned _ _ ih => exact ((ih.alter (.tokens _ _)).alter (.toolCalls _)).alter (.estimate _)
  | reviewed _ _ ih => exact ((ih.alter (.tokens _ _)).alter (.toolCalls _)).alter (.estimate _)
  | plan _ hp ih => exact ih.alter (.plan hp)

theorem IsBuilt.noted {review : Review} (hs : s.IsBuilt) (hscore : InUnit review.score)
    (now : String) (verdict : Viability.Verdict) (outcome : IterationOutcome)
    (tokensBefore : Int) : (s.noted now verdict review outcome tokensBefore).IsBuilt := by
  refine hs.alter (.line ?_)
  rintro _ ⟨⟩
  exact hscore

theorem IsBuilt.asking (hs : s.IsBuilt) (now : String) (p : Pause) : (s.asking now p).IsBuilt :=
  (hs.alter (.ask _ _ _ _)).alter .summary

section

variable (hscores : ∀ p review, c.HasReviewed p review → InUnit review.score)

include hscores

/-- A judged plan whose review is taken in. -/
theorem Judges.isBuilt {j : Judged} (h : s.Judges c Plan.IsPlain j t) (hs : s.IsBuilt) :
    InUnit (j.finalReview c.scoreThreshold).score ∧
      (t.absorbing c j.plan (j.finalReview c.scoreThreshold)).IsBuilt := by
  have hscore : InUnit (j.finalReview c.scoreThreshold).score := by
    rw [finalReview_score]
    exact hscores _ _ h.reviewed
  have ht := h.works.isBuilt (hs.alter (.iteration _))
  exact ⟨hscore, ((ht.alter (.errors 0 none)).alter (.review hscore)).alter (.conditions _)⟩

/-- The next state that a run saves is built if the one before it is. -/
theorem Move.isBuilt (h : s.Move c Plan.IsPlain t) (hs : s.IsBuilt) : t.IsBuilt := by
  cases h with
  | phaseError now message hworks =>
    have ht := hworks.isBuilt (hs.alter (.iteration _))
    refine ((ht.alter (.errors _ _)).alter (.conditions _)).alter (.line ?_)
    rintro _ ⟨⟩
  | failed f hworks => exact (hworks.isBuilt (hs.alter (.iteration _))).alter (.failed _)
  | asked now hjudges hreview _ =>
    subst hreview
    obtain ⟨hscore, ht⟩ := hjudges.isBuilt hscores hs
    exact ((ht.alter (.feedback _)).noted hscore _ _ _ _).asking _ _
  | gated now hjudges hreview _ _ _ =>
    subst hreview
    obtain ⟨hscore, ht⟩ := hjudges.isBuilt hscores hs
    exact (ht.noted hscore _ _ _ _).asking _ _
  | revised now hjudges hreview _ _ =>
    subst hreview
    obtain ⟨hscore, ht⟩ := hjudges.isBuilt hscores hs
    exact ((ht.noted hscore _ _ _ _).alter (.feedback _)).alter .summary
  | approved now hjudges hreview _ _ _ =>
    subst hreview
    obtain ⟨hscore, ht⟩ := hjudges.isBuilt hscores hs
    exact ((ht.noted hscore _ _ _ _).alter .completed).alter .summary
  | stopped hcheck hdescribe => exact (hs.alter (.stopped hcheck hdescribe)).alter .summary

end

/-! ## From run to run -/

theorem IsBuilt.answer (hs : s.IsBuilt) (response : String) (approved : Bool) :
    (s.answer response approved).IsBuilt :=
  (hs.alter (.answer _ _)).alter (.feedback _)

/-- A session that is taken up is built. -/
theorem IsBuilt.takeUp {now : String} (hs : s.IsBuilt)
    (hresume : ∀ q ∈ request.resume, q.plan.IsPlain)
    (h : request.takeUp c now s = .ok (t, resume)) : t.IsBuilt := by
  rcases takeUp_cases h with ⟨q, hq, rfl⟩ | ⟨-, rfl⟩ | ⟨response, rfl⟩
  · exact ((hs.alter (.iteration _)).alter (.plan (hresume q hq))).alter (.feedback _)
  · exact hs
  · exact hs.answer response request.approved

/-- The session that a request is about is built, if the stored one is. -/
theorem isBuilt_session {o : Option SessionState} (ho : ∀ s ∈ o, s.IsBuilt) (request : Request)
    (slug now : String) : (request.session slug now o).IsBuilt := by
  cases o with
  | none => exact .new ..
  | some s =>
    obtain ⟨dir, heq⟩ := session_eq request slug now s
    rw [heq]
    exact (ho s rfl).alter (.workingDir dir)

end SessionState

/-- If anything stands under the name of the state, it is the text of a state that was built. -/
def Workspace.HoldsBuilt (w : Workspace) (dir : Path) : Prop :=
  ∃ o : Option SessionState, (∀ s ∈ o, s.IsBuilt) ∧
    w.files.node? (stateKey dir w.files.cwd) = o.map fun s => .file (.text s.storedText)

theorem Workspace.HoldsBuilt.after (h : w.HoldsBuilt dir) (hsaves : w.Saves dir w' saves)
    (hbuilt : ∀ s ∈ saves, s.IsBuilt) : w'.HoldsBuilt dir := by
  unfold HoldsBuilt
  rw [hsaves.cwd_eq, hsaves.stores.node, List.getLast?_map]
  cases hlast : saves.getLast? with
  | none => exact h
  | some s =>
    refine ⟨some s, ?_, rfl⟩
    rintro _ ⟨⟩
    exact hbuilt s (List.mem_of_getLast? hlast)

/-- A run begins with a state that is built, if the stored one is. -/
theorem Visit.isBuilt_of_entered {r : Run} (htyped : v.IsTyped)
    (h : w.HoldsBuilt v.controller.dir) (hentered : v.entered? w = some (r, resume)) :
    r.state.IsBuilt ∧ r.Stands resume := by
  obtain ⟨w₁, stored, t, hacquire, hload, htake, hstate, hlast⟩ := exists_takeUp hentered
  have hlocked := saves_locked hacquire
  obtain ⟨o, ho, hnode⟩ := h.after hlocked (List.forall_mem_nil _)
  have hstored : ∀ s ∈ stored, s.IsBuilt := by
    rintro s rfl
    cases o with
    | none =>
      obtain ⟨-, heq⟩ := SessionState.stored_of_node hnode hload
      cases heq
    | some u => exact .load (ho u rfl) hnode hload
  have hsession := SessionState.isBuilt_session hstored v.request v.controller.artifacts.slug
    w₁.now.text
  have hstands := stands_of_takeUp v.request hsession.isWhole.plans htake r.workspace w₁.now.text
  refine ⟨?_, ?_⟩
  · rw [hstate]
    exact (hsession.takeUp htyped.resumes htake).alter (.start _ _)
  · rw [← hstate] at hstands
    obtain ⟨-, hr, -⟩ := exists_of_entered hentered
    rwa [hr]

/-- A visit saves states that are built, if the stored one is. -/
theorem Visit.saves_built (htyped : v.IsTyped) (h : w.HoldsBuilt v.controller.dir) :
    ∃ saves, w.Saves v.controller.dir (v.report w).workspace saves ∧ ∀ s ∈ saves, s.IsBuilt := by
  cases hentered : v.entered? w with
  | none => exact ⟨[], (saves_nothing hentered).1, List.forall_mem_nil _⟩
  | some entry =>
    obtain ⟨r, resume⟩ := entry
    obtain ⟨hbuilt, hstands⟩ := isBuilt_of_entered htyped h hentered
    obtain ⟨starts, hloop, -⟩ := rounds_within_limits v.controller resume r
    obtain ⟨way, t, hpasses⟩ := exists_passes hentered hloop htyped.plans_succeeding hstands
    have hway := hpasses.walks.forall_mem hbuilt fun s t hs hstep => hstep.move.isBuilt
      (fun p review ⟨n, ctx, now, hanswer⟩ => htyped.scores n p ctx now review hanswer) hs
    exact ⟨r.state :: way, (saves_of_entered hentered).trans hpasses.saves,
      List.forall_mem_cons.2 ⟨hbuilt, hway.1⟩⟩

/-- So do visits, one after the other. -/
theorem visited_saves_built {visits : List Visit}
    (hvisits : ∀ v ∈ visits, v.controller.dir = dir ∧ v.IsTyped) (h : w.HoldsBuilt dir) :
    ∃ saves, w.Saves dir (visited visits w) saves ∧ ∀ s ∈ saves, s.IsBuilt := by
  induction visits generalizing w with
  | nil => exact ⟨[], .refl dir w, List.forall_mem_nil _⟩
  | cons v visits ih =>
    obtain ⟨⟨rfl, htyped⟩, hvisits⟩ := List.forall_mem_cons.1 hvisits
    obtain ⟨first, hfirst, hbuilt⟩ := v.saves_built htyped h
    obtain ⟨rest, hrest, hbuilt'⟩ := ih hvisits (h.after hfirst hbuilt)
    exact ⟨first ++ rest, hfirst.trans hrest, List.forall_mem_append.2 ⟨hbuilt, hbuilt'⟩⟩

/-! ## Saved and loaded -/

/-- What is loaded after a save is what a file holds of the state. -/
theorem load_of_save (hsave : s.save dir w = (.ok (), w')) (hfinite : s.bestScore.isFinite = true)
    (now : String) : SessionState.load w'.files now dir = .ok (some s.settled) := by
  have hheld := (SessionState.save_stored dir s).of_ok hsave
  rw [← ((SessionState.save_ends dir s).of_ok hsave).cwd_eq] at hheld
  exact SessionState.load_stored hheld hfinite now

/-- A state that is built can be saved wherever any state can, unless its text has no bytes, which
takes a replacement character in it. Then nothing is touched. Once it is saved it is loaded, at any
time, as it was up to the numbers of a hard stop for time, so as an equal state exactly if a file
can hold these. It stays built with every plan and every review that is accepted, and all that runs
save is built, if what is stored before them is. -/
theorem load_save_of_isBuilt (h : s.IsBuilt) (encoder : Encoder) (dir : Path) (w : Workspace) :
    (∀ f w', s.saveWith encoder {} dir w = (.error f, w') →
      (f.IsFileFault ∧ ∀ u : SessionState, encoder.refuses u.storedText = none →
        (u.saveWith encoder {} dir w).1 = .error f) ∨
      ('\uFFFD' ∈ s.storedText.toList ∧ w' = w ∧
        ∃ reason, encoder.refuses s.storedText = some reason ∧ f = .value reason)) ∧
    (∀ w', s.saveWith encoder {} dir w = (.ok (), w') → ∃ t,
      (∀ now, SessionState.load w'.files now dir = .ok (some t)) ∧
      t = { s with status := s.status.settled } ∧
      (t = s ↔ ∀ hard ∈ s.status.hardStop, hard.kind = .timeout → hard.IsFinite)) ∧
    (∀ now payload p, payload.merged = payload → Plan.ofJson now payload = .ok p →
      (s.setCurrentPlan p).IsBuilt) ∧
    (∀ payload r, Review.ofJson payload = .ok r → (s.recordReview r).IsBuilt) ∧
    (w.HoldsBuilt dir → ∀ visits : List Visit,
      (∀ v ∈ visits, v.controller.dir = dir ∧ v.IsTyped) →
      ∃ saves, w.Saves dir (visited visits w) saves ∧ ∀ t ∈ saves, t.IsBuilt) := by
  have hwhole := h.isWhole
  refine ⟨fun f w' hsave => ?_, fun w' hsave => ?_, fun now payload p hpayload hp => ?_,
    fun payload r hr => ?_, fun hstored visits hvisits => visited_saves_built hvisits hstored⟩
  · cases hrefuses : encoder.refuses s.storedText with
    | none =>
      rw [SessionState.saveWith_of_encoded hrefuses] at hsave
      refine .inl ⟨((SessionState.byFiles_save dir s).fails w).of_error hsave, fun u hu => ?_⟩
      rw [SessionState.saveWith_of_encoded hu, u.save_result dir s w, hsave]
    | some reason =>
      rw [SessionState.saveWith_of_refused hrefuses] at hsave
      cases hsave
      exact .inr ⟨SessionState.mem_of_refused hrefuses, rfl, reason, rfl, rfl⟩
  · cases hrefuses : encoder.refuses s.storedText with
    | none =>
      rw [SessionState.saveWith_of_encoded hrefuses] at hsave
      exact ⟨s.settled, load_of_save hsave hwhole.scores.best.isFinite, hwhole.settled_eq,
        hwhole.settled_eq_iff⟩
    | some reason =>
      rw [SessionState.saveWith_of_refused hrefuses] at hsave
      cases hsave
  · exact h.alter (.plan (Plan.isPlain_of_ofJson hpayload hp))
  · exact h.alter (.review (Review.inUnit_of_ofJson hr))

/-- A plan without steps. -/
def outline : Plan where
  title := "Add foo"
  metadata := { createdAt := "", lastUpdated := "" }

/-- A session that has a plan with a review, and has used its tokens. -/
def spent : SessionState :=
  (((SessionState.new "" "demo" "Add foo" "demo" none).setCurrentPlan outline).recordReview
    { assessment := { score := 0.7 } }).addTokens (some (some 1000, some 200)) none

theorem spent_isBuilt : spent.IsBuilt := by
  have hplan : outline.IsPlain := fun i hi => absurd hi List.not_mem_nil
  have hscore : InUnit (Review.score { assessment := { score := 0.7 } }) :=
    ⟨by decide +kernel, by decide +kernel⟩
  exact (((SessionState.IsBuilt.new "" "demo" "Add foo" "demo" none).alter (.plan hplan)).alter
    (.review hscore)).alter (.tokens _ _)

/-- Every state can be saved in an empty tree. -/
theorem exists_save_bareTree (s : SessionState) :
    ∃ w, s.save (.ofParts ["home", "runs"]) (.untouched bareTree ⟨0⟩) = (.ok (), w) := by
  have hok : ((SessionState.new "" "" "" "" none).save (.ofParts ["home", "runs"])
      (.untouched bareTree ⟨0⟩)).1.isOk = true := by decide +kernel
  rw [SessionState.save_result _ _ s] at hok
  rcases hsave : s.save (.ofParts ["home", "runs"]) (.untouched bareTree ⟨0⟩) with ⟨_ | _, w⟩
  · rw [hsave] at hok
    cases hok
  · exact ⟨w, rfl⟩

/-- The document of a plan with a step that has a note. -/
def noted (note : Json) : Json :=
  .obj [("title", .str "Add foo"), ("instructions", .arr [.obj [
    ("id", .str "a"), ("op", .str "EDIT_CODE"), ("params", .obj [("note", note)])]])]

/-- An encoder for texts in which every replacement character stands for half a pair. -/
def halving : Encoder where
  refuses text := if '\uFFFD' ∈ text.toList then some "surrogates not allowed" else none
  encodes _ hnot := if_neg hnot

theorem halving_refuses {text : String} (h : '\uFFFD' ∈ text.toList) :
    halving.refuses text = some "surrogates not allowed" := if_pos h

/-- A plan whose note is an escape for half a pair is accepted, and the text of a state with this
plan is refused. -/
theorem exists_halved : ∃ note p, Json.parse "\"\\ud83d\"" = .ok note ∧
    (noted note).merged = noted note ∧ Plan.ofJson "" (noted note) = .ok p ∧
    halving.refuses ((SessionState.new "" "demo" "Add foo" "demo" none).setCurrentPlan p).storedText =
      some "surrogates not allowed" := by
  have hread : (Plan.ofJson "" (noted (.str "\uFFFD"))).toOption.map (fun p =>
      (Json.render Json.stored 0 ((SessionState.new "" "demo" "Add foo" "demo"
        none).setCurrentPlan p).versioned.toJson).contains '\uFFFD') = some true := by
    decide +kernel
  obtain ⟨p, hp, hmem⟩ := Option.map_eq_some_iff.1 hread
  refine ⟨.str "\uFFFD", p, Json.parse_half rfl (.inl rfl), rfl, eq_ok_of_toOption hp,
    halving_refuses ?_⟩
  rw [SessionState.storedText, Json.write, String.toList_ofList]
  exact List.contains_iff_mem.1 hmem

/-- Once it is stopped it is saved, with any encoder, and loaded as it was. With a plan whose text
has no bytes it is not saved, and nothing is touched. -/
theorem load_save_of_spent : (∃ s : SessionState, s.IsBuilt ∧
    s = spent.stopped (.ofTokens 1200 1000) "Token budget exhausted: 1200 used of 1000" ∧
    ∃ w, ∀ encoder : Encoder,
      s.saveWith encoder {} (.ofParts ["home", "runs"]) (.untouched bareTree ⟨0⟩) = (.ok (), w) ∧
      ∀ now, SessionState.load w.files now (.ofParts ["home", "runs"]) = .ok (some s)) ∧
    ∃ note p, Json.parse "\"\\ud83d\"" = .ok note ∧ Plan.ofJson "" (noted note) = .ok p ∧
      ∃ s : SessionState, s.IsBuilt ∧
        s = (SessionState.new "" "demo" "Add foo" "demo" none).setCurrentPlan p ∧
        ∃ f w, s.saveWith halving {} (.ofParts ["home", "runs"]) (.untouched bareTree ⟨0⟩) =
            (.error f, w) ∧ ¬ f.IsFileFault ∧
          '\uFFFD' ∈ s.storedText.toList ∧ w = .untouched bareTree ⟨0⟩ := by
  constructor
  · have hcheck : Guardrail.check { maxTotalTokens := 1000 } ⟨0⟩ spent =
        some (.ofTokens 1200 1000) := rfl
    have hdescribe : (HardStop.ofTokens 1200 1000).describe =
        .ok "Token budget exhausted: 1200 used of 1000" := by decide +kernel
    have hbuilt := spent_isBuilt.alter (.stopped hcheck hdescribe)
    have hplain : '\uFFFD' ∉ (spent.stopped (.ofTokens 1200 1000)
        "Token budget exhausted: 1200 used of 1000").storedText.toList := by
      rw [SessionState.storedText, Json.write, String.toList_ofList]
      decide +kernel
    obtain ⟨w, hsave⟩ := exists_save_bareTree
      (spent.stopped (.ofTokens 1200 1000) "Token budget exhausted: 1200 used of 1000")
    refine ⟨_, hbuilt, rfl, w, fun encoder => ?_⟩
    have hsave' := hsave
    rw [← SessionState.saveWith_of_encoded (encoder.encodes _ hplain)] at hsave'
    obtain ⟨t, hload, -, heq⟩ := (load_save_of_isBuilt hbuilt encoder _ _).2.1 w hsave'
    have hsame := heq.2 fun hard hhard hkind => by
      cases hhard
      cases hkind
    exact ⟨hsave', fun now => hsame ▸ hload now⟩
  · obtain ⟨note, p, hnote, hmerged, hp, hrefused⟩ := exists_halved
    have hbuilt := (load_save_of_isBuilt (.new "" "demo" "Add foo" "demo" none) halving
      (.ofParts ["home", "runs"]) (.untouched bareTree ⟨0⟩)).2.2.1 "" _ p hmerged hp
    have hsave := SessionState.saveWith_of_refused hrefused {} (.ofParts ["home", "runs"])
      (.untouched bareTree ⟨0⟩)
    refine ⟨note, p, hnote, hp, _, hbuilt, rfl, _, _, hsave, fun hfault => hfault.elim, ?_⟩
    rcases (load_save_of_isBuilt hbuilt halving _ _).1 _ _ hsave with ⟨hfault, -⟩ | ⟨hmem, hw, -⟩
    · exact hfault.elim
    · exact ⟨hmem, hw⟩

/-- A session that is stopped at once by a limit below all times is not loaded as it was : the limit
is lost, and the stop that is loaded cannot be put in words. A session with a plan whose text has no
bytes is not even saved. -/
theorem load_save_of_hurried : (∃ s : SessionState, s.IsBuilt ∧
    ∃ w t, s.save (.ofParts ["home", "runs"]) (.untouched bareTree ⟨0⟩) = (.ok (), w) ∧
      (∀ now, SessionState.load w.files now (.ofParts ["home", "runs"]) = .ok (some t)) ∧
      t ≠ s ∧ ∃ hard ∈ t.status.hardStop, hard.describe = .error .noTime) ∧
    ∃ note p, Json.parse "\"\\ud83d\"" = .ok note ∧ (noted note).merged = noted note ∧
      Plan.ofJson "" (noted note) = .ok p ∧
      ((SessionState.new "" "demo" "Add foo" "demo" none).setCurrentPlan p).saveWith halving {}
        (.ofParts ["home", "runs"]) (.untouched bareTree ⟨0⟩) =
          (.error (.value "surrogates not allowed"), .untouched bareTree ⟨0⟩) := by
  constructor
  · have hcheck : Guardrail.check { timeoutSeconds := -1.0 / 0.0 } ⟨0⟩
        (.new "" "demo" "Add foo" "demo" none) = some (.ofTimeout 0.0 (-1.0 / 0.0)) := rfl
    have hdescribe : (HardStop.ofTimeout 0.0 (-1.0 / 0.0)).describe =
        .ok "Execution timeout: 0s elapsed, limit -infs" := by decide +kernel
    have hbuilt := (SessionState.IsBuilt.new "" "demo" "Add foo" "demo" none).alter
      (.stopped hcheck hdescribe)
    have hwhole := hbuilt.isWhole
    have hinfinite : (-1.0 / 0.0 : Float).isFinite = false := by decide +kernel
    have hlost : (HardStop.settled (.ofTimeout 0.0 (-1.0 / 0.0))).limit = none := by
      rw [HardStop.settled, HardStop.ofTimeout]
      exact Option.filter_some_neg hinfinite
    obtain ⟨w, hsave⟩ := exists_save_bareTree ((SessionState.new "" "demo" "Add foo" "demo"
      none).stopped (.ofTimeout 0.0 (-1.0 / 0.0)) "Execution timeout: 0s elapsed, limit -infs")
    refine ⟨_, hbuilt, w, _, hsave, load_of_save hsave hwhole.scores.best.isFinite,
      fun heq => ?_, _, rfl, ?_⟩
    · have hlimit := (hwhole.settled_eq_iff.1 heq _ rfl rfl).limit _ rfl
      cases hinfinite.symm.trans hlimit
    · unfold HardStop.describe
      rw [hlost]
      cases (HardStop.settled (.ofTimeout 0.0 (-1.0 / 0.0))).elapsed <;> rfl
  · obtain ⟨note, p, hnote, hmerged, hp, hrefused⟩ := exists_halved
    exact ⟨note, p, hnote, hmerged, hp,
      SessionState.saveWith_of_refused hrefused {} _ (.untouched bareTree ⟨0⟩)⟩

end PlanReview
