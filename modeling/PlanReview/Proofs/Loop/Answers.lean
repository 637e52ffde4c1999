import PlanReview.Proofs.Loop.Calls
import PlanReview.Proofs.Loop.Records
import PlanReview.Proofs.Loop.Reviews
import PlanReview.Proofs.Session.Locking

/-!
# The answers of a human reach the planner

An answer becomes a line of feedback. The line waits in the state of the session until there is
another review (`SessionState.Carries`) : no move of a run takes it away before
(`Move.carries`), and no reload does (`Carries.settled`). While it waits, a run has something to
ask of the planner, so it does not review the old plan again (`Visit.plans_of_step`), and the first
review that comes is one of a plan that the planner has made with the line before it
(`Visit.keeps_or_delivers`).

A run may be cut off anywhere, which leaves the first of its changes (`Visit.CutsTo`). The states
that were saved until then begin the walk of the run, so the line survives that too, and any number
of later runs (`answer_of_lives`).
-/

namespace PlanReview

open RunM Workspace

variable {c : Controller} {good : Plan → Prop} {dir : Path} {s t : SessionState} {r : Run}
  {w w' : Workspace} {resume : Option Resume} {request : Request} {line : String} {n : Nat}

/-! ## Lines of feedback -/

namespace SessionState

/-- Since the session had `n` reviews, the line is waiting for the planner, or there was another
review. -/
inductive Carries (line : String) (n : Nat) (s : SessionState) : Prop where
  | waiting : s.reviews.length = n → line ∈ s.pendingFeedback → Carries line n s
  | reviewed {p : Plan} : n < s.reviews.length → s.currentPlan = some p.fields → Carries line n s

theorem Carries.le (h : s.Carries line n) : n ≤ s.reviews.length := by
  cases h with
  | waiting hn _ => exact hn.ge
  | reviewed hn _ => exact hn.le

theorem Carries.mem (h : s.Carries line n) (hn : s.reviews.length = n) :
    line ∈ s.pendingFeedback := by
  cases h with
  | waiting _ hline => exact hline
  | reviewed hlt _ => exact absurd hn hlt.ne'

theorem Carries.of_eq (h : s.Carries line n) (hreviews : t.reviews.length = s.reviews.length)
    (hfeedback : s.pendingFeedback ⊆ t.pendingFeedback) (hcurrent : t.currentPlan = s.currentPlan) :
    t.Carries line n := by
  cases h with
  | waiting hn hline => exact .waiting (hreviews.trans hn) (hfeedback hline)
  | reviewed hn hp => exact .reviewed (by rwa [hreviews]) (hcurrent.trans hp)

/-- The line waits in what a file holds of the state. -/
theorem Carries.settled (h : s.Carries line n) : s.settled.Carries line n := by
  have hlength : s.settled.reviews.length = s.reviews.length := List.length_map _
  cases h with
  | waiting hn hline => exact .waiting (hlength.trans hn) hline
  | @reviewed p hn hp =>
    refine .reviewed (p := p.mapParams Json.kept) (by rwa [hlength]) ?_
    change s.currentPlan.map Json.keptFields = _
    rw [hp, Option.map_some, Plan.keptFields_fields]

theorem Carries.answer (h : s.Carries line n) (response : String) (approved : Bool) :
    (s.answer response approved).Carries line n := by
  obtain ⟨hreviews, hfeedback, -⟩ := s.answer_records response approved
  refine h.of_eq (by rw [hreviews]) ?_ (answer_eq s response approved).1
  rw [hfeedback]
  exact List.subset_append_left _ _

/-- A move takes in no review, or one. -/
theorem Settles.takesIn (h : s.Settles c t) : (t.reviews = s.reviews ∧
    t.pendingFeedback = s.pendingFeedback ∧
    (t.currentPlan = s.currentPlan ∨ ∃ p : Plan, t.currentPlan = some p.fields)) ∨
      ∃ j, s.TakesIn c j t := by
  cases h with
  | unreviewed hreviews hfeedback _ hcurrent _ => exact .inl ⟨hreviews, hfeedback, hcurrent⟩
  | asked j _ htakes _ _ _ _ _ => exact .inr ⟨j, htakes⟩
  | gated j _ htakes _ _ _ _ _ _ _ => exact .inr ⟨j, htakes⟩
  | revised j htakes _ _ _ _ _ => exact .inr ⟨j, htakes⟩
  | approved j htakes _ _ _ _ _ _ => exact .inr ⟨j, htakes⟩

theorem Move.carries (h : s.Move c good t) (hs : s.Carries line n) : t.Carries line n := by
  rcases h.settles.2.takesIn with ⟨hreviews, hfeedback, hcurrent⟩ | ⟨j, htakes⟩
  · rcases hcurrent with hsame | ⟨p, hp⟩
    · exact hs.of_eq (by rw [hreviews]) (by rw [hfeedback]; exact List.Subset.refl _) hsame
    · cases hs with
      | waiting hn hline => exact .waiting (by rwa [hreviews]) (by rwa [hfeedback])
      | reviewed hn _ => exact .reviewed (by rwa [hreviews]) hp
  · refine .reviewed ?_ htakes.current
    rw [htakes.reviews, List.length_append, List.length_singleton]
    exact Nat.lt_succ_of_le hs.le

end SessionState

/-! ## Taking a session up -/

/-- A run begins its iterations with the line, and goes on from the feedback that it has. -/
structure Run.Bears (line : String) (n : Nat) (resume : Option Resume) (r : Run) : Prop where
  stands : r.Stands resume
  carries : r.state.Carries line n
  feedback : ∀ q ∈ resume, q.feedback = r.state.pendingFeedback

theorem bears_of_resumeFrom {now now' : String} (hnoted : r.lastReview = none)
    (hstate : r.state = request.start now' t)
    (hresume : t.resumeFrom now t.pendingFeedback = .ok resume) (ht : t.Carries line n) :
    r.Bears line n resume := by
  obtain ⟨hiteration, hcurrent, hrunning⟩ := start_eq request now' t
  obtain ⟨hreviews, hfeedback, -⟩ := request.start_records now' t
  rw [← hstate] at hiteration hcurrent hrunning hfeedback hreviews
  have hq : ∀ q ∈ resume, q.feedback = t.pendingFeedback ∧ q.startIteration = t.iteration + 1 ∧
      t.plan now = .ok (some q.plan) := by
    intro q hq
    unfold SessionState.resumeFrom at hresume
    cases hplan : t.plan now with
    | error e =>
      rw [hplan] at hresume
      cases hresume
    | ok p =>
      rw [hplan] at hresume
      cases hresume
      obtain ⟨p, rfl, rfl⟩ := Option.map_eq_some_iff.1 hq
      exact ⟨rfl, rfl, rfl⟩
  refine ⟨⟨fun review hreview => ?_, hrunning, fun q hmem => .inr ?_⟩, ?_, fun q hmem => ?_⟩
  · rw [hnoted] at hreview
    cases hreview
  · obtain ⟨hsame, hstart, hplan⟩ := hq q hmem
    refine ⟨by rw [hstart, hiteration], fun hempty => ?_⟩
    -- with nothing to ask, the line does not wait any more, so there was a review
    cases ht with
    | waiting _ hline =>
      rw [← hsame, hempty] at hline
      cases hline
    | @reviewed p _ hp =>
      unfold SessionState.plan at hplan
      rw [hp, SessionState.readPlan_fields] at hplan
      rw [hcurrent, hp, ← Option.some_inj.1 (Except.ok.inj hplan), Plan.fields_mapParams_finite]
  · exact ht.of_eq (by rw [hreviews]) (by rw [hfeedback]; exact List.Subset.refl _) hcurrent
  · rw [(hq q hmem).1, hfeedback]

/-! ## In a run -/

/-- Where a property comes up on a walk, a step has brought it. -/
theorem Walks.exists_step {step : SessionState → SessionState → Prop} {P : SessionState → Prop}
    {way : List SessionState} {u : SessionState} (h : Walks step s way u) (hs : ¬ P s)
    (ht : t ∈ way) (hP : P t) :
    ∃ before a b after, s :: way = before ++ a :: b :: after ∧ ¬ P a ∧ P b ∧ step a b := by
  induction h with
  | nil => cases ht
  | @cons s v u way hstep hwalks ih =>
    by_cases hv : P v
    · exact ⟨[], s, v, way, rfl, hs, hv, hstep⟩
    · rcases List.mem_cons.1 ht with rfl | ht
      · exact absurd hP hv
      · obtain ⟨before, a, b, after, heq, hrest⟩ := ih hv ht
        exact ⟨s :: before, a, b, after, by rw [heq]; rfl, hrest⟩

variable {v : Visit}

/-- What a run begins its iterations with. -/
theorem Visit.exists_takeUp (hentered : v.entered? w = some (r, resume)) : ∃ w₁ stored t,
    Lock.acquire v.controller.registry v.controller.dir
      { w with now := v.now, locks := v.locks } = (.ok (), w₁) ∧
    SessionState.load w₁.files w₁.now.text v.controller.dir = .ok stored ∧
    v.request.takeUp v.controller w₁.now.text
      (v.request.session v.controller.artifacts.slug w₁.now.text stored) = .ok (t, resume) ∧
    r.state = v.request.start w₁.now.text t ∧ r.lastReview = none := by
  obtain ⟨⟨w₁, hacquire, henter⟩, hr, -⟩ := exists_of_entered hentered
  obtain ⟨-, stored, t, hload, -, htake, hstate⟩ :=
    (enter_saves v.controller v.request w₁).of_ok henter
  exact ⟨w₁, stored, t, hacquire, hload, htake, hstate, by rw [hr]⟩

/-- While the line waits, the planner is told it in every call. -/
theorem Visit.told (hentered : v.entered? w = some (r, resume)) (h : r.Bears line n resume)
    {r₁ : Run} {ctx : PlanningContext} (hplans : v.Plans w r₁ ctx)
    (hn : r₁.state.reviews.length = n) : line ∈ ctx.pendingFeedback := by
  obtain ⟨htold, starts, way, hpasses⟩ := hplans.exists_way hentered h.stands
  have hcarries : r₁.state.Carries line n :=
    (hpasses.walks.forall_mem h.carries fun _ _ hs hstep => hstep.move.carries hs).2
  rw [htold]
  exact hcarries.mem hn

/-- A run that begins with the line does not review its old plan again : another review is one of a
plan that the planner was asked for. -/
theorem Visit.plans_of_step {starts : List Run} (hentered : v.entered? w = some (r, resume))
    (h : r.Bears line n resume) (hn : r.state.reviews.length = n)
    (hloop : Looping v.controller resume starts r
      (rounds v.controller resume (v.controller.iterationsLeft r.state) r))
    (hstep : v.controller.Steps good resume starts s t) (hne : t.reviews ≠ s.reviews) :
    ∃ r₁ ctx, r₁.state = s ∧ v.Plans w r₁ ctx := by
  obtain ⟨r₁, hr₁, rfl, hreviews⟩ := hstep.reviews.resolve_left hne
  have hnew : ∀ q ∈ resume, q.standsFor (r₁.state.iteration + 1) = false := by
    intro q hq
    have hfeedback : q.feedback.isEmpty = false := by
      rw [List.isEmpty_eq_false_iff, h.feedback q hq]
      exact List.ne_nil_of_mem (h.carries.mem hn)
    rw [Resume.standsFor, hfeedback, Bool.and_false]
  obtain ⟨ctx, hplans⟩ := hreviews.plans hnew
  exact ⟨r₁, ctx, rfl, r, resume, starts, hentered, hloop, hr₁, hplans⟩

/-- The visit is cut off, or goes on to its end : it has made the first of its changes. -/
def Visit.CutsTo (v : Visit) (w w' : Workspace) : Prop :=
  ∃ cs ds, (v.report w).workspace.journal = (cs ++ ds).reverse ++ w.journal ∧
    w'.journal = cs.reverse ++ w.journal ∧ w'.files = w.files.applyAll cs

/-- A visit can be cut off once it has saved its first state. -/
theorem Visit.cutsTo_of_entered (hentered : v.entered? w = some (r, resume))
    (hstands : r.Stands resume) : v.CutsTo w r.workspace := by
  obtain ⟨starts, way, s, -, hpasses⟩ := exists_way hentered hstands
  obtain ⟨cs, hjournal, hfiles, -⟩ := (saves_of_entered hentered).stores.changes
  obtain ⟨ds, hjournal', -⟩ := hpasses.saves.stores.changes
  refine ⟨cs, ds, ?_, hjournal, hfiles⟩
  rw [hjournal', hjournal, List.reverse_append, List.append_assoc]

/-- Whoever is cut off has saved the first of the states. -/
theorem Visit.saves_of_cutsTo (hcut : v.CutsTo w w') {saves : List SessionState}
    (h : w.Saves dir (v.report w).workspace saves) :
    ∃ before, before <+: saves ∧ w.Saves dir w' before := by
  obtain ⟨cs, ds, hjournal, hjournal', hfiles'⟩ := hcut
  obtain ⟨es, hchanges, -, hversions, honly⟩ := h.stores.changes
  obtain rfl : es = cs ++ ds := by
    rw [hchanges] at hjournal
    exact List.reverse_injective (List.append_cancel_right hjournal)
  rw [FileTree.versions_append, List.map_map] at hversions
  obtain ⟨before, after, rfl, hbefore, -⟩ := List.map_eq_append_iff.1 hversions.symm
  refine ⟨before, List.prefix_append before after, ⟨cs, hjournal', hfiles', ?_, ?_⟩⟩
  · rw [List.map_map, hbefore]
  · exact ((FileTree.onlyBrings_append_iff ..).1 honly).1

/-- Until it has come to `w'`, the visit has told the planner the line, and has saved a review of
the plan that was made then. -/
def Visit.Delivers (v : Visit) (w w' : Workspace) (line : String) (n : Nat) : Prop :=
  ∃ r ctx before t after, v.Plans w r ctx ∧ line ∈ ctx.pendingFeedback ∧
    w.Saves v.controller.dir w' (before ++ r.state :: t :: after) ∧
    r.state.reviews.length = n ∧ n < t.reviews.length

/-- All that a visit saves keeps the line until it is delivered. -/
theorem Visit.keeps_or_delivers (hentered : v.entered? w = some (r, resume))
    (h : r.Bears line n resume) (hcut : v.CutsTo w w') :
    ∃ saves, w.Saves v.controller.dir w' saves ∧ (∀ t ∈ saves, t.Carries line n) ∧
      (r.state.reviews.length = n → ∀ t ∈ saves, n < t.reviews.length →
        v.Delivers w w' line n) := by
  obtain ⟨starts, way, s, hloop, hpasses⟩ := exists_way hentered h.stands
  obtain ⟨saves, hbefore, hsaves⟩ :=
    saves_of_cutsTo hcut ((saves_of_entered hentered).trans hpasses.saves)
  refine ⟨saves, hsaves, ?_⟩
  cases saves with
  | nil => exact ⟨List.forall_mem_nil _, fun _ t ht => absurd ht List.not_mem_nil⟩
  | cons t saves =>
    obtain ⟨after, hway⟩ := hbefore
    obtain ⟨rfl, rfl⟩ := List.cons.inj hway
    obtain ⟨u, hwalks, -⟩ := hpasses.walks.of_append
    obtain ⟨hcarries, -⟩ := hwalks.forall_mem h.carries fun _ _ hs hstep => hstep.move.carries hs
    refine ⟨List.forall_mem_cons.2 ⟨h.carries, hcarries⟩, fun hn t ht hlt => ?_⟩
    have hmem : t ∈ saves := by
      rcases List.mem_cons.1 ht with rfl | ht
      · exact absurd hn hlt.ne'
      · exact ht
    -- the first state with another review comes of an iteration that has come to the review
    obtain ⟨before, a, b, rest, heq, ha, hb, hstep⟩ :=
      hwalks.exists_step (P := fun s => n < s.reviews.length) (not_lt.2 hn.le) hmem hlt
    have hcarries' : a.Carries line n := by
      have hmem : a ∈ r.state :: saves := by
        rw [heq]
        exact List.mem_append_right before List.mem_cons_self
      rcases List.mem_cons.1 hmem with rfl | hmem
      · exact h.carries
      · exact hcarries a hmem
    have hlength : a.reviews.length = n := le_antisymm (not_lt.1 ha) hcarries'.le
    have hne : b.reviews ≠ a.reviews := by
      intro hsame
      rw [hsame, hlength] at hb
      exact lt_irrefl n hb
    obtain ⟨r₁, ctx, rfl, hplans⟩ := plans_of_step hentered h hn hloop hstep hne
    exact ⟨r₁, ctx, before, b, rest, hplans, told hentered h hplans hlength, heq ▸ hsaves,
      hlength, hb⟩

/-! ## From run to run -/

/-- The file of the state holds the text of this one. -/
def Workspace.HasStored (w : Workspace) (dir : Path) (t : SessionState) : Prop :=
  w.files.node? (stateKey dir w.files.cwd) = some (.file (.text t.storedText))

theorem Workspace.Saves.keeps_stored (h : w.Saves dir w' []) (ht : w.HasStored dir t) :
    w'.HasStored dir t := by
  unfold HasStored
  rwa [h.cwd_eq, h.stores.node]

theorem Workspace.Saves.eq_nil {saves : List SessionState} (h : w.Saves dir w' [])
    (h' : w.Saves dir w' saves) : saves = [] := by
  obtain ⟨cs, hjournal, -, hversions, -⟩ := h.stores.changes
  obtain ⟨ds, hjournal', -, hversions', -⟩ := h'.stores.changes
  obtain rfl : cs = ds :=
    List.reverse_injective (List.append_cancel_right (hjournal.symm.trans hjournal'))
  rw [hversions, List.map_nil, List.map_nil] at hversions'
  exact List.map_eq_nil_iff.1 (List.map_eq_nil_iff.1 hversions'.symm)

theorem Workspace.Saves.exists_stored {saves : List SessionState} (h : w.Saves dir w' saves)
    (hne : saves ≠ []) : ∃ t ∈ saves, w'.HasStored dir t := by
  refine ⟨saves.getLast hne, List.getLast_mem hne, ?_⟩
  unfold HasStored
  rw [h.cwd_eq, h.stores.node, List.getLast?_map, List.getLast?_eq_some_getLast hne]
  rfl

theorem Workspace.HasStored.hasState (h : w.HasStored dir s) : w.HasState dir := by
  unfold HasState
  rw [h]
  exact Option.some_ne_none _

theorem Workspace.Saves.hasStored (h : w.Saves dir w' [s]) : w'.HasStored dir s := by
  obtain ⟨t, ht, hstored⟩ := h.exists_stored (List.cons_ne_nil s [])
  rwa [List.mem_singleton.1 ht] at hstored

/-- A run that goes on from a stored state with the line has as many reviews as the state. -/
theorem Visit.bears_of_hasStored (hentered : v.entered? w = some (r, resume))
    (hnone : v.request.resume = none) (hstored : w.HasStored v.controller.dir t)
    (ht : t.Carries line n) :
    r.Bears line n resume ∧ r.state.reviews.length = t.reviews.length := by
  obtain ⟨w₁, stored, u, hacquire, hload, htake, hstate, hnoted⟩ := exists_takeUp hentered
  have hlocked := saves_locked hacquire
  obtain ⟨-, rfl⟩ := SessionState.eq_settled_of_load (hlocked.keeps_stored hstored) hload
  obtain ⟨workingDir, hsession⟩ :=
    session_eq v.request v.controller.artifacts.slug w₁.now.text t.settled
  rw [hsession] at htake
  obtain ⟨htaken, hresume⟩ := takeUp_of_none hnone htake
  have hsettled : ({ t.settled with workingDir := workingDir } : SessionState).Carries line n :=
    ht.settled.of_eq rfl (List.Subset.refl _) rfl
  have hu : u.Carries line n ∧ u.reviews = t.settled.reviews := by
    cases hresponse : v.request.humanResponse with
    | none =>
      rw [hresponse] at htaken
      obtain ⟨-, rfl⟩ := htaken
      exact ⟨hsettled, rfl⟩
    | some response =>
      rw [hresponse] at htaken
      subst htaken
      exact ⟨hsettled.answer response _, (SessionState.answer_records _ response _).1⟩
  refine ⟨bears_of_resumeFrom hnoted hstate hresume hu.1, ?_⟩
  rw [hstate, (v.request.start_records _ u).1, hu.2]
  exact List.length_map _

/-- A visit to a session, from one workspace to another one. -/
structure Stretch where
  visit : Visit
  before : Workspace
  after : Workspace

/-- The life of a session in a directory : runs on it, none of which sets it to a plan from outside,
each of them made to its end or cut off. -/
inductive Lives (dir : Path) (w : Workspace) : List Stretch → Workspace → Prop where
  | nil : Lives dir w [] w
  | snoc {past : List Stretch} {w₁ w₂ : Workspace} {v : Visit} : Lives dir w past w₁ →
      v.controller.dir = dir → v.request.resume = none → v.CutsTo w₁ w₂ →
      Lives dir w (past ++ [⟨v, w₁, w₂⟩]) w₂

/-- The line waits in the stored state, or there was another review, and then a visit has delivered
the line before. -/
def Kept (dir : Path) (line : String) (n : Nat) (past : List Stretch) (w : Workspace) : Prop :=
  ∃ t, w.HasStored dir t ∧ t.Carries line n ∧
    (n < t.reviews.length → ∃ e ∈ past, e.visit.Delivers e.before e.after line n)

/-- Every visit keeps the line or delivers it. -/
theorem Kept.snoc {past : List Stretch} (h : Kept dir line n past w) (hdir : v.controller.dir = dir)
    (hnone : v.request.resume = none) (hcut : v.CutsTo w w') :
    Kept dir line n (past ++ [⟨v, w, w'⟩]) w' := by
  subst hdir
  obtain ⟨t, hstored, ht, hdelivered⟩ := h
  have hpast (hlt : n < t.reviews.length) : ∃ e ∈ past ++ [⟨v, w, w'⟩],
      e.visit.Delivers e.before e.after line n := by
    obtain ⟨e, he, hdelivers⟩ := hdelivered hlt
    exact ⟨e, List.mem_append_left _ he, hdelivers⟩
  have hspared (hspares : w.Saves v.controller.dir w' []) :
      Kept v.controller.dir line n (past ++ [⟨v, w, w'⟩]) w' :=
    ⟨t, hspares.keeps_stored hstored, ht, hpast⟩
  cases hentered : v.entered? w with
  | none =>
    obtain ⟨saves, hbefore, hsaves⟩ := Visit.saves_of_cutsTo hcut (Visit.saves_nothing hentered).1
    obtain rfl := List.prefix_nil.1 hbefore
    exact hspared hsaves
  | some entry =>
    obtain ⟨r, resume⟩ := entry
    obtain ⟨hbears, hlength⟩ := Visit.bears_of_hasStored hentered hnone hstored ht
    obtain ⟨saves, hsaves, hcarries, hdelivers⟩ := Visit.keeps_or_delivers hentered hbears hcut
    rcases eq_or_ne saves [] with rfl | hne
    · exact hspared hsaves
    · obtain ⟨u, hu, hstored'⟩ := hsaves.exists_stored hne
      refine ⟨u, hstored', hcarries u hu, fun hlt => ?_⟩
      rcases ht.le.eq_or_lt with heq | hlt'
      · exact ⟨_, List.mem_append_right _ (List.mem_singleton_self _),
          hdelivers (hlength.trans heq.symm) u hu hlt⟩
      · exact hpast hlt'

/-- So does the life of a session from then on, and while the line waits, the planner is told it in
every call. -/
theorem Lives.kept {past later : List Stretch} (h : Lives dir w later w')
    (hkept : Kept dir line n past w) : Kept dir line n (past ++ later) w' ∧
      ∀ e ∈ later, ∀ r ctx, e.visit.Plans e.before r ctx → r.state.reviews.length = n →
        line ∈ ctx.pendingFeedback := by
  induction h with
  | nil => exact ⟨by rwa [List.append_nil], List.forall_mem_nil _⟩
  | snoc hlives hdir hnone hcut ih =>
    obtain ⟨hkept₁, htold⟩ := ih
    refine ⟨List.append_assoc past _ _ ▸ hkept₁.snoc hdir hnone hcut,
      fun e he r ctx hplans hn => ?_⟩
    rcases List.mem_append.1 he with he | he
    · exact htold e he r ctx hplans hn
    · cases List.mem_singleton.1 he
      subst hdir
      obtain ⟨t, hstored, ht, -⟩ := hkept₁
      obtain ⟨_, _, _, hentered, -⟩ := id hplans
      exact Visit.told hentered (Visit.bears_of_hasStored hentered hnone hstored ht).1 hplans hn

/-! ## An answer -/

section

variable {s₀ : SessionState} {response : String}
  (hload : SessionState.load w.files v.now.text v.controller.dir = .ok (some s₀))

include hload

/-- Whoever has got the lock finds the stored session. -/
theorem Visit.load_of_acquire {w₁ : Workspace}
    (hacquire : Lock.acquire v.controller.registry v.controller.dir
      { w with now := v.now, locks := v.locks } = (.ok (), w₁)) :
    SessionState.load w₁.files w₁.now.text v.controller.dir = .ok (some s₀) := by
  have hloads : Ends (Lock.acquire v.controller.registry v.controller.dir)
      { w with now := v.now, locks := v.locks }
      (fun _ w' => SessionState.load w'.files v.now.text v.controller.dir = .ok (some s₀))
      fun _ _ => True := Lock.acquire_loads hload
  obtain ⟨hload₁, hnow⟩ := (hloads.and (Lock.acquire_now _ _ _)).of_ok hacquire
  rw [hnow]
  exact hload₁

/-- A run that is given an answer goes on with the session, or fails. -/
theorem Visit.fails_of_not_entered (hcan : s₀.canResume = true)
    (hresponse : v.request.humanResponse = some response) (hentered : v.entered? w = none) :
    ∃ f, (v.report w).result = .error f := by
  have hruns := run_runs v.controller v.request { w with now := v.now, locks := v.locks }
  unfold Visit.report
  generalize v.controller.run _ _ = report at hruns ⊢
  cases hruns with
  | barred _ => exact ⟨_, rfl⟩
  | refused _ _ => exact ⟨_, rfl⟩
  | idle hacquire henter =>
    obtain ⟨-, stored, hstored, hidle, -⟩ := (enter_saves v.controller v.request _).of_ok henter
    cases (load_of_acquire hload hacquire).symm.trans hstored
    obtain ⟨workingDir, hsession⟩ :=
      session_eq v.request v.controller.artifacts.slug _ s₀
    rw [hsession] at hidle
    have hbusy : v.request.isIdle { s₀ with workingDir := workingDir } = false := by
      have hcan' : ({ s₀ with workingDir := workingDir } : SessionState).canResume = true := hcan
      simp [Request.isIdle, hcan', hresponse]
    cases hbusy.symm.trans hidle
  | driven hacquire henter _ => cases (entered_of_enter hacquire henter).symm.trans hentered

/-- It begins its iterations with the line of the answer, and with the answer in the archive. -/
theorem Visit.bears_of_load (hresponse : v.request.humanResponse = some response)
    (hnone : v.request.resume = none) (hentered : v.entered? w = some (r, resume)) :
    r.Bears (userFeedback response) s₀.reviews.length resume ∧
      r.state.reviews.length = s₀.reviews.length ∧
      r.state.humanInputs = s₀.humanInputs ++ (s₀.pendingHumanInput.map fun h =>
        SessionState.answered h response v.request.approved).toList := by
  obtain ⟨w₁, stored, u, hacquire, hstored, htake, hstate, hnoted⟩ := exists_takeUp hentered
  cases (load_of_acquire hload hacquire).symm.trans hstored
  obtain ⟨workingDir, hsession⟩ := session_eq v.request v.controller.artifacts.slug w₁.now.text s₀
  rw [hsession] at htake
  obtain ⟨htaken, hresume⟩ := takeUp_of_none hnone htake
  rw [hresponse] at htaken
  subst htaken
  obtain ⟨hreviews, hfeedback, hinputs⟩ := SessionState.answer_records
    ({ s₀ with workingDir := workingDir } : SessionState) response v.request.approved
  obtain ⟨hreviews', -, hinputs'⟩ := v.request.start_records w₁.now.text
    (({ s₀ with workingDir := workingDir } : SessionState).answer response v.request.approved)
  refine ⟨bears_of_resumeFrom hnoted hstate hresume (.waiting (by rw [hreviews]) ?_), ?_, ?_⟩
  · rw [hfeedback]
    exact List.mem_append_right _ (List.mem_singleton_self _)
  · rw [hstate, hreviews', hreviews]
  · rw [hstate, hinputs', hinputs]

/-- An answer is archived once with its question in all that the run saves, and if nothing is saved,
the run fails. -/
theorem Visit.archives (hcan : s₀.canResume = true)
    (hresponse : v.request.humanResponse = some response) (hnone : v.request.resume = none) :
    ∃ saves, w.Saves v.controller.dir (v.report w).workspace saves ∧
      (∀ t ∈ saves, t.humanInputs = s₀.humanInputs ++ (s₀.pendingHumanInput.map fun h =>
        SessionState.answered h response v.request.approved).toList) ∧
      (saves = [] → ∃ f, (v.report w).result = .error f) := by
  cases hentered : v.entered? w with
  | none => exact ⟨[], (saves_nothing hentered).1, List.forall_mem_nil _,
      fun _ => fails_of_not_entered hload hcan hresponse hentered⟩
  | some entry =>
    obtain ⟨r, resume⟩ := entry
    obtain ⟨hbears, -, hinputs⟩ := bears_of_load hload hresponse hnone hentered
    obtain ⟨starts, way, s, -, hpasses⟩ := exists_way hentered hbears.stands
    obtain ⟨hway, -⟩ := hpasses.walks.forall_mem hinputs
      fun _ _ hs hstep => hstep.move.settles.1.trans hs
    exact ⟨r.state :: way, (saves_of_entered hentered).trans hpasses.saves,
      List.forall_mem_cons.2 ⟨hinputs, hway⟩, fun h => absurd h (List.cons_ne_nil _ _)⟩

/-- Once its first state is saved, the line of the answer is kept, and the planner is told it in
every call before another review. -/
theorem Visit.kept_of_load (hresponse : v.request.humanResponse = some response)
    (hnone : v.request.resume = none) (hcut : v.CutsTo w w') {saves : List SessionState}
    (hsaves : w.Saves v.controller.dir w' saves) (hne : saves ≠ []) :
    Kept v.controller.dir (userFeedback response) s₀.reviews.length [⟨v, w, w'⟩] w' ∧
      ∀ r ctx, v.Plans w r ctx → r.state.reviews.length = s₀.reviews.length →
        userFeedback response ∈ ctx.pendingFeedback := by
  cases hentered : v.entered? w with
  | none =>
    obtain ⟨saves', hbefore, hsaves'⟩ := saves_of_cutsTo hcut (saves_nothing hentered).1
    rw [List.prefix_nil.1 hbefore] at hsaves'
    exact absurd (hsaves'.eq_nil hsaves) hne
  | some entry =>
    obtain ⟨r, resume⟩ := entry
    obtain ⟨hbears, hlength, -⟩ := bears_of_load hload hresponse hnone hentered
    obtain ⟨saves', hsaves', hcarries, hdelivers⟩ := keeps_or_delivers hentered hbears hcut
    refine ⟨?_, fun r₁ ctx hplans hn => told hentered hbears hplans hn⟩
    have hne' : saves' ≠ [] := by
      rintro rfl
      exact hne (hsaves'.eq_nil hsaves)
    obtain ⟨t, ht, hstored⟩ := hsaves'.exists_stored hne'
    exact ⟨t, hstored, hcarries t ht,
      fun hlt => ⟨_, List.mem_singleton_self _, hdelivers hlength t ht hlt⟩⟩

end

/-- An answer to a session that was not stopped for good is never lost. All that the run saves has
the answer in the archive, once and with its question. Once the run has saved its first state, it
may be cut off, and whatever runs follow, the line of the answer waits in the stored state, and the
planner is told it in every call, until there is another review; and a visit has told the planner
the line before it has saved that review. -/
theorem answer_of_lives {s₀ : SessionState} {response : String}
    (hload : SessionState.load w.files v.now.text v.controller.dir = .ok (some s₀))
    (hcan : s₀.canResume = true) (hresponse : v.request.humanResponse = some response)
    (hnone : v.request.resume = none) :
    (∃ saves, w.Saves v.controller.dir (v.report w).workspace saves ∧
      (∀ t ∈ saves, t.humanInputs = s₀.humanInputs ++ (s₀.pendingHumanInput.map fun h =>
        SessionState.answered h response v.request.approved).toList) ∧
      (saves = [] → ∃ f, (v.report w).result = .error f)) ∧
    ∀ w₁ saves, v.CutsTo w w₁ → w.Saves v.controller.dir w₁ saves → saves ≠ [] →
      ∀ later w₂, Lives v.controller.dir w₁ later w₂ →
        (∀ e ∈ ⟨v, w, w₁⟩ :: later, ∀ r ctx, e.visit.Plans e.before r ctx →
          r.state.reviews.length = s₀.reviews.length →
            userFeedback response ∈ ctx.pendingFeedback) ∧
        ∃ t, w₂.HasStored v.controller.dir t ∧
          (t.reviews.length = s₀.reviews.length ∧ userFeedback response ∈ t.pendingFeedback ∨
            s₀.reviews.length < t.reviews.length ∧ ∃ e ∈ ⟨v, w, w₁⟩ :: later,
              e.visit.Delivers e.before e.after (userFeedback response) s₀.reviews.length) := by
  refine ⟨Visit.archives hload hcan hresponse hnone,
    fun w₁ saves hcut hsaves hne later w₂ hlives => ?_⟩
  obtain ⟨hkept, htold⟩ := Visit.kept_of_load hload hresponse hnone hcut hsaves hne
  obtain ⟨⟨t, hstored, ht, hdelivered⟩, htold'⟩ := hlives.kept hkept
  refine ⟨List.forall_mem_cons.2 ⟨htold, htold'⟩, t, hstored, ?_⟩
  rcases ht.le.eq_or_lt with heq | hlt
  · exact .inl ⟨heq.symm, ht.mem heq.symm⟩
  · exact .inr ⟨hlt, hdelivered hlt⟩

/-! ## A session that waits for an answer -/

/-- A session that has asked which format is wanted. -/
def asked : SessionState where
  sessionId := "demo"
  task := "demo"
  taskSlug := "demo"
  startTime := ""
  status := { kind := .paused, reason := some "Which format?" }
  pendingHumanInput := some { question := "Which format?", timestamp := "" }

/-- A tree with the state of the session, and with its lock file. -/
def askedTree : FileTree :=
  { bareTree with entries := [
    (["home"], ⟨.directory, 0⟩),
    (["home", "runs"], ⟨.directory, 0⟩),
    (["home", "runs", Lock.fileName], ⟨.file (.text ""), 0⟩),
    (["home", "runs", SessionState.fileName], ⟨.file (.text asked.storedText), 0⟩)] }

/-- A visit like `approving`, with the answer. -/
def answering : Visit :=
  { approving with request := { task := "demo", humanResponse := some "Markdown" } }

theorem load_asked (now : String) : SessionState.load askedTree now answering.controller.dir =
    .ok (some asked.settled) := by
  refine SessionState.load_stored ⟨rfl, fun a ha hne => ?_⟩ (by decide +kernel) now
  have hmem : a ∈ ["home", "runs", SessionState.fileName].inits := (List.mem_inits ..).2 ha
  have hcases : a = [] ∨ a = ["home"] ∨ a = ["home", "runs"] ∨
      a = ["home", "runs", SessionState.fileName] := by simpa using hmem
  rcases hcases with rfl | rfl | rfl | rfl
  · rfl
  · rfl
  · rfl
  · exact absurd rfl hne

theorem enter_answering (hfiles : w.files = askedTree) :
    Ends (enter answering.controller answering.request) w
      (fun entry _ => ∃ s resume, entry = .running s resume) fun _ _ => False := by
  rw [ends_enter, hfiles, load_asked]
  dsimp only
  rw [if_neg (by exact Bool.false_ne_true)]
  refine (SessionState.save_unobstructed _ ?_ ?_ ?_).mono (fun _ _ _ => ⟨_, _, rfl⟩)
    fun _ _ => id
  · rw [hfiles]
    rfl
  · rw [hfiles]
    rfl
  · rw [hfiles]
    rfl

/-- The answer is taken up, and the first state is saved. -/
theorem entered_answering : ∃ r resume,
    answering.entered? (.untouched askedTree ⟨0⟩) = some (r, resume) := by
  have hready : Lock.IsReady answering.controller.dir ["home"]
      { untouched askedTree ⟨0⟩ with now := answering.now, locks := answering.locks } :=
    ⟨rfl, rfl, _, rfl⟩
  obtain ⟨w, hacquire, hfiles⟩ : ∃ w, Lock.acquire answering.controller.registry
      answering.controller.dir
      { untouched askedTree ⟨0⟩ with now := answering.now, locks := answering.locks } =
        (.ok (), w) ∧ w.files = askedTree := ⟨_, Lock.acquire_eq hready rfl rfl, rfl⟩
  have henters := enter_answering hfiles
  rcases henter : enter answering.controller answering.request w with ⟨_ | entry, w'⟩
  · exact (henters.of_error henter).elim
  · obtain ⟨s, resume, rfl⟩ := henters.of_ok henter
    exact ⟨_, _, Visit.entered_of_enter hacquire henter⟩

/-- The answer is in what is stored when the visit is cut off then, and whatever happens later, it
is delivered. -/
theorem answer_of_asked :
    SessionState.load (untouched askedTree ⟨0⟩).files answering.now.text answering.controller.dir =
      .ok (some asked.settled) ∧
    asked.settled.canResume = true ∧ answering.request.humanResponse = some "Markdown" ∧
    answering.request.resume = none ∧
    (∃ saves, (untouched askedTree ⟨0⟩).Saves answering.controller.dir
        (answering.report (untouched askedTree ⟨0⟩)).workspace saves ∧
      ∀ t ∈ saves, t.humanInputs = [SessionState.answered
        { question := "Which format?", timestamp := "" } "Markdown" true]) ∧
    ∃ w₁ saves, answering.CutsTo (untouched askedTree ⟨0⟩) w₁ ∧
      (untouched askedTree ⟨0⟩).Saves answering.controller.dir w₁ saves ∧ saves ≠ [] ∧
      ∀ later w₂, Lives answering.controller.dir w₁ later w₂ →
        ∃ t, w₂.HasStored answering.controller.dir t ∧
          (t.reviews.length = 0 ∧ "[USER FEEDBACK] Markdown" ∈ t.pendingFeedback ∨
            0 < t.reviews.length ∧
              ∃ e ∈ (⟨answering, untouched askedTree ⟨0⟩, w₁⟩ : Stretch) :: later,
                e.visit.Delivers e.before e.after "[USER FEEDBACK] Markdown" 0) := by
  obtain ⟨r, resume, hentered⟩ := entered_answering
  have hload := load_asked answering.now.text
  obtain ⟨⟨saves, hsaves, hinputs, -⟩, hlives⟩ :=
    answer_of_lives (w := untouched askedTree ⟨0⟩) hload rfl rfl rfl
  obtain ⟨hbears, -⟩ :=
    Visit.bears_of_load (w := untouched askedTree ⟨0⟩) hload rfl rfl hentered
  refine ⟨hload, rfl, rfl, rfl, ⟨saves, hsaves, hinputs⟩, r.workspace, [r.state],
    Visit.cutsTo_of_entered hentered hbears.stands, Visit.saves_of_entered hentered,
    List.cons_ne_nil _ _, fun later w₂ h => ?_⟩
  exact (hlives _ _ (Visit.cutsTo_of_entered hentered hbears.stands)
    (Visit.saves_of_entered hentered) (List.cons_ne_nil _ _) later w₂ h).2

end PlanReview
