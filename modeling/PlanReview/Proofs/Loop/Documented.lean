import PlanReview.Proofs.Loop.Unwritten
import PlanReview.Proofs.Workspace.Throughout

/-!
# Documents before the state

A line of the history that stands for a review speaks of two documents, the plan and the review of
its iteration. They are written before the state that has the line, and no later iteration has the
same number, so they are never overwritten. A session may be cut off between any two changes of its
files : what is stored then is documented (`documented_of_reached`).

An iteration goes two stretches of way (`Workspace.Proceeds`). Until its review is written, the
documents of earlier iterations and the stored state are left alone; then its state is saved, and
from then on its own documents are left alone too. On each stretch the files are in order at every
moment (`Proceeds.throughout`).
-/

namespace PlanReview

open RunM Workspace
open Artifacts (jsonText planName reviewName)

variable {c : Controller} {dir : Path} {n m : Int} {s u : SessionState} {r r' : Run}
  {t t' : FileTree} {w w' w'' : Workspace} {resume : Option Resume}

/-! ## Documents -/

/-- The plan and the review that a line of the history stands for are in the files of its
iteration. -/
structure IterationRecord.IsDocumented (dir : Path) (t : FileTree) (line : IterationRecord)
    (review : Json.Fields) : Prop where
  plan : ∃ p : Plan, t.node? (dir.resolve t.cwd ++ [planName line.iteration]) =
    some (.file (.text (jsonText p.toJson)))
  review : t.node? (dir.resolve t.cwd ++ [reviewName line.iteration]) =
    some (.file (.text (jsonText (.obj review))))

/-- Each line of the history that does not stand for a failed phase has its documents, and the one
with the review holds the stored review that belongs to the line. -/
def SessionState.IsDocumented (dir : Path) (t : FileTree) (s : SessionState) : Prop :=
  List.Forall₂ (IterationRecord.IsDocumented dir t)
    (s.iterationHistory.filter fun line => !line.isPhaseError) s.reviews

/-- A documented state whose lines are those of its iterations so far, and whose reviews a file can
hold. -/
structure SessionState.IsFiled (dir : Path) (t : FileTree) (s : SessionState) : Prop where
  documented : s.IsDocumented dir t
  numbered : ∀ line ∈ s.iterationHistory, line.iteration ≤ s.iteration
  kept : ∀ review ∈ s.reviews, Json.keptFields review = review

/-- The state that is stored, if there is one, is documented, and its iterations have numbers below
`n`. -/
def FileTree.IsFiled (dir : Path) (n : Int) (t : FileTree) : Prop :=
  t.node? (stateKey dir t.cwd) = none ∨
    ∃ s : SessionState, t.node? (stateKey dir t.cwd) = some (.file (.text s.storedText)) ∧
      s.IsFiled dir t ∧ s.iteration < n

/-- The state that is stored, if there is one, is documented. -/
def FileTree.IsInOrder (dir : Path) (t : FileTree) : Prop :=
  ∃ n, t.IsFiled dir n

theorem FileTree.IsFiled.mono (h : t.IsFiled dir n) (hle : n ≤ m) : t.IsFiled dir m :=
  h.imp_right fun ⟨s, hnode, hs, hlt⟩ => ⟨s, hnode, hs, lt_of_lt_of_le hlt hle⟩

/-! ## Their files -/

/-- The file with the plan or with the review of an iteration before `n`. -/
def IsEarlier (dir : Path) (cwd : List String) (n : Int) (key : List String) : Prop :=
  ∃ k < n, key = dir.resolve cwd ++ [planName k] ∨ key = dir.resolve cwd ++ [reviewName k]

namespace IsEarlier

variable {cwd key : List String}

/-- The name of such a file is that of no other file of the session. -/
theorem exists_name (h : IsEarlier dir cwd n key) : ∃ name,
    key = dir.resolve cwd ++ [name] ∧ Artifacts.IsOwnName name ∧
      name ∉ [SessionState.fileName, SessionState.temporaryName, Lock.fileName, Tally.fileName] ∧
      ∀ k, n ≤ k → name ≠ planName k ∧ name ≠ reviewName k := by
  have hother {start : String} (k : Int)
      (hstart : ∀ name ∈ [SessionState.fileName, SessionState.temporaryName, Lock.fileName,
        Tally.fileName], ¬ start.toList <+: name.toList) :
      start ++ toString k ++ ".json" ∉ [SessionState.fileName, SessionState.temporaryName,
        Lock.fileName, Tally.fileName] :=
    fun hmem => Artifacts.numbered_ne (hstart _ hmem) k rfl
  obtain ⟨k, hk, rfl | rfl⟩ := h
  · exact ⟨_, rfl, Artifacts.isOwnName_planName k, hother k (by decide), fun l hl =>
      ⟨fun heq => absurd (Artifacts.numbered_inj heq) (by omega),
        Artifacts.planName_ne_reviewName k l⟩⟩
  · exact ⟨_, rfl, Artifacts.isOwnName_reviewName k, hother k (by decide), fun l hl =>
      ⟨(Artifacts.planName_ne_reviewName l k).symm,
        fun heq => absurd (Artifacts.numbered_inj heq) (by omega)⟩⟩

theorem ne_child (h : IsEarlier dir cwd n key) {name : String}
    (hname : name ∈ [SessionState.fileName, SessionState.temporaryName, Lock.fileName,
      Tally.fileName]) : key ≠ dir.resolve cwd ++ [name] := by
  obtain ⟨name', rfl, -, hothers, -⟩ := h.exists_name
  rw [Ne, List.append_cancel_left_eq, List.singleton_inj]
  rintro rfl
  exact hothers hname

theorem ne_numbered (h : IsEarlier dir cwd n key) :
    key ≠ dir.resolve cwd ++ [planName n] ∧ key ≠ dir.resolve cwd ++ [reviewName n] := by
  obtain ⟨name, rfl, -, -, hnumbered⟩ := h.exists_name
  simpa using hnumbered n le_rfl

end IsEarlier

/-! ## States -/

namespace SessionState

/-- A documented state stays so where the files of its documents stay as they are. -/
theorem IsFiled.of_node_eq (h : s.IsFiled dir t) (hn : s.iteration < n) (hcwd : t'.cwd = t.cwd)
    (hnode : ∀ key, IsEarlier dir t.cwd n key → t.node? key ≠ none →
      t'.node? key = t.node? key) : s.IsFiled dir t' := by
  refine ⟨?_, h.numbered, h.kept⟩
  have hlines : ∀ line ∈ s.iterationHistory.filter fun line => !line.isPhaseError,
      line.iteration < n := by
    intro line hline
    exact lt_of_le_of_lt (h.numbered line (List.mem_filter.1 hline).1) hn
  refine (List.forall₂_and_left _ _ |>.2 ⟨hlines, h.documented⟩).imp ?_
  rintro line review ⟨hlt, ⟨p, hplan⟩, hreview⟩
  refine ⟨⟨p, ?_⟩, ?_⟩
  · rw [hcwd, hnode _ ⟨_, hlt, .inl rfl⟩ (by simp [hplan]), hplan]
  · rw [hcwd, hnode _ ⟨_, hlt, .inr rfl⟩ (by simp [hreview]), hreview]

/-- A state goes on from a documented one with lines that are documented. -/
theorem IsFiled.append (h : s.IsFiled dir t) (lines : List IterationRecord)
    (reviews : List Json.Fields) (hhistory : u.iterationHistory = s.iterationHistory ++ lines)
    (hreviews : u.reviews = s.reviews ++ reviews) (hle : s.iteration ≤ u.iteration)
    (hlines : ∀ line ∈ lines, line.iteration = u.iteration)
    (hdocumented : List.Forall₂ (IterationRecord.IsDocumented dir t)
      (lines.filter fun line => !line.isPhaseError) reviews)
    (hkept : ∀ review ∈ reviews, Json.keptFields review = review) : u.IsFiled dir t := by
  refine ⟨?_, ?_, ?_⟩
  · rw [IsDocumented, hhistory, hreviews, List.filter_append]
    exact List.rel_append h.documented hdocumented
  · rw [hhistory]
    intro line hline
    rcases List.mem_append.1 hline with hline | hline
    · exact (h.numbered line hline).trans hle
    · exact (hlines line hline).le
  · rw [hreviews]
    intro review hreview
    rcases List.mem_append.1 hreview with hreview | hreview
    · exact h.kept review hreview
    · exact hkept review hreview

/-- With the same lines and reviews a later state is documented too. -/
theorem IsFiled.of_eq (h : s.IsFiled dir t) (hhistory : u.iterationHistory = s.iterationHistory)
    (hreviews : u.reviews = s.reviews) (hle : s.iteration ≤ u.iteration) : u.IsFiled dir t :=
  h.append [] [] (by rw [hhistory, List.append_nil])
    (by rw [hreviews, List.append_nil]) hle (List.forall_mem_nil _) .nil (List.forall_mem_nil _)

/-- A state is documented where no iteration has been noted. -/
theorem isFiled_of_nil (hhistory : s.iterationHistory = []) (hreviews : s.reviews = []) :
    s.IsFiled dir t := by
  refine ⟨?_, ?_, ?_⟩
  · rw [IsDocumented, hhistory, hreviews]
    exact .nil
  · rw [hhistory]
    exact List.forall_mem_nil _
  · rw [hreviews]
    exact List.forall_mem_nil _

/-- What a file holds of a documented state is documented by the same files. -/
theorem IsFiled.settled (h : s.IsFiled dir t) : s.settled.IsFiled dir t := by
  have hreviews : s.settled.reviews = s.reviews :=
    (List.map_congr_left h.kept).trans (List.map_id _)
  have hhistory : s.settled.iterationHistory =
      s.iterationHistory.map IterationRecord.settled := rfl
  refine ⟨?_, ?_, ?_⟩
  · rw [IsDocumented, hreviews, hhistory, List.filter_map, List.forall₂_map_left_iff]
    exact h.documented.imp fun _ _ hline => ⟨hline.plan, hline.review⟩
  · rw [hhistory, List.forall_mem_map]
    exact h.numbered
  · rw [hreviews]
    exact h.kept

end SessionState

/-! ## On the way -/

/-- On the way from `w` to `w'` these states are saved, and the documents of iterations before `n`
that are there are left alone. -/
structure Workspace.Proceeds (dir : Path) (n : Int) (w w' : Workspace) (saves : List SessionState) :
    Prop extends w.Saves dir w' saves where
  spares : ∀ key, IsEarlier dir w.files.cwd n key → w.files.node? key ≠ none → w.Spares key w'

namespace Workspace

variable {saves saves' : List SessionState}

theorem Proceeds.trans (h : w.Proceeds dir n w' saves) (h' : w'.Proceeds dir n w'' saves') :
    w.Proceeds dir n w'' (saves ++ saves') := by
  refine ⟨h.toSaves.trans h'.toSaves, fun key hkey hthere => ?_⟩
  have hspares := h.spares key hkey hthere
  refine hspares.trans (h'.spares key ?_ ?_)
  · rwa [h.cwd_eq]
  · rwa [hspares.node_eq]

/-- A state with documents of iterations before `n` is documented on the whole way. -/
theorem Proceeds.isFiled_cut (h : w.Proceeds dir n w' saves) (hs : s.IsFiled dir w.files)
    (hn : s.iteration < n) {ds es : List Change}
    (hjournal : w'.journal = (ds ++ es).reverse ++ w.journal) :
    s.IsFiled dir (w.files.applyAll ds) :=
  hs.of_node_eq hn (FileTree.cwd_applyAll _ _) fun key hkey hthere =>
    (h.spares key hkey hthere).node?_cut hjournal

theorem Proceeds.isFiled (h : w.Proceeds dir n w' saves) (hs : s.IsFiled dir w.files)
    (hn : s.iteration < n) : s.IsFiled dir w'.files :=
  hs.of_node_eq hn h.cwd_eq fun key hkey hthere => (h.spares key hkey hthere).node_eq

/-- The stored state is documented at every moment, if the one at the beginning and those that are
saved are so then. -/
theorem Proceeds.throughout (h : w.Proceeds dir n w' saves) (hw : w.files.IsFiled dir n)
    (hsaves : ∀ s ∈ saves, s.IsFiled dir w.files ∧ s.iteration < n) :
    w.Throughout (FileTree.IsFiled dir n) w' := by
  obtain ⟨cs, hjournal, hfiles, -⟩ := h.stores.changes
  refine ⟨cs, hjournal, hfiles, fun ds es heq => ?_⟩
  subst heq
  have hfiled {s : SessionState} (hs : s.IsFiled dir w.files) (hn : s.iteration < n) :=
    h.isFiled_cut hs hn hjournal
  unfold FileTree.IsFiled
  rw [FileTree.cwd_applyAll]
  rcases h.stores.node?_cut hjournal with hsame | ⟨text, htext, hnode⟩
  · rw [hsame]
    exact hw.imp_right fun ⟨s, hnode, hs, hn⟩ => ⟨s, hnode, hfiled hs hn, hn⟩
  · obtain ⟨s, hmem, rfl⟩ := List.mem_map.1 htext
    obtain ⟨hs, hn⟩ := hsaves s hmem
    exact .inr ⟨s, hnode, hfiled hs hn, hn⟩

/-- An operation proceeds if it does so for the file of the state and for each document. -/
theorem ends_proceeds {α : Type} {a : Act α}
    (hsaves : Ends a w (fun _ w' => w.Saves dir w' saves) fun _ w' => w.Saves dir w' saves')
    (hspares : ∀ key, IsEarlier dir w.files.cwd n key → w.files.node? key ≠ none →
      Ends a w (fun _ w' => w.Spares key w') fun _ w' => w.Spares key w') :
    Ends a w (fun _ w' => w.Proceeds dir n w' saves) fun _ w' => w.Proceeds dir n w' saves' := by
  have hall := Ends.forall_of fun key : { key : List String //
    IsEarlier dir w.files.cwd n key ∧ w.files.node? key ≠ none } =>
      hspares key.1 key.2.1 key.2.2
  exact (hsaves.and hall).mono
    (fun _ _ h => ⟨h.1, fun key hkey hthere => h.2 ⟨key, hkey, hthere⟩⟩)
    fun _ _ h => ⟨h.1, fun key hkey hthere => h.2 ⟨key, hkey, hthere⟩⟩

end Workspace

/-! ## Operations -/

theorem save_proceeds (dir : Path) (n : Int) (s : SessionState) (w : Workspace) :
    Ends (s.save dir) w (fun _ w' => w.Proceeds dir n w' [s])
      fun _ w' => w.Proceeds dir n w' [] := by
  refine ends_proceeds ((s.save_ends dir).mono (fun _ _ h => ⟨h⟩) fun _ _ h => ⟨h⟩)
    fun key hkey hthere => ?_
  refine SessionState.save_spares dir s hthere (hkey.ne_child (by decide)) ?_
  obtain ⟨name, rfl, -, hothers, -⟩ := hkey.exists_name
  refine SessionState.not_prefix_of_name _ ?_
  rintro rfl
  exact hothers (by decide)

theorem writeFinal_proceeds (c : Controller) (n : Int) (p : Plan) (status : FinalStatus)
    (score : Option Float) (hthere : w.HasState c.dir) :
    Ends (c.artifacts.writeFinal p status score) w (fun _ w' => w.Proceeds c.dir n w' [])
      fun _ w' => w.Proceeds c.dir n w' [] := by
  have hwrite {key : List String} (hkey : w.files.node? key ≠ none)
      (hname : ∃ names name, key = names ++ [name] ∧ Artifacts.IsOwnName name) :=
    (c.artifacts.writeFinal_ends p status score hkey (.inl hname)).mono (fun _ _ h => h.1)
      fun _ _ h => h
  refine ends_proceeds ((hwrite hthere ⟨_, _, rfl, isOwnName_fileName⟩).mono (fun _ _ h => ⟨h⟩)
    fun _ _ h => ⟨h⟩) fun key hkey hthere => hwrite hthere ?_
  obtain ⟨name, rfl, hown, -⟩ := hkey.exists_name
  exact ⟨_, name, rfl, hown⟩

/-- The review of an iteration is written beside the documents of earlier ones and beside its own
plan. -/
theorem writeReview_proceeds (c : Controller) (review : Review) (n : Int)
    (hthere : w.HasState c.dir) :
    Ends (c.artifacts.writeReview review n) w
      (fun _ w' => w.Proceeds c.dir n w' [] ∧
        w'.files.node? (c.dir.resolve w.files.cwd ++ [reviewName n]) =
          some (.file (.text (jsonText review.toJson))))
      fun _ w' => w.Proceeds c.dir n w' [] := by
  have hwrite {key : List String} (hkey : w.files.node? key ≠ none)
      (hne : key ≠ c.dir.resolve w.files.cwd ++ [reviewName n]) :=
    c.artifacts.writeReview_ends review n hkey fun heq => absurd heq hne
  have hstate := hwrite hthere (stateKey_ne c _ (fileName_ne_reviewName n))
  have hproceeds : Ends (c.artifacts.writeReview review n) w (fun _ w' => w.Proceeds c.dir n w' [])
      fun _ w' => w.Proceeds c.dir n w' [] :=
    ends_proceeds (hstate.mono (fun _ _ h => ⟨h.1⟩) fun _ _ h => ⟨h⟩) fun key hkey hthere =>
      (hwrite hthere hkey.ne_numbered.2).mono (fun _ _ h => h.1) fun _ _ h => h
  exact (hproceeds.and hstate).mono (fun _ _ h => ⟨h.1, h.2.2.node⟩) fun _ _ h => h.1

theorem writeReview_plan (c : Controller) (review : Review) (n : Int) {content : Content}
    (hplan : w.files.node? (c.dir.resolve w.files.cwd ++ [planName n]) = some (.file content)) :
    Ends (c.artifacts.writeReview review n) w
      (fun _ w' => w'.files.node? (c.dir.resolve w.files.cwd ++ [planName n]) =
        some (.file content))
      fun _ _ => True := by
  have hthere : w.files.node? (c.dir.resolve w.files.cwd ++ [planName n]) ≠ none := by
    rw [hplan]
    exact Option.some_ne_none _
  have hwrite := c.artifacts.writeReview_ends review n hthere fun heq =>
    absurd (List.singleton_inj.1 (List.append_cancel_left heq))
      (Artifacts.planName_ne_reviewName n n)
  exact hwrite.mono (fun _ _ h => h.1.node_eq.trans hplan) fun _ _ _ => True.intro

theorem record_proceeds (tally : Tally) (dir : Path) (n : Int) (outcome : Json.Fields)
    (w : Workspace) :
    Ends (tally.record dir outcome) w (fun _ w' => w.Proceeds dir n w' [])
      fun _ w' => w.Proceeds dir n w' [] := by
  have hstate : stateKey dir w.files.cwd ≠ dir.resolve w.files.cwd ++ [Tally.fileName] := by
    rw [stateKey, Ne, List.append_cancel_left_eq, List.singleton_inj]
    decide
  have hspares : Ends (tally.record dir outcome) w
      (fun _ w' => w.Spares (stateKey dir w.files.cwd) w')
      fun _ w' => w.Spares (stateKey dir w.files.cwd) w' :=
    tally.record_ends dir outcome (.inr (not_prefix_dir _ _)) fun heq => absurd heq hstate
  exact ends_proceeds (hspares.mono (fun _ _ h => ⟨h⟩) fun _ _ h => ⟨h⟩) fun key hkey hthere =>
    tally.record_ends dir outcome (.inl hthere) fun heq => absurd heq (hkey.ne_child (by decide))

theorem acquire_proceeds (c : Controller) (n : Int) (w : Workspace) :
    Ends (Lock.acquire c.registry c.dir) w (fun _ w' => w.Proceeds c.dir n w' [])
      fun _ w' => w.Proceeds c.dir n w' [] := by
  refine ends_proceeds ((acquire_saves c w).mono (fun _ _ => id) fun _ _ h => h.1)
    fun key hkey hthere => Lock.acquire_ends c.registry c.dir (.inl hthere) fun heq => ?_
  obtain ⟨name, rfl, -, hothers, -⟩ := hkey.exists_name
  obtain rfl := List.singleton_inj.1 (List.append_inj_right' heq rfl)
  exact absurd (by decide) hothers

/-- Planning and reviewing proceed, and leave the plan of the iteration behind. -/
theorem judge_proceeds (c : Controller) (resume : Option Resume)
    (hthere : r.workspace.HasState c.dir) :
    Ends (judge c resume) r.opened
      (fun j r' => r.workspace.Proceeds c.dir (r.state.iteration + 1) r'.workspace [] ∧
        r.state.nextIteration.Works (fun _ => True) r'.state ∧ c.HasReviewed j.plan j.review ∧
        r'.workspace.files.node? (c.dir.resolve r'.workspace.files.cwd ++
          [planName (r.state.iteration + 1)]) = some (.file (.text (jsonText j.plan.toJson))))
      fun _ r' => r.workspace.Proceeds c.dir (r.state.iteration + 1) r'.workspace [] ∧
        r.state.nextIteration.Works (fun _ => True) r'.state := by
  have hall := Ends.forall_of fun key : { key : List String //
    IsEarlier c.dir r.workspace.files.cwd (r.state.iteration + 1) key ∧
      r.workspace.files.node? key ≠ none } =>
    judge_writes (r := r.opened) c resume key.2.2 fun heq => absurd heq key.2.1.ne_numbered.1
  have hstate := judge_writes (r := r.opened) c resume hthere fun heq =>
    absurd heq (stateKey_ne c _ (fileName_ne_planName _))
  have hworks := @judge_works c (fun _ => True) (fun _ _ _ _ _ _ _ _ => trivial) resume r.opened
  refine ((hall.and hstate).and hworks).mono ?_ ?_
  · rintro j r' ⟨⟨hall, hspares, hholds⟩, hworks, hreviewed, -⟩
    refine ⟨⟨⟨hspares⟩, fun key hkey hthere => (hall ⟨key, hkey, hthere⟩).1⟩, hworks, hreviewed, ?_⟩
    rw [hspares.cwd_eq]
    exact hholds.node
  · rintro _ r' ⟨⟨hall, hspares⟩, hworks⟩
    exact ⟨⟨⟨hspares⟩, fun key hkey hthere => hall ⟨key, hkey, hthere⟩⟩, hworks⟩

/-! ## Iterations -/

/-- The files of a run are in order, and its state is documented by them. The stored state comes
from no later iteration than the one in memory. -/
structure Run.IsFiled (c : Controller) (r : Run) : Prop where
  there : r.workspace.HasState c.dir
  files : r.workspace.files.IsFiled c.dir (r.state.iteration + 1)
  state : r.state.IsFiled c.dir r.workspace.files

/-- The documents of the present iteration are there : with the line for them the state is
documented. -/
structure Run.IsDue (c : Controller) (r : Run) : Prop where
  there : r.workspace.HasState c.dir
  files : r.workspace.files.IsFiled c.dir (r.state.iteration + 1)
  line : ∀ line : IterationRecord, line.iteration = r.state.iteration →
    line.isPhaseError = false → (r.state.addHistory line).IsFiled c.dir r.workspace.files

/-- The files are in order on the whole way, and if the run goes on, so is the run. -/
def Run.IsSound (c : Controller) (r r' : Run) {α : Type} (out : Except Failure α) : Prop :=
  r.workspace.Throughout (FileTree.IsInOrder c.dir) r'.workspace ∧
    ∀ a, out = .ok a → r'.IsFiled c

section

variable {α β : Type} {out : Except Failure α}

/-- A run that fails does not go on. -/
theorem Run.isSound_error {f : Failure}
    (h : r.workspace.Throughout (FileTree.IsInOrder c.dir) r'.workspace) :
    r.IsSound c r' (.error f : Except Failure α) := by
  refine ⟨h, fun a heq => ?_⟩
  cases heq

theorem Run.IsFiled.inOrder (h : r.IsFiled c) : r.workspace.files.IsInOrder c.dir := ⟨_, h.files⟩

/-- A way on which nothing is saved and no document of earlier iterations is touched. -/
theorem Run.IsFiled.proceeds (h : r.IsFiled c)
    (hproceeds : r.workspace.Proceeds c.dir (r.state.iteration + 1) w []) :
    r.workspace.Throughout (FileTree.IsInOrder c.dir) w ∧
      ({ r with workspace := w } : Run).IsFiled c := by
  have hway := hproceeds.throughout h.files (List.forall_mem_nil _)
  exact ⟨hway.mono fun _ ht => ⟨_, ht⟩, hproceeds.toSaves.hasState h.there, hway.last,
    hproceeds.isFiled h.state (lt_add_one _)⟩

/-- A documented state can be saved. -/
theorem save_throughout (hfiles : w.files.IsInOrder dir) (hs : s.IsFiled dir w.files) :
    Ends (s.save dir) w
      (fun _ w' => w.Throughout (FileTree.IsInOrder dir) w' ∧ w'.HasStored dir s ∧
        s.IsFiled dir w'.files)
      fun _ w' => w.Throughout (FileTree.IsInOrder dir) w' := by
  obtain ⟨n, hn⟩ := hfiles
  have hfiles := hn.mono (le_max_left n (s.iteration + 1))
  have hlt : s.iteration < max n (s.iteration + 1) :=
    lt_of_lt_of_le (lt_add_one _) (le_max_right _ _)
  refine (save_proceeds dir (max n (s.iteration + 1)) s w).mono (fun _ w' hproceeds => ?_)
    fun _ w' hproceeds => ?_
  · have hway := hproceeds.throughout hfiles (List.forall_mem_singleton.2 ⟨hs, hlt⟩)
    exact ⟨hway.mono fun _ ht => ⟨_, ht⟩, hproceeds.toSaves.hasStored, hproceeds.isFiled hs hlt⟩
  · exact (hproceeds.throughout hfiles (List.forall_mem_nil _)).mono fun _ ht => ⟨_, ht⟩

theorem Run.isFiled_of_hasStored (hstored : r.workspace.HasStored c.dir r.state)
    (hs : r.state.IsFiled c.dir r.workspace.files) : r.IsFiled c :=
  ⟨hstored.hasState, .inr ⟨_, hstored, hs, lt_add_one _⟩, hs⟩

theorem save_isSound {out : Except Failure Unit} (hsave : save c r = (out, r'))
    (hfiles : r.workspace.files.IsInOrder c.dir)
    (hstate : r.state.IsFiled c.dir r.workspace.files) : r.IsSound c r' out := by
  obtain ⟨w, hact, rfl⟩ := save_run hsave
  have hends := save_throughout hfiles hstate
  cases out with
  | error f => exact Run.isSound_error (hends.of_error hact)
  | ok _ =>
    obtain ⟨hway, hstored, hs⟩ := hends.of_ok hact
    exact ⟨hway, fun _ _ => Run.isFiled_of_hasStored hstored hs⟩

theorem writeFinal_isSound {p : Plan} {status : FinalStatus} {score : Option Float}
    {out : Except Failure Unit}
    (hwrite : onWorkspace (c.artifacts.writeFinal p status score) r = (out, r'))
    (hr : r.IsFiled c) :
    r.workspace.Throughout (FileTree.IsInOrder c.dir) r'.workspace ∧ r'.IsFiled c := by
  obtain ⟨w, hact, rfl⟩ := onWorkspace_run hwrite
  have hends := writeFinal_proceeds c (r.state.iteration + 1) p status score hr.there
  cases out with
  | error f => exact hr.proceeds (hends.of_error hact)
  | ok _ => exact hr.proceeds (hends.of_ok hact)

theorem Pauses.isSound {plan : Plan} {p : Pause} {f : Failure} (h : Pauses c plan p r f r')
    (hr : r.IsFiled c) :
    r.workspace.Throughout (FileTree.IsInOrder c.dir) r'.workspace := by
  have hsaves {out : Except Failure Unit} {r₁ : Run}
      (hsave : save c (r.update (·.asking r.now p)) = (out, r₁)) :=
    save_isSound hsave hr.inOrder (hr.state.of_eq rfl rfl le_rfl)
  cases h with
  | unsaved hsave => exact (hsaves hsave).1
  | undrafted hsave hwrite =>
    exact (hsaves hsave).1.trans (writeFinal_isSound hwrite ((hsaves hsave).2 _ rfl)).1
  | asked hsave hwrite =>
    exact (hsaves hsave).1.trans (writeFinal_isSound hwrite ((hsaves hsave).2 _ rfl)).1

/-- What is decided about a plan is noted when its documents are there. -/
theorem Decides.isSound {tokensBefore : Int} {j : Judged} {review : Review}
    {out : Except Failure Next} (h : Decides c tokensBefore j review r out r')
    (hdue : r.IsDue c) : r.IsSound c r' out := by
  -- a state with the line, whatever else is changed in it
  have hline (outcome : IterationOutcome) (houtcome : outcome ≠ .phaseError) (u : SessionState)
      (hhistory : u.iterationHistory = r.state.iterationHistory ++
        [historyLine r.state r.now j.verdict review outcome tokensBefore])
      (hreviews : u.reviews = r.state.reviews) (hiteration : u.iteration = r.state.iteration) :
      u.IsFiled c.dir r.workspace.files := by
    refine (hdue.line (historyLine r.state r.now j.verdict review outcome tokensBefore) rfl
      ?_).of_eq hhistory hreviews hiteration.ge
    rw [IterationRecord.isPhaseError, beq_eq_false_iff_ne]
    exact houtcome
  have hasked := hline .humanInputRequested (by decide)
  have hrevised := hline (if j.verdict.passed then .reviewFailed else .viabilityFailed)
    (by split <;> decide) (r.state.revising r.now j review tokensBefore) rfl rfl rfl
  have hinOrder : r.workspace.files.IsInOrder c.dir := ⟨_, hdue.files⟩
  cases h with
  | asks _ hpauses =>
    exact Run.isSound_error (hpauses.isSound ⟨hdue.there, hdue.files, hasked _ rfl rfl rfl⟩)
  | ungated _ _ _ => exact Run.isSound_error (.refl hinOrder)
  | gated _ _ _ hpauses =>
    exact Run.isSound_error (hpauses.isSound ⟨hdue.there, hdue.files, hasked _ rfl rfl rfl⟩)
  | approved _ _ _ =>
    have happroved := hline .reviewPassed (by decide)
    exact ⟨.refl hinOrder, fun _ _ => ⟨hdue.there, hdue.files, happroved _ rfl rfl rfl⟩⟩
  | unsaved _ _ hsave => exact Run.isSound_error (save_isSound hsave hinOrder hrevised).1
  | revised _ _ hsave =>
    exact (save_isSound hsave hinOrder hrevised).imp_right fun h _ _ => h () rfl

/-- When a review is taken in, its documents are there. -/
theorem Run.Settles.isDue {j : Judged} (h : r.Settles c resume j r') (hr : r.IsFiled c)
    (hscores : ∀ p review, c.HasReviewed p review → Decimal.InUnit review.score) :
    r.workspace.Throughout (FileTree.IsInOrder c.dir) r'.workspace ∧ r'.IsDue c := by
  obtain ⟨r₁, r₂, hjudged, hwrite, rfl⟩ := h
  obtain ⟨hproceeds, hworks, hreviewed, hplan⟩ :=
    (judge_proceeds c resume hr.there).of_ok hjudged
  have hstays : r.state.nextIteration.Stays
      (r₁.state.absorbing c j.plan (j.finalReview c.scoreThreshold)) :=
    hworks.stays.trans (SessionState.absorb_stays _ _ _)
  have hreviews : (r₁.state.absorbing c j.plan (j.finalReview c.scoreThreshold)).reviews =
      r.state.reviews ++ [(j.finalReview c.scoreThreshold).fields] :=
    (SessionState.absorb_reviews _ _ _).trans (congrArg (· ++ _) hworks.reviews_eq)
  have hnumber : r₁.state.iteration = r.state.iteration + 1 := hworks.stays.iteration
  have hkept : Json.keptFields (j.finalReview c.scoreThreshold).fields =
      (j.finalReview c.scoreThreshold).fields := by
    refine Review.keptFields_fields ?_
    rw [finalReview_score]
    exact hscores _ _ hreviewed
  obtain ⟨w, hact, rfl⟩ := onWorkspace_run hwrite
  rw [hnumber] at hact
  obtain ⟨hproceeds', hreview⟩ := (writeReview_proceeds c _ _
    (hproceeds.toSaves.hasState hr.there)).of_ok hact
  have hplan' := (writeReview_plan c (j.finalReview c.scoreThreshold) _ hplan).of_ok hact
  rw [← hproceeds'.cwd_eq] at hplan' hreview
  obtain ⟨hway, hfiled⟩ := hr.proceeds (hproceeds.trans hproceeds')
  unfold Run.absorbing
  generalize j.finalReview c.scoreThreshold = review at *
  generalize r₁.state.absorbing c j.plan review = absorbed at *
  have hiteration : absorbed.iteration = r.state.iteration + 1 := hstays.iteration
  refine ⟨hway, (hproceeds.trans hproceeds').toSaves.hasState hr.there,
    hfiled.files.mono ?_, fun line hline herror => ?_⟩
  · rw [hiteration]
    exact (lt_add_one _).le
  · refine hfiled.state.append [line] _ (congrArg (· ++ [line]) hstays.history) hreviews
      (hiteration.symm ▸ (lt_add_one _).le) (List.forall_mem_singleton.2 hline) ?_
      (List.forall_mem_singleton.2 hkept)
    rw [List.filter_singleton, herror]
    have hnumber' : line.iteration = r.state.iteration + 1 := hline.trans hiteration
    exact .cons ⟨⟨j.plan, by rw [hnumber']; exact hplan'⟩, by rw [hnumber']; exact hreview⟩ .nil

/-- An iteration writes its documents before it saves its state. -/
theorem Turn.isSound {out : Except Failure Next} (h : Turn c resume r out r') (hr : r.IsFiled c)
    (hscores : ∀ p review, c.HasReviewed p review → Decimal.InUnit review.score) :
    r.IsSound c r' out := by
  -- where no review comes about, the state of the session before the iteration is still documented
  have hfailed {f : Failure} {r₁ : Run} (hjudged : judge c resume r.opened = (.error f, r₁)) :
      r.workspace.Throughout (FileTree.IsInOrder c.dir) r₁.workspace ∧
        r₁.state.IsFiled c.dir r₁.workspace.files := by
    obtain ⟨hproceeds, hworks⟩ := (judge_proceeds c resume hr.there).of_error hjudged
    obtain ⟨hway, hfiled⟩ := hr.proceeds hproceeds
    refine ⟨hway, hfiled.state.of_eq hworks.stays.history hworks.reviews_eq ?_⟩
    rw [hworks.stays.iteration]
    exact (lt_add_one _).le
  have hphase {message : String} {r₁ : Run}
      (hjudged : judge c resume r.opened = (.error (.phase message), r₁)) :
      (r₁.afterPhaseError message r.state.totalTokens).state.IsFiled c.dir r₁.workspace.files :=
    (hfailed hjudged).2.append [_] [] rfl (List.append_nil _).symm le_rfl
      (List.forall_mem_singleton.2 rfl) .nil (List.forall_mem_nil _)
  cases h with
  | @unwritten j r₁ _ _ hjudged hwrite =>
    obtain ⟨hproceeds, hworks, -⟩ := (judge_proceeds c resume hr.there).of_ok hjudged
    have hnumber : r₁.state.iteration = r.state.iteration + 1 := hworks.stays.iteration
    obtain ⟨w, hact, rfl⟩ := onWorkspace_run hwrite
    rw [hnumber] at hact
    have hproceeds' := (writeReview_proceeds c _ _ (hproceeds.toSaves.hasState hr.there)).of_error
      hact
    exact Run.isSound_error (hr.proceeds (hproceeds.trans hproceeds')).1
  | @decided j r₁ r₂ _ _ hjudged hwrite hdecides =>
    obtain ⟨hway, hdue⟩ := Run.Settles.isDue ⟨r₁, r₂, hjudged, hwrite, rfl⟩ hr hscores
    exact (hdecides.isSound hdue).imp_left hway.trans
  | phaseUnsaved hjudged hsave =>
    have hsound := save_isSound hsave (hfailed hjudged).1.last (hphase hjudged)
    exact Run.isSound_error ((hfailed hjudged).1.trans hsound.1)
  | phaseError hjudged hsave =>
    have hsound := save_isSound hsave (hfailed hjudged).1.last (hphase hjudged)
    exact ⟨(hfailed hjudged).1.trans hsound.1, fun _ _ => hsound.2 () rfl⟩
  | failed hjudged _ hsave =>
    obtain ⟨hway, hstate⟩ := hfailed hjudged
    have hsound := save_isSound hsave hway.last (hstate.of_eq rfl rfl le_rfl)
    exact Run.isSound_error (hway.trans hsound.1)
  | failedUnsaved hjudged _ hsave =>
    obtain ⟨hway, hstate⟩ := hfailed hjudged
    have hsound := save_isSound hsave hway.last (hstate.of_eq rfl rfl le_rfl)
    exact Run.isSound_error (hway.trans hsound.1)

/-! ## Whole runs -/

theorem stopAtLimit_isSound (c : Controller) (hr : r.IsFiled c) :
    Ends (stopAtLimit c) r (fun stopped r' => r.IsSound c r' (.ok stopped))
      fun f r' => r.IsSound c r' (.error f : Except Failure Bool) := by
  rw [ends_stopAtLimit]
  split
  · refine ⟨.refl hr.inOrder, ?_⟩
    rintro _ ⟨⟩
    exact hr
  · split
    · exact Run.isSound_error (.refl hr.inOrder)
    · exact ⟨.refl hr.inOrder, fun _ _ => ⟨hr.there, hr.files, hr.state.of_eq rfl rfl le_rfl⟩⟩

/-- The files are in order during all iterations of a loop. -/
theorem Looping.isSound {starts : List Run} {out : Except Failure Unit × Run}
    (h : Looping c resume starts r out) (hr : r.IsFiled c)
    (hscores : ∀ p review, c.HasReviewed p review → Decimal.InUnit review.score) :
    r.IsSound c out.2 out.1 := by
  induction h with
  | stopped hstop =>
    exact ((stopAtLimit_isSound c hr).of_ok hstop).imp_right fun h _ _ => h true rfl
  | indescribable hstop => exact Run.isSound_error ((stopAtLimit_isSound c hr).of_error hstop).1
  | @finished r r' _ hiteration =>
    exact (((iteration_turn c resume r).of_ok hiteration).isSound hr hscores).imp_right
      fun h _ _ => h _ rfl
  | @failed r r' f _ hiteration =>
    exact Run.isSound_error
      (((iteration_turn c resume r).of_error hiteration).isSound hr hscores).1
  | @again r r₁ _ out _ hiteration _ ih =>
    obtain ⟨hway, hfiled⟩ := ((iteration_turn c resume r).of_ok hiteration).isSound hr hscores
    exact (ih (hfiled _ rfl)).imp_left hway.trans

theorem conclude_throughout (plan : Option Plan) (hr : r.IsFiled c) :
    Keeping (r.workspace.Throughout (FileTree.IsInOrder c.dir)) (conclude c plan) r := by
  have hsave {out : Except Failure Unit} {r' : Run}
      (hsave : save c (r.update SessionState.updateSummary) = (out, r')) :=
    (save_isSound hsave hr.inOrder (hr.state.of_eq rfl rfl le_rfl)).1
  rw [Keeping, ends_conclude]
  refine (Ends.self (save c) _).mono (fun _ r₁ h₁ => ?_) fun _ _ h₁ => hsave h₁
  split
  · exact hsave h₁
  · split <;> exact hsave h₁

theorem finish_throughout (hr : r.IsFiled c) :
    Keeping (r.workspace.Throughout (FileTree.IsInOrder c.dir)) (finish c) r := by
  rw [Keeping, ends_finish]
  split
  · exact .refl hr.inOrder
  · exact conclude_throughout none hr
  · refine (Ends.self _ _).mono (fun _ r₁ h₁ => ?_) fun _ _ h₁ => (writeFinal_isSound h₁ hr).1
    obtain ⟨hway, hr₁⟩ := writeFinal_isSound h₁ hr
    exact (conclude_throughout (some _) hr₁).mono (fun _ _ => hway.trans) fun _ _ => hway.trans

theorem recordMetrics_throughout (hway : w.Throughout (FileTree.IsInOrder c.dir) r.workspace) :
    Keeping (w.Throughout (FileTree.IsInOrder c.dir)) (recordMetrics c) r := by
  obtain ⟨n, hn⟩ := hway.last
  have hgo {w' : Workspace} (hproceeds : r.workspace.Proceeds c.dir n w' []) :
      w.Throughout (FileTree.IsInOrder c.dir) w' :=
    hway.trans ((hproceeds.throughout hn (List.forall_mem_nil _)).mono fun _ ht => ⟨_, ht⟩)
  rw [Keeping, ends_recordMetrics]
  exact keeping_onWorkspace ((record_proceeds r.tally c.dir n r.state.outcome r.workspace).mono
    (fun _ _ => hgo) fun _ _ => hgo)

/-- The files are in order during a run, from its first iteration to its end. -/
theorem drive_throughout (resume : Option Resume) (hr : r.IsFiled c)
    (hscores : ∀ p review, c.HasReviewed p review → Decimal.InUnit review.score) :
    Keeping (r.workspace.Throughout (FileTree.IsInOrder c.dir)) (drive c resume) r := by
  obtain ⟨starts, hloop, -⟩ := rounds_within_limits c resume r
  obtain ⟨hway, hfiled⟩ := hloop.isSound hr hscores
  rw [Keeping, ends_drive]
  refine (Ends.self (rounds c resume _) r).mono (fun _ r₁ h₁ => ?_) fun f r₁ h₁ => ?_
  · rw [h₁] at hway hfiled
    exact (finish_throughout (hfiled _ rfl)).mono
      (fun _ _ h₂ => recordMetrics_throughout (hway.trans h₂))
      fun _ _ h₂ => recordMetrics_throughout (hway.trans h₂)
  · rw [h₁] at hway
    exact recordMetrics_throughout hway

end

/-! ## Entering a session -/

theorem has_filePath_eq_false_iff {dir : Path} :
    t.has (SessionState.filePath dir) = false ↔ t.node? (stateKey dir t.cwd) = none := by
  rw [FileTree.has, FileTree.find?, SessionState.resolve_filePath, Option.isSome_eq_false_iff,
    Option.isNone_iff_eq_none, stateKey]

theorem start_ledger (request : Request) (now : String) (s : SessionState) :
    (request.start now s).iterationHistory = s.iterationHistory ∧
      (request.start now s).reviews = s.reviews ∧
      (request.start now s).iteration = s.iteration := by
  unfold Request.start
  split <;> exact ⟨rfl, rfl, rfl⟩

/-- Whatever a session is taken up with, its history and its reviews stay, and unless it is set to a
plan from outside, its iteration does too. -/
theorem takeUp_ledger {request : Request} {now : String}
    (h : request.takeUp c now s = .ok (u, resume)) :
    u.iterationHistory = s.iterationHistory ∧ u.reviews = s.reviews ∧
      (request.resume = none → u.iteration = s.iteration) := by
  rcases takeUp_cases h with ⟨q, hq, rfl⟩ | ⟨-, rfl⟩ | ⟨response, rfl⟩
  · refine ⟨rfl, rfl, fun hnone => ?_⟩
    rw [hnone] at hq
    cases hq
  · exact ⟨rfl, rfl, fun _ => rfl⟩
  · unfold SessionState.answer SessionState.applyHumanResponse
    split <;> exact ⟨rfl, rfl, fun _ => rfl⟩

/-- The first state of a run is documented as the stored one is, unless it is set to a plan from
outside while one is stored. -/
theorem isFiled_of_takeUp {request : Request} {now : String} {stored : Option SessionState}
    (hfiles : t.IsInOrder c.dir) (hload : SessionState.load t now c.dir = .ok stored)
    (htake : request.takeUp c now (request.session c.artifacts.slug now stored) = .ok (s, resume))
    (hresume : request.resume ≠ none → t.has (SessionState.filePath c.dir) = false) :
    (request.start now s).IsFiled c.dir t := by
  obtain ⟨hhistory, hreviews, hiteration⟩ := start_ledger request now s
  obtain ⟨hhistory', hreviews', hiteration'⟩ := takeUp_ledger htake
  obtain ⟨n, hnone | ⟨s₀, hnode, hs₀, -⟩⟩ := hfiles
  · rw [SessionState.load_of_none now hnone] at hload
    cases hload
    exact SessionState.isFiled_of_nil (hhistory.trans hhistory') (hreviews.trans hreviews')
  · obtain ⟨-, rfl⟩ := SessionState.eq_settled_of_load hnode hload
    have hgiven : request.resume = none := by
      by_contra hgiven
      rw [has_filePath_eq_false_iff.1 (hresume hgiven)] at hnode
      cases hnode
    obtain ⟨workingDir, hsession⟩ := session_eq request c.artifacts.slug now s₀.settled
    rw [hsession] at hhistory' hreviews' hiteration'
    exact hs₀.settled.of_eq (hhistory.trans hhistory') (hreviews.trans hreviews')
      (hiteration.trans (hiteration' hgiven)).ge

/-- The files are in order while a session is entered. -/
theorem enter_throughout (c : Controller) (request : Request)
    (hfiles : w.files.IsInOrder c.dir)
    (hresume : request.resume ≠ none → w.files.has (SessionState.filePath c.dir) = false) :
    Ends (enter c request) w
      (fun entry w' => w.Throughout (FileTree.IsInOrder c.dir) w' ∧
        ∀ s resume, entry = .running s resume → Run.IsFiled c { workspace := w', state := s })
      fun _ w' => w.Throughout (FileTree.IsInOrder c.dir) w' := by
  rw [ends_enter]
  cases hload : SessionState.load w.files w.now.text c.dir with
  | error e => exact .refl hfiles
  | ok stored =>
    dsimp only
    split
    · split
      · exact .refl hfiles
      · exact ⟨.refl hfiles, fun _ _ heq => Entry.noConfusion heq⟩
    · cases htake : request.takeUp c w.now.text
          (request.session c.artifacts.slug w.now.text stored) with
      | error e => exact .refl hfiles
      | ok result =>
        have hs := isFiled_of_takeUp hfiles hload htake hresume
        refine (save_throughout hfiles hs).mono ?_ fun _ _ => id
        rintro _ w' ⟨hway, hstored, hs'⟩
        refine ⟨hway, ?_⟩
        rintro _ _ ⟨⟩
        exact Run.isFiled_of_hasStored hstored hs'

/-! ## Sessions -/

/-- The files are in order while a session is driven, from the lock on. -/
theorem run_throughout (c : Controller) (request : Request) (hfiles : w.files.IsInOrder c.dir)
    (hscores : ∀ p review, c.HasReviewed p review → Decimal.InUnit review.score)
    (hresume : request.resume ≠ none → w.files.has (SessionState.filePath c.dir) = false) :
    w.Throughout (FileTree.IsInOrder c.dir) (c.run request w).workspace := by
  obtain ⟨n, hn⟩ := hfiles
  have hacquire := acquire_proceeds c n w
  have hlocked {w₁ : Workspace} (hproceeds : w.Proceeds c.dir n w₁ []) :
      w.Throughout (FileTree.IsInOrder c.dir) w₁ :=
    (hproceeds.throughout hn (List.forall_mem_nil _)).mono fun _ ht => ⟨n, ht⟩
  have hreleased {report : Report} (h : w.Throughout (FileTree.IsInOrder c.dir) report.workspace) :
      w.Throughout (FileTree.IsInOrder c.dir) (report.released c).workspace := ⟨h.changes⟩
  -- whoever has got the lock finds no state either, if none was stored before
  have henter {w₁ : Workspace} (h : Lock.acquire c.registry c.dir w = (.ok (), w₁)) := by
    have hproceeds := hacquire.of_ok h
    refine enter_throughout c request (hlocked hproceeds).last fun hgiven => ?_
    rw [has_filePath_eq_false_iff, hproceeds.cwd_eq, hproceeds.stores.node]
    exact has_filePath_eq_false_iff.1 (hresume hgiven)
  have hruns := run_runs c request w
  generalize c.run request w = report at hruns ⊢
  cases hruns with
  | barred h => exact hlocked (hacquire.of_error h)
  | refused h h' => exact hreleased ((hlocked (hacquire.of_ok h)).trans ((henter h).of_error h'))
  | idle h h' => exact hreleased ((hlocked (hacquire.of_ok h)).trans ((henter h).of_ok h').1)
  | @driven s resume result w₁ w₂ r h h' hdrive =>
    obtain ⟨hway, hfiled⟩ := (henter h).of_ok h'
    have hdriven := (drive_throughout resume (hfiled s resume rfl) hscores).state
    rw [hdrive] at hdriven
    exact hreleased (((hlocked (hacquire.of_ok h)).trans hway).trans hdriven)

/-- What a session can come to in a directory : runs on it, one after the other, each of them made
to its end or cut off. A run is set to a plan from outside only while no state is stored. -/
inductive Reached (dir : Path) (w : Workspace) : Workspace → Prop where
  | start : Reached dir w w
  | visit {w₁ w₂ : Workspace} {v : Visit} : Reached dir w w₁ → v.controller.dir = dir → v.IsTyped →
      (v.request.resume ≠ none → w₁.files.has (SessionState.filePath dir) = false) →
      v.CutsTo w₁ w₂ → Reached dir w w₂

namespace Visit.IsTyped

variable {v : Visit}

/-- The files are in order during a visit. -/
theorem report_throughout (h : v.IsTyped) (hfiles : w.files.IsInOrder v.controller.dir)
    (hresume : v.request.resume ≠ none →
      w.files.has (SessionState.filePath v.controller.dir) = false) :
    Throughout (FileTree.IsInOrder v.controller.dir) { w with now := v.now, locks := v.locks }
      (v.report w).workspace := by
  refine run_throughout v.controller v.request hfiles (fun p review hreviewed => ?_) hresume
  obtain ⟨n, ctx, now, hanswer⟩ := hreviewed
  exact h.scores n p ctx now review hanswer

/-- A visit that is not cut off goes on to its end. -/
theorem cutsTo_report (h : v.IsTyped) (hfiles : w.files.IsInOrder v.controller.dir)
    (hresume : v.request.resume ≠ none →
      w.files.has (SessionState.filePath v.controller.dir) = false) :
    v.CutsTo w (v.report w).workspace := by
  obtain ⟨cs, hjournal, hend, -⟩ := (h.report_throughout hfiles hresume).changes
  refine ⟨cs, [], ?_, hjournal, hend⟩
  rw [List.append_nil]
  exact hjournal

end Visit.IsTyped

theorem Reached.isInOrder (h : Reached dir w w') (hfiles : w.files.IsInOrder dir) :
    w'.files.IsInOrder dir := by
  induction h with
  | start => exact hfiles
  | @visit w₁ w₂ v _ hdir htyped hresume hcut ih =>
    subst hdir
    obtain ⟨cs, ds, hjournal, -, hfiles₂⟩ := hcut
    rw [hfiles₂]
    exact (htyped.report_throughout ih hresume).cut hjournal

/-- Whatever runs a session has that begins without a stored state, and wherever the last of them is
cut off : if there is a stored state, then each line of its history that does not stand for a failed
phase has its plan and its review in the files of its iteration, and the review is the stored one
that belongs to the line. The same holds of the state as it is loaded then. -/
theorem documented_of_reached {files : FileTree} (now : Instant)
    (hfile : files.has (SessionState.filePath dir) = false)
    (hreached : Reached dir (.untouched files now) w) :
    (w.files.has (SessionState.filePath dir) = false ∨
      ∃ s, w.HasStored dir s ∧ s.IsDocumented dir w.files) ∧
    ∀ time s, SessionState.load w.files time dir = .ok (some s) → s.IsDocumented dir w.files := by
  obtain ⟨n, hfiled⟩ := hreached.isInOrder ⟨0, .inl (has_filePath_eq_false_iff.1 hfile)⟩
  refine ⟨?_, fun time s hload => ?_⟩
  · rcases hfiled with hnone | ⟨s, hnode, hs, -⟩
    · exact .inl (has_filePath_eq_false_iff.2 hnone)
    · exact .inr ⟨s, hnode, hs.documented⟩
  · rcases hfiled with hnone | ⟨s₀, hnode, hs₀, -⟩
    · rw [SessionState.load_of_none time hnone] at hload
      cases hload
    · obtain ⟨-, heq⟩ := SessionState.eq_settled_of_load hnode hload
      cases heq
      exact hs₀.settled.documented

/-- A session with two iterations is documented in the end. -/
theorem documented_of_wavering :
    bareTree.has (SessionState.filePath wavering.controller.dir) = false ∧
    ∃ report, wavering.report (.untouched bareTree ⟨0⟩) = report ∧
      Reached wavering.controller.dir (.untouched bareTree ⟨0⟩) report.workspace ∧
      report.workspace.files.has (SessionState.filePath wavering.controller.dir) = true ∧
      ((report.workspace.files.has (SessionState.filePath wavering.controller.dir) = false ∨
        ∃ s, report.workspace.HasStored wavering.controller.dir s ∧
          s.IsDocumented wavering.controller.dir report.workspace.files) ∧
      ∀ time s, SessionState.load report.workspace.files time wavering.controller.dir =
        .ok (some s) → s.IsDocumented wavering.controller.dir report.workspace.files) := by
  have hfile : bareTree.has (SessionState.filePath wavering.controller.dir) = false := by decide
  have hfiles : (Workspace.untouched bareTree ⟨0⟩).files.IsInOrder wavering.controller.dir :=
    ⟨0, .inl (has_filePath_eq_false_iff.1 hfile)⟩
  have hcut := wavering_isTyped.cutsTo_report hfiles fun hresume => absurd rfl hresume
  have hreached := Reached.start.visit rfl wavering_isTyped (fun hresume => absurd rfl hresume) hcut
  have hstored : (wavering.report (.untouched bareTree ⟨0⟩)).workspace.files.has
      (SessionState.filePath wavering.controller.dir) = true := by decide +kernel
  exact ⟨hfile, _, rfl, hreached, hstored, documented_of_reached ⟨0⟩ hfile hreached⟩

end PlanReview
