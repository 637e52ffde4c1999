import PlanReview.Proofs.Loop.Reload
import PlanReview.Proofs.Workspace.Throughout

/-!
# Saves that are cut off

A save may fail at any of its steps, in taking away what it has left, or be cut off between two
changes to the files. At every moment the file of the state is as it was, or it holds the complete
text of the new state (`saveOn_atomic`); so what is loaded afterwards is what was loaded before, or
the new state. A save that answers has replaced the file, and no temporary file is left, whatever
stood under that name; one that fails has left the file of the state alone.

Until the file is renamed nothing is touched that is there already, and the renaming is the last
change of a save; so a save that is cut off has the old file to show, which can be reached as
before, or it was complete (`saveOn_cut`).
-/

namespace PlanReview.SessionState

open Workspace

variable {w : Workspace} {dir : Path} {s : SessionState} {t old : FileTree}

/-! ## The old file and the new one -/

/-- The file of the state is as it was in the tree `old`, and what is loaded, too. -/
structure FileKept (old : FileTree) (dir : Path) (t : FileTree) : Prop where
  node : t.node? (dir.resolve old.cwd ++ [fileName]) = old.node? (dir.resolve old.cwd ++ [fileName])
  load : ∀ now o, SessionState.load old now dir = .ok o → SessionState.load t now dir = .ok o
  /-- A load that failed because of the file fails as it did. -/
  fails : old.obstacle? (dir.resolve old.cwd ++ [fileName]) = none →
    ∀ now f, SessionState.load old now dir = .error f → SessionState.load t now dir = .error f

/-- The file of the state holds the complete text of the state `s`, and this is what is loaded, if
its best score is a number that a file can hold. Of a state that was built only the status is
changed by that, and in it only what no file can hold. -/
structure FileReplaced (dir : Path) (s : SessionState) (t : FileTree) : Prop where
  holds : t.Holds (dir.resolve t.cwd ++ [fileName]) (.text s.storedText)
  load : s.bestScore.isFinite = true → ∀ now, SessionState.load t now dir = .ok (some s.settled)
  built : s.IsBuilt → ∀ now,
    SessionState.load t now dir = .ok (some { s with status := s.status.settled })

theorem FileReplaced.of_holds (h : t.Holds (dir.resolve t.cwd ++ [fileName]) (.text s.storedText)) :
    FileReplaced dir s t := by
  refine ⟨h, load_stored h, fun hbuilt now => ?_⟩
  have hwhole := hbuilt.isWhole
  rw [load_stored h hwhole.scores.best.isFinite, hwhole.settled_eq]

/-- What is loaded depends on the file and the way to it. -/
theorem load_congr (hcwd : t.cwd = old.cwd)
    (hnode : t.node? (dir.resolve old.cwd ++ [fileName]) =
      old.node? (dir.resolve old.cwd ++ [fileName]))
    (hway : t.obstacle? (dir.resolve old.cwd ++ [fileName]) =
      old.obstacle? (dir.resolve old.cwd ++ [fileName])) (now : String) :
    load t now dir = load old now dir := by
  rw [← resolve_filePath] at hnode hway
  have hfind : t.find? (filePath dir) = old.find? (filePath dir) := by
    rw [FileTree.find?, hcwd]
    exact hnode
  have hread : t.read (filePath dir) = old.read (filePath dir) := by
    unfold FileTree.read
    rw [hfind, hcwd, hway]
  unfold load
  dsimp only
  rw [FileTree.has, hfind, hread, FileTree.has]

/-- Where a state is loaded its file can be reached. -/
theorem of_load {now : String} {o : Option SessionState} (h : load old now dir = .ok o) :
    o = none ∧ old.node? (dir.resolve old.cwd ++ [fileName]) = none ∨
      old.obstacle? (dir.resolve old.cwd ++ [fileName]) = none := by
  cases o with
  | some s =>
    obtain ⟨content, hholds⟩ := exists_holds_of_load h
    exact .inr (FileTree.obstacle?_eq_none_iff.2 hholds.way)
  | none =>
    refine .inl ⟨rfl, ?_⟩
    unfold load at h
    dsimp only at h
    split at h
    · rename_i hhas
      rw [FileTree.has, FileTree.find?, resolve_filePath] at hhas
      simpa using hhas
    · repeat' split at h
      all_goals cases h

/-- The file is as it was where it and the directories on the way to it are. -/
theorem fileKept_of_nodes (hcwd : t.cwd = old.cwd)
    (hnode : t.node? (dir.resolve old.cwd ++ [fileName]) =
      old.node? (dir.resolve old.cwd ++ [fileName]))
    (hway : ∀ a, a <+: dir.resolve old.cwd → old.node? a ≠ none → t.node? a = old.node? a) :
    FileKept old dir t := by
  have hreached (h : old.obstacle? (dir.resolve old.cwd ++ [fileName]) = none) (now : String) :
      load t now dir = load old now dir := by
    refine load_congr hcwd hnode ?_ now
    rw [h]
    refine FileTree.obstacle?_eq_none_iff.2 fun a ha hne => ?_
    have hdirectory := FileTree.obstacle?_eq_none_iff.1 h a ha hne
    rw [hway a ((List.prefix_concat_iff.1 ha).resolve_left hne) (by simp [hdirectory])]
    exact hdirectory
  refine ⟨hnode, fun now o hload => ?_, fun h now f hload => (hreached h now).trans hload⟩
  rcases of_load hload with ⟨rfl, hnone⟩ | h
  · exact load_of_none now (by rw [hcwd, hnode, hnone])
  · exact (hreached h now).trans hload

/-! ## Cuts -/

/-- A save that is cut off before its last change, the renaming, has touched nothing that is there
but the temporary file. -/
theorem saveOn_cut (key : List String) (disk : Disk) (dir : Path) (s : SessionState)
    (hkey : w.files.node? key ≠ none ∨ ¬ key <+: dir.resolve w.files.cwd)
    (hbegins : ¬ dir.resolve w.files.cwd ++ [temporaryName] <+: key) :
    Ends (s.saveOn disk dir) w
      (fun _ w' => ∀ ds es, w'.journal = (ds ++ es).reverse ++ w.journal →
        w.files.applyAll ds ≠ w'.files → (w.files.applyAll ds).node? key = w.files.node? key)
      fun _ w' => ∀ ds es, w'.journal = (ds ++ es).reverse ++ w.journal →
        (w.files.applyAll ds).node? key = w.files.node? key := by
  refine (saveOn_ends_of key disk dir s hkey hbegins).mono ?_
    fun _ _ hspares ds es hjournal => hspares.node?_cut hjournal
  rintro _ w' ⟨w₁, hspares, hrenames⟩ ds es hjournal hne
  obtain ⟨cs, hjournal₁, hfiles₁, -⟩ := hspares.changes
  rw [hrenames.after] at hjournal hne
  rcases List.eq_nil_or_concat es with rfl | ⟨es', c, rfl⟩
  · -- all changes are made
    rw [List.append_nil] at hjournal
    refine absurd ?_ hne
    have hall : ds = cs ++ [_] := List.reverse_injective (List.append_cancel_right
      (hjournal.symm.trans (by rw [List.reverse_concat, List.cons_append, ← hjournal₁]; rfl)))
    rw [hall, FileTree.applyAll_append, ← hfiles₁]
    rfl
  · rw [List.concat_eq_append, ← List.append_assoc, List.reverse_concat] at hjournal
    exact hspares.node?_cut (List.cons.inj hjournal).2

/-- A save answers only if the disk has refused no step. -/
theorem takeSteps_goes (disk : Disk) (dir : Path) (text : String) (steps : List SaveStep)
    (w : Workspace) : Ends (takeSteps disk dir text steps) w
      (fun result _ => result = .ok () → ∀ step ∈ steps, disk.refuses step = none)
      fun _ _ => False := by
  induction steps generalizing w with
  | nil => exact fun _ => nofun
  | cons step steps ih =>
    refine takeSteps_cons_ends (fun _ _ _ => nofun) fun w' hstep => ?_
    refine (ih w').mono (fun result _ hrest hok => ?_) fun _ _ => id
    cases hstep with
    | done _ hrefuses => exact List.forall_mem_cons.2 ⟨hrefuses, hrest hok⟩

/-- A save that fails has taken the temporary file away, or could not do that. -/
theorem saveOn_gives_up (disk : Disk) (dir : Path) (s : SessionState) (w : Workspace) :
    Ends (s.saveOn disk dir) w (fun _ _ => ∀ step, disk.refuses step = none)
      fun f w' => (∃ e, f = .crash (.file e)) ∨ (∃ fault, f = .persistence fault) ∧
        (w'.files.node? (dir.resolve w'.files.cwd ++ [temporaryName]) = none ∨
          w'.files.obstacle? (dir.resolve w'.files.cwd ++ [temporaryName]) = some .missing) := by
  refine Ends.bind (takeSteps_goes disk dir s.storedText SaveStep.all w) ?_ nofun
  rintro (fault | _) w₁ hgoes
  · refine Ends.bind (discard_ends disk dir w₁) (fun _ w₂ hdiscarded => ?_) ?_
    · refine .inr ⟨⟨fault, rfl⟩, ?_⟩
      rcases hdiscarded with ⟨rfl, hmissing⟩ | ⟨rfl, hnone⟩ | rfl
      · exact .inr hmissing
      · exact .inl hnone
      · refine .inl ?_
        change (w₁.files.apply _).node? _ = none
        rw [FileTree.apply, FileTree.node?_take (by simp), if_pos]
        exact List.prefix_refl _
    · rintro f w₂ ⟨-, hcrash⟩
      exact .inl hcrash
  · intro step
    exact hgoes rfl step (by cases step <;> decide)

/-! ## Saving is atomic -/

/-- On every disk, and whatever stands in the directory, a save that answers has at every moment
kept the file of the state as it was or replaced it by the complete new one; in the end it is
replaced, and nothing stands under the temporary name. A save that fails, as it does if the disk
refuses a step, has kept the file as it was at every moment, and it has taken the temporary file
away, if it could. -/
theorem saveOn_atomic (disk : Disk) (dir : Path) (s : SessionState) (w : Workspace) :
    Ends (s.saveOn disk dir) w
      (fun _ w' =>
        w.Throughout (fun t => FileKept w.files dir t ∨ FileReplaced dir s t) w' ∧
        FileReplaced dir s w'.files ∧
        w'.files.node? (dir.resolve w.files.cwd ++ [temporaryName]) = none ∧
        ∀ step, disk.refuses step = none)
      fun f w' =>
        w.Throughout (FileKept w.files dir) w' ∧
        ((∃ e, f = .crash (.file e)) ∨ (∃ fault, f = .persistence fault) ∧
          (w'.files.node? (dir.resolve w'.files.cwd ++ [temporaryName]) = none ∨
            w'.files.obstacle? (dir.resolve w'.files.cwd ++ [temporaryName]) = some .missing)) := by
  have hfile := saveOn_cut (dir.resolve w.files.cwd ++ [fileName]) disk dir s
    (.inr fun hbegins => by simpa using hbegins.length_le) (not_prefix_of_name _ (by decide))
  have hway {a : List String} (ha : a <+: dir.resolve w.files.cwd)
      (hthere : w.files.node? a ≠ none) := saveOn_cut a disk dir s (.inl hthere)
    fun hbegins => by simpa using (hbegins.trans ha).length_le
  refine (Ends.self (s.saveOn disk dir) w).mono (fun _ w' hsave => ?_) fun f w' hsave => ?_
  · have hstores := (saveOn_ends disk dir s).of_ok hsave
    obtain ⟨hholds, hgone⟩ := (saveOn_stored disk dir s).of_ok hsave
    have hreplaced : FileReplaced dir s w'.files := .of_holds (by rwa [hstores.cwd_eq])
    obtain ⟨cs, hjournal, hfiles, -⟩ := hstores.changes
    refine ⟨⟨cs, hjournal, hfiles, fun ds es heq => ?_⟩, hreplaced, hgone,
      (saveOn_gives_up disk dir s w).of_ok hsave⟩
    by_cases hlast : w.files.applyAll ds = w'.files
    · rw [hlast]
      exact .inr hreplaced
    · rw [heq] at hjournal
      exact .inl (fileKept_of_nodes (FileTree.cwd_applyAll _ _)
        (hfile.of_ok hsave ds es hjournal hlast)
        fun a ha hthere => (hway ha hthere).of_ok hsave ds es hjournal hlast)
  · obtain ⟨cs, hjournal, hfiles, -⟩ := ((saveOn_ends disk dir s).of_error hsave).changes
    refine ⟨⟨cs, hjournal, hfiles, fun ds es heq => ?_⟩,
      (saveOn_gives_up disk dir s w).of_error hsave⟩
    rw [heq] at hjournal
    exact fileKept_of_nodes (FileTree.cwd_applyAll _ _) (hfile.of_error hsave ds es hjournal)
      fun a ha hthere => (hway ha hthere).of_error hsave ds es hjournal

/-- A disk that does everything but rename a file. -/
def stubbornDisk : Disk where
  refuses step := if step = .rename then some { reason := "rename refused" } else none

example (s : SessionState) :
    (s.saveOn stubbornDisk (.ofParts ["home", "runs"]) (.untouched bareTree ⟨0⟩)).1 =
      .error (.persistence (.reported
        "Failed to write /home/runs/orchestration-state.json: rename refused")) :=
  rfl

end PlanReview.SessionState
