import PlanReview.Proofs.Session.ReadBack
import PlanReview.Proofs.Session.Steps

/-!
# Saving and loading

Saving a state gives the state's file one text, the text of the state, or fails and leaves the file
alone, whatever the disk refuses (`saveOn_ends`). Every other file stays as it is (`save_spares`,
`save_holds`). What is loaded later is what a file holds of that state (`eq_settled_of_load`,
`load_stored`).
-/

namespace PlanReview.SessionState

open Workspace

variable {key : List String} {w : Workspace} {disk : Disk} {dir : Path} {text : String}
  {s : SessionState}

/-! ## Saving -/

/-- How a save ends : with the complete file renamed, or with a failure and nothing done to what is
there already. -/
theorem saveOn_ends_of (key : List String) (disk : Disk) (dir : Path) (s : SessionState)
    (hkey : w.files.node? key ≠ none ∨ ¬ key <+: dir.resolve w.files.cwd)
    (hbegins : ¬ dir.resolve w.files.cwd ++ [temporaryName] <+: key) :
    Ends (s.saveOn disk dir) w
      (fun _ w' => ∃ w₁, w.Spares key w₁ ∧ Renames dir s.storedText w₁ w')
      fun _ w' => w.Spares key w' := by
  refine Ends.bind (takeSteps_all_ends disk dir s.storedText hkey hbegins) ?_ nofun
  rintro (fault | _) w₁ hends
  · have hspares : w.Spares key w₁ := hends
    rw [← hspares.cwd_eq] at hbegins
    have hgiven : Ends (discard disk dir) w₁ (fun _ w' => w.Spares key w')
        fun _ w' => w.Spares key w' :=
      (discard_spares disk dir hbegins).mono (fun _ _ => hspares.trans) fun _ _ => hspares.trans
    exact Ends.bind hgiven (fun _ _ => id) fun _ _ => id
  · exact hends

/-- A save gives the file of the state the text of the state, or leaves it alone. -/
theorem saveOn_ends (disk : Disk) (dir : Path) (s : SessionState) :
    Ends (s.saveOn disk dir) w
      (fun _ w' => w.Stores (dir.resolve w.files.cwd ++ [fileName]) w' [s.storedText])
      fun _ w' => w.Spares (dir.resolve w.files.cwd ++ [fileName]) w' := by
  refine (saveOn_ends_of _ disk dir s (.inr fun hbegins => ?_)
    (not_prefix_of_name _ (by decide))).mono ?_ fun _ _ => id
  · simpa using hbegins.length_le
  · rintro _ _ ⟨w₁, hspares, hrenames⟩
    rw [← hspares.cwd_eq] at hspares ⊢
    exact hspares.trans_stores hrenames.stores

/-- The saved text can be read, and no temporary file is left. -/
theorem saveOn_stored (disk : Disk) (dir : Path) (s : SessionState) :
    Ends (s.saveOn disk dir) w
      (fun _ w' => w'.files.Holds (dir.resolve w.files.cwd ++ [fileName]) (.text s.storedText) ∧
        w'.files.node? (dir.resolve w.files.cwd ++ [temporaryName]) = none)
      fun _ _ => True := by
  refine (saveOn_ends_of [] disk dir s (.inl (Option.some_ne_none _)) (by simp)).mono ?_
    fun _ _ _ => trivial
  rintro _ _ ⟨w₁, hspares, hrenames⟩
  rw [← hspares.cwd_eq]
  exact ⟨hrenames.holds, hrenames.temporary⟩

theorem save_ends (dir : Path) (s : SessionState) :
    Ends (s.save dir) w
      (fun _ w' => w.Stores (dir.resolve w.files.cwd ++ [fileName]) w' [s.storedText])
      fun _ w' => w.Spares (dir.resolve w.files.cwd ++ [fileName]) w' :=
  saveOn_ends {} dir s

theorem save_stored (dir : Path) (s : SessionState) :
    Ends (s.save dir) w
      (fun _ w' => w'.files.Holds (dir.resolve w.files.cwd ++ [fileName]) (.text s.storedText))
      fun _ _ => True :=
  (saveOn_stored {} dir s).mono (fun _ _ h => h.1) fun _ _ => id

/-- A save leaves every other file alone. -/
theorem save_spares (dir : Path) (s : SessionState) (hthere : w.files.node? key ≠ none)
    (hfile : key ≠ dir.resolve w.files.cwd ++ [fileName])
    (hbegins : ¬ dir.resolve w.files.cwd ++ [temporaryName] <+: key) :
    Ends (s.save dir) w (fun _ w' => w.Spares key w') fun _ w' => w.Spares key w' := by
  refine (saveOn_ends_of _ {} dir s (.inl hthere) hbegins).mono ?_ fun _ _ => id
  rintro _ _ ⟨w₁, hspares, hrenames⟩
  rw [← hspares.cwd_eq] at hfile hbegins
  exact hspares.trans (hrenames.spares hfile hbegins)

/-! ## Saving where nothing is refused -/

theorem save_eq_saveOn (dir : Path) (s : SessionState) : s.save dir = s.saveOn {} dir := rfl

theorem mem_of_refused {encoder : Encoder} {text reason : String}
    (h : encoder.refuses text = some reason) : '\uFFFD' ∈ text.toList := by
  by_contra hnot
  cases h.symm.trans (encoder.encodes text hnot)

theorem saveWith_of_encoded {encoder : Encoder} (h : encoder.refuses s.storedText = none)
    (dir : Path) : s.saveWith encoder {} dir = s.save dir := by
  rw [saveWith, h, save_eq_saveOn]

theorem saveWith_of_refused {encoder : Encoder} {reason : String}
    (h : encoder.refuses s.storedText = some reason) (disk : Disk) (dir : Path) (w : Workspace) :
    s.saveWith encoder disk dir w = (.error (.value reason), w) := by
  rw [saveWith, h]
  rfl

/-- Once the temporary file can be opened, the steps go on to the renaming; what stands under the
final name is the same by then. -/
theorem exists_prepared (text : String) {cs : List Change}
    (hmake : w.files.makeDirectories dir = .ok cs)
    (hopen : (w.files.applyAll cs).openForWriting (temporaryPath dir) = .ok ()) :
    ∃ w₁, takeSteps {} dir text SaveStep.all w = takeSteps {} dir text [.rename] w₁ ∧
      w₁.files.isDirectory (filePath dir) = (w.files.applyAll cs).isDirectory (filePath dir) ∧
      w₁.files.Holds ((temporaryPath dir).resolve w₁.files.cwd) (.text text) := by
  obtain ⟨names, hnames⟩ : ∃ names, (temporaryPath dir).resolve (w.afterAll cs).files.cwd = names :=
    ⟨_, rfl⟩
  have hspares : (w.afterAll cs).Spares (dir.resolve (w.afterAll cs).files.cwd ++ [fileName])
      ((w.afterAll cs).afterAll ([.text "", .text text].map (.write names))) := by
    rw [resolve_temporaryPath] at hnames
    refine spares_writes (by simp [← hnames]) ?_ _
    rw [← hnames, Ne, List.append_cancel_left_eq]
    decide
  refine ⟨(w.afterAll cs).afterAll ([.text "", .text text].map (.write names)), ?_, ?_, ?_⟩
  · have hmade : stepChanges {} dir text w.files .makeDirectory = .ok cs := hmake
    have hwritten : stepChanges {} dir text
        ((w.afterAll cs).afterAll [.write names (.text "")]).files .writeText =
          .ok [.write names (.text text)] := by
      rw [← hnames]
      rfl
    have hsynced (t : FileTree) : stepChanges {} dir text t .sync = .ok [] := rfl
    have hopened : stepChanges {} dir text (w.afterAll cs).files .openFile = .ok [_] :=
      openFile_of_open hopen
    rw [SaveStep.all, takeSteps_of_changes hmade rfl, takeSteps_of_changes hopened rfl, hnames,
      takeSteps_of_changes hwritten rfl, takeSteps_of_changes (hsynced _) rfl]
    exact rfl
  · have hnode := hspares.node_eq
    rw [← resolve_filePath] at hnode
    rw [FileTree.isDirectory, FileTree.find?, hspares.cwd_eq, hnode]
    rfl
  · have hempty := Act.holds_write (w := w.afterAll cs) hopen (.text "")
    have hfull := holds_writes hempty [] (.text text)
    rw [hspares.cwd_eq, hnames]
    rwa [hnames] at hfull

/-- What comes of a save whose temporary file can be opened depends on the final name only. -/
theorem save_of_opened (s : SessionState) {cs : List Change}
    (hmake : w.files.makeDirectories dir = .ok cs)
    (hopen : (w.files.applyAll cs).openForWriting (temporaryPath dir) = .ok ()) :
    (s.save dir w).1 =
      if (w.files.applyAll cs).isDirectory (filePath dir) then
        .error (.persistence (.unwritable (filePath dir).text
          ⟨.isDirectory, (temporaryPath dir).text, some (filePath dir).text⟩))
      else .ok () := by
  obtain ⟨w₁, hsteps, hdirectory, hholds⟩ := exists_prepared s.storedText hmake hopen
  rw [save_eq_saveOn, saveOn, bind_apply, hsteps]
  cases hdir : (w.files.applyAll cs).isDirectory (filePath dir) with
  | false =>
    have hrenamed : stepChanges {} dir s.storedText w₁.files .rename = .ok
        [.rename ((temporaryPath dir).resolve w₁.files.cwd)
          ((filePath dir).resolve w₁.files.cwd)] := by
      rw [stepChanges, hdirectory, hdir]
      rfl
    rw [takeSteps_of_changes hrenamed rfl]
    rfl
  | true =>
    have hrefused : stepChanges {} dir s.storedText w₁.files .rename =
        .error ⟨.isDirectory, (temporaryPath dir).text, some (filePath dir).text⟩ := by
      rw [stepChanges, hdirectory, hdir]
      rfl
    rw [takeSteps_of_obstacle hrefused]
    change ((discard {} dir >>= fun _ => _ : Act Unit) w₁).1 = _
    rw [bind_apply, discard_of_holds hholds rfl]
    rfl

/-- A save succeeds where the directory is there and nothing stands in the way. -/
theorem save_unobstructed (s : SessionState)
    (hdir : w.files.node? (dir.resolve w.files.cwd) = some .directory)
    (hopen : w.files.openForWriting (temporaryPath dir) = .ok ())
    (hfree : w.files.isDirectory (filePath dir) = false) :
    Ends (s.save dir) w (fun _ _ => True) fun _ _ => False := by
  have hresult := save_of_opened s (FileTree.makeDirectories_of_directory hdir) hopen
  rw [show w.files.applyAll [] = w.files from rfl, hfree] at hresult
  refine (Ends.self (s.save dir) w).mono (fun _ _ _ => trivial) fun f w' hfails => ?_
  rw [hfails] at hresult
  cases hresult

/-- Whether a save succeeds does not depend on the state. -/
theorem save_result (dir : Path) (s t : SessionState) (w : Workspace) :
    (s.save dir w).1 = (t.save dir w).1 := by
  -- the text is of no account until the temporary file is open
  have hstopped {fault : PersistenceFault} {w₁ : Workspace}
      (h : ∀ text, takeSteps {} dir text SaveStep.all w = (.ok (.error fault), w₁)) :
      (s.save dir w).1 = (t.save dir w).1 := by
    rw [save_eq_saveOn, save_eq_saveOn, saveOn, saveOn, bind_apply, bind_apply, h, h]
  cases hmake : w.files.makeDirectories dir with
  | error e =>
    exact hstopped fun text => takeSteps_of_obstacle (show stepChanges {} dir text w.files
      .makeDirectory = .error e from hmake)
  | ok cs =>
    cases hopen : (w.files.applyAll cs).openForWriting (temporaryPath dir) with
    | ok _ => rw [save_of_opened s hmake hopen, save_of_opened t hmake hopen]
    | error e =>
      have hsteps (text : String) : takeSteps {} dir text SaveStep.all w =
          (.ok (.error (.unwritable (filePath dir).text e)), w.afterAll cs) := by
        have hmade : stepChanges {} dir text w.files .makeDirectory = .ok cs := hmake
        have hchanges : stepChanges {} dir text (w.afterAll cs).files .openFile = .error e := by
          change ((w.files.applyAll cs).openForWriting (temporaryPath dir) >>= _) = _
          rw [hopen]
          rfl
        rw [SaveStep.all, takeSteps_of_changes hmade rfl, takeSteps_of_obstacle hchanges]
      exact hstopped hsteps

/-- No save succeeds where a directory stands under one of its two names. -/
theorem save_obstructed (dir : Path) (s : SessionState) {name : String}
    (hname : name = temporaryName ∨ name = fileName)
    (hdir : w.files.node? (dir.resolve w.files.cwd ++ [name]) = some .directory) :
    Ends (s.save dir) w (fun _ _ => False) fun _ _ => True := by
  rcases hname with rfl | rfl
  · have hsteps : Ends (takeSteps {} dir s.storedText SaveStep.all) w
        (fun result _ => result ≠ .ok ()) fun _ _ => False := by
      refine takeSteps_cons_ends (fun _ _ _ => nofun) fun w₁ hmade => ?_
      refine takeSteps_cons_ends (fun _ _ _ => nofun) fun w₂ hopened => ?_
      have hcwd := hmade.cwd_eq
      cases hmade with
      | @done cs hmake _ =>
        have hspares : w.Spares (dir.resolve w.files.cwd ++ [temporaryName]) (w.afterAll cs) := by
          rw [← List.take_length (l := cs)]
          exact Act.spares_makeDirectories hmake (.inl (by simp [hdir])) _
        cases hopened with
        | done hopened _ =>
          obtain ⟨hopen, -⟩ := of_openFile hopened
          obtain ⟨-, htemporary⟩ := Act.of_openForWriting hopen
          rw [resolve_temporaryPath, hcwd, hspares.node_eq] at htemporary
          exact absurd hdir htemporary
    refine Ends.bind hsteps ?_ nofun
    rintro (fault | _) w₁ hne
    · exact Ends.bind (Ends.trivial _) (fun _ _ _ => True.intro) fun _ _ _ => True.intro
    · exact absurd rfl hne
  · refine (saveOn_ends_of (dir.resolve w.files.cwd ++ [fileName]) {} dir s
      (.inl (by simp [hdir])) (not_prefix_of_name _ (by decide))).mono ?_ fun _ _ _ => True.intro
    rintro _ _ ⟨w₁, hspares, hrenames⟩
    have hfree := hrenames.free
    rw [hspares.cwd_eq, hspares.node_eq] at hfree
    exact hfree hdir

/-- A file that can be reached stays as it is under a save. -/
theorem save_holds (dir : Path) (s : SessionState) {content : Content}
    (h : w.files.Holds key content) (hfile : key ≠ dir.resolve w.files.cwd ++ [fileName])
    (htemporary : key ≠ dir.resolve w.files.cwd ++ [temporaryName]) :
    Ends (s.save dir) w (fun _ w' => w'.files.Holds key content) fun _ _ => True := by
  by_cases hway : dir.resolve w.files.cwd ++ [temporaryName] <+: key ∨
      dir.resolve w.files.cwd ++ [fileName] <+: key
  · have hobstructed : Ends (s.save dir) w (fun _ _ => False) fun _ _ => True := by
      rcases hway with hway | hway
      · exact save_obstructed dir s (.inl rfl) (h.way _ hway (Ne.symm htemporary))
      · exact save_obstructed dir s (.inr rfl) (h.way _ hway (Ne.symm hfile))
    exact hobstructed.mono (fun _ _ => False.elim) fun _ _ => id
  · rw [not_or] at hway
    refine (ends_holds h fun a ha hthere _ => ?_).mono (fun _ _ => id) fun _ _ _ => trivial
    refine save_spares dir s hthere ?_ fun hbegins => hway.1 (hbegins.trans ha)
    rintro rfl
    exact hway.2 ha

/-! ## Loading -/

/-- Nothing is loaded where nothing was saved. -/
theorem load_of_none {t : FileTree} {dir : Path} (now : String)
    (h : t.node? (dir.resolve t.cwd ++ [fileName]) = none) : load t now dir = .ok none := by
  have hhas : t.has (filePath dir) = false := by
    rw [FileTree.has, FileTree.find?, resolve_filePath, h]
    rfl
  unfold load
  dsimp only
  rw [hhas]
  rfl

/-- Of a saved state a loaded one is what a file holds of it. -/
theorem eq_settled_of_load {t : FileTree} {dir : Path} {now : String} {s : SessionState}
    {o : Option SessionState}
    (hnode : t.node? (dir.resolve t.cwd ++ [fileName]) = some (.file (.text s.storedText)))
    (hload : load t now dir = .ok o) : s.bestScore.isFinite = true ∧ o = some s.settled := by
  have hfind : t.find? (filePath dir) = some (.file (.text s.storedText)) := by
    rw [FileTree.find?, resolve_filePath, hnode]
  unfold load at hload
  dsimp only at hload
  rw [FileTree.has, hfind, if_neg (by simp)] at hload
  unfold FileTree.read at hload
  rw [hfind] at hload
  split at hload
  · cases hload
  · rename_i content hread
    split at hread
    · cases hread
    · cases hread
      rw [readText?_storedText] at hload
      dsimp only at hload
      cases hfinite : s.bestScore.isFinite with
      | true =>
        rw [ofText_storedText hfinite] at hload
        cases hload
        exact ⟨rfl, rfl⟩
      | false =>
        split at hload
        · cases hload
        · rename_i hof
          exact absurd hof (ofText_storedText_of_not_isFinite hfinite now _)

/-- What is loaded where a state was saved, or none. -/
theorem stored_of_node {t : FileTree} {dir : Path} {now : String} {o stored : Option SessionState}
    (hnode : t.node? (dir.resolve t.cwd ++ [fileName]) =
      o.map fun s => .file (.text s.storedText))
    (hload : load t now dir = .ok stored) :
    (∀ s ∈ o, s.bestScore.isFinite = true) ∧ stored = o.map settled := by
  cases o with
  | none =>
    rw [load_of_none now hnode] at hload
    refine ⟨fun s hs => ?_, (Except.ok.inj hload).symm⟩
    cases hs
  | some s =>
    obtain ⟨hfinite, hstored⟩ := eq_settled_of_load hnode hload
    refine ⟨fun s hs => ?_, hstored⟩
    cases hs
    exact hfinite

/-- What is loaded can be read under the name of the state. -/
theorem exists_holds_of_load {t : FileTree} {dir : Path} {now : String} {s : SessionState}
    (hload : load t now dir = .ok (some s)) :
    ∃ content, t.Holds (dir.resolve t.cwd ++ [fileName]) content := by
  unfold load at hload
  dsimp only at hload
  split at hload
  · cases hload
  · split at hload
    · cases hload
    · rename_i content hread
      rw [← resolve_filePath]
      exact ⟨content, FileTree.holds_of_read hread⟩

theorem holds_of_load {t : FileTree} {dir : Path} {now : String} {s : SessionState}
    {content : Content} (hnode : t.node? (dir.resolve t.cwd ++ [fileName]) = some (.file content))
    (hload : load t now dir = .ok (some s)) :
    t.Holds (dir.resolve t.cwd ++ [fileName]) content := by
  obtain ⟨content', hholds⟩ := exists_holds_of_load hload
  cases hnode.symm.trans hholds.node
  exact hholds

theorem read_of_holds {t : FileTree} {dir : Path} {content : Content}
    (h : t.Holds (dir.resolve t.cwd ++ [fileName]) content) :
    t.has (filePath dir) = true ∧ t.read (filePath dir) = .ok content := by
  rw [FileTree.has, FileTree.find?, resolve_filePath, h.node]
  rw [← resolve_filePath] at h
  exact ⟨rfl, h.read_eq⟩

/-- What is loaded depends on the file only. -/
theorem load_eq_of_holds {t t' : FileTree} {dir : Path} {content : Content}
    (h : t.Holds (dir.resolve t.cwd ++ [fileName]) content)
    (h' : t'.Holds (dir.resolve t'.cwd ++ [fileName]) content) (now : String) :
    load t now dir = load t' now dir := by
  unfold load
  dsimp only
  rw [(read_of_holds h).1, (read_of_holds h).2, (read_of_holds h').1, (read_of_holds h').2]

/-- A saved state is loaded as a file holds it, at any time. -/
theorem load_stored {t : FileTree} {dir : Path} {s : SessionState}
    (hfile : t.Holds (dir.resolve t.cwd ++ [fileName]) (.text s.storedText))
    (hfinite : s.bestScore.isFinite = true) (now : String) :
    load t now dir = .ok (some s.settled) := by
  obtain ⟨hhas, hread⟩ := read_of_holds hfile
  unfold load
  dsimp only
  rw [hhas, hread]
  dsimp only
  rw [readText?_storedText]
  dsimp only
  rw [ofText_storedText hfinite]
  rfl

end PlanReview.SessionState
