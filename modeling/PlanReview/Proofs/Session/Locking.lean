import PlanReview.Proofs.Artifact.Files
import PlanReview.Proofs.Loop.Frame
import PlanReview.Proofs.Session.Frame
import PlanReview.Proofs.Session.Saving
import PlanReview.Proofs.Workspace.OnFiles

/-!
# Taking a lock again

Whoever has got the lock of a session finds its file in its directory (`acquire_ready`). A run
leaves both and the locks as they are (`respects_ready`), and once the lock is given back the locks
are those from before (`release_take`). So the lock can be taken again at once (`acquire_eq`).
-/

namespace PlanReview.Lock

open Workspace

variable {registry : Registry} {dir : Path} {cwd key : List String} {w w' : Workspace}

/-- The lock file of a directory is there, in its place. -/
structure IsReady (dir : Path) (cwd : List String) (w : Workspace) : Prop where
  cwd_eq : w.files.cwd = cwd
  directory : w.files.node? ((place dir cwd).resolve cwd) = some .directory
  file : ∃ content,
    w.files.node? ((place dir cwd).resolve cwd ++ [fileName]) = some (.file content)

theorem resolve_lockFile (dir : Path) (cwd : List String) :
    ((place dir cwd).child fileName).resolve cwd = (place dir cwd).resolve cwd ++ [fileName] :=
  Path.resolve_child isEnding_fileName.isName _ _

/-- What leaves the file and its directory alone, leaves the lock ready. -/
theorem IsReady.spares (h : IsReady dir cwd w)
    (hplace : w.Spares ((place dir cwd).resolve cwd) w')
    (hfile : w.Spares ((place dir cwd).resolve cwd ++ [fileName]) w') : IsReady dir cwd w' := by
  refine ⟨hplace.cwd_eq.trans h.cwd_eq, hplace.node_eq.trans h.directory, ?_⟩
  obtain ⟨content, hcontent⟩ := h.file
  exact ⟨content, hfile.node_eq.trans hcontent⟩

/-! ## Taking the lock -/

theorem touch_file (file : Path) (w : Workspace) :
    Ends (touch file) w
      (fun result w' => result = .ok () →
        ∃ content, w'.files.node? (file.resolve w.files.cwd) = some (.file content))
      fun _ _ => False := by
  unfold touch
  rw [ends_bind, ends_get]
  by_cases hfile : w.files.isFile file
  · rw [if_pos hfile]
    intro _
    unfold FileTree.isFile FileTree.find? at hfile
    split at hfile
    · rename_i content hnode
      exact ⟨content, hnode⟩
    · cases hfile
  · rw [if_neg hfile]
    have hwrite := @Act.writeText_ends [] w file "" fun _ => rfl
    exact hwrite.mono (fun _ _ h hok => ⟨_, (h.2 hok).node⟩) fun _ _ => id

/-- A lock file that is there is left alone. -/
theorem touch_there {file : Path} (h : w.files.isFile file = true) :
    Ends (touch file) w (fun result w' => result = .ok () ∧ w' = w) fun _ _ => False := by
  unfold touch
  rw [ends_bind, ends_get, if_pos h]
  exact ⟨rfl, rfl⟩

theorem byFiles_touch (file : Path) : (touch file).ByFiles := by
  unfold touch
  refine Act.ByFiles.get.bind fun w => ?_
  split
  · exact .pure _
  · exact Act.byFiles_writeText _ _

/-- Whoever gets the lock has got it free, and finds its file ready. -/
theorem acquire_ready (registry : Registry) (dir : Path) (w : Workspace) :
    Ends (acquire registry dir) w
      (fun _ w' => IsReady dir w.files.cwd w' ∧
        w.locks.holds registry (dir.resolve w.files.cwd) = false ∧
        w.locks.isTaken (dir.resolve w.files.cwd) = false ∧
        w'.locks = w.locks.take registry (dir.resolve w.files.cwd))
      fun _ _ => True := by
  unfold acquire
  rw [ends_bind, ends_get]
  dsimp only
  cases hholds : w.locks.holds registry (dir.resolve w.files.cwd) with
  | true =>
    rw [if_pos rfl]
    exact True.intro
  | false =>
    rw [if_neg Bool.false_ne_true]
    have hmake := ((Act.makeDirectories_directory (place dir w.files.cwd) w).and
      ((Act.byFiles_makeDirectories (place dir w.files.cwd)).onFiles.ends w)).and
      (@Act.makeDirectories_ends [] w (place dir w.files.cwd) (.inl (Option.some_ne_none _)))
    refine Ends.bind hmake (fun made w₁ ⟨⟨hdirectory, hlocks⟩, hspares⟩ => ?_)
      fun _ _ _ => True.intro
    rw [ends_bind, requireFile_ends]
    cases made with
    | error e => exact True.intro
    | ok _ =>
      have hne : (place dir w.files.cwd).resolve w.files.cwd ≠
          ((place dir w.files.cwd).child fileName).resolve w₁.files.cwd := by
        rw [hspares.cwd_eq, resolve_lockFile]
        simp
      have htouch := ((touch_file ((place dir w.files.cwd).child fileName) w₁).and
        ((byFiles_touch ((place dir w.files.cwd).child fileName)).onFiles.ends w₁)).and
        (touch_ends ((place dir w.files.cwd).child fileName) fun heq => absurd heq hne)
      refine Ends.bind htouch (fun touched w₂ ⟨⟨hfile, hlocks₂⟩, hspares₂⟩ => ?_)
        fun _ _ _ => True.intro
      rw [ends_bind, requireFile_ends]
      cases touched with
      | error e => exact True.intro
      | ok _ =>
        rw [hspares.cwd_eq, resolve_lockFile] at hfile
        rw [hlocks] at hlocks₂
        dsimp only
        cases htaken : w.locks.isTaken (dir.resolve w.files.cwd) with
        | true =>
          rw [if_pos rfl]
          exact True.intro
        | false =>
          rw [if_neg Bool.false_ne_true]
          refine ⟨⟨hspares₂.cwd_eq.trans hspares.cwd_eq, ?_, hfile rfl⟩, rfl, rfl, ?_⟩
          · exact hspares₂.node_eq.trans (hdirectory rfl)
          · exact congrArg (fun l : Locks => l.take registry (dir.resolve w.files.cwd)) hlocks₂

/-- Taking the lock does not move the clock. -/
theorem acquire_now (registry : Registry) (dir : Path) (w : Workspace) :
    Ends (acquire registry dir) w (fun _ w' => w'.now = w.now) fun _ _ => True := by
  have hfiles {α : Type} {m : Act α} (h : m.OnFiles) (w : Workspace) :
      Ends m w (fun _ w' => w'.now = w.now) fun _ _ => True := by
    obtain ⟨files, journal, hm⟩ := h w
    have hnow : (m w).2.now = w.now := by rw [hm]
    rw [Ends]
    split
    · rename_i heq
      rwa [heq] at hnow
    · exact True.intro
  unfold acquire
  rw [ends_bind, ends_get]
  dsimp only
  split
  · exact True.intro
  · refine Ends.bind (hfiles (Act.byFiles_makeDirectories _).onFiles w) (fun made w₁ h₁ => ?_)
      fun _ _ => id
    rw [ends_bind, requireFile_ends]
    cases made with
    | error e => exact True.intro
    | ok _ =>
      refine Ends.bind (hfiles (byFiles_touch _).onFiles w₁) (fun touched w₂ h₂ => ?_)
        fun _ _ => id
      rw [ends_bind, requireFile_ends]
      cases touched with
      | error e => exact True.intro
      | ok _ =>
        dsimp only
        split
        · exact True.intro
        · exact h₂.trans h₁

/-- A stored session can be loaded when its lock is taken, as before. -/
theorem acquire_loads {now : String} {s : SessionState}
    (hload : SessionState.load w.files now dir = .ok (some s)) :
    Ends (acquire registry dir) w
      (fun _ w' => SessionState.load w'.files now dir = .ok (some s)) fun _ _ => True := by
  obtain ⟨content, hheld⟩ := SessionState.exists_holds_of_load hload
  have hcwd := (@acquire_ends [] w registry dir (.inl (Option.some_ne_none _)) fun _ => rfl).mono
    (fun _ _ h => h.cwd_eq) fun _ _ _ => True.intro
  have hholds := ends_holds (m := acquire registry dir) hheld fun a ha hthere hk => ?_
  · refine (hcwd.and hholds).mono (fun _ w' ⟨hcwd, hheld'⟩ => ?_) fun _ _ _ => True.intro
    rw [← hcwd] at hheld'
    rw [← SessionState.load_eq_of_holds hheld hheld']
    exact hload
  · refine acquire_ends registry dir (.inl hthere) fun heq => hk.resolve_left ?_
    rintro rfl
    exact absurd (List.singleton_inj.1 (List.append_inj_right' heq rfl)) (by decide)

/-- A lock that is ready and free can be taken, and only the locks change. -/
theorem acquire_eq (h : IsReady dir cwd w)
    (hholds : w.locks.holds registry (dir.resolve cwd) = false)
    (htaken : w.locks.isTaken (dir.resolve cwd) = false) :
    acquire registry dir w =
      (.ok (), { w with locks := w.locks.take registry (dir.resolve cwd) }) := by
  obtain ⟨rfl, hdirectory, content, hcontent⟩ := h
  have hisFile : w.files.isFile ((place dir w.files.cwd).child fileName) = true := by
    rw [FileTree.isFile, FileTree.find?, resolve_lockFile, hcontent]
  apply Ends.eq
  unfold acquire
  rw [ends_bind, ends_get]
  dsimp only
  rw [if_neg (by rw [hholds]; exact Bool.false_ne_true)]
  refine Ends.bind (Act.makeDirectories_there hdirectory) ?_ fun _ _ => id
  rintro _ _ ⟨rfl, rfl⟩
  rw [ends_bind, requireFile_ends]
  refine Ends.bind (touch_there hisFile) ?_ fun _ _ => id
  rintro _ _ ⟨rfl, rfl⟩
  rw [ends_bind, requireFile_ends]
  dsimp only
  rw [if_neg (by rw [htaken]; exact Bool.false_ne_true)]
  exact ⟨rfl, rfl⟩

/-! ## Giving it back -/

theorem erase_concat {α : Type} [BEq α] [LawfulBEq α] {l : List α} {a : α} (h : a ∉ l) :
    (l ++ [a]).erase a = l := by
  rw [List.erase_append_right _ h, List.erase_cons_head, List.append_nil]

/-- Once a lock is given back, the locks are those from before. -/
theorem release_take {l : Locks} (hholds : l.holds registry key = false)
    (htaken : l.isTaken key = false) : (l.take registry key).release registry key = l := by
  have hheld : (registry, key) ∉ l.held := by simpa [Locks.holds] using hholds
  have hfree : key ∉ l.taken := by simpa [Locks.isTaken] using htaken
  have hgot : (l.take registry key).holds registry key = true := by
    simp [Locks.holds, Locks.take]
  rw [Locks.release, if_pos hgot]
  simp only [Locks.take]
  rw [erase_concat hheld, erase_concat hfree]

/-! ## While it is held -/

theorem isOwnName_fileName : Artifacts.IsOwnName fileName := by
  unfold Artifacts.IsOwnName Artifacts.finalEndings
  decide

theorem append_name_ne {names names' : List String} {name : String} (h : fileName ≠ name) :
    names ++ [fileName] ≠ names' ++ [name] := by
  intro heq
  have hlast := (List.append_inj' heq rfl).2
  rw [List.singleton_inj] at hlast
  exact h hlast

theorem IsReady.place_ne_none (h : IsReady dir cwd w) :
    w.files.node? ((place dir cwd).resolve cwd) ≠ none := by
  rw [h.directory]
  exact Option.some_ne_none _

theorem IsReady.file_ne_none (h : IsReady dir cwd w) :
    w.files.node? ((place dir cwd).resolve cwd ++ [fileName]) ≠ none := by
  obtain ⟨content, hcontent⟩ := h.file
  rw [hcontent]
  exact Option.some_ne_none _

/-- An operation on files leaves the lock ready that leaves the file and its directory alone. -/
theorem IsReady.ends {α : Type} {m : Act α} {l : Locks} (h : IsReady dir cwd w ∧ w.locks = l)
    (hm : m.OnFiles)
    (hplace : Ends m w (fun _ w' => w.Spares ((place dir cwd).resolve cwd) w')
      fun _ w' => w.Spares ((place dir cwd).resolve cwd) w')
    (hfile : Ends m w (fun _ w' => w.Spares ((place dir cwd).resolve cwd ++ [fileName]) w')
      fun _ w' => w.Spares ((place dir cwd).resolve cwd ++ [fileName]) w') :
    Ends m w (fun _ w' => IsReady dir cwd w' ∧ w'.locks = l)
      fun _ w' => IsReady dir cwd w' ∧ w'.locks = l := by
  obtain ⟨hready, rfl⟩ := h
  exact ((hplace.and hfile).and (hm.ends w)).mono
    (fun _ _ ⟨⟨hplace, hfile⟩, hlocks⟩ => ⟨hready.spares hplace hfile, hlocks⟩)
    fun _ _ ⟨⟨hplace, hfile⟩, hlocks⟩ => ⟨hready.spares hplace hfile, hlocks⟩

/-- A run leaves its lock ready, and the locks as they are. -/
theorem respects_ready (c : Controller) (cwd : List String) (l : Locks) :
    c.Respects fun w => IsReady c.dir cwd w ∧ w.locks = l where
  later w micros h := ⟨h.1.spares (later_spares _ _) (later_spares _ _), h.2⟩
  plan w p n h := by
    refine IsReady.ends h (Artifacts.byFiles_writePlan _ _ _).onFiles ?_ ?_
    · exact (c.artifacts.writePlan_ends p n h.1.place_ne_none fun _ => h.1.directory).mono
        (fun _ _ h => h.1) fun _ _ => id
    · refine (c.artifacts.writePlan_ends p n h.1.file_ne_none fun heq => ?_).mono
        (fun _ _ h => h.1) fun _ _ => id
      exact absurd heq (append_name_ne (Artifacts.numbered_ne (by decide) n))
  review w r n h := by
    refine IsReady.ends h (Artifacts.byFiles_writeReview _ _ _).onFiles ?_ ?_
    · exact (c.artifacts.writeReview_ends r n h.1.place_ne_none fun _ => h.1.directory).mono
        (fun _ _ h => h.1) fun _ _ => id
    · refine (c.artifacts.writeReview_ends r n h.1.file_ne_none fun heq => ?_).mono
        (fun _ _ h => h.1) fun _ _ => id
      exact absurd heq (append_name_ne (Artifacts.numbered_ne (by decide) n))
  final w p status score h := by
    refine IsReady.ends h (Artifacts.byFiles_writeFinal _ _ _ _).onFiles ?_ ?_
    · exact (c.artifacts.writeFinal_ends p status score h.1.place_ne_none
        (.inr h.1.directory)).mono (fun _ _ h => h.1) fun _ _ => id
    · exact (c.artifacts.writeFinal_ends p status score h.1.file_ne_none
        (.inl ⟨_, _, rfl, isOwnName_fileName⟩)).mono (fun _ _ h => h.1) fun _ _ => id
  save w s h := by
    obtain ⟨hready, hlocks⟩ := h
    obtain rfl := hready.cwd_eq
    refine IsReady.ends ⟨hready, hlocks⟩ (SessionState.byFiles_save _ _).onFiles ?_ ?_
    · refine s.save_spares c.dir hready.place_ne_none (fun heq => ?_) (not_prefix_place _ _ _)
      exact not_prefix_place c.dir w.files.cwd SessionState.fileName (by rw [heq])
    · refine s.save_spares c.dir hready.file_ne_none (append_name_ne (by decide)) fun hbegins => ?_
      rcases List.prefix_concat_iff.1 hbegins with heq | hbegins
      · exact append_name_ne (by decide) heq.symm
      · exact not_prefix_place _ _ _ hbegins
  metrics w t outcome h := by
    refine IsReady.ends h (t.byFiles_record _ _).onFiles ?_ ?_
    · exact t.record_ends c.dir outcome (.inl h.1.place_ne_none) fun _ => h.1.directory
    · exact t.record_ends c.dir outcome (.inl h.1.file_ne_none) fun heq =>
        absurd heq (append_name_ne (by decide))

end PlanReview.Lock
