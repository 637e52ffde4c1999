import PlanReview.Proofs.Loop.Rerun
import PlanReview.Proofs.Workspace.Throughout

/-!
# Requests that may not proceed

A session that was stopped for good is never run again, one that has come to a result only if
something new is asked of it, and one that waits for a human only with an answer or with a plan
from outside (`Request.MayNotProceed`). On the way out of such a run the session that was loaded is
changed in several ways : it may have got another working directory by then. None of this reaches
a file or a model (`run_adds_lockFile_only`). What the run may add is the lock file and what leads
to it (`Lock.acquire_throughout`), and after the lock it does nothing (`enter_touches_nothing`).
-/

namespace PlanReview

open Workspace

variable {c : Controller} {request : Request} {s : SessionState} {key : List String}
  {t t' : FileTree} {w : Workspace}

/-! ## Trees with one more file -/

/-- All that stands in the tree `t` also stands in `t'`, and `t'` has no other files, except perhaps
for the one under `key`. -/
structure FileTree.AddsOnly (key : List String) (t t' : FileTree) : Prop where
  stays : ∀ names node, t.node? names = some node → t'.node? names = some node
  files : ∀ names content, names ≠ key → t'.node? names = some (.file content) →
    t.node? names = some (.file content)

namespace FileTree.AddsOnly

theorem refl (key : List String) (t : FileTree) : t.AddsOnly key t :=
  ⟨fun _ _ => id, fun _ _ _ => id⟩

/-- A directory is made where no file is. -/
theorem makeDirectory {path : List String} (h : t.AddsOnly key t') (hpath : path ≠ [])
    (hfile : ∀ content, t'.node? path ≠ some (.file content)) :
    t.AddsOnly key (t'.apply (.makeDirectory path)) where
  stays names node hnode := by
    have hstays := h.stays names node hnode
    rw [FileTree.apply, FileTree.node?_put hpath]
    split
    · rename_i heq
      rw [heq] at hstays
      cases node with
      | directory => rfl
      | file content => exact absurd hstays (hfile content)
    · exact hstays
  files names content hne hnode := by
    rw [FileTree.apply, FileTree.node?_put hpath] at hnode
    split at hnode
    · cases hnode
    · exact h.files names content hne hnode

/-- So are several, one after the other. -/
theorem makeDirectories {paths : List (List String)} (h : t.AddsOnly key t')
    (hpaths : ∀ path ∈ paths, path ≠ [] ∧ ∀ content, t'.node? path ≠ some (.file content)) :
    t.AddsOnly key (t'.applyAll (paths.map .makeDirectory)) := by
  induction paths generalizing t' with
  | nil => exact h
  | cons path paths ih =>
    obtain ⟨⟨hpath, hfile⟩, hrest⟩ := List.forall_mem_cons.1 hpaths
    refine ih (h.makeDirectory hpath hfile) fun other hother => ⟨(hrest other hother).1, ?_⟩
    rw [FileTree.apply, FileTree.node?_put hpath]
    split
    · intro content heq
      cases heq
    · exact (hrest other hother).2

/-- The file under `key` is written where nothing is. -/
theorem write (h : t.AddsOnly key t') (hkey : t'.node? key = none) (content : Content) :
    t.AddsOnly key (t'.apply (.write key content)) where
  stays names node hnode := by
    have hstays := h.stays names node hnode
    have hne : key ≠ [] := by
      rintro rfl
      cases hkey
    rw [FileTree.apply, FileTree.node?_put hne, if_neg, hstays]
    rintro rfl
    rw [hkey] at hstays
    cases hstays
  files names content' hne hnode := by
    have hnil : key ≠ [] := by
      rintro rfl
      cases hkey
    rw [FileTree.apply, FileTree.node?_put hnil, if_neg hne] at hnode
    exact h.files names content' hne hnode

end FileTree.AddsOnly

/-! ## Taking the lock -/

namespace Act

/-- Directories are made one by one, and only where nothing is. -/
theorem makeDirectories_throughout (key : List String) (dir : Path) (h : t.AddsOnly key w.files) :
    Ends (makeDirectories dir) w (fun _ w' => w.Throughout (t.AddsOnly key) w')
      fun _ _ => False := by
  unfold makeDirectories
  rw [ends_bind, ends_get]
  cases hmake : w.files.makeDirectories dir with
  | error e => exact Throughout.refl h
  | ok cs =>
    obtain ⟨paths, rfl, hpaths, -⟩ := FileTree.exists_paths_of_makeDirectories hmake
    dsimp only
    rw [ends_bind, ends_performAll]
    refine ⟨_, rfl, rfl, fun ds es heq => ?_⟩
    obtain ⟨before, after, rfl, rfl, -⟩ := List.map_eq_append_iff.1 heq
    refine h.makeDirectories fun path hmem => ?_
    have hnone := (hpaths path (List.mem_append_left _ hmem)).2
    refine ⟨?_, fun content hnode => ?_⟩
    · rintro rfl
      cases hnone
    · rw [hnone] at hnode
      cases hnode

end Act

namespace Lock

theorem touch_throughout (file : Path)
    (h : t.AddsOnly (file.resolve w.files.cwd) w.files) :
    Ends (touch file) w
      (fun _ w' => w.Throughout (t.AddsOnly (file.resolve w.files.cwd)) w') fun _ _ => False := by
  unfold touch
  rw [ends_bind, ends_get]
  split
  · exact Throughout.refl h
  · rename_i hfile
    unfold Act.writeText
    rw [ends_bind, ends_get]
    cases hopen : w.files.openForWriting file with
    | error e => exact Throughout.refl h
    | ok _ =>
      have hnone : w.files.node? (file.resolve w.files.cwd) = none := by
        have hdirectory := (Act.of_openForWriting hopen).2
        unfold FileTree.isFile FileTree.find? at hfile
        rcases hnode : w.files.node? (file.resolve w.files.cwd) with _ | _ | content
        · rfl
        · exact absurd hnode hdirectory
        · rw [hnode] at hfile
          exact absurd rfl hfile
      refine ⟨[_], rfl, rfl, fun ds es heq => ?_⟩
      rcases List.singleton_eq_append_iff.1 heq with ⟨rfl, -⟩ | ⟨rfl, -⟩
      · exact h
      · exact h.write hnone _

/-- Taking the lock adds no file but the lock file, and takes nothing away. -/
theorem acquire_throughout (registry : Registry) (dir : Path) (w : Workspace) :
    Ends (acquire registry dir) w
      (fun _ w' => w.Throughout
        (w.files.AddsOnly (((place dir w.files.cwd).child fileName).resolve w.files.cwd)) w')
      fun _ w' => w.Throughout
        (w.files.AddsOnly (((place dir w.files.cwd).child fileName).resolve w.files.cwd)) w' := by
  have hstart := FileTree.AddsOnly.refl
    (((place dir w.files.cwd).child fileName).resolve w.files.cwd) w.files
  unfold acquire
  rw [ends_bind, ends_get]
  dsimp only
  split
  · exact Throughout.refl hstart
  · refine Ends.bind (Act.makeDirectories_throughout _ _ hstart) (fun made w₁ hmade => ?_) nofun
    rw [ends_bind, requireFile_ends]
    cases made with
    | error e => exact hmade
    | ok _ =>
      have hcwd : w₁.files.cwd = w.files.cwd := by
        obtain ⟨cs, -, hfiles, -⟩ := hmade.changes
        rw [hfiles, FileTree.cwd_applyAll]
      have htouch := @touch_throughout w.files w₁ ((place dir w.files.cwd).child fileName)
        (by rw [hcwd]; exact hmade.last)
      rw [hcwd] at htouch
      refine Ends.bind htouch (fun touched w₂ htouched => ?_) nofun
      rw [ends_bind, requireFile_ends]
      have hway := hmade.trans htouched
      cases touched with
      | error e => exact hway
      | ok _ =>
        dsimp only
        split
        · exact hway
        · exact ⟨hway.changes⟩

/-- The lock file is in the directory that it locks, if the working directory is given by names
that do not lead back. -/
theorem resolve_lockFile_eq (dir : Path) {cwd : List String} (h : ".." ∉ cwd) :
    ((place dir cwd).child fileName).resolve cwd = dir.resolve cwd ++ [fileName] := by
  have hstep {parts names : List String} (hnames : ".." ∉ names) :
      ".." ∉ parts.foldl Path.step names := by
    induction parts generalizing names with
    | nil => exact hnames
    | cons part parts ih =>
      refine ih ?_
      unfold Path.step
      split
      · exact fun hmem => hnames (List.dropLast_subset _ hmem)
      · rename_i hne
        simpa [eq_comm] using ⟨hnames, hne⟩
  have hplain {parts names : List String} (hparts : ".." ∉ parts) :
      parts.foldl Path.step names = names ++ parts := by
    induction parts generalizing names with
    | nil => exact (List.append_nil names).symm
    | cons part parts ih =>
      rw [List.mem_cons, not_or] at hparts
      rw [List.foldl_cons, ih hparts.2, Path.step, if_neg (Ne.symm hparts.1), List.append_assoc]
      rfl
  rw [resolve_lockFile, List.append_cancel_right_eq]
  refine (hplain (hstep ?_)).trans (List.nil_append _)
  split
  · exact List.not_mem_nil
  · exact h

end Lock

/-! ## Entering such a session -/

/-- A request that a stored session does not let proceed. -/
inductive Request.MayNotProceed (request : Request) (s : SessionState) : Prop where
  /-- The session was stopped for good. -/
  | stopped : s.status.kind = .hardStopped → MayNotProceed request s
  /-- The session has come to a result, and nothing new is asked of it. -/
  | finished : s.status.kind = .completed ∨ s.status.kind = .bestEffort →
      request.humanResponse = none → request.resume = none → request.resetTurns = false →
      MayNotProceed request s
  /-- The session waits for an answer, and the request has none. -/
  | waiting : s.pendingHumanInput ≠ none → request.humanResponse = none →
      request.resume = none → MayNotProceed request s

namespace Request.MayNotProceed

theorem withWorkingDir (h : request.MayNotProceed s) (dir : Option String) :
    request.MayNotProceed { s with workingDir := dir } := by
  cases h with
  | stopped hkind => exact .stopped hkind
  | finished hkind hresponse hresume hreset => exact .finished hkind hresponse hresume hreset
  | waiting hpending hresponse hresume => exact .waiting hpending hresponse hresume

/-- Such a session is left as it is, or it cannot be taken up. -/
theorem isIdle_or (h : request.MayNotProceed s) (c : Controller) (now : String) :
    request.isIdle s = true ∨ ∃ f, request.takeUp c now s = .error f := by
  cases h with
  | stopped hkind =>
    refine .inl ?_
    unfold Request.isIdle SessionState.canResume
    rw [hkind]
    rfl
  | finished hkind hresponse hresume hreset =>
    exact .inl (isIdle_of_isEnd ⟨hresponse, hresume, hreset⟩
      (hkind.imp_right Or.inl))
  | waiting hpending hresponse hresume =>
    obtain ⟨asked, hasked⟩ := Option.ne_none_iff_exists'.1 hpending
    refine .inr ⟨.humanInput (c.pendingRequest asked), ?_⟩
    unfold Request.takeUp
    rw [hresume, hresponse, hasked]

end Request.MayNotProceed

/-- A session that may not proceed is not entered, and the workspace stays as it is. -/
theorem enter_touches_nothing (h : request.MayNotProceed s)
    (hload : SessionState.load w.files w.now.text c.dir = .ok (some s)) :
    Ends (enter c request) w (fun entry w' => (∃ result, entry = .idle result) ∧ w' = w)
      fun _ w' => w' = w := by
  obtain ⟨dir, hsession⟩ := session_eq request c.artifacts.slug w.now.text s
  rw [ends_enter, hload]
  dsimp only
  rw [hsession]
  rcases (h.withWorkingDir dir).isIdle_or c w.now.text with hidle | ⟨f, htake⟩
  · rw [if_pos hidle]
    split
    · rfl
    · exact ⟨⟨_, rfl⟩, rfl⟩
  · rw [htake]
    split
    · split
      · rfl
      · exact ⟨⟨_, rfl⟩, rfl⟩
    · rfl

/-! ## The run -/

/-- A run that may not proceed calls neither planner nor reviewer. At every moment of it all files
and directories from before are there, with the contents that they had, and the only file that may
be new is the lock file of the session's directory. -/
theorem run_adds_lockFile_only
    (hload : SessionState.load w.files w.now.text c.dir = .ok (some s))
    (h : request.MayNotProceed s) :
    (c.run request w).planned = [] ∧ (c.run request w).reviewed = [] ∧
      w.Throughout (w.files.AddsOnly
        (((Lock.place c.dir w.files.cwd).child Lock.fileName).resolve w.files.cwd))
        (c.run request w).workspace ∧
      (".." ∉ w.files.cwd → ((Lock.place c.dir w.files.cwd).child Lock.fileName).resolve
        w.files.cwd = c.dir.resolve w.files.cwd ++ [Lock.fileName]) := by
  have hacquire := Lock.acquire_throughout c.registry c.dir w
  have hlocked := (@Lock.acquire_loads c.registry c.dir w w.now.text s hload).and
    (Lock.acquire_now c.registry c.dir w)
  unfold Controller.run
  rcases hlock : Lock.acquire c.registry c.dir w with ⟨f | _, w₁⟩
  · exact ⟨rfl, rfl, hacquire.of_error hlock, Lock.resolve_lockFile_eq c.dir⟩
  · have hway := hacquire.of_ok hlock
    obtain ⟨hload₁, hnow⟩ := hlocked.of_ok hlock
    rw [← hnow] at hload₁
    have henter := enter_touches_nothing h hload₁
    dsimp only
    rcases hentry : enter c request w₁ with ⟨f | entry, w₂⟩
    · obtain rfl := henter.of_error hentry
      exact ⟨rfl, rfl, ⟨hway.changes⟩, Lock.resolve_lockFile_eq c.dir⟩
    · obtain ⟨⟨result, rfl⟩, rfl⟩ := henter.of_ok hentry
      exact ⟨rfl, rfl, ⟨hway.changes⟩, Lock.resolve_lockFile_eq c.dir⟩

/-- A tree that holds a session and nothing else. -/
def sessionTree (s : SessionState) : FileTree where
  cwd := ["home"]
  entries := [
    (["home"], ⟨.directory, 0⟩),
    (["home", "runs"], ⟨.directory, 1⟩),
    (["home", "runs", SessionState.fileName], ⟨.file (.text s.storedText), 2⟩)]

theorem load_sessionTree (hfinite : s.bestScore.isFinite = true) (now : String) :
    SessionState.load (sessionTree s) now (.ofParts ["home", "runs"]) = .ok (some s.settled) :=
  SessionState.load_stored ⟨rfl, FileTree.obstacle?_eq_none_iff.1 rfl⟩ hfinite now

/-- A session that was stopped for good. -/
def stoppedSession : SessionState :=
  { SessionState.new "2024-05-17T12:00:00+00:00" "demo" "demo" "demo" none with
    status := { kind := .hardStopped, reason := some "Too many iterations" } }

/-- It adds no file but the lock file to ask a session to go on that was stopped for good. -/
theorem stoppedSession_adds_lockFile_only :
    ∃ (w : Workspace) (s : SessionState),
      SessionState.load w.files w.now.text wavering.controller.dir = .ok (some s) ∧
      ({ task := "demo", humanResponse := some "Go on", resetTurns := true } :
        Request).MayNotProceed s ∧
      ∃ report, wavering.controller.run
          { task := "demo", humanResponse := some "Go on", resetTurns := true } w = report ∧
        report.planned = [] ∧ report.reviewed = [] ∧
        w.Throughout (w.files.AddsOnly ["home", "runs", ".session.lock"]) report.workspace := by
  have hload := @load_sessionTree stoppedSession (by decide +kernel) (Instant.text ⟨0⟩)
  have hstopped : stoppedSession.settled.status.kind = .hardStopped := rfl
  obtain ⟨hplanned, hreviewed, hway, -⟩ := @run_adds_lockFile_only wavering.controller
    { task := "demo", humanResponse := some "Go on", resetTurns := true } _
    (.untouched (sessionTree stoppedSession) ⟨0⟩) hload (.stopped hstopped)
  exact ⟨.untouched (sessionTree stoppedSession) ⟨0⟩, stoppedSession.settled, hload,
    .stopped hstopped, _, rfl, hplanned, hreviewed, hway⟩

end PlanReview
