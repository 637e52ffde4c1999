import Mathlib.Logic.Relation
import PlanReview.Proofs.Session.Locking

/-!
# One worker for each session

Any number of workers enter and leave `hold`, each for a registry and a directory of its own choice
(`Scene.Step`). What registries hold and what is taken are then always exactly the directories of
the workers inside, each of them once (`Scene.IsConsistent`) : an entry only succeeds where the lock
was free, an entry that fails leaves all locks as they were (`acquire_kept`), and an exit gives back
what its entry took. So no two workers are inside for one directory (`Scene.exclusion`).

A run of `hold` is an entry, its operation, and an exit, however the operation ends
(`Scene.reachable_hold`).
-/

namespace PlanReview

open Workspace Relation

namespace Lock

variable {w : Workspace}

/-- There is a lock file in the directory. -/
def HasFile (names : List String) (w : Workspace) : Prop :=
  ∃ content, w.files.node? (names ++ [fileName]) = some (.file content)

/-! ## What an entry keeps -/

theorem byFiles_requireFile (dir : Path) (result : Except FileError Unit) :
    (requireFile dir result).ByFiles := by
  cases result with
  | error e => exact .throw True.intro
  | ok _ => exact .pure _

/-- An entry that fails leaves the locks as they were. -/
theorem acquire_kept (registry : Registry) (dir : Path) (w : Workspace) :
    Ends (acquire registry dir) w (fun _ _ => True) fun _ w' => w'.locks = w.locks := by
  have hkept {α β : Type} {m : Act α} {f : α → Act β} {w₁ : Workspace} (hm : m.OnFiles)
      (h₁ : w₁.locks = w.locks) (hf : ∀ a w₂, w₂.locks = w.locks →
        Ends (f a) w₂ (fun _ _ => True) fun _ w' => w'.locks = w.locks) :
      Ends (m >>= f) w₁ (fun _ _ => True) fun _ w' => w'.locks = w.locks :=
    Ends.bind (hm.ends w₁) (fun a w₂ h₂ => hf a w₂ (h₂.trans h₁)) fun _ _ h₂ => h₂.trans h₁
  unfold acquire
  rw [ends_bind, ends_get]
  dsimp only
  split
  · exact rfl
  · refine hkept (Act.byFiles_makeDirectories _).onFiles rfl fun made w₁ h₁ => ?_
    refine hkept (byFiles_requireFile _ made).onFiles h₁ fun _ w₂ h₂ => ?_
    refine hkept (byFiles_touch _).onFiles h₂ fun touched w₃ h₃ => ?_
    refine hkept (byFiles_requireFile _ touched).onFiles h₃ fun _ w₄ h₄ => ?_
    split
    · exact h₄
    · exact True.intro

theorem touch_hasFile {names : List String} (file : Path) (h : HasFile names w) :
    Ends (touch file) w (fun _ w' => HasFile names w') fun _ _ => False := by
  obtain ⟨content, hcontent⟩ := h
  by_cases hown : names ++ [fileName] = file.resolve w.files.cwd
  · have hisFile : w.files.isFile file = true := by
      rw [FileTree.isFile, FileTree.find?, ← hown, hcontent]
    refine (touch_there hisFile).mono (fun _ _ hthere => ?_) fun _ _ => id
    rw [hthere.2]
    exact ⟨content, hcontent⟩
  · exact (touch_ends file fun heq => (hown heq).elim).mono
      (fun _ _ hspares => ⟨content, hspares.node_eq.trans hcontent⟩) fun _ _ => id

/-- An entry leaves every lock file in place, its own too. -/
theorem acquire_hasFile {names : List String} (registry : Registry) (dir : Path)
    (h : HasFile names w) :
    Ends (acquire registry dir) w (fun _ w' => HasFile names w') fun _ w' => HasFile names w' := by
  have hmake := @Act.makeDirectories_ends (names ++ [fileName]) w (place dir w.files.cwd) <| by
    obtain ⟨content, hcontent⟩ := h
    exact .inl (hcontent ▸ Option.some_ne_none _)
  unfold acquire
  rw [ends_bind, ends_get]
  dsimp only
  split
  · exact h
  · refine Ends.bind hmake (fun made w₁ hspares => ?_) nofun
    rw [ends_bind, requireFile_ends]
    have h₁ : HasFile names w₁ := by
      obtain ⟨content, hcontent⟩ := h
      exact ⟨content, hspares.node_eq.trans hcontent⟩
    cases made with
    | error e => exact h₁
    | ok _ =>
      refine Ends.bind (touch_hasFile _ h₁) (fun touched w₂ h₂ => ?_) nofun
      rw [ends_bind, requireFile_ends]
      cases touched with
      | error e => exact h₂
      | ok _ =>
        dsimp only
        split
        · exact h₂
        · exact h₂

/-! ## Workers inside -/

/-- The workspace as a worker in the directory `cwd` sees it. -/
def seenFrom (cwd : List String) (w : Workspace) : Workspace :=
  { w with files := { w.files with cwd := cwd } }

/-- One use of `hold` : the registry, the directory that its worker is in, and the session's
directory as the worker names it. -/
structure Hold where
  registry : Registry
  cwd : List String
  dir : Path
  deriving DecidableEq

namespace Hold

/-- The directory that is driven. -/
def key (h : Hold) : List String :=
  h.dir.resolve h.cwd

/-- Where its lock file is. -/
def home (h : Hold) : List String :=
  (place h.dir h.cwd).resolve h.cwd

/-- What entering does. -/
def enter (h : Hold) (w : Workspace) : Except Failure Unit × Workspace :=
  acquire h.registry h.dir (seenFrom h.cwd w)

/-- The workspace after leaving. -/
def leave (h : Hold) (w : Workspace) : Workspace :=
  (release h.registry h.dir (seenFrom h.cwd w)).2

end Hold

/-- A workspace with the uses of `hold` that have been entered and not been left, the oldest
first. -/
structure Scene where
  workspace : Workspace
  active : List Hold

namespace Scene

/-- What can happen next : someone enters, or fails to, or leaves, or does something else that
touches neither locks nor lock files. -/
inductive Step : Scene → Scene → Prop where
  | enter {w w' : Workspace} {active : List Hold} {h : Hold} (hok : h.enter w = (.ok (), w')) :
      Step ⟨w, active⟩ ⟨w', active ++ [h]⟩
  | barred {w w' : Workspace} {active : List Hold} {h : Hold} {f : Failure}
      (hfails : h.enter w = (.error f, w')) : Step ⟨w, active⟩ ⟨w', active⟩
  | leave {w : Workspace} {active : List Hold} {h : Hold} (hmem : h ∈ active) :
      Step ⟨w, active⟩ ⟨h.leave w, active.erase h⟩
  | work {w w' : Workspace} {active : List Hold} (hlocks : w'.locks = w.locks)
      (hfiles : ∀ names, HasFile names w → HasFile names w') : Step ⟨w, active⟩ ⟨w', active⟩

/-- What happens from a workspace on in which no lock is taken. -/
def Reachable (s : Scene) : Prop :=
  ∃ w : Workspace, w.locks = {} ∧ ReflTransGen Step ⟨w, []⟩ s

/-- The registries hold what the workers inside drive, and just that is taken, each directory once
and with its lock file there. -/
structure IsConsistent (s : Scene) : Prop where
  held : s.workspace.locks.held = s.active.map fun h => (h.registry, h.key)
  taken : s.workspace.locks.taken = s.active.map Hold.key
  nodup : (s.active.map Hold.key).Nodup
  files : ∀ h ∈ s.active, HasFile h.home s.workspace

variable {active : List Hold} {h : Hold}

theorem IsConsistent.enter {w' : Workspace} (hs : IsConsistent ⟨w, active⟩)
    (hok : h.enter w = (.ok (), w')) : IsConsistent ⟨w', active ++ [h]⟩ := by
  obtain ⟨hready, -, hfree, hlocks⟩ :=
    (acquire_ready h.registry h.dir (seenFrom h.cwd w)).of_ok hok
  have hkept {names : List String} (hfile : HasFile names w) : HasFile names w' :=
    (acquire_hasFile (w := seenFrom h.cwd w) h.registry h.dir hfile).of_ok hok
  have hnew : h.key ∉ active.map Hold.key := by
    have hfree' : w.locks.isTaken h.key = false := hfree
    rw [← hs.taken]
    simpa [Locks.isTaken] using hfree'
  constructor
  · rw [hlocks, List.map_append, ← hs.held]
    rfl
  · rw [hlocks, List.map_append, ← hs.taken]
    rfl
  · rw [List.map_append]
    exact hs.nodup.append (List.nodup_singleton _) (by simpa using hnew)
  · intro a ha
    rcases List.mem_append.1 ha with ha | ha
    · exact hkept (hs.files a ha)
    · rw [List.mem_singleton.1 ha]
      exact hready.file

theorem IsConsistent.keep {w' : Workspace} (hs : IsConsistent ⟨w, active⟩)
    (hlocks : w'.locks = w.locks) (hfiles : ∀ names, HasFile names w → HasFile names w') :
    IsConsistent ⟨w', active⟩ := by
  refine ⟨?_, ?_, hs.nodup, fun a ha => hfiles _ (hs.files a ha)⟩
  · exact (congrArg Locks.held hlocks).trans hs.held
  · exact (congrArg Locks.taken hlocks).trans hs.taken

theorem erase_map {α β : Type} [BEq α] [LawfulBEq α] [BEq β] [LawfulBEq β] {f : α → β}
    {l : List α} {a : α} (hnodup : (l.map f).Nodup) (ha : a ∈ l) :
    (l.map f).erase (f a) = (l.erase a).map f := by
  obtain ⟨before, after, -, rfl, herase⟩ := List.exists_erase_eq ha
  rw [List.map_append, List.map_cons] at hnodup ⊢
  have hbefore : f a ∉ before.map f := fun hmem =>
    List.disjoint_of_nodup_append hnodup hmem List.mem_cons_self
  rw [herase, List.erase_append_right _ hbefore, List.erase_cons_head, List.map_append]

theorem IsConsistent.leave (hs : IsConsistent ⟨w, active⟩) (hmem : h ∈ active) :
    IsConsistent ⟨h.leave w, active.erase h⟩ := by
  have hheld : w.locks.holds h.registry h.key = true := by
    rw [Locks.holds, List.contains_iff_mem, hs.held]
    exact List.mem_map_of_mem hmem
  have hlocks : (h.leave w).locks =
      ⟨w.locks.held.erase (h.registry, h.key), w.locks.taken.erase h.key⟩ := if_pos hheld
  have hpairs : (active.map fun h => (h.registry, h.key)).Nodup := by
    refine List.Nodup.of_map Prod.snd ?_
    rw [List.map_map]
    exact hs.nodup
  constructor
  · rw [hlocks, ← erase_map hpairs hmem]
    exact congrArg (List.erase · (h.registry, h.key)) hs.held
  · rw [hlocks, ← erase_map hs.nodup hmem]
    exact congrArg (List.erase · h.key) hs.taken
  · exact hs.nodup.sublist (List.erase_sublist.map _)
  · exact fun a ha => hs.files a (List.mem_of_mem_erase ha)

/-- Whatever happens, registries and locks stay in step with the workers inside. -/
theorem IsConsistent.step {s s' : Scene} (hs : s.IsConsistent) (hstep : Step s s') :
    s'.IsConsistent := by
  cases hstep with
  | enter hok => exact hs.enter hok
  | @barred w w' active h f hfails =>
    have hlocks := (acquire_kept h.registry h.dir (seenFrom h.cwd w)).of_error hfails
    refine hs.keep hlocks fun names hfile => ?_
    exact (acquire_hasFile (w := seenFrom h.cwd w) h.registry h.dir hfile).of_error hfails
  | leave hmem => exact hs.leave hmem
  | work hlocks hfiles => exact hs.keep hlocks hfiles

theorem Reachable.isConsistent {s : Scene} (h : s.Reachable) : s.IsConsistent := by
  obtain ⟨w, hlocks, hsteps⟩ := h
  induction hsteps with
  | refl =>
    refine ⟨?_, ?_, List.nodup_nil, fun a ha => ?_⟩
    · rw [hlocks]
      rfl
    · rw [hlocks]
      rfl
    · cases ha
  | tail _ hstep ih => exact ih.step hstep

theorem Reachable.step {s s' : Scene} (h : s.Reachable) (hstep : Step s s') : s'.Reachable := by
  obtain ⟨w, hlocks, hsteps⟩ := h
  exact ⟨w, hlocks, hsteps.tail hstep⟩

/-! ## A whole run of `hold` -/

theorem hold_apply {α : Type} (registry : Registry) (dir : Path) (body : Act α) (w : Workspace) :
    hold registry dir body w = match acquire registry dir w with
      | (.ok (), w₁) => ((body w₁).1, (release registry dir (body w₁).2).2)
      | (.error f, w₁) => (.error f, w₁) := by
  rw [hold, bind_apply]
  rcases acquire registry dir w with ⟨f | ⟨⟩, w₁⟩
  · rfl
  · have hattempt : Act.attempt body w₁ = (.ok (body w₁).1, (body w₁).2) := rfl
    dsimp only
    rw [Act.ensuring, bind_apply, hattempt]
    rcases (body w₁).1 with f | a <;> rfl

/-- A run of `hold` is one of the things that can happen, if its operation leaves locks and lock
files alone and the worker where it is. Whether it fails or not, it leaves the locks as they
were. -/
theorem reachable_hold {α : Type} {body : Act α} (hs : Reachable ⟨w, active⟩)
    (hlocks : ∀ w, (body w).2.locks = w.locks) (hcwd : ∀ w, (body w).2.files.cwd = w.files.cwd)
    (hfiles : ∀ w names, HasFile names w → HasFile names (body w).2) :
    Reachable ⟨(hold h.registry h.dir body (seenFrom h.cwd w)).2, active⟩ ∧
      (hold h.registry h.dir body (seenFrom h.cwd w)).2.locks = w.locks := by
  have hreach : Reachable ⟨(hold h.registry h.dir body (seenFrom h.cwd w)).2, active⟩ := by
    rw [hold_apply]
    rcases henter : acquire h.registry h.dir (seenFrom h.cwd w) with ⟨f | ⟨⟩, w₁⟩
    · exact hs.step (.barred henter)
    · have hentered : Reachable ⟨w₁, active ++ [h]⟩ := hs.step (.enter henter)
      have hworked : Reachable ⟨(body w₁).2, active ++ [h]⟩ :=
        hentered.step (.work (hlocks w₁) (hfiles w₁))
      have hnew : h ∉ active := by
        have hnodup := hentered.isConsistent.nodup.of_map _
        exact fun hmem => List.disjoint_of_nodup_append hnodup hmem (List.mem_singleton_self h)
      have hplace : seenFrom h.cwd (body w₁).2 = (body w₁).2 := by
        have hthere : w₁.files.cwd = h.cwd :=
          ((acquire_ready h.registry h.dir (seenFrom h.cwd w)).of_ok henter).1.cwd_eq
        rw [seenFrom, ← hthere, ← hcwd w₁]
      have hleft := hworked.step (.leave (List.mem_append_right _ (List.mem_singleton_self h)))
      rw [erase_concat hnew, Hold.leave, hplace] at hleft
      exact hleft
  have hheld := hreach.isConsistent.held.trans hs.isConsistent.held.symm
  have htaken := hreach.isConsistent.taken.trans hs.isConsistent.taken.symm
  exact ⟨hreach, congrArg₂ Locks.mk hheld htaken⟩

/-! ## Mutual exclusion -/

/-- Whatever has happened, no two workers are inside for one directory, and whoever tries to enter
one that someone is inside for fails. A directory is held by a registry exactly while its lock file
is taken, and exactly by the registries of the workers inside. And whoever fails to enter leaves
what registries hold and what is taken as it is. -/
theorem exclusion {s : Scene} (hs : s.Reachable) :
    s.active.Pairwise (fun a b => a.key ≠ b.key) ∧
      (∀ key, s.workspace.locks.isTaken key = true ↔
        ∃ registry, s.workspace.locks.holds registry key = true) ∧
      (∀ registry key, s.workspace.locks.holds registry key = true ↔
        ∃ h ∈ s.active, h.registry = registry ∧ h.key = key) ∧
      (∀ h : Hold, (∃ a ∈ s.active, a.key = h.key) →
        ∃ f w', h.enter s.workspace = (.error f, w')) ∧
      ∀ (h : Hold) f w', h.enter s.workspace = (.error f, w') →
        w'.locks = s.workspace.locks := by
  have hc := hs.isConsistent
  have hholds (registry : Registry) (key : List String) :
      s.workspace.locks.holds registry key = true ↔
        ∃ h ∈ s.active, h.registry = registry ∧ h.key = key := by
    rw [Locks.holds, List.contains_iff_mem, hc.held]
    simp [Prod.ext_iff]
  have htaken (key : List String) :
      s.workspace.locks.isTaken key = true ↔ ∃ h ∈ s.active, h.key = key := by
    rw [Locks.isTaken, List.contains_iff_mem, hc.taken, List.mem_map]
  refine ⟨List.pairwise_map.1 hc.nodup, fun key => ?_, hholds, ?_, fun h f w' hfails => ?_⟩
  · rw [htaken]
    constructor
    · rintro ⟨h, hmem, hkey⟩
      exact ⟨h.registry, (hholds _ _).2 ⟨h, hmem, rfl, hkey⟩⟩
    · rintro ⟨registry, hregistry⟩
      obtain ⟨h, hmem, -, hkey⟩ := (hholds _ _).1 hregistry
      exact ⟨h, hmem, hkey⟩
  · rintro h ⟨a, ha, hkey⟩
    rcases henter : h.enter s.workspace with ⟨f | ⟨⟩, w'⟩
    · exact ⟨f, w', rfl⟩
    · have hfree : s.workspace.locks.isTaken h.key = false :=
        ((acquire_ready h.registry h.dir (seenFrom h.cwd s.workspace)).of_ok henter).2.2.1
      rw [(htaken h.key).2 ⟨a, ha, hkey⟩] at hfree
      cases hfree
  · exact (acquire_kept h.registry h.dir (seenFrom h.cwd s.workspace)).of_error hfails

/-- A worker that names the session's directory from where it is. -/
def insider : Hold :=
  ⟨"first", ["home"], .ofString "sessions/demo"⟩

/-- A worker elsewhere, with a registry of its own and another name for the same directory. -/
def rival : Hold :=
  ⟨"second", ["tmp"], .ofString "/home/work/../sessions/demo"⟩

/-- A workspace without any files. -/
def unused : Workspace :=
  { files := { cwd := [] }, now := ⟨0⟩, started := ⟨0⟩ }

/-- The one inside, after the other has tried to get in. -/
def rivals : Scene :=
  ⟨(rival.enter (insider.enter unused).2).2, [insider]⟩

/-- The directory is taken and cannot be entered again until it is left. -/
theorem exclusion_of_rivals :
    rivals.Reachable ∧ rivals.workspace.locks.isTaken rival.key = true ∧
      (∃ f w', rival.enter rivals.workspace = (.error f, w')) ∧
      (rival.enter (insider.leave rivals.workspace)).1 = .ok () := by
  have hentered : Step ⟨unused, []⟩ ⟨(insider.enter unused).2, [insider]⟩ := .enter rfl
  have hbarred : Step ⟨(insider.enter unused).2, [insider]⟩ rivals :=
    .barred (h := rival) (f := .locked (.otherWorker "demo")) rfl
  have hreach : rivals.Reachable := ⟨unused, rfl, .tail (.single hentered) hbarred⟩
  have hsame : insider.key = rival.key := rfl
  obtain ⟨-, htaken, hholds, hfails, -⟩ := exclusion hreach
  have hinside : insider ∈ rivals.active := List.mem_singleton_self insider
  have hheld := (hholds insider.registry rival.key).2 ⟨insider, hinside, rfl, hsame⟩
  exact ⟨hreach, (htaken _).2 ⟨_, hheld⟩, hfails rival ⟨insider, hinside, hsame⟩, rfl⟩

end Scene

end Lock

end PlanReview
