import PlanReview.Proofs.Files.Change
import PlanReview.Proofs.Workspace.Outcome

/-!
# What an operation stores under a name

`Stores key w w' texts` : on the way from the workspace `w` to `w'` the file under `key` was given
the texts `texts`, one after the other, and nothing else happened to it. With no texts the file was
left alone. Ways of this kind are put together end to end (`Stores.trans`).

Of the operations on files, making directories never touches what is there already, and a write
touches its own file only.
-/

namespace PlanReview

variable {key : List String} {w w' w'' : Workspace}

/-- From `w` to `w'` the file under `key` gets the texts, and is otherwise left alone. -/
structure Workspace.Stores (key : List String) (w w' : Workspace) (texts : List String) :
    Prop where
  changes : ∃ cs, w'.journal = cs.reverse ++ w.journal ∧ w'.files = w.files.applyAll cs ∧
    w.files.versions key cs = texts.map Content.text ∧ w.files.OnlyBrings key cs

/-- From `w` to `w'` what stands under `key` is left alone. -/
abbrev Workspace.Spares (key : List String) (w w' : Workspace) : Prop :=
  w.Stores key w' []

namespace Workspace

theorem Stores.cwd_eq {texts : List String} (h : w.Stores key w' texts) :
    w'.files.cwd = w.files.cwd := by
  obtain ⟨cs, -, hfiles, -⟩ := h.changes
  rw [hfiles, FileTree.cwd_applyAll]

/-- Afterwards the last of the texts stands under the name. -/
theorem Stores.node {texts : List String} (h : w.Stores key w' texts) :
    w'.files.node? key = match texts.getLast? with
      | some text => some (.file (.text text))
      | none => w.files.node? key := by
  obtain ⟨cs, -, hfiles, hversions, honly⟩ := h.changes
  rw [hfiles, honly.node?_applyAll, hversions, List.getLast?_map]
  cases texts.getLast? <;> rfl

theorem Spares.node_eq (h : w.Spares key w') : w'.files.node? key = w.files.node? key :=
  h.node

/-- A way on which neither files nor journal change. -/
theorem spares_of_eq (hfiles : w'.files = w.files) (hjournal : w'.journal = w.journal) :
    w.Spares key w' :=
  ⟨[], hjournal, hfiles, rfl, True.intro⟩

theorem Spares.refl (key : List String) (w : Workspace) : w.Spares key w :=
  spares_of_eq rfl rfl

theorem Stores.trans {as bs : List String} (h : w.Stores key w' as) (h' : w'.Stores key w'' bs) :
    w.Stores key w'' (as ++ bs) := by
  obtain ⟨cs, hjournal, hfiles, hversions, honly⟩ := h.changes
  obtain ⟨ds, hjournal', hfiles', hversions', honly'⟩ := h'.changes
  refine ⟨cs ++ ds, ?_, ?_, ?_, ?_⟩
  · rw [hjournal', hjournal, List.reverse_append, List.append_assoc]
  · rw [hfiles', hfiles, FileTree.applyAll_append]
  · rw [FileTree.versions_append, hversions, ← hfiles, hversions', List.map_append]
  · rw [hfiles] at honly'
    exact (FileTree.onlyBrings_append_iff ..).2 ⟨honly, honly'⟩

theorem Spares.trans (h : w.Spares key w') (h' : w'.Spares key w'') : w.Spares key w'' :=
  Stores.trans h h'

theorem Spares.trans_stores {texts : List String} (h : w.Spares key w')
    (h' : w'.Stores key w'' texts) : w.Stores key w'' texts :=
  Stores.trans h h'

/-- One change that neither brings a content to `key` nor takes the node there away. -/
theorem spares_after {c : Change} (hbrings : w.files.brings key c = none)
    (hnode : (w.files.apply c).node? key = w.files.node? key) : w.Spares key (w.after c) := by
  refine ⟨[c], rfl, rfl, ?_, ?_, True.intro⟩
  · rw [FileTree.versions, hbrings]
    rfl
  · rw [hbrings]
    exact hnode

/-- A file that can be reached stays as it is under an operation that leaves it and the directories
above it alone. -/
theorem ends_holds {α : Type} {m : Act α} {content : Content} (h : w.files.Holds key content)
    (hm : ∀ a, a <+: key → w.files.node? a ≠ none →
      a = key ∨ w.files.node? a = some .directory →
        Ends m w (fun _ w' => w.Spares a w') fun _ w' => w.Spares a w') :
    Ends m w (fun _ w' => w'.files.Holds key content) fun _ w' => w'.files.Holds key content := by
  have hspares (a : { a : List String // a <+: key }) :
      Ends m w (fun _ w' => w.Spares a w') fun _ w' => w.Spares a w' := by
    obtain ⟨a, ha⟩ := a
    rcases eq_or_ne a key with rfl | hne
    · exact hm a ha (by simp [h.node]) (.inl rfl)
    · exact hm a ha (by simp [h.way a ha hne]) (.inr (h.way a ha hne))
  refine (Ends.forall_of hspares).mono (fun _ w' hall => ?_) fun _ w' hall => ?_
  · exact h.of_node_eq fun a ha => (hall ⟨a, ha⟩).node_eq
  · exact h.of_node_eq fun a ha => (hall ⟨a, ha⟩).node_eq

/-- The workspace after some changes. -/
abbrev afterAll (w : Workspace) (cs : List Change) : Workspace :=
  { w with files := w.files.applyAll cs, journal := cs.reverse ++ w.journal }

theorem later_spares (w : Workspace) (micros : Int) : w.Spares key (w.later micros) :=
  spares_of_eq rfl rfl

end Workspace

/-! ## Operations on files -/

namespace Act

open Workspace

/-- The workspace after some changes. -/
theorem performAll_eq (cs : List Change) (w : Workspace) : performAll cs w = (.ok (),
    { w with files := w.files.applyAll cs, journal := cs.reverse ++ w.journal }) := by
  induction cs generalizing w with
  | nil => rfl
  | cons c cs ih =>
    have hstep : performAll (c :: cs) w = performAll cs (w.after c) := rfl
    rw [hstep, ih, FileTree.applyAll_cons, List.reverse_cons, List.append_assoc]
    rfl

theorem ends_performAll {cs : List Change} {ok : Unit → Workspace → Prop}
    {bad : Failure → Workspace → Prop} : Ends (performAll cs) w ok bad ↔
      ok () { w with files := w.files.applyAll cs, journal := cs.reverse ++ w.journal } := by
  unfold Ends
  rw [performAll_eq]

/-- Making directories leaves alone what is no directory to be made. -/
theorem spares_makeDirectory {paths : List (List String)} (h : key ∉ paths)
    (hne : [] ∉ paths) :
    w.Spares key (w.afterAll (paths.map .makeDirectory)) := by
  induction paths generalizing w with
  | nil => exact Spares.refl key w
  | cons path paths ih =>
    rw [List.mem_cons, not_or] at h hne
    have hstep : w.Spares key (w.after (.makeDirectory path)) := by
      refine spares_after rfl ?_
      rw [FileTree.apply, FileTree.node?_put (Ne.symm hne.1), if_neg h.1]
    have hrest := hstep.trans (ih h.2 hne.2)
    rwa [afterAll, List.map_cons, FileTree.applyAll_cons, List.reverse_cons, List.append_assoc]

/-- However many of the directories are made, nothing that is there is touched, and nothing outside
their own path. -/
theorem spares_makeDirectories {dir : Path} {cs : List Change}
    (hmake : w.files.makeDirectories dir = .ok cs)
    (h : w.files.node? key ≠ none ∨ ¬ key <+: dir.resolve w.files.cwd) (n : Nat) :
    w.Spares key (w.afterAll (cs.take n)) := by
  obtain ⟨paths, rfl, hpaths, -⟩ := FileTree.exists_paths_of_makeDirectories hmake
  rw [← List.map_take]
  refine spares_makeDirectory (fun hmem => ?_) fun hmem => ?_
  · obtain ⟨hbegins, hnone⟩ := hpaths key (List.mem_of_mem_take hmem)
    rcases h with h | h
    · exact h hnone
    · exact h hbegins
  · exact Option.some_ne_none _ (hpaths [] (List.mem_of_mem_take hmem)).2

/-- A directory is made without touching anything that is there, and outside its own path nothing
at all. -/
theorem makeDirectories_ends (dir : Path)
    (h : w.files.node? key ≠ none ∨ ¬ key <+: dir.resolve w.files.cwd) :
    Ends (makeDirectories dir) w (fun _ w' => w.Spares key w') fun _ _ => False := by
  unfold makeDirectories
  rw [ends_bind, ends_get]
  cases hmake : w.files.makeDirectories dir with
  | error e => exact Spares.refl key w
  | ok cs =>
    have hspares := spares_makeDirectories hmake h cs.length
    rw [List.take_length] at hspares
    dsimp only
    rwa [ends_bind, ends_performAll]

/-- A directory that is made is there afterwards. -/
theorem makeDirectories_directory (dir : Path) (w : Workspace) :
    Ends (makeDirectories dir) w
      (fun result w' => result = .ok () →
        w'.files.node? (dir.resolve w.files.cwd) = some .directory)
      fun _ _ => False := by
  unfold makeDirectories
  rw [ends_bind, ends_get]
  cases hmake : w.files.makeDirectories dir with
  | error e => exact nofun
  | ok cs =>
    dsimp only
    rw [ends_bind, ends_performAll]
    exact fun _ => FileTree.node?_makeDirectories hmake

theorem makeDirectories_there {dir : Path}
    (h : w.files.node? (dir.resolve w.files.cwd) = some .directory) :
    Ends (makeDirectories dir) w (fun result w' => result = .ok () ∧ w' = w) fun _ _ => False := by
  unfold makeDirectories
  rw [ends_bind, ends_get, FileTree.makeDirectories_of_directory h]
  exact ⟨rfl, rfl⟩

theorem of_openForWriting {t : FileTree} {file : Path} (h : t.openForWriting file = .ok ()) :
    t.obstacle? (file.resolve t.cwd) = none ∧
      t.node? (file.resolve t.cwd) ≠ some .directory := by
  unfold FileTree.openForWriting at h
  split at h
  · cases h
  · split at h
    · cases h
    · rename_i hway hdir
      refine ⟨hway, fun hnode => hdir ?_⟩
      rw [FileTree.isDirectory, FileTree.find?, hnode]

/-- A write to a file that can be opened touches that file only. -/
theorem write_spares {file : Path} (hopen : w.files.openForWriting file = .ok ())
    (h : key = file.resolve w.files.cwd → w.files.node? key = some .directory)
    (content : Content) :
    w.Spares key (w.after (.write (file.resolve w.files.cwd) content)) := by
  obtain ⟨-, hdir⟩ := of_openForWriting hopen
  have hkey : key ≠ file.resolve w.files.cwd := by
    intro heq
    rw [← heq] at hdir
    exact hdir (h heq)
  have hnames : file.resolve w.files.cwd ≠ [] := by
    intro hnil
    rw [hnil] at hdir
    exact hdir rfl
  refine spares_after (if_neg (Ne.symm hkey)) ?_
  rw [FileTree.apply, FileTree.node?_put hnames, if_neg hkey]

/-- After a write to a file that can be opened the file has the content. -/
theorem holds_write {file : Path} (hopen : w.files.openForWriting file = .ok ())
    (content : Content) :
    (w.after (.write (file.resolve w.files.cwd) content)).files.Holds
      (file.resolve w.files.cwd) content := by
  obtain ⟨hway, hdir⟩ := of_openForWriting hopen
  have hnames : file.resolve w.files.cwd ≠ [] := by
    intro hnil
    rw [hnil] at hdir
    exact hdir rfl
  refine ⟨(FileTree.node?_put hnames _).trans (if_pos rfl), fun a hbegins hne => ?_⟩
  exact ((FileTree.node?_put hnames _).trans (if_neg hne)).trans
    (FileTree.obstacle?_eq_none_iff.1 hway a hbegins hne)

/-- Writing a text touches the file only, and afterwards the file has the text. -/
theorem writeText_ends (file : Path) (text : String)
    (h : key = file.resolve w.files.cwd → w.files.node? key = some .directory) :
    Ends (writeText file text) w (fun result w' => w.Spares key w' ∧
        (result = .ok () → w'.files.Holds (file.resolve w.files.cwd) (.text text)))
      fun _ _ => False := by
  unfold writeText
  rw [ends_bind, ends_get]
  cases hopen : w.files.openForWriting file with
  | error e => exact ⟨Spares.refl key w, nofun⟩
  | ok _ => exact ⟨write_spares hopen h _, fun _ => holds_write hopen _⟩

/-- Adding a text touches the file only. -/
theorem appendText_ends (file : Path) (text : String)
    (h : key = file.resolve w.files.cwd → w.files.node? key = some .directory) :
    Ends (appendText file text) w (fun _ w' => w.Spares key w') fun _ _ => False := by
  unfold appendText
  rw [ends_bind, ends_get]
  cases hopen : w.files.openForWriting file with
  | error e => exact Spares.refl key w
  | ok _ => exact write_spares hopen h _

end Act

end PlanReview
