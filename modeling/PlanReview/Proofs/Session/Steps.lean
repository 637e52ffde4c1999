import PlanReview.Proofs.Files.Name
import PlanReview.Proofs.Workspace.Stores

/-!
# The steps of a save

A save makes a file under a temporary name and renames it. What a single step does is said once
(`Steps`) : all of its changes, or, where the disk refuses it, the first of them. Until the file is
renamed a save touches nothing that is there already but the temporary file (`Steps.spares`), and
once it is to be renamed the whole text is in it, whatever stood there before (`preparing_holds`).
So the steps end with the complete file under its final name, or with nothing done to what stands
there (`takeSteps_all_ends`). What a failed step has left is given up (`discard_ends`).
-/

namespace PlanReview.SessionState

open Workspace

variable {key : List String} {w w' : Workspace} {disk : Disk} {dir : Path} {text : String}

/-! ## Names -/

theorem isEnding_fileName : IsEnding fileName :=
  ⟨by decide, 'o', by decide, by decide⟩

theorem isEnding_temporaryName : IsEnding temporaryName :=
  ⟨by decide, 'o', by decide, by decide⟩

theorem resolve_filePath (dir : Path) (cwd : List String) :
    (filePath dir).resolve cwd = dir.resolve cwd ++ [fileName] :=
  Path.resolve_child isEnding_fileName.isName dir cwd

theorem resolve_temporaryPath (dir : Path) (cwd : List String) :
    (temporaryPath dir).resolve cwd = dir.resolve cwd ++ [temporaryName] :=
  Path.resolve_child isEnding_temporaryName.isName dir cwd

/-- The temporary file is not on the way to another file of the directory. -/
theorem not_prefix_of_name (names : List String) {name : String} (h : name ≠ temporaryName) :
    ¬ names ++ [temporaryName] <+: names ++ [name] := by
  intro hbegins
  have heq := hbegins.eq_of_length (by simp)
  rw [List.append_cancel_left_eq, List.singleton_inj] at heq
  exact h heq.symm

/-! ## Writing the temporary file -/

/-- Writes to a file leave what stands under other names alone. -/
theorem spares_writes {names : List String} (hnames : names ≠ []) (hkey : names ≠ key)
    (contents : List Content) : w.Spares key (w.afterAll (contents.map (.write names))) := by
  induction contents generalizing w with
  | nil => exact Spares.refl key w
  | cons content contents ih =>
    have hstep : w.Spares key (w.after (.write names content)) := by
      refine spares_after (if_neg hkey) ?_
      rw [FileTree.apply, FileTree.node?_put hnames, if_neg (Ne.symm hkey)]
    have hrest := hstep.trans (@ih (w.after (.write names content)))
    rwa [afterAll, List.map_cons, FileTree.applyAll_cons, List.reverse_cons, List.append_assoc]

/-- A file that can be reached holds what was last written to it. -/
theorem holds_writes {t : FileTree} {names : List String} {content : Content}
    (h : t.Holds names content) (contents : List Content) (last : Content) :
    (t.applyAll ((contents ++ [last]).map (.write names))).Holds names last := by
  have hwrite {t : FileTree} {content : Content} (h : t.Holds names content) (new : Content) :
      (t.apply (.write names new)).Holds names new := by
    have hnames : names ≠ [] := by
      rintro rfl
      cases h.node
    refine ⟨(FileTree.node?_put hnames _).trans (if_pos rfl), fun a ha hne => ?_⟩
    exact ((FileTree.node?_put hnames _).trans (if_neg hne)).trans (h.way a ha hne)
  induction contents generalizing t content with
  | nil => exact hwrite h last
  | cons new contents ih => exact ih (hwrite h new)

/-! ## Steps -/

theorem of_openFile {t : FileTree} {cs : List Change}
    (h : stepChanges disk dir text t .openFile = .ok cs) :
    t.openForWriting (temporaryPath dir) = .ok () ∧
      cs = [.write ((temporaryPath dir).resolve t.cwd) (.text "")] := by
  change (t.openForWriting (temporaryPath dir) >>= _) = _ at h
  cases hopen : t.openForWriting (temporaryPath dir) with
  | error e =>
    rw [hopen] at h
    cases h
  | ok _ =>
    rw [hopen] at h
    cases h
    exact ⟨rfl, rfl⟩

theorem openFile_of_open {t : FileTree} (h : t.openForWriting (temporaryPath dir) = .ok ()) :
    stepChanges disk dir text t .openFile =
      .ok [.write ((temporaryPath dir).resolve t.cwd) (.text "")] := by
  change (t.openForWriting (temporaryPath dir) >>= _) = _
  rw [h]
  rfl

theorem isDirectory_filePath {t : FileTree} :
    t.isDirectory (filePath dir) = true ↔
      t.node? (dir.resolve t.cwd ++ [fileName]) = some .directory := by
  rw [FileTree.isDirectory, FileTree.find?, resolve_filePath]
  split <;> simp_all

theorem of_rename {t : FileTree} {cs : List Change}
    (h : stepChanges disk dir text t .rename = .ok cs) :
    t.node? (dir.resolve t.cwd ++ [fileName]) ≠ some .directory ∧
      cs = [.rename (dir.resolve t.cwd ++ [temporaryName]) (dir.resolve t.cwd ++ [fileName])] := by
  change (if t.isDirectory (filePath dir) = true then _ else _) = _ at h
  rw [resolve_temporaryPath, resolve_filePath] at h
  split at h
  · cases h
  · rename_i hfree
    cases h
    exact ⟨fun hdir => hfree (isDirectory_filePath.2 hdir), rfl⟩

/-- What a step of a save does : all of its changes, or, if the disk refuses it, the first of them,
and nothing if they are not allowed. -/
inductive Steps (disk : Disk) (dir : Path) (text : String) (w : Workspace) (step : SaveStep) :
    Except PersistenceFault Unit → Workspace → Prop where
  | done {cs : List Change} : stepChanges disk dir text w.files step = .ok cs →
      disk.refuses step = none → Steps disk dir text w step (.ok ()) (w.afterAll cs)
  | refused {cs : List Change} {r : Refusal} : stepChanges disk dir text w.files step = .ok cs →
      disk.refuses step = some r → Steps disk dir text w step
        (.error (.reported ("Failed to write " ++ (filePath dir).text ++ ": " ++ r.reason)))
        (w.afterAll (cs.take r.changes))
  | obstructed {e : FileError} : stepChanges disk dir text w.files step = .error e →
      Steps disk dir text w step (.error (.unwritable (filePath dir).text e)) w

theorem takeStep_ends (disk : Disk) (dir : Path) (text : String) (step : SaveStep)
    (w : Workspace) : Ends (takeStep disk dir text step) w (Steps disk dir text w step)
      fun _ _ => False := by
  unfold takeStep
  rw [ends_bind, ends_get]
  cases hchanges : stepChanges disk dir text w.files step with
  | error e => exact .obstructed hchanges
  | ok cs =>
    dsimp only
    cases hrefuses : disk.refuses step with
    | some r =>
      rw [ends_bind, Act.ends_performAll]
      exact .refused hchanges hrefuses
    | none =>
      rw [ends_bind, Act.ends_performAll]
      exact .done hchanges hrefuses

theorem takeStep_of_changes {step : SaveStep} {cs : List Change}
    (h : stepChanges disk dir text w.files step = .ok cs) (hrefuses : disk.refuses step = none) :
    takeStep disk dir text step w = (.ok (.ok ()), w.afterAll cs) := by
  refine ((takeStep_ends disk dir text step w).mono (fun result w' hstep => ?_) fun _ _ => id).eq
  cases hstep with
  | done hchanges _ =>
    cases hchanges.symm.trans h
    exact ⟨rfl, rfl⟩
  | refused _ h => cases hrefuses.symm.trans h
  | obstructed hchanges => cases hchanges.symm.trans h

theorem takeStep_of_obstacle {step : SaveStep} {e : FileError}
    (h : stepChanges disk dir text w.files step = .error e) :
    takeStep disk dir text step w = (.ok (.error (.unwritable (filePath dir).text e)), w) := by
  refine ((takeStep_ends disk dir text step w).mono (fun result w' hstep => ?_) fun _ _ => id).eq
  cases hstep with
  | done hchanges _ => cases hchanges.symm.trans h
  | refused hchanges _ => cases hchanges.symm.trans h
  | obstructed hchanges =>
    cases hchanges.symm.trans h
    exact ⟨rfl, rfl⟩

/-- A step that is not refused comes before the others. -/
theorem takeSteps_of_changes {step : SaveStep} {steps : List SaveStep} {cs : List Change}
    (h : stepChanges disk dir text w.files step = .ok cs) (hrefuses : disk.refuses step = none) :
    takeSteps disk dir text (step :: steps) w = takeSteps disk dir text steps (w.afterAll cs) := by
  rw [takeSteps, bind_apply, takeStep_of_changes h hrefuses]

theorem takeSteps_of_obstacle {step : SaveStep} {steps : List SaveStep} {e : FileError}
    (h : stepChanges disk dir text w.files step = .error e) :
    takeSteps disk dir text (step :: steps) w =
      (.ok (.error (.unwritable (filePath dir).text e)), w) := by
  rw [takeSteps, bind_apply, takeStep_of_obstacle h]
  rfl

theorem Steps.cwd_eq {step : SaveStep} {result : Except PersistenceFault Unit}
    (h : Steps disk dir text w step result w') : w'.files.cwd = w.files.cwd := by
  cases h with
  | done _ _ => exact FileTree.cwd_applyAll _ _
  | refused _ _ => exact FileTree.cwd_applyAll _ _
  | obstructed _ => rfl

/-- Until the last step a save touches nothing that is there already, and nothing but directories
that lead to the file and the temporary file. -/
theorem Steps.spares {step : SaveStep} {result : Except PersistenceFault Unit}
    (h : Steps disk dir text w step result w') (hstep : step ≠ .rename)
    (hkey : w.files.node? key ≠ none ∨ ¬ key <+: dir.resolve w.files.cwd)
    (hbegins : ¬ dir.resolve w.files.cwd ++ [temporaryName] <+: key) : w.Spares key w' := by
  have hwrites (contents : List Content) (n : Nat) : w.Spares key (w.afterAll
      ((contents.map (.write ((temporaryPath dir).resolve w.files.cwd))).take n)) := by
    rw [← List.map_take, resolve_temporaryPath]
    refine spares_writes (by simp) ?_ _
    rintro rfl
    exact hbegins (List.prefix_refl _)
  have hpart {cs : List Change} (hcs : stepChanges disk dir text w.files step = .ok cs)
      (n : Nat) : w.Spares key (w.afterAll (cs.take n)) := by
    cases step with
    | makeDirectory => exact Act.spares_makeDirectories hcs hkey n
    | openFile =>
      obtain ⟨-, rfl⟩ := of_openFile hcs
      exact hwrites [.text ""] n
    | writeText =>
      cases hcs
      exact hwrites _ n
    | sync =>
      cases hcs
      rw [List.take_nil]
      exact Spares.refl key w
    | rename => exact absurd rfl hstep
  cases h with
  | @done cs hcs _ =>
    rw [← List.take_length (l := cs)]
    exact hpart hcs _
  | refused hcs _ => exact hpart hcs _
  | obstructed _ => exact Spares.refl key w

theorem takeSteps_cons_ends {step : SaveStep} {steps : List SaveStep}
    {ok : Except PersistenceFault Unit → Workspace → Prop} {bad : Failure → Workspace → Prop}
    (hfails : ∀ fault w', Steps disk dir text w step (.error fault) w' → ok (.error fault) w')
    (hgoes : ∀ w', Steps disk dir text w step (.ok ()) w' →
      Ends (takeSteps disk dir text steps) w' ok bad) :
    Ends (takeSteps disk dir text (step :: steps)) w ok bad := by
  refine Ends.bind (takeStep_ends disk dir text step w) (fun result w' hstep => ?_) nofun
  cases result with
  | error fault => exact hfails fault w' hstep
  | ok _ => exact hgoes w' hstep

theorem takeSteps_append_ends {steps more : List SaveStep}
    {ok : Except PersistenceFault Unit → Workspace → Prop} {bad : Failure → Workspace → Prop}
    (h : Ends (takeSteps disk dir text steps) w (fun result w' =>
      match result with
      | .ok () => Ends (takeSteps disk dir text more) w' ok bad
      | .error fault => ok (.error fault) w') bad) :
    Ends (takeSteps disk dir text (steps ++ more)) w ok bad := by
  induction steps generalizing w with
  | nil => exact h
  | cons step steps ih =>
    rw [takeSteps, ends_bind] at h
    rw [List.cons_append, takeSteps, ends_bind]
    refine h.mono (fun result w' h => ?_) fun _ _ => id
    cases result with
    | error fault => exact h
    | ok _ => exact ih h

/-- What every step keeps, steps keep. -/
theorem takeSteps_keeps {I : Workspace → Prop} {steps : List SaveStep}
    (hI : ∀ step ∈ steps, ∀ w result w', Steps disk dir text w step result w' → I w → I w')
    (h : I w) : Ends (takeSteps disk dir text steps) w (fun _ w' => I w') fun _ _ => False := by
  induction steps generalizing w with
  | nil => exact h
  | cons step steps ih =>
    refine takeSteps_cons_ends (fun _ _ hstep => hI step List.mem_cons_self _ _ _ hstep h)
      fun w' hstep => ih (fun step hmem => hI step (List.mem_cons_of_mem _ hmem)) ?_
    exact hI step List.mem_cons_self _ _ _ hstep h

/-! ## Before the file is renamed -/

/-- The steps that make the file under its temporary name. -/
def preparing : List SaveStep :=
  [.makeDirectory, .openFile, .writeText, .sync]

theorem preparing_spares (disk : Disk) (dir : Path) (text : String)
    (hkey : w.files.node? key ≠ none ∨ ¬ key <+: dir.resolve w.files.cwd)
    (hbegins : ¬ dir.resolve w.files.cwd ++ [temporaryName] <+: key) :
    Ends (takeSteps disk dir text preparing) w (fun _ w' => w.Spares key w') fun _ _ => False := by
  refine takeSteps_keeps (I := fun w' => w.Spares key w') ?_ (Spares.refl key w)
  intro step hmem w₁ result w₂ hstep hspares
  have hne : step ≠ .rename := by
    rintro rfl
    revert hmem
    decide
  refine hspares.trans (hstep.spares hne ?_ ?_)
  · rwa [hspares.node_eq, hspares.cwd_eq]
  · rwa [hspares.cwd_eq]

/-- Whatever stood under the temporary name, in the end the whole text does. -/
theorem preparing_holds (disk : Disk) (dir : Path) (text : String) (w : Workspace) :
    Ends (takeSteps disk dir text preparing) w
      (fun result w' => result = .ok () →
        w'.files.Holds (dir.resolve w'.files.cwd ++ [temporaryName]) (.text text))
      fun _ _ => False := by
  refine takeSteps_cons_ends (fun _ _ _ => nofun) fun w₁ hmade => ?_
  refine takeSteps_cons_ends (fun _ _ _ => nofun) fun w₂ hopened => ?_
  refine takeSteps_cons_ends (fun _ _ _ => nofun) fun w₃ hwritten => ?_
  refine takeSteps_cons_ends (fun _ _ _ => nofun) fun w₄ hsynced _ => ?_
  rw [hsynced.cwd_eq, hwritten.cwd_eq, hopened.cwd_eq, ← resolve_temporaryPath]
  cases hopened with
  | done hopened _ =>
    obtain ⟨hopen, rfl⟩ := of_openFile hopened
    have hempty := Act.holds_write hopen (.text "")
    cases hwritten with
    | done hwritten _ =>
      cases hwritten
      cases hsynced with
      | done hsynced _ =>
        cases hsynced
        exact holds_writes hempty disk.drafts (.text text)

/-! ## The renamed file -/

/-- The last step of a save that goes through : the file under the temporary name is complete, and
gets the name of the state, which is not the name of a directory. -/
structure Renames (dir : Path) (text : String) (w w' : Workspace) : Prop where
  complete : w.files.Holds (dir.resolve w.files.cwd ++ [temporaryName]) (.text text)
  free : w.files.node? (dir.resolve w.files.cwd ++ [fileName]) ≠ some .directory
  after : w' = w.after (.rename (dir.resolve w.files.cwd ++ [temporaryName])
    (dir.resolve w.files.cwd ++ [fileName]))

namespace Renames

theorem node? (h : Renames dir text w w')
    (hbegins : ¬ dir.resolve w.files.cwd ++ [temporaryName] <+: key) :
    w'.files.node? key =
      if key = dir.resolve w.files.cwd ++ [fileName] then some (.file (.text text))
      else w.files.node? key := by
  rw [h.after]
  change (w.files.apply _).node? key = _
  rw [FileTree.apply, h.complete.node]
  dsimp only
  rw [FileTree.node?_put (by simp)]
  rcases eq_or_ne key [] with rfl | hkey
  · rfl
  · rw [FileTree.node?_take hkey, if_neg hbegins]

/-- Nothing stands under the temporary name any more. -/
theorem temporary (h : Renames dir text w w') :
    w'.files.node? (dir.resolve w.files.cwd ++ [temporaryName]) = none := by
  rw [h.after]
  change (w.files.apply _).node? _ = _
  rw [FileTree.apply, h.complete.node]
  dsimp only
  rw [FileTree.node?_put (by simp), if_neg, FileTree.node?_take (by simp), if_pos List.prefix_rfl]
  rw [List.append_cancel_left_eq]
  decide

/-- The text can be read under the final name. -/
theorem holds (h : Renames dir text w w') :
    w'.files.Holds (dir.resolve w.files.cwd ++ [fileName]) (.text text) := by
  have hbegins := not_prefix_of_name (dir.resolve w.files.cwd)
    (show fileName ≠ temporaryName by decide)
  refine ⟨by rw [h.node? hbegins, if_pos rfl], fun a ha hne => ?_⟩
  rw [h.node? fun h => hbegins (h.trans ha), if_neg hne]
  -- the same directories lead to the two files
  have hdir : a <+: dir.resolve w.files.cwd :=
    (List.prefix_concat_iff.1 ha).resolve_left hne
  refine h.complete.way a (hdir.trans (List.prefix_append _ _)) ?_
  rintro rfl
  have hlength := hdir.length_le
  rw [List.length_append, List.length_singleton] at hlength
  omega

theorem brings (h : Renames dir text w w') : w.files.brings key
    (.rename (dir.resolve w.files.cwd ++ [temporaryName]) (dir.resolve w.files.cwd ++ [fileName])) =
      if dir.resolve w.files.cwd ++ [fileName] = key then some (.text text) else none := by
  rw [FileTree.brings, h.complete.node]

theorem stores (h : Renames dir text w w') :
    w.Stores (dir.resolve w.files.cwd ++ [fileName]) w' [text] := by
  have hnode := h.node? (not_prefix_of_name (dir.resolve w.files.cwd)
    (show fileName ≠ temporaryName by decide))
  have hbrings := @h.brings (dir.resolve w.files.cwd ++ [fileName])
  rw [if_pos rfl] at hnode hbrings
  rw [h.after] at hnode ⊢
  refine ⟨[_], rfl, rfl, ?_, ?_, True.intro⟩
  · rw [FileTree.versions, hbrings]
    rfl
  · rw [hbrings]
    exact hnode

theorem spares (h : Renames dir text w w') (hfile : key ≠ dir.resolve w.files.cwd ++ [fileName])
    (hbegins : ¬ dir.resolve w.files.cwd ++ [temporaryName] <+: key) : w.Spares key w' := by
  have hnode := h.node? hbegins
  rw [if_neg hfile] at hnode
  rw [h.after] at hnode ⊢
  exact spares_after (h.brings.trans (if_neg (Ne.symm hfile))) hnode

end Renames

/-- The steps of a save end with the complete file under its final name, or, where one fails, with
nothing done to the file there. -/
theorem takeSteps_all_ends (disk : Disk) (dir : Path) (text : String)
    (hkey : w.files.node? key ≠ none ∨ ¬ key <+: dir.resolve w.files.cwd)
    (hbegins : ¬ dir.resolve w.files.cwd ++ [temporaryName] <+: key) :
    Ends (takeSteps disk dir text SaveStep.all) w
      (fun result w' =>
        match result with
        | .ok () => ∃ w₁, w.Spares key w₁ ∧ Renames dir text w₁ w'
        | .error _ => w.Spares key w')
      fun _ _ => False := by
  refine @takeSteps_append_ends _ _ _ _ preparing [.rename] _ _ ?_
  refine ((preparing_spares disk dir text hkey hbegins).and
    (preparing_holds disk dir text w)).mono ?_ fun _ _ h => h.1
  rintro (fault | _) w₁ ⟨hspares, hholds⟩
  · exact hspares
  · refine takeSteps_cons_ends (fun fault w₂ hrenamed => ?_) fun w₂ hrenamed => ?_
    · -- a disk that refuses to rename a file has done nothing
      cases hrenamed with
      | refused _ hrefuses => rwa [disk.atomic _ hrefuses]
      | obstructed _ => exact hspares
    · cases hrenamed with
      | done hchanges _ =>
        obtain ⟨hfree, rfl⟩ := of_rename hchanges
        exact ⟨w₁, hspares, hholds rfl, hfree, rfl⟩

/-! ## Giving up -/

/-- Giving up takes the temporary file away, or fails and does nothing. -/
theorem discard_ends (disk : Disk) (dir : Path) (w : Workspace) :
    Ends (discard disk dir) w
      (fun _ w' =>
        w' = w ∧ w.files.obstacle? (dir.resolve w.files.cwd ++ [temporaryName]) = some .missing ∨
        w' = w ∧ w.files.node? (dir.resolve w.files.cwd ++ [temporaryName]) = none ∨
        w' = w.after (.remove (dir.resolve w.files.cwd ++ [temporaryName])))
      fun f w' => w' = w ∧ ∃ e, f = .crash (.file e) := by
  unfold discard
  rw [ends_bind, ends_get]
  dsimp only
  rw [resolve_temporaryPath]
  cases w.files.obstacle? (dir.resolve w.files.cwd ++ [temporaryName]) with
  | some fault => cases fault <;> first | exact .inl ⟨rfl, rfl⟩ | exact ⟨rfl, _, rfl⟩
  | none =>
    by_cases hdir : w.files.isDirectory (temporaryPath dir)
    · simp only [hdir]
      exact ⟨rfl, _, rfl⟩
    · by_cases hhas : w.files.has (temporaryPath dir)
      · simp only [hdir, hhas]
        cases disk.keeps with
        | none => exact .inr (.inr rfl)
        | some fault => exact ⟨rfl, _, rfl⟩
      · simp only [hdir, hhas]
        rw [FileTree.has, FileTree.find?, resolve_temporaryPath] at hhas
        exact .inr (.inl ⟨rfl, by simpa using hhas⟩)

/-- A temporary file that can be reached is taken away, if the disk lets go of it. -/
theorem discard_of_holds {content : Content}
    (h : w.files.Holds ((temporaryPath dir).resolve w.files.cwd) content)
    (hkeeps : disk.keeps = none) : discard disk dir w =
      (.ok (), w.after (.remove ((temporaryPath dir).resolve w.files.cwd))) := by
  have hdir : w.files.isDirectory (temporaryPath dir) = false := by
    rw [FileTree.isDirectory, FileTree.find?, h.node]
  have hhas : w.files.has (temporaryPath dir) = true := by
    rw [FileTree.has, FileTree.find?, h.node]
    rfl
  refine Ends.eq ?_
  unfold discard
  rw [ends_bind, ends_get]
  dsimp only
  rw [FileTree.obstacle?_eq_none_iff.2 h.way]
  simp only [hdir, hhas, hkeeps]
  exact ⟨trivial, rfl⟩

theorem discard_spares (disk : Disk) (dir : Path)
    (h : ¬ dir.resolve w.files.cwd ++ [temporaryName] <+: key) :
    Ends (discard disk dir) w (fun _ w' => w.Spares key w') fun _ w' => w.Spares key w' := by
  refine (discard_ends disk dir w).mono (fun _ w' hends => ?_) ?_
  · rcases hends with ⟨rfl, -⟩ | ⟨rfl, -⟩ | rfl
    · exact Spares.refl key _
    · exact Spares.refl key _
    · refine spares_after rfl ?_
      rcases eq_or_ne key [] with rfl | hkey
      · rfl
      · rw [FileTree.apply, FileTree.node?_take hkey, if_neg h]
  · rintro _ _ ⟨rfl, -⟩
    exact Spares.refl key _

end PlanReview.SessionState
