import PlanReview.Artifact.Store
import PlanReview.Proofs.Workspace.Outcome
import PlanReview.Session.Store
import PlanReview.Session.Timing

/-!
# Operations on files

`Act.OnFiles m` : the operation changes files and journal only, however it ends. Clock and locks
stay as they are in all that saving, writing artifacts and noting metrics do, so of the parts of a
run only the lock itself touches the locks.

These operations also fail because of a file and for no other reason (`Act.ByFiles.fails`). What a
run raises besides faults of files therefore comes from planner, reviewer or its own decisions. Both
follow from how the operations are put together (`Act.ByFiles`).
-/

namespace PlanReview

variable {α β : Type}

/-- An operation that changes files and journal only. -/
def Act.OnFiles (m : Act α) : Prop :=
  ∀ w, ∃ files journal, (m w).2 = { w with files := files, journal := journal }

/-- A failure that a file has caused. -/
def Failure.IsFileFault : Failure → Prop
  | persistence _ | crash (.file _) => True
  | _ => False

theorem Failure.IsFileFault.ne_humanInput {f : Failure} (h : f.IsFileFault)
    (request : HumanRequest) : f ≠ .humanInput request := by
  rintro rfl
  exact h

namespace Act

/-- An operation put together from looking at the workspace and changing its files, that fails only
because of a file. -/
inductive ByFiles : {α : Type} → Act α → Prop where
  | pure {α : Type} (a : α) : ByFiles (pure a)
  | throw {α : Type} {f : Failure} (h : f.IsFileFault) : ByFiles (throw f : Act α)
  | get : ByFiles (get : Act Workspace)
  | perform (c : Change) : ByFiles (perform c)
  | bind {α β : Type} {m : Act α} {f : α → Act β} : ByFiles m → (∀ a, ByFiles (f a)) →
      ByFiles (m >>= f)

theorem OnFiles.bind {m : Act α} {f : α → Act β} (h : OnFiles m) (hf : ∀ a, OnFiles (f a)) :
    OnFiles (m >>= f) := by
  intro w
  have hends : Ends (m >>= f) w
      (fun _ t => ∃ files journal, t = { w with files := files, journal := journal })
      fun _ t => ∃ files journal, t = { w with files := files, journal := journal } := by
    obtain ⟨files, journal, hm⟩ := h w
    rw [ends_bind, Ends]
    rcases hmw : m w with ⟨_ | a, t⟩
    · rw [hmw] at hm
      exact ⟨files, journal, hm⟩
    · rw [hmw] at hm
      obtain ⟨files', journal', hfa⟩ := hf a t
      obtain rfl : t = { w with files := files, journal := journal } := hm
      dsimp only
      rw [Ends]
      rcases hfw : f a { w with files := files, journal := journal } with ⟨_ | b, t⟩
      · rw [hfw] at hfa
        exact ⟨files', journal', hfa⟩
      · rw [hfw] at hfa
        exact ⟨files', journal', hfa⟩
  exact hends.state

theorem ByFiles.onFiles {m : Act α} (h : ByFiles m) : OnFiles m := by
  induction h with
  | perform c => exact fun w => ⟨w.files.apply c, c :: w.journal, rfl⟩
  | bind _ _ ih ihf => exact ih.bind ihf
  | _ => exact fun w => ⟨w.files, w.journal, rfl⟩

/-- What such an operation raises is the fault of a file. -/
theorem ByFiles.fails {m : Act α} (h : ByFiles m) (w : Workspace) :
    Ends m w (fun _ _ => True) fun f _ => f.IsFileFault := by
  induction h generalizing w with
  | throw h => exact h
  | bind _ _ ih ihf => exact Ends.bind (ih w) (fun a w' _ => ihf a w') fun _ _ => id
  | _ => exact True.intro

/-- The locks after an operation on files are those before it. -/
theorem OnFiles.ends {m : Act α} (h : OnFiles m) (w : Workspace) :
    Ends m w (fun _ w' => w'.locks = w.locks) fun _ w' => w'.locks = w.locks := by
  obtain ⟨files, journal, hm⟩ := h w
  have hlocks : (m w).2.locks = w.locks := by rw [hm]
  rw [Ends]
  split
  · rename_i heq
    rwa [heq] at hlocks
  · rename_i heq
    rwa [heq] at hlocks

/-! ## Files -/

theorem byFiles_performAll (cs : List Change) : ByFiles (performAll cs) := by
  induction cs with
  | nil => exact .pure ()
  | cons c cs ih => exact (ByFiles.perform c).bind fun _ => ih

theorem byFiles_makeDirectories (dir : Path) : ByFiles (makeDirectories dir) := by
  unfold makeDirectories
  refine ByFiles.get.bind fun w => ?_
  split
  · exact .pure _
  · exact (byFiles_performAll _).bind fun _ => .pure _

theorem byFiles_writeText (file : Path) (text : String) : ByFiles (writeText file text) := by
  unfold writeText
  refine ByFiles.get.bind fun w => ?_
  split
  · exact .pure _
  · exact (ByFiles.perform _).bind fun _ => .pure _

theorem byFiles_appendText (file : Path) (text : String) : ByFiles (appendText file text) := by
  unfold appendText
  refine ByFiles.get.bind fun w => ?_
  split
  · exact .pure _
  · exact (ByFiles.perform _).bind fun _ => .pure _

end Act

open Act

/-! ## Artifacts -/

namespace Artifacts

theorem byFiles_orUnwritable (file : Path) (result : Except FileError Unit) :
    ByFiles (orUnwritable file result) := by
  cases result with
  | error e => exact .throw True.intro
  | ok _ => exact .pure _

theorem byFiles_writePart (file : Path) (text : String) : ByFiles (writePart file text) :=
  (byFiles_makeDirectories _).bind fun _ => (byFiles_orUnwritable _ _).bind fun _ =>
    (byFiles_writeText _ _).bind fun _ => byFiles_orUnwritable _ _

theorem byFiles_writeParts (parts : List (Path × String)) : ByFiles (writeParts parts) := by
  induction parts with
  | nil => exact .pure ()
  | cons part parts ih => exact (byFiles_writePart _ _).bind fun _ => ih

variable (a : Artifacts)

theorem byFiles_allow (artifact : Artifact) : ByFiles (a.allow artifact) := by
  unfold allow
  split
  · exact .throw True.intro
  · exact .pure _

theorem byFiles_writePlan (p : Plan) (n : Int) : ByFiles (a.writePlan p n) :=
  (a.byFiles_allow _).bind fun _ => byFiles_writePart _ _

theorem byFiles_writeReview (r : Review) (n : Int) : ByFiles (a.writeReview r n) :=
  (a.byFiles_allow _).bind fun _ => byFiles_writePart _ _

theorem byFiles_writeFinal (p : Plan) (status : FinalStatus) (score : Option Float) :
    ByFiles (a.writeFinal p status score) :=
  (a.byFiles_allow _).bind fun _ => byFiles_writeParts _

end Artifacts

/-! ## States and metrics -/

namespace SessionState

theorem byFiles_takeStep (disk : Disk) (dir : Path) (text : String) (step : SaveStep) :
    ByFiles (takeStep disk dir text step) := by
  unfold takeStep
  refine ByFiles.get.bind fun w => ?_
  split
  · exact .pure _
  · split
    · exact (byFiles_performAll _).bind fun _ => .pure _
    · exact (byFiles_performAll _).bind fun _ => .pure _

theorem byFiles_takeSteps (disk : Disk) (dir : Path) (text : String) (steps : List SaveStep) :
    ByFiles (takeSteps disk dir text steps) := by
  induction steps with
  | nil => exact .pure _
  | cons step steps ih =>
    refine (byFiles_takeStep disk dir text step).bind fun result => ?_
    split
    · exact .pure _
    · exact ih

theorem byFiles_discard (disk : Disk) (dir : Path) : ByFiles (discard disk dir) := by
  unfold discard
  refine ByFiles.get.bind fun w => ?_
  dsimp only
  split
  · exact .pure _
  · exact .throw True.intro
  · split
    · refine .bind (.throw True.intro) fun _ => ?_
      split
      · split
        · exact .throw True.intro
        · exact .perform _
      · exact .pure _
    · split
      · split
        · exact .throw True.intro
        · exact .perform _
      · exact .pure _

theorem byFiles_saveOn (disk : Disk) (dir : Path) (s : SessionState) :
    ByFiles (s.saveOn disk dir) := by
  unfold saveOn
  refine (byFiles_takeSteps disk dir _ _).bind fun result => ?_
  split
  · exact .pure _
  · exact (byFiles_discard disk dir).bind fun _ => .throw True.intro

theorem byFiles_save (dir : Path) (s : SessionState) : ByFiles (s.save dir) :=
  byFiles_saveOn {} dir s

end SessionState

theorem Act.byFiles_crashing (r : Except FileError α) : ByFiles (crashing r) := by
  cases r with
  | error e => exact .throw True.intro
  | ok a => exact .pure a

theorem Tally.byFiles_record (t : Tally) (dir : Path) (outcome : Json.Fields) :
    ByFiles (t.record dir outcome) :=
  (byFiles_makeDirectories dir).bind fun _ => (byFiles_crashing _).bind fun _ =>
    (ByFiles.get.bind fun _ => .pure _).bind fun _ =>
      (byFiles_appendText _ _).bind fun _ => byFiles_crashing _

end PlanReview
