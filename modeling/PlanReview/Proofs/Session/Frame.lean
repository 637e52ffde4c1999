import PlanReview.Proofs.Files.Name
import PlanReview.Proofs.Workspace.Stores
import PlanReview.Session.Lock
import PlanReview.Session.Timing

/-!
# What a session touches besides its state

Taking the lock of a session makes at most its directory and the lock file (`acquire_ends`), giving
it back touches no file (`release_spares`), and the metrics only touch their own file
(`record_ends`).
-/

namespace PlanReview

open Workspace

variable {key : List String} {w : Workspace}

/-! ## The lock -/

namespace Lock

theorem isEnding_fileName : IsEnding fileName :=
  ⟨by decide, 's', by decide, by decide⟩

/-- The path that the lock of a directory is kept at. -/
def place (dir : Path) (cwd : List String) : Path :=
  .ofParts (dir.resolve cwd)

theorem length_foldl_step_le (parts names : List String) :
    (parts.foldl Path.step names).length ≤ names.length + parts.length := by
  induction parts generalizing names with
  | nil => exact Nat.le_refl _
  | cons part parts ih =>
    have hstep : (Path.step names part).length ≤ names.length + 1 := by
      unfold Path.step
      split <;> simp
      omega
    have hrest := ih (Path.step names part)
    rw [List.foldl_cons, List.length_cons]
    omega

/-- A file inside the directory is not on the way to the place of its lock. -/
theorem not_prefix_place (dir : Path) (cwd : List String) (name : String) :
    ¬ dir.resolve cwd ++ [name] <+: (place dir cwd).resolve cwd := by
  intro hbegins
  have hle := length_foldl_step_le (dir.resolve cwd) []
  have hplace : (place dir cwd).resolve cwd = (dir.resolve cwd).foldl Path.step [] := rfl
  have hlength := hbegins.length_le
  rw [hplace] at hlength
  simp only [List.length_append, List.length_singleton, List.length_nil] at hle hlength
  omega

theorem requireFile_ends (dir : Path) (result : Except FileError Unit)
    {ok : Unit → Workspace → Prop} {bad : Failure → Workspace → Prop} :
    Ends (requireFile dir result) w ok bad ↔ match result with
      | .ok () => ok () w
      | .error e => bad (.persistence (.noLock dir.text e)) w := by
  cases result <;> rfl

theorem touch_ends (file : Path)
    (h : key = file.resolve w.files.cwd → w.files.node? key = some .directory) :
    Ends (touch file) w (fun _ w' => w.Spares key w') fun _ _ => False := by
  unfold touch
  rw [ends_bind, ends_get]
  by_cases hfile : w.files.isFile file
  · rw [if_pos hfile]
    exact Spares.refl key w
  · rw [if_neg hfile]
    exact (Act.writeText_ends file "" h).mono (fun _ _ h => h.1) fun _ _ => id

/-- Taking the lock leaves the other files alone. -/
theorem acquire_ends (registry : Registry) (dir : Path)
    (h : w.files.node? key ≠ none ∨
      ¬ key <+: (place dir w.files.cwd).resolve w.files.cwd)
    (hfile : key = (place dir w.files.cwd).resolve w.files.cwd ++ [fileName] →
      w.files.node? key = some .directory) :
    Ends (acquire registry dir) w (fun _ w' => w.Spares key w') fun _ w' => w.Spares key w' := by
  unfold acquire
  rw [ends_bind, ends_get]
  dsimp only
  by_cases hholds : w.locks.holds registry (dir.resolve w.files.cwd)
  · rw [if_pos hholds]
    exact Spares.refl key w
  rw [if_neg hholds]
  refine Ends.bind (Act.makeDirectories_ends _ h) (fun made w₁ hmade => ?_) nofun
  rw [ends_bind, requireFile_ends]
  cases made with
  | error e => exact hmade
  | ok _ =>
    have htouch := @touch_ends key w₁ ((place dir w.files.cwd).child fileName) (by
      rwa [hmade.cwd_eq, Path.resolve_child isEnding_fileName.isName, hmade.node_eq])
    refine Ends.bind htouch (fun touched w₂ htouched => ?_) nofun
    rw [ends_bind, requireFile_ends]
    have hspares := hmade.trans htouched
    cases touched with
    | error e => exact hspares
    | ok _ =>
      dsimp only
      split
      · exact hspares
      · exact hspares.trans (spares_of_eq rfl rfl)

/-- Giving the lock back touches no file. -/
theorem release_spares (registry : Registry) (dir : Path) (w : Workspace) :
    w.Spares key (release registry dir w).2 :=
  spares_of_eq rfl rfl

end Lock

/-! ## The metrics -/

namespace Tally

theorem isEnding_fileName : IsEnding fileName :=
  ⟨by decide, 'm', by decide, by decide⟩

theorem crashing_ends {α : Type} (result : Except FileError α) {ok : α → Workspace → Prop}
    {bad : Failure → Workspace → Prop} : Ends (Act.crashing result) w ok bad ↔ match result with
      | .ok a => ok a w
      | .error e => bad (.crash (.file e)) w := by
  cases result <;> rfl

/-- The metrics of a run leave the other files alone. -/
theorem record_ends (t : Tally) (dir : Path) (outcome : Json.Fields)
    (hthere : w.files.node? key ≠ none ∨ ¬ key <+: dir.resolve w.files.cwd)
    (h : key = dir.resolve w.files.cwd ++ [fileName] → w.files.node? key = some .directory) :
    Ends (t.record dir outcome) w (fun _ w' => w.Spares key w') fun _ w' => w.Spares key w' := by
  unfold record
  refine Ends.bind (Act.makeDirectories_ends dir hthere) (fun made w₁ hmade => ?_) nofun
  rw [ends_bind, crashing_ends]
  cases made with
  | error e => exact hmade
  | ok _ =>
    unfold Act.now
    rw [ends_bind, ends_bind, ends_get]
    rw [← Path.resolve_child isEnding_fileName.isName, ← hmade.cwd_eq, ← hmade.node_eq] at h
    refine Ends.bind (Act.appendText_ends _ _ h) (fun written w₂ hwritten => ?_) nofun
    rw [crashing_ends]
    cases written <;> exact hmade.trans hwritten

end Tally

end PlanReview
