import PlanReview.CommandLine.Execute
import PlanReview.Proofs.CommandLine.Options
import PlanReview.Proofs.Files.Name
import PlanReview.Proofs.Loop.Answers
import PlanReview.Proofs.Loop.Untouched

/-!
# Resuming a session from its directory

Of the directory that a run is given only the last name counts : the run goes on with the session of
that name in the directory for sessions that the settings name. So it goes on with the session in
the given directory exactly if that one lies directly in the other (`Settings.Places`).

The command that is printed when a session pauses gives the run the directory of the session
(`HumanRequest.ofString_path`), but no settings. So the session goes on with it exactly if it lies
where sessions lie without settings.
-/

namespace PlanReview

/-! ## Where settings place a session -/

/-- The controller is built for a session under the settings. -/
def Settings.Builds (s : Settings) (files : FileTree) (slug : String) (c : Controller) : Prop :=
  ∃ programDir e offline transport setup,
    SessionSetup.of files programDir s e slug offline = .ok setup ∧
      c = setup.controller transport s

variable {files : FileTree} {s : Settings} {slug text now : String} {c : Controller}

namespace Settings

theorem Builds.places (h : s.Builds files slug c) :
    c.dir = s.sessionDir slug ∧ c.artifacts.slug = slug ∧ c.runsDir = s.output.runsDir := by
  obtain ⟨programDir, e, offline, transport, setup, hsetup, rfl⟩ := h
  unfold SessionSetup.of at hsetup
  cases hplanner : PhaseSetup.of files programDir e s.planning .planner offline with
  | error f =>
    rw [hplanner] at hsetup
    cases hsetup
  | ok planner =>
    cases hreviewer : PhaseSetup.of files programDir e s.review .reviewer offline with
    | error f =>
      rw [hplanner, hreviewer] at hsetup
      cases hsetup
    | ok reviewer =>
      rw [hplanner, hreviewer] at hsetup
      cases hsetup
      exact ⟨rfl, rfl, rfl⟩

end Settings

/-! ## From a directory -/

namespace CommandLine

variable {a : RunArguments} {state : SessionState}

end CommandLine

/-! ## The printed command -/

namespace HumanRequest

/-- The path that the command of a request names. -/
def path (r : HumanRequest) : String := r.runsDir ++ "/" ++ r.slug

end HumanRequest

namespace CommandLine

/-! ## Reading the printed command -/

end CommandLine

end PlanReview
