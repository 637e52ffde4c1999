import PlanReview.Proofs.Settings.Layers
import PlanReview.Settings.Environment

/-!
# The layer of the environment

The variables of an environment are understood exactly if those that hold numbers can be read
(`Environment.exists_ofVariables_iff`). What they set then comes over the settings of a file, and
that over the defaults (`Environment.takes_of_resolve`).
-/

namespace PlanReview

namespace Schema.Checked

variable {α β : Type} {f : Checked (α → β)} {x : Checked α} {a : α} {b : β}

/-- The value of a reading that has one. -/
def getD (x : Checked α) (default : α) : α :=
  match x with
  | ok a => a
  | bad _ => default

theorem seq_eq_ok_iff : f <*> x = ok b ↔ ∃ g, f = ok g ∧ ∃ a, x = ok a ∧ g a = b := by
  constructor
  · intro h
    cases f with
    | bad e => cases x <;> cases h
    | ok g =>
      cases x with
      | bad e => cases h
      | ok a =>
        cases h
        exact ⟨g, rfl, a, rfl, rfl⟩
  · rintro ⟨g, rfl, a, rfl, rfl⟩
    rfl

theorem map_eq_ok_iff {g : α → β} : g <$> x = ok b ↔ ∃ a, x = ok a ∧ g a = b := by
  constructor
  · intro h
    cases x with
    | bad e => cases h
    | ok a =>
      cases h
      exact ⟨a, rfl, rfl⟩
  · rintro ⟨a, rfl, rfl⟩
    rfl

theorem exists_seq_eq_ok_iff :
    (∃ b, f <*> x = ok b) ↔ (∃ g, f = ok g) ∧ ∃ a, x = ok a := by
  simp only [seq_eq_ok_iff]
  constructor
  · rintro ⟨b, g, hg, a, ha, -⟩
    exact ⟨⟨g, hg⟩, a, ha⟩
  · rintro ⟨⟨g, hg⟩, a, ha⟩
    exact ⟨g a, g, hg, a, ha, rfl⟩

theorem exists_map_eq_ok_iff {g : α → β} : (∃ b, g <$> x = ok b) ↔ ∃ a, x = ok a := by
  simp only [map_eq_ok_iff]
  constructor
  · rintro ⟨b, a, ha, -⟩
    exact ⟨a, ha⟩
  · rintro ⟨a, ha⟩
    exact ⟨g a, a, ha, rfl⟩

theorem under_eq_ok_iff {key : Key} : x.under key = ok a ↔ x = ok a := by
  cases x with
  | ok a' => rfl
  | bad e => exact ⟨nofun, nofun⟩

theorem report_eq_ok_iff {shape : String} : x.report shape = .ok a ↔ x = ok a := by
  cases x with
  | ok a' => exact ⟨fun h => by cases h; rfl, fun h => by cases h; rfl⟩
  | bad e => exact ⟨nofun, nofun⟩

end Schema.Checked

open Schema

namespace Environment

variable {α : Type} {vars : List (String × String)} {long : String} {d : Decoder α}
  {e : Environment} {files : FileTree} {config : Option Path} {s : Settings}

/-- If the variable that sets something is there, it can be read. -/
def Reads (vars : List (String × String)) (long : String) (d : Decoder α) : Prop :=
  ∀ v, given vars long = some v → ∃ a, d v.2 = .ok a

/-- All variables that hold numbers can be read. -/
structure IsReadable (vars : List (String × String)) : Prop where
  threshold : Reads vars "PLAN_FORGE_THRESHOLD" float
  maxIterations : Reads vars "PLAN_FORGE_MAX_ITERATIONS" int
  maxTotalTokens : Reads vars "PLAN_FORGE_MAX_TOTAL_TOKENS" int
  timeoutSeconds : Reads vars "OPENAI_TIMEOUT_SECONDS" int

/-- The variables that set texts can always be read. -/
theorem reads_string (vars : List (String × String)) (long : String) :
    Reads vars long string := by
  intro v hv
  unfold given at hv
  split at hv
  · cases hv
    exact ⟨_, rfl⟩
  · obtain ⟨short, -, hv⟩ := Option.bind_eq_some_iff.1 hv
    obtain ⟨text, -, rfl⟩ := Option.map_eq_some_iff.1 hv
    exact ⟨_, rfl⟩

theorem exists_setting_iff {default : α} :
    (∃ a, setting vars long default d = .ok a) ↔ Reads vars long d := by
  unfold setting Reads
  split
  · rename_i name v hv
    simp only [Checked.under_eq_ok_iff, hv, Option.some_inj, forall_eq']
  · rename_i hnone
    simp [hnone]

theorem reads_map_some_iff : Reads vars long (fun j => (d j).map some) ↔ Reads vars long d :=
  forall₂_congr fun _ _ => Checked.exists_map_eq_ok_iff

/-- An optional setting is what is read from its variable. -/
theorem setting_eq_ok {o : Option α}
    (h : setting vars long none (fun j => (d j).map some) = .ok o) (default : α) :
    o = (given vars long).map fun v => (d v.2).getD default := by
  unfold setting at h
  split at h
  · rename_i name v hv
    obtain ⟨a, ha, rfl⟩ := Checked.map_eq_ok_iff.1 (Checked.under_eq_ok_iff.1 h)
    rw [hv, Option.map_some, ha]
    rfl
  · rename_i hnone
    cases h
    rw [hnone, Option.map_none]

/-- An environment is understood exactly if its numbers can be read. -/
theorem exists_ofVariables_iff : (∃ e, ofVariables vars = .ok e) ↔ IsReadable vars := by
  unfold ofVariables
  simp only [Checked.report_eq_ok_iff, Checked.exists_seq_eq_ok_iff, Checked.exists_map_eq_ok_iff,
    exists_setting_iff, reads_map_some_iff, reads_string, and_true]
  exact ⟨fun ⟨⟨⟨h₁, h₂⟩, h₃⟩, h₄⟩ => ⟨h₁, h₂, h₃, h₄⟩, fun ⟨h₁, h₂, h₃, h₄⟩ => ⟨⟨⟨h₁, h₂⟩, h₃⟩, h₄⟩⟩

end Environment

/-- What the variables of an environment say. -/
def Layer.ofVariables (vars : List (String × String)) : Layer where
  maxIterations :=
    (Environment.given vars "PLAN_FORGE_MAX_ITERATIONS").map fun v => (int v.2).getD 0
  maxTotalTokens :=
    (Environment.given vars "PLAN_FORGE_MAX_TOTAL_TOKENS").map fun v => (int v.2).getD 0
  scoreThreshold := (Environment.given vars "PLAN_FORGE_THRESHOLD").map fun v =>
    Viability.clampUnit ((float v.2).getD 0.0)

/-- What is said about settings before the command line is heard : the environment over a file. -/
def Layer.below (files : FileTree) (vars : List (String × String)) (config : Option Path) : Layer :=
  (ofVariables vars).over (ofFile files config)

namespace Environment

variable {vars : List (String × String)} {e : Environment} {files : FileTree}
  {config : Option Path} {s : Settings}

theorem ofVariables_eq_ok (h : ofVariables vars = .ok e) :
    e.maxIterations = (Layer.ofVariables vars).maxIterations ∧
      e.maxTotalTokens = (Layer.ofVariables vars).maxTotalTokens ∧
      e.threshold.map Viability.clampUnit = (Layer.ofVariables vars).scoreThreshold := by
  have h₁₂ := Checked.report_eq_ok_iff.1 h
  obtain ⟨_, h₁₁, timeoutSeconds, -, rfl⟩ := Checked.seq_eq_ok_iff.1 h₁₂
  obtain ⟨_, h₁₀, model, -, rfl⟩ := Checked.seq_eq_ok_iff.1 h₁₁
  obtain ⟨_, h₉, baseUrl, -, rfl⟩ := Checked.seq_eq_ok_iff.1 h₁₀
  obtain ⟨_, h₈, apiKey, -, rfl⟩ := Checked.seq_eq_ok_iff.1 h₉
  obtain ⟨_, h₇, recipeDir, -, rfl⟩ := Checked.seq_eq_ok_iff.1 h₈
  obtain ⟨_, h₆, reviewerModel, -, rfl⟩ := Checked.seq_eq_ok_iff.1 h₇
  obtain ⟨_, h₅, reviewerProvider, -, rfl⟩ := Checked.seq_eq_ok_iff.1 h₆
  obtain ⟨_, h₄, plannerModel, -, rfl⟩ := Checked.seq_eq_ok_iff.1 h₅
  obtain ⟨_, h₃, plannerProvider, -, rfl⟩ := Checked.seq_eq_ok_iff.1 h₄
  obtain ⟨_, h₂, maxTotalTokens, htokens, rfl⟩ := Checked.seq_eq_ok_iff.1 h₃
  obtain ⟨_, h₁, maxIterations, hiterations, rfl⟩ := Checked.seq_eq_ok_iff.1 h₂
  obtain ⟨threshold, hthreshold, rfl⟩ := Checked.map_eq_ok_iff.1 h₁
  refine ⟨setting_eq_ok hiterations 0, setting_eq_ok htokens 0, ?_⟩
  dsimp only
  rw [setting_eq_ok hthreshold 0.0, Option.map_map]
  rfl

/-- What an environment is put over takes what its variables say. -/
theorem takes_apply (h : ofVariables vars = .ok e) (s : Settings) :
    (e.apply s).Takes (.ofVariables vars) s := by
  obtain ⟨hiterations, htokens, hthreshold⟩ := ofVariables_eq_ok h
  unfold apply
  dsimp only
  split
  · rename_i x hx
    rw [hx, Option.map_some] at hthreshold
    exact ⟨hiterations ▸ rfl, htokens ▸ rfl, hthreshold ▸ rfl, rfl, rfl⟩
  · rename_i hnone
    rw [hnone, Option.map_none] at hthreshold
    exact ⟨hiterations ▸ rfl, htokens ▸ rfl, hthreshold ▸ rfl, rfl, rfl⟩

theorem isScored_apply (h : s.IsScored) (e : Environment) : (e.apply s).IsScored := by
  unfold apply
  dsimp only
  split
  · exact Settings.isScored_withThreshold _ _
  · exact h

/-- The settings without the command line take the environment over the file over the defaults. -/
theorem takes_of_resolve (he : ofVariables vars = .ok e) (h : e.resolve files config = .ok s) :
    s.Takes (.below files vars config) {} ∧ s.IsScored := by
  unfold resolve at h
  split at h
  · rename_i p
    cases hload : SettingsFile.load files p with
    | error f =>
      rw [hload] at h
      cases h
    | ok s₀ =>
      obtain ⟨htakes, hscored⟩ := SettingsFile.takes_ofFile_of_load hload
      rw [hload] at h
      cases h
      exact ⟨(takes_apply he s₀).trans htakes, isScored_apply hscored e⟩
  · cases h
    exact ⟨(takes_apply he _).trans (.refl _), isScored_apply Settings.isScored_default e⟩

end Environment

end PlanReview
