import PlanReview.CommandLine.Execute
import PlanReview.Proofs.CommandLine.Options
import PlanReview.Proofs.Settings.Variables

/-!
# Which source a setting comes from

The settings of a run come from its options, then from the environment, then from the file that the
options name, then from the defaults. Zero iterations and empty names of directories are exceptions :
given as options they are passed over (`Layer.heeded`), though the environment can set the one and a
file the others. So the options come first exactly if what they set there is what holds without them
as well (`CommandLine.takes_of_run`).
-/

namespace PlanReview

open CommandLine

namespace Layer

/-- What the options of a run say. -/
def ofOptions (c : Collected) : Layer where
  maxIterations := (c.value? "--max-iterations").map Value.asInteger
  maxTotalTokens := (c.value? "--max-total-tokens").map Value.asInteger
  scoreThreshold := (c.value? "--threshold").map fun v => Viability.clampUnit v.asNumber
  runsDir := (c.value? "--runs-dir").map Value.asText
  activeDir := (c.value? "--output").map Value.asText

/-- What is heeded of a layer of options : neither zero iterations nor empty names. -/
def heeded (l : Layer) : Layer :=
  { l with
    maxIterations := l.maxIterations.filter (· ≠ 0)
    runsDir := l.runsDir.filter (· ≠ "")
    activeDir := l.activeDir.filter (· ≠ "") }

/-- What a layer says and is not heeded, another one says too. -/
structure Backs (m l : Layer) : Prop where
  maxIterations : l.maxIterations = some 0 → m.maxIterations = some 0
  runsDir : l.runsDir = some "" → m.runsDir = some ""
  activeDir : l.activeDir = some "" → m.activeDir = some ""

/-- Passing over one value changes nothing exactly if what stands below has this value too. -/
theorem getD_filter_or_eq_iff {α : Type} [DecidableEq α] {o o' : Option α} {a d : α} (h : d ≠ a) :
    ((o.filter (· ≠ a)).or o').getD d = (o.or o').getD d ↔ (o = some a → o' = some a) := by
  cases o with
  | none => simp
  | some b =>
    by_cases hb : b = a
    · subst hb
      rw [Option.filter_some_neg (by simp), Option.none_or, Option.some_or, Option.getD_some]
      cases o' with
      | none => simp [h]
      | some b' => simp
    · rw [Option.filter_some_pos (by simpa using hb)]
      simp [hb]

end Layer

variable {s : Settings} {l m : Layer}

/-- Settings that take what is heeded, take the whole layer exactly if the other one backs it. -/
theorem Settings.Takes.takes_over_iff (h : s.Takes (l.heeded.over m) {}) :
    s.Takes (l.over m) {} ↔ m.Backs l := by
  have hiterations : s.guardrails.maxIterations = (l.maxIterations.or m.maxIterations).getD 10 ↔
      (l.maxIterations = some 0 → m.maxIterations = some 0) :=
    h.maxIterations ▸ Layer.getD_filter_or_eq_iff (by decide)
  have hruns : s.output.runsDir = (l.runsDir.or m.runsDir).getD "./.plan-forge" ↔
      (l.runsDir = some "" → m.runsDir = some "") :=
    h.runsDir ▸ Layer.getD_filter_or_eq_iff (by decide)
  have hactive : s.output.activeDir = (l.activeDir.or m.activeDir).getD "./dev/active" ↔
      (l.activeDir = some "" → m.activeDir = some "") :=
    h.activeDir ▸ Layer.getD_filter_or_eq_iff (by decide)
  constructor
  · intro h'
    exact ⟨hiterations.1 h'.maxIterations, hruns.1 h'.runsDir, hactive.1 h'.activeDir⟩
  · intro h'
    exact ⟨hiterations.2 h'.maxIterations, h.maxTotalTokens, h.scoreThreshold,
      hruns.2 h'.runsDir, hactive.2 h'.activeDir⟩

namespace CommandLine

theorem orIterations_eq (given : Option Int) (default : Int) :
    orIterations given default = (given.filter (· ≠ 0)).getD default := by
  cases given with
  | none => rfl
  | some n => by_cases hn : n = 0 <;> simp [orIterations, Option.filter, hn]

theorem getD_orGiven (given : Option String) (default : String) :
    (Environment.orGiven given none).getD default = (given.filter (· ≠ "")).getD default := by
  cases given with
  | none => rfl
  | some text => by_cases htext : text = "" <;> simp [Environment.orGiven, Option.filter, htext]

namespace Overrides

variable {c : Collected}

/-- What settings on the command line say. -/
def layer (o : Overrides) : Layer where
  maxIterations := o.maxIterations
  maxTotalTokens := o.maxTotalTokens
  scoreThreshold := o.threshold.map Viability.clampUnit
  runsDir := o.runsDir
  activeDir := o.activeDir

/-- The settings among options say what the options say. -/
theorem layer_of (h : c.IsTyped runFlags) : (of c).layer = .ofOptions c := by
  have hiterations := h.integer?_eq "--max-iterations" (by decide)
  have htokens := h.integer?_eq "--max-total-tokens" (by decide)
  have hthreshold := h.number?_eq "--threshold" (by decide)
  have hruns := h.text?_eq "--runs-dir" (by decide)
  have hactive := h.text?_eq "--output" (by decide)
  rw [layer, of, hiterations, htokens, hthreshold, hruns, hactive, Option.map_map]
  rfl

/-- What overrides are put over takes what is heeded of them. -/
theorem takes_apply (o : Overrides) (s : Settings) : (o.apply s).Takes o.layer.heeded s := by
  have hiterations := orIterations_eq o.maxIterations s.guardrails.maxIterations
  have hruns := getD_orGiven o.runsDir s.output.runsDir
  have hactive := getD_orGiven o.activeDir s.output.activeDir
  unfold apply
  dsimp only
  split
  · rename_i x hx
    refine ⟨hiterations, rfl, ?_, hruns, hactive⟩
    rw [Layer.heeded, layer, hx]
    rfl
  · rename_i hnone
    refine ⟨hiterations, rfl, ?_, hruns, hactive⟩
    rw [Layer.heeded, layer, hnone]
    rfl

theorem isScored_apply (h : s.IsScored) (o : Overrides) : (o.apply s).IsScored := by
  unfold apply
  dsimp only
  split
  · exact Settings.isScored_withThreshold _ _
  · exact h

end Overrides

variable {files : FileTree} {words : List String} {i : Invocation}

/-- Settings can be had for every command whose file, if it names one, is accepted. -/
theorem exists_settingsFor (e : Environment)
    (hfile : ∀ p, i.config = some p → ∃ s₀, SettingsFile.load files p = .ok s₀) :
    ∃ s₁, e.resolve files i.config = .ok s₁ ∧ settingsFor files e i = .ok (i.overrides.apply s₁) := by
  cases hconfig : i.config with
  | none =>
    refine ⟨e.apply {}, rfl, ?_⟩
    rw [settingsFor, hconfig]
    rfl
  | some p =>
    obtain ⟨s₀, hload⟩ := hfile p hconfig
    refine ⟨e.apply s₀, ?_, ?_⟩
    · rw [Environment.resolve, hload]
      rfl
    · rw [settingsFor, hconfig, Environment.resolve, hload]
      rfl

/-- For every run that is understood, every environment and every file that is accepted : the
environment is understood exactly if its numbers can be read. Then the run has settings with a
passing score in the unit interval, in which its options come first, as far as they are heeded, then
the environment, then the file, then the defaults; and all of its options come first exactly if the
environment and the file back those that are not heeded. -/
theorem takes_of_run {a : RunArguments} (vars : List (String × String))
    (h : Invocation.parse words = .ok (some i)) (hrun : i.command = .run a)
    (hfile : ∀ p, i.config = some p → ∃ s₀, SettingsFile.load files p = .ok s₀) :
    ∃ rest c, words = "run" :: rest ∧ readOptions runFlags rest = .ok c ∧
      ((∃ e, Environment.ofVariables vars = .ok e) ↔ Environment.IsReadable vars) ∧
      ∀ e, Environment.ofVariables vars = .ok e → ∃ s, settingsFor files e i = .ok s ∧
        s.IsScored ∧
        s.Takes ((Layer.ofOptions c).heeded.over (.below files vars i.config)) {} ∧
        (s.Takes ((Layer.ofOptions c).over (.below files vars i.config)) {} ↔
          (Layer.below files vars i.config).Backs (.ofOptions c)) := by
  obtain ⟨rest, c, hwords, hc, rfl⟩ := Invocation.eq_of_parse_run h hrun
  refine ⟨rest, c, hwords, hc, Environment.exists_ofVariables_iff, fun e he => ?_⟩
  obtain ⟨s₁, hresolve, hsettings⟩ := exists_settingsFor e hfile
  obtain ⟨hbelow, hscored⟩ := Environment.takes_of_resolve he hresolve
  have htakes : ((Overrides.of c).apply s₁).Takes (Layer.ofOptions c).heeded s₁ :=
    Overrides.layer_of (isTyped_of_readOptions hc) ▸ Overrides.takes_apply (.of c) s₁
  exact ⟨_, hsettings, Overrides.isScored_apply hscored _, htakes.trans hbelow,
    (htakes.trans hbelow).takes_over_iff⟩

/-- A tree with a file of settings. -/
def desk : FileTree where
  cwd := ["home"]
  entries := [
    ([], ⟨.directory, 1⟩),
    (["home"], ⟨.directory, 1⟩),
    (["home", "forge.yaml"], ⟨.file (.text "guardrails:\n  max_iterations: 4\n"), 2⟩)]

/-- Variables that set a limit and a passing score. -/
def deskVariables : List (String × String) :=
  [("PLAN_FORGE_MAX_TOTAL_TOKENS", "7000"), ("threshold", "2")]

/-- Options that name the file and a directory, and that ask for no iterations. -/
def deskOptions : Collected where
  values := [
    ("--config", .text "forge.yaml"),
    ("--max-iterations", .integer 0),
    ("--runs-dir", .text "runs")]

/-- Each setting of this run comes from another source, and one option is passed over. -/
theorem takes_of_run_desk :
    Invocation.parse
        ["run", "--config", "forge.yaml", "--max-iterations", "0", "--runs-dir=runs"] =
      .ok (some (deskOptions.invocation "run")) ∧
    (∃ s₀, SettingsFile.load desk (.ofString "forge.yaml") = .ok s₀) ∧
    ∃ e s, Environment.ofVariables deskVariables = .ok e ∧
      settingsFor desk e (deskOptions.invocation "run") = .ok s ∧
      s.guardrails.maxIterations = 4 ∧ s.guardrails.maxTotalTokens = 7000 ∧
      s.guardrails.scoreThreshold = 1.0 ∧ s.output.runsDir = "runs" ∧
      s.output.activeDir = "./dev/active" := by
  have hparse : Invocation.parse
      ["run", "--config", "forge.yaml", "--max-iterations", "0", "--runs-dir=runs"] =
      .ok (some (deskOptions.invocation "run")) := rfl
  have hload : ∃ s₀, SettingsFile.load desk (.ofString "forge.yaml") = .ok s₀ :=
    exists_of_isOk (by decide +kernel)
  have hfile (p : Path) (hp : (deskOptions.invocation "run").config = some p) :
      ∃ s₀, SettingsFile.load desk p = .ok s₀ := by
    cases hp
    exact hload
  obtain ⟨rest, c, hwords, hc, -, hsettings⟩ :=
    takes_of_run deskVariables hparse rfl hfile
  obtain ⟨e, he⟩ : ∃ e, Environment.ofVariables deskVariables = .ok e :=
    exists_of_isOk (by decide +kernel)
  obtain ⟨s, hs, -, htakes, -⟩ := hsettings e he
  obtain ⟨-, rfl⟩ := List.cons.inj hwords
  have hread : readOptions runFlags
      ["--config", "forge.yaml", "--max-iterations", "0", "--runs-dir=runs"] = .ok deskOptions := rfl
  obtain rfl := Except.ok.inj (hread.symm.trans hc)
  refine ⟨hparse, hload, e, s, he, hs, ?_⟩
  rw [htakes.maxIterations, htakes.maxTotalTokens, htakes.scoreThreshold, htakes.runsDir,
    htakes.activeDir]
  refine ⟨?_, ?_, ?_, ?_, ?_⟩ <;> decide +kernel

/-- Options that ask for no iterations. -/
def idleOptions : Collected where
  values := [("--max-iterations", .integer 0)]

/-- Zero iterations as an option leave the default as it is, though no other source sets it. -/
theorem not_takes_of_idle :
    ∃ i s, Invocation.parse ["run", "--max-iterations", "0"] = .ok (some i) ∧
      readOptions runFlags ["--max-iterations", "0"] = .ok idleOptions ∧
      Environment.ofVariables [] = .ok {} ∧ settingsFor desk {} i = .ok s ∧
      s.guardrails.maxIterations = 10 ∧
      ¬ s.Takes ((Layer.ofOptions idleOptions).over (.below desk [] i.config)) {} := by
  refine ⟨idleOptions.invocation "run", (Overrides.of idleOptions).apply {}, rfl, rfl, rfl, rfl,
    rfl, fun h => ?_⟩
  exact absurd h.maxIterations (by decide +kernel)

end CommandLine

end PlanReview
