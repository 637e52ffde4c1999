import PlanReview.Proofs.Decimal.Order
import PlanReview.Proofs.Workspace.Outcome
import PlanReview.Settings.File

/-!
# Settings in layers

A `Layer` holds what one source says about the five settings that more than one source can give :
the file, the environment, the command line. Layers are put over each other field by field
(`Layer.over`), and settings take a layer over other settings if every field has the value of the
layer, or else the other one (`Settings.Takes`).

A file that is accepted gives the settings that take its layer over the defaults, and a passing
score in the unit interval (`SettingsFile.takes_ofFile_of_load`).
-/

namespace PlanReview

open Decimal (InUnit)

/-- What one source says about the settings that more than one can give. -/
structure Layer where
  maxIterations : Option Int := none
  maxTotalTokens : Option Int := none
  scoreThreshold : Option Float := none
  runsDir : Option String := none
  activeDir : Option String := none

/-- A layer over another one. -/
def Layer.over (l m : Layer) : Layer where
  maxIterations := l.maxIterations.or m.maxIterations
  maxTotalTokens := l.maxTotalTokens.or m.maxTotalTokens
  scoreThreshold := l.scoreThreshold.or m.scoreThreshold
  runsDir := l.runsDir.or m.runsDir
  activeDir := l.activeDir.or m.activeDir

/-- Every setting that a layer can say something about has the value that it has in the layer, and
otherwise the one that it has in other settings. -/
structure Settings.Takes (s : Settings) (l : Layer) (s₀ : Settings) : Prop where
  maxIterations : s.guardrails.maxIterations = l.maxIterations.getD s₀.guardrails.maxIterations
  maxTotalTokens : s.guardrails.maxTotalTokens = l.maxTotalTokens.getD s₀.guardrails.maxTotalTokens
  scoreThreshold : s.guardrails.scoreThreshold = l.scoreThreshold.getD s₀.guardrails.scoreThreshold
  runsDir : s.output.runsDir = l.runsDir.getD s₀.output.runsDir
  activeDir : s.output.activeDir = l.activeDir.getD s₀.output.activeDir

variable {s s₀ s₁ : Settings} {l m : Layer}

namespace Settings.Takes

theorem refl (s : Settings) : s.Takes {} s :=
  ⟨rfl, rfl, rfl, rfl, rfl⟩

theorem trans (h : s.Takes l s₁) (h' : s₁.Takes m s₀) : s.Takes (l.over m) s₀ where
  maxIterations := by rw [h.maxIterations, h'.maxIterations, Layer.over, Option.getD_or]
  maxTotalTokens := by rw [h.maxTotalTokens, h'.maxTotalTokens, Layer.over, Option.getD_or]
  scoreThreshold := by rw [h.scoreThreshold, h'.scoreThreshold, Layer.over, Option.getD_or]
  runsDir := by rw [h.runsDir, h'.runsDir, Layer.over, Option.getD_or]
  activeDir := by rw [h.activeDir, h'.activeDir, Layer.over, Option.getD_or]

end Settings.Takes

/-! ## Passing scores -/

/-- The passing score is a score. -/
def Settings.IsScored (s : Settings) : Prop :=
  InUnit s.guardrails.scoreThreshold

theorem inUnit_clampUnit (x : Float) : InUnit (Viability.clampUnit x) := by
  have hone : InUnit 1.0 := ⟨by decide +kernel, by decide +kernel⟩
  have hnonneg : (0.0 : Float) ≤ if x > 0.0 then x else 0.0 := by
    split
    · rename_i hpos
      exact Decimal.le_of_lt hpos
    · exact Decimal.inUnit_zero.nonneg
  unfold Viability.clampUnit
  dsimp only
  generalize (if x > 0.0 then x else 0.0) = y at hnonneg
  split
  · rename_i hlt
    exact ⟨hnonneg, Decimal.le_of_lt hlt⟩
  · exact hone

theorem Settings.isScored_default : Settings.IsScored {} :=
  ⟨by decide +kernel, by decide +kernel⟩

theorem Settings.isScored_withThreshold (s : Settings) (x : Float) :
    (s.withThreshold x).IsScored :=
  inUnit_clampUnit x

/-! ## The layer of a file -/

namespace Yaml

/-- The field of a group in a file of settings. A group that is null has none. -/
def fieldOf? : Yaml → String → String → Option Yaml
  | .map entries, group, name =>
    match YamlEntries.present? entries group with
    | some (.map fields) => YamlEntries.get? fields name
    | _ => none
  | _, _, _ => none

/-- The integer of a value that is one. -/
def asInt : Yaml → Int
  | .int n => n
  | _ => 0

/-- The double of a value that is a number. -/
def asFloat : Yaml → Float
  | .int n => Float.ofInt n
  | .float x => x
  | _ => 0.0

/-- The text of a value that is one. -/
def asText : Yaml → String
  | .text s => s
  | _ => ""

end Yaml

/-- What a file of settings says. The passing score has two names. Under the one in the review it is
clamped, which makes a zero of a negative zero and changes nothing else that is accepted. -/
def Layer.ofYaml (y : Yaml) : Layer where
  maxIterations := (y.fieldOf? "guardrails" "max_iterations").map Yaml.asInt
  maxTotalTokens := (y.fieldOf? "guardrails" "max_total_tokens").map Yaml.asInt
  scoreThreshold :=
    ((y.fieldOf? "review" "pass_threshold").map fun x => Viability.clampUnit x.asFloat).or
      ((y.fieldOf? "guardrails" "score_threshold").map Yaml.asFloat)
  runsDir := (y.fieldOf? "output" "runs_dir").map Yaml.asText
  activeDir := (y.fieldOf? "output" "active_dir").map Yaml.asText

/-- What the file says that a command names, if it names one. -/
def Layer.ofFile (files : FileTree) (config : Option Path) : Layer :=
  match config.map (SettingsFile.read files "config") with
  | some (.ok y) => .ofYaml y
  | _ => {}

/-- The directories are those of the fields of a group, and otherwise those of a base. -/
structure OutputSettings.Reads (o : OutputSettings) (field? : String → Option Yaml)
    (base : OutputSettings) : Prop where
  runsDir : o.runsDir = ((field? "runs_dir").map Yaml.asText).getD base.runsDir
  activeDir : o.activeDir = ((field? "active_dir").map Yaml.asText).getD base.activeDir

/-- The limits are those of the fields of a group, and otherwise those of a base, and the passing
score is a score. -/
structure GuardrailSettings.Reads (g : GuardrailSettings) (field? : String → Option Yaml)
    (base : GuardrailSettings) : Prop where
  maxIterations :
    g.maxIterations = ((field? "max_iterations").map Yaml.asInt).getD base.maxIterations
  maxTotalTokens :
    g.maxTotalTokens = ((field? "max_total_tokens").map Yaml.asInt).getD base.maxTotalTokens
  scoreThreshold :
    g.scoreThreshold = ((field? "score_threshold").map Yaml.asFloat).getD base.scoreThreshold
  inUnit : InUnit g.scoreThreshold

namespace SettingsFile

variable {α : Type} {entries : YamlEntries} {context name : String} {y : Yaml}

theorem integer_eq_ok {n : Int} (h : integer context y = .ok n) : n = y.asInt := by
  unfold integer at h
  split at h <;> cases h
  rfl

theorem string_eq_ok {text : String} (h : string context y = .ok text) : text = y.asText := by
  unfold string at h
  split at h <;> cases h
  rfl

theorem number_eq_ok {x : Float} (h : number context y = .ok x) : x = y.asFloat := by
  unfold number at h
  split at h
  · split at h <;> cases h
    rfl
  · cases h
    rfl
  · cases h

theorem score_eq_ok {x : Float} (h : score context y = .ok x) : x = y.asFloat ∧ InUnit x := by
  obtain ⟨x', hx, h⟩ := bind_eq_ok_iff.1 h
  split at h
  · rename_i hunit
    rw [Bool.and_eq_true, decide_eq_true_eq, decide_eq_true_eq] at hunit
    cases h
    exact ⟨number_eq_ok hx, hunit.1, hunit.2⟩
  · cases h

theorem mapping_eq_ok (h : mapping context y = .ok entries) : y = .map entries := by
  unfold mapping at h
  split at h <;> cases h
  rfl

/-- What is read from a field has a property that its default has and that reading gives. -/
theorem of_field {P : Option Yaml → α → Prop} {default a : α}
    {read : String → Yaml → Except Failure α} (h : field entries context name default read = .ok a)
    (hdefault : P none default)
    (hread : ∀ context y a, read context y = .ok a → P (some y) a) :
    P (entries.get? name) a := by
  unfold field at h
  split at h
  · rename_i y hy
    exact hy ▸ hread _ y a h
  · rename_i hnone
    cases h
    exact hnone ▸ hdefault

theorem field_eq_ok {default a : α} {read : String → Yaml → Except Failure α} {value : Yaml → α}
    (h : field entries context name default read = .ok a)
    (hread : ∀ context y a, read context y = .ok a → a = value y) :
    a = ((entries.get? name).map value).getD default :=
  of_field (P := fun y a => a = (y.map value).getD default) h rfl hread

/-- What is read from a group has a property that its default has and that reading gives. -/
theorem of_group {P : (String → Option Yaml) → α → Prop} {default a : α}
    {read : Yaml → Except Failure α} (h : group entries name default read = .ok a)
    (hdefault : P (fun _ => none) default)
    (hread : ∀ y a, read y = .ok a → ∃ fields, y = .map fields ∧ P (YamlEntries.get? fields) a) :
    P ((Yaml.map entries).fieldOf? name) a := by
  unfold group at h
  split at h
  · rename_i y hy
    obtain ⟨fields, rfl, hfields⟩ := hread y a h
    have hfieldOf : (Yaml.map entries).fieldOf? name = YamlEntries.get? fields := by
      funext key
      rw [Yaml.fieldOf?, hy]
    exact hfieldOf ▸ hfields
  · rename_i hnone
    have hfieldOf : (Yaml.map entries).fieldOf? name = fun _ => none := by
      funext key
      rw [Yaml.fieldOf?, hnone]
    cases h
    exact hfieldOf ▸ hdefault

/-- What a phase says about the passing score. -/
theorem phase_eq_ok {base : PhaseSettings} {scored : Bool} {p : PhaseSettings × Option Float}
    (h : phase context base scored y = .ok p) :
    ∃ fields, y = .map fields ∧
      p.2 = (YamlEntries.get? fields "pass_threshold").map Yaml.asFloat := by
  obtain ⟨fields, hfields, h⟩ := bind_eq_ok_iff.1 h
  obtain ⟨_, -, h⟩ := bind_eq_ok_iff.1 h
  obtain ⟨recipe, -, h⟩ := bind_eq_ok_iff.1 h
  obtain ⟨provider, -, h⟩ := bind_eq_ok_iff.1 h
  obtain ⟨model, -, h⟩ := bind_eq_ok_iff.1 h
  obtain ⟨passing, hpassing, h⟩ := bind_eq_ok_iff.1 h
  cases h
  refine ⟨fields, mapping_eq_ok hfields,
    of_field (P := fun y x => x = y.map Yaml.asFloat) hpassing rfl fun context y a ha => ?_⟩
  cases hscore : score context y with
  | error f =>
    rw [hscore] at ha
    cases ha
  | ok x =>
    rw [hscore] at ha
    cases ha
    rw [(score_eq_ok hscore).1, Option.map_some]

theorem output_eq_ok {base o : OutputSettings} (h : output base y = .ok o) :
    ∃ fields, y = .map fields ∧ o.Reads (YamlEntries.get? fields) base := by
  obtain ⟨fields, hfields, h⟩ := bind_eq_ok_iff.1 h
  obtain ⟨_, -, h⟩ := bind_eq_ok_iff.1 h
  obtain ⟨runsDir, hruns, h⟩ := bind_eq_ok_iff.1 h
  obtain ⟨activeDir, hactive, h⟩ := bind_eq_ok_iff.1 h
  obtain ⟨slug, -, h⟩ := bind_eq_ok_iff.1 h
  cases h
  exact ⟨fields, mapping_eq_ok hfields,
    { runsDir := field_eq_ok hruns fun _ _ _ => string_eq_ok
      activeDir := field_eq_ok hactive fun _ _ _ => string_eq_ok }⟩

theorem guardrails_eq_ok {base g : GuardrailSettings} (hbase : InUnit base.scoreThreshold)
    (h : guardrails base y = .ok g) :
    ∃ fields, y = .map fields ∧ g.Reads (YamlEntries.get? fields) base := by
  obtain ⟨fields, hfields, h⟩ := bind_eq_ok_iff.1 h
  obtain ⟨_, -, h⟩ := bind_eq_ok_iff.1 h
  obtain ⟨maxIterations, hiterations, h⟩ := bind_eq_ok_iff.1 h
  obtain ⟨maxTotalTokens, htokens, h⟩ := bind_eq_ok_iff.1 h
  obtain ⟨maxToolCalls, -, h⟩ := bind_eq_ok_iff.1 h
  obtain ⟨timeoutSeconds, -, h⟩ := bind_eq_ok_iff.1 h
  obtain ⟨maxPhaseErrors, -, h⟩ := bind_eq_ok_iff.1 h
  obtain ⟨_, -, h⟩ := bind_eq_ok_iff.1 h
  obtain ⟨_, -, h⟩ := bind_eq_ok_iff.1 h
  obtain ⟨threshold, hthreshold, h⟩ := bind_eq_ok_iff.1 h
  obtain ⟨approval, -, h⟩ := bind_eq_ok_iff.1 h
  cases h
  exact ⟨fields, mapping_eq_ok hfields,
    { maxIterations := field_eq_ok hiterations fun _ _ _ => integer_eq_ok
      maxTotalTokens := field_eq_ok htokens fun _ _ _ => integer_eq_ok
      scoreThreshold := field_eq_ok hthreshold fun _ _ _ hx => (score_eq_ok hx).1
      inUnit := of_field (P := fun _ x => InUnit x) hthreshold hbase
        fun _ _ _ hx => (score_eq_ok hx).2 }⟩

/-- The settings in the entries of a file take what the entries say over the defaults. -/
theorem takes_ofYaml_of_ofEntries (h : ofEntries entries = .ok s) :
    s.Takes (.ofYaml (.map entries)) {} ∧ s.IsScored := by
  obtain ⟨_, -, h⟩ := bind_eq_ok_iff.1 h
  obtain ⟨⟨planning, _⟩, -, h⟩ := bind_eq_ok_iff.1 h
  obtain ⟨⟨review, passing⟩, hreview, h⟩ := bind_eq_ok_iff.1 h
  obtain ⟨out, hout, h⟩ := bind_eq_ok_iff.1 h
  obtain ⟨limits, hlimits, h⟩ := bind_eq_ok_iff.1 h
  have hpassing := of_group (P := fun f p => p.2 = (f "pass_threshold").map Yaml.asFloat) hreview
    rfl fun _ _ => phase_eq_ok
  have hout := of_group (P := fun f o => o.Reads f {}) hout ⟨rfl, rfl⟩ fun _ _ => output_eq_ok
  have hlimits := of_group (P := fun f g => g.Reads f {}) hlimits
    ⟨rfl, rfl, rfl, Settings.isScored_default⟩ fun _ _ => guardrails_eq_ok Settings.isScored_default
  cases passing with
  | none =>
    cases h
    have hnone := Option.map_eq_none_iff.1 hpassing.symm
    have hthreshold : (Layer.ofYaml (.map entries)).scoreThreshold =
        ((Yaml.map entries).fieldOf? "guardrails" "score_threshold").map Yaml.asFloat := by
      rw [Layer.ofYaml, hnone, Option.map_none, Option.none_or]
    exact ⟨⟨hlimits.maxIterations, hlimits.maxTotalTokens, hthreshold ▸ hlimits.scoreThreshold,
      hout.runsDir, hout.activeDir⟩, hlimits.inUnit⟩
  | some x =>
    obtain ⟨v, hv, rfl⟩ := Option.map_eq_some_iff.1 hpassing.symm
    have hs : s = Settings.withThreshold ⟨planning, review, out, limits⟩ v.asFloat := by
      dsimp only at h
      split at h <;> cases h
      rfl
    have hthreshold : (Layer.ofYaml (.map entries)).scoreThreshold =
        some (Viability.clampUnit v.asFloat) := by
      rw [Layer.ofYaml, hv, Option.map_some, Option.some_or]
    subst hs
    exact ⟨⟨hlimits.maxIterations, hlimits.maxTotalTokens, hthreshold ▸ rfl, hout.runsDir,
      hout.activeDir⟩, Settings.isScored_withThreshold _ _⟩

/-- An accepted file gives the settings that take what it says over the defaults. -/
theorem takes_ofFile_of_load {files : FileTree} {p : Path} (h : load files p = .ok s) :
    s.Takes (.ofFile files (some p)) {} ∧ s.IsScored := by
  obtain ⟨y, hy, h⟩ := bind_eq_ok_iff.1 h
  have hlayer : Layer.ofFile files (some p) = .ofYaml y := by
    rw [Layer.ofFile, Option.map_some, hy]
  rw [hlayer]
  split at h
  · cases h
    exact ⟨.refl _, Settings.isScored_default⟩
  · obtain ⟨entries, hentries, h⟩ := bind_eq_ok_iff.1 h
    rw [mapping_eq_ok hentries]
    exact takes_ofYaml_of_ofEntries h

end SettingsFile

end PlanReview
