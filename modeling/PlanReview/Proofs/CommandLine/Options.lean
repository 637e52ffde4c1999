import Mathlib.Data.List.TakeWhile
import PlanReview.CommandLine.Command
import PlanReview.Proofs.Workspace.Outcome

/-!
# What a command line gives

Reading options gives each of them a value of the kind that it takes (`isTyped_of_readOptions`), so
that what is looked up in the result is what was given (`Collected.IsTyped.integer?_eq` and its
like). A run that is understood is the name of the command and the options behind it, and nothing
else (`Invocation.eq_of_parse_run`).
-/

namespace PlanReview.CommandLine

/-- The options of the command that starts a run. -/
def runFlags : List Flag :=
  (flagsOf.lookup "run").getD []

variable {flags : List Flag} {f : Flag} {word : List Char} {words : List String} {c : Collected}
  {v : Value} {last : Flag → Bool}

/-! ## Values -/

/-- A value is of the kind that an option takes. -/
def Value.Fits : Value → Option ValueKind → Prop
  | .set, none | .text _, some .text | .integer _, some .integer | .number _, some .number => True
  | _, _ => False

theorem fits_of_readValue {kind : ValueKind} {text : String} (h : readValue f kind text = .ok v) :
    v.Fits (some kind) := by
  unfold readValue at h
  split at h
  · cases h
    trivial
  · split at h <;> cases h
    trivial
  · split at h <;> cases h
    trivial

theorem fits_of_carried {name text : String} (h : carried f name text = .ok v) :
    v.Fits f.value := by
  unfold carried at h
  split at h
  · rename_i kind hkind
    rw [hkind]
    exact fits_of_readValue h
  · rename_i hnone
    rw [hnone]
    split at h
    · cases h
    · split at h <;> cases h
      trivial

/-- The integer of a value that is one. -/
def Value.asInteger : Value → Int
  | integer n => n
  | _ => 0

/-- The number of a value that is one. -/
def Value.asNumber : Value → Float
  | number x => x
  | _ => 0.0

/-- The text of a value that is one. -/
def Value.asText : Value → String
  | text s => s
  | _ => ""

/-- Every value among some options belongs to one of the flags, and is of the kind that it takes. -/
def Collected.IsTyped (c : Collected) (flags : List Flag) : Prop :=
  ∀ e ∈ c.values, ∃ f ∈ flags, f.name = e.1 ∧ e.2.Fits f.value

theorem Collected.isTyped_empty : Collected.IsTyped {} flags :=
  fun _ he => absurd he List.not_mem_nil

theorem Collected.IsTyped.withValue (h : c.IsTyped flags) (hf : f ∈ flags) (hv : v.Fits f.value) :
    (c.withValue f v).IsTyped flags :=
  List.forall_mem_cons.2 ⟨⟨f, hf, rfl, hv⟩, h⟩

/-! ## Words -/

/-- A word is no option, or one of the flags. -/
def Word.IsAmong (flags : List Flag) : Word → Prop
  | .flag f _ _ => f ∈ flags
  | _ => True

theorem mem_of_named {name : String} (h : (name, f) ∈ named flags) : f ∈ flags := by
  obtain ⟨g, hg, hmem⟩ := List.mem_flatMap.1 h
  obtain ⟨_, -, heq⟩ := List.mem_map.1 hmem
  cases heq
  exact hg

theorem mem_of_lookup_named {name : String} (h : (named flags).lookup name = some f) :
    f ∈ flags := by
  obtain ⟨before, after, heq, -⟩ := List.lookup_eq_some_iff.1 h
  exact mem_of_named (heq ▸ List.mem_append_right before List.mem_cons_self)

theorem isAmong_of_exactly? {w : Word} (h : exactly? flags word = some w) : w.IsAmong flags := by
  unfold exactly? at h
  split at h
  · rename_i g hg
    cases h
    exact mem_of_lookup_named hg
  · obtain ⟨value, -, hword⟩ := Option.bind_eq_some_iff.1 h
    obtain ⟨g, hg, rfl⟩ := Option.map_eq_some_iff.1 hword
    exact mem_of_lookup_named hg

theorem mem_of_longMatches {name : String} {value : Option String}
    (h : (name, f, value) ∈ longMatches flags word) : f ∈ flags := by
  unfold longMatches at h
  generalize splitValue word = parts at h
  obtain ⟨start, given⟩ := parts
  obtain ⟨⟨_, g⟩, hnamed, heq⟩ := List.mem_filterMap.1 h
  dsimp only at heq
  split at heq <;> cases heq
  exact mem_of_named hnamed

theorem mem_of_shortMatches {name : String} {value : Option String}
    (h : (name, f, value) ∈ shortMatches flags word) : f ∈ flags := by
  obtain ⟨⟨_, g⟩, hnamed, heq⟩ := List.mem_filterMap.1 h
  dsimp only at heq
  split at heq
  · cases heq
    exact mem_of_named hnamed
  · split at heq <;> cases heq
    exact mem_of_named hnamed

theorem isAmong_of_guess {w : Word} (h : guess flags word = .ok w) : w.IsAmong flags := by
  unfold guess at h
  dsimp only at h
  split at h
  · rename_i name g value heq
    cases h
    split at heq
    · exact mem_of_longMatches (heq ▸ List.mem_cons_self)
    · exact mem_of_shortMatches (heq ▸ List.mem_cons_self)
  · cases h
  · cases h
    split <;> trivial

theorem isAmong_of_classifyWord {w : Word} (h : classifyWord flags word = .ok w) :
    w.IsAmong flags := by
  unfold classifyWord at h
  split at h
  · cases h
    trivial
  · split at h
    · rename_i w' hexact
      cases h
      exact isAmong_of_exactly? hexact
    · exact isAmong_of_guess h
  · cases h
    trivial

/-- Classifying keeps the words, and the options that it sees are among the flags. -/
theorem classify_eq_ok {classified : List (String × Word)}
    (h : classify flags words = .ok classified) :
    classified.map Prod.fst = words ∧ ∀ w ∈ classified, w.2.IsAmong flags := by
  induction words generalizing classified with
  | nil =>
    cases h
    exact ⟨rfl, fun _ hw => absurd hw List.not_mem_nil⟩
  | cons word words ih =>
    rw [classify] at h
    obtain ⟨w, hword, h⟩ := bind_eq_ok_iff.1 h
    have hamong := isAmong_of_classifyWord hword
    split at h
    · cases h
      refine ⟨by simp [Function.comp_def], List.forall_mem_cons.2 ⟨trivial, ?_⟩⟩
      simp [Word.IsAmong]
    · obtain ⟨rest, hrest, h⟩ := bind_eq_ok_iff.1 h
      obtain ⟨hwords, hflags⟩ := ih hrest
      cases h
      exact ⟨by rw [List.map_cons, hwords], List.forall_mem_cons.2 ⟨hamong, hflags⟩⟩

/-- Reading gives every option among the words a value of the kind that it takes. -/
theorem isTyped_of_collect {classified : List (String × Word)}
    (hwords : ∀ w ∈ classified, w.2.IsAmong flags) (h : collect last classified = .ok c) :
    c.IsTyped flags := by
  have hset {f : Flag} (hvalue : f.value = none) : Value.set.Fits f.value := by
    rw [hvalue]
    trivial
  fun_induction collect last classified generalizing c with
  | case1 =>
    cases h
    exact Collected.isTyped_empty
  | case2 word f name text words ih =>
    obtain ⟨hf, hrest⟩ := List.forall_mem_cons.1 hwords
    obtain ⟨v, hv, h⟩ := bind_eq_ok_iff.1 h
    split at h
    · cases h
      exact Collected.isTyped_empty.withValue hf (fits_of_carried hv)
    · obtain ⟨c', hc, h⟩ := bind_eq_ok_iff.1 h
      cases h
      exact (ih hrest hc).withValue hf (fits_of_carried hv)
  | case3 word f name text words kind hkind ih =>
    obtain ⟨hf, hrest⟩ := List.forall_mem_cons.1 hwords
    obtain ⟨v, hv, h⟩ := bind_eq_ok_iff.1 h
    obtain ⟨c', hc, h⟩ := bind_eq_ok_iff.1 h
    cases h
    exact (ih (List.forall_mem_cons.1 hrest).2 hc).withValue hf (hkind ▸ fits_of_readValue hv)
  | case4 word f name text words hvalue hlast =>
    cases h
    exact Collected.isTyped_empty.withValue (List.forall_mem_cons.1 hwords).1 (hset hvalue)
  | case5 word f name text words hvalue hlast ih =>
    obtain ⟨hf, hrest⟩ := List.forall_mem_cons.1 hwords
    obtain ⟨c', hc, h⟩ := bind_eq_ok_iff.1 h
    cases h
    have htyped := ih (List.forall_mem_cons.1 hrest).2 hc
    exact Collected.IsTyped.withValue (c := c'.withWord text) htyped hf (hset hvalue)
  | case6 word f name words hplain kind hkind => cases h
  | case7 word f name words hplain hvalue hlast =>
    cases h
    exact Collected.isTyped_empty.withValue (List.forall_mem_cons.1 hwords).1 (hset hvalue)
  | case8 word f name words hplain hvalue hlast ih =>
    obtain ⟨hf, hrest⟩ := List.forall_mem_cons.1 hwords
    obtain ⟨c', hc, h⟩ := bind_eq_ok_iff.1 h
    cases h
    exact (ih hrest hc).withValue hf (hset hvalue)
  | case9 word w words _ _ _ ih =>
    obtain ⟨c', hc, h⟩ := bind_eq_ok_iff.1 h
    cases h
    have htyped := ih (List.forall_mem_cons.1 hwords).2 hc
    exact htyped

theorem isTyped_of_readOptions (h : readOptions flags words = .ok c) : c.IsTyped flags := by
  obtain ⟨classified, hclassified, h⟩ := bind_eq_ok_iff.1 h
  obtain ⟨c', hc, h⟩ := bind_eq_ok_iff.1 h
  have htyped := isTyped_of_collect (classify_eq_ok hclassified).2 hc
  split at h
  · obtain ⟨_, -, h⟩ := bind_eq_ok_iff.1 h
    cases h
    exact htyped
  · cases h
    exact htyped

/-! ## Looking up -/

namespace Collected

variable {name : String} {kind : Option ValueKind}

theorem mem_of_value? (h : c.value? name = some v) : (name, v) ∈ c.values := by
  obtain ⟨before, after, heq, -⟩ := List.lookup_eq_some_iff.1 h
  exact List.mem_reverse.1 (heq ▸ List.mem_append_right before List.mem_cons_self)

/-- The value of an option is of the kind that all flags of its name take. -/
theorem IsTyped.fits (h : c.IsTyped flags)
    (hkind : ∀ f ∈ flags, f.name = name → f.value = kind) (hv : c.value? name = some v) :
    v.Fits kind := by
  obtain ⟨f, hf, hname, hfits⟩ := h _ (mem_of_value? hv)
  exact hkind f hf hname ▸ hfits

theorem IsTyped.integer?_eq (h : c.IsTyped flags) (name : String)
    (hkind : ∀ f ∈ flags, f.name = name → f.value = some .integer) :
    c.integer? name = (c.value? name).map Value.asInteger := by
  unfold integer?
  cases hv : c.value? name with
  | none => rfl
  | some v =>
    have hfits := h.fits hkind hv
    cases v with
    | integer n => rfl
    | _ => exact hfits.elim

theorem IsTyped.number?_eq (h : c.IsTyped flags) (name : String)
    (hkind : ∀ f ∈ flags, f.name = name → f.value = some .number) :
    c.number? name = (c.value? name).map Value.asNumber := by
  unfold number?
  cases hv : c.value? name with
  | none => rfl
  | some v =>
    have hfits := h.fits hkind hv
    cases v with
    | number x => rfl
    | _ => exact hfits.elim

theorem IsTyped.text?_eq (h : c.IsTyped flags) (name : String)
    (hkind : ∀ f ∈ flags, f.name = name → f.value = some .text) :
    c.text? name = (c.value? name).map Value.asText := by
  unfold text?
  cases hv : c.value? name with
  | none => rfl
  | some v =>
    have hfits := h.fits hkind hv
    cases v with
    | text s => rfl
    | _ => exact hfits.elim

end Collected

/-! ## Commands -/

/-- Help that is asked for first is the only thing that is read. -/
theorem has_of_collect_help {text name : String} {value : Option String}
    {classified : List (String × Word)}
    (h : collect asksHelp ((text, .flag helpFlag name value) :: classified) = .ok c) :
    c.has helpFlag.name = true := by
  have hgiven (v : Value) : (Collected.withValue {} helpFlag v).has helpFlag.name = true := rfl
  cases value with
  | some value =>
    rw [collect] at h
    obtain ⟨v, -, h⟩ := bind_eq_ok_iff.1 h
    cases h
    exact hgiven v
  | none =>
    have hset : collect asksHelp ((text, .flag helpFlag name none) :: classified) =
        .ok (Collected.withValue {} helpFlag .set) := by
      cases classified with
      | nil => rfl
      | cons word words =>
        obtain ⟨_, w⟩ := word
        cases w <;> rfl
    rw [hset] at h
    cases h
    exact hgiven .set

/-- No word stands before a command that is carried out. -/
theorem eq_nil_of_collect {classified : List (String × Word)} {before : Collected}
    (hwords : ∀ w ∈ classified, w.2.IsAmong [helpFlag])
    (hplace : ∀ w ∈ classified, standsBefore w.2 = true)
    (h : collect asksHelp classified = .ok before) (hhelp : before.has helpFlag.name = false)
    (hrest : before.rest = []) : classified = [] := by
  cases classified with
  | nil => rfl
  | cons word words =>
    obtain ⟨text, w⟩ := word
    have hstands := (List.forall_mem_cons.1 hplace).1
    cases w with
    | plain => cases hstands
    | dashes => cases hstands
    | unknown =>
      simp only [collect] at h
      obtain ⟨c, -, h⟩ := bind_eq_ok_iff.1 h
      cases h
      cases hrest
    | flag f name value =>
      have hf := List.mem_singleton.1 (List.forall_mem_cons.1 hwords).1
      subst hf
      rw [has_of_collect_help h] at hhelp
      cases hhelp

theorem of_mapError_eq_ok {ε ε' α : Type} {g : ε → ε'} {x : Except ε α} {a : α}
    (h : x.mapError g = .ok a) : x = .ok a := by
  cases x with
  | error e => cases h
  | ok b =>
    cases h
    rfl

/-- The command of a name with some options. -/
def Collected.invocation (c : Collected) (name : String) : Invocation where
  command := commandOf name c
  config := (c.text? "--config").map Path.ofString
  overrides := .of c

/-- A command is only carried out if all words before it and behind it belong to options. -/
theorem eq_invocation_of_parseCommand {strays : List String} {name : String} {i : Invocation}
    (h : parseCommand strays name flags words = .ok (some i)) :
    strays = [] ∧ ∃ c, readOptions flags words = .ok c ∧ i = c.invocation name := by
  obtain ⟨c, hc, h⟩ := bind_eq_ok_iff.1 h
  dsimp only at h
  split at h
  · cases h
  · split at h
    · cases h
    · rename_i hstrays
      cases h
      rw [Bool.not_eq_true', Bool.not_eq_false, List.isEmpty_iff, List.append_eq_nil_iff] at hstrays
      exact ⟨hstrays.1, c, of_mapError_eq_ok hc, rfl⟩

/-- What is to be done is said by the name of a command and the options behind it. -/
theorem Invocation.eq_of_parse {i : Invocation} (h : parse words = .ok (some i)) :
    ∃ name rest flags c, words = name :: rest ∧ flagsOf.lookup name = some flags ∧
      readOptions flags rest = .ok c ∧ i = c.invocation name := by
  obtain ⟨classified, hclassified, h⟩ := bind_eq_ok_iff.1 h
  obtain ⟨before, hbefore, h⟩ := bind_eq_ok_iff.1 h
  obtain ⟨hwords, hamong⟩ := classify_eq_ok (of_mapError_eq_ok hclassified)
  split at h
  · cases h
  · rename_i hhelp
    unfold parseRest at h
    split at h
    · cases h
    · cases h
    · rename_i name w after _ hafter
      split at h
      · rename_i flags hflags
        obtain ⟨hrest, c, hc, hi⟩ := eq_invocation_of_parseCommand h
        have hnone := eq_nil_of_collect (fun w hw => hamong w (List.takeWhile_subset _ hw))
          (fun w hw => List.mem_takeWhile_imp (p := fun w : String × Word => standsBefore w.2) hw)
          (of_mapError_eq_ok hbefore)
          (Bool.not_eq_true _ ▸ hhelp) hrest
        have hclassified : classified = (name, w) :: after := by
          rw [← List.takeWhile_append_dropWhile (p := fun w => standsBefore w.2) (l := classified),
            hnone, hafter, List.nil_append]
        refine ⟨name, after.map Prod.fst, flags, c, ?_, hflags, hc, hi⟩
        rw [← hwords, hclassified, List.map_cons]
      · cases h

/-- A run is said by its name and the options behind it. -/
theorem Invocation.eq_of_parse_run {i : Invocation} {a : RunArguments}
    (h : parse words = .ok (some i)) (hrun : i.command = .run a) :
    ∃ rest c, words = "run" :: rest ∧ readOptions runFlags rest = .ok c ∧
      i = c.invocation "run" := by
  obtain ⟨name, rest, flags, c, hwords, hflags, hc, rfl⟩ := eq_of_parse h
  change commandOf name c = .run a at hrun
  unfold commandOf at hrun
  dsimp only at hrun
  split at hrun
  · have hrunFlags : flags = runFlags := by
      rw [runFlags, hflags, Option.getD_some]
    exact ⟨rest, c, hwords, hrunFlags ▸ hc, rfl⟩
  all_goals cases hrun

end PlanReview.CommandLine
