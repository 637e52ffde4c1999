import PlanReview.Artifact.Store
import PlanReview.Proofs.Files.Name
import PlanReview.Proofs.Json.Newline
import PlanReview.Proofs.Workspace.Stores

/-!
# The files of artifacts

Writing an artifact leaves alone every file that is there already and is not the artifact's own
(`writePlan_ends`, `writeReview_ends`, `writeFinal_ends`). The plans and reviews of the iterations
have names of their own, whatever the slug of the session is, and no document has the name of one
of them (`isOwnName_planName`, `isOwnName_reviewName`); so they are not overwritten later in a run.
-/

namespace PlanReview.Artifacts

open Workspace

variable {key : List String} {w : Workspace}

/-! ## Names -/

/-- The name of the file with the plan of an iteration. -/
def planName (iteration : Int) : String :=
  "plan-iteration-" ++ toString iteration ++ ".json"

/-- The name of the file with the review of an iteration. -/
def reviewName (iteration : Int) : String :=
  "review-iteration-" ++ toString iteration ++ ".json"

/-- How the files end that are named after the session. -/
def finalEndings : List String :=
  ["-plan.md", "-tasks.md", "-context.md", "-dag.json", "-final.json"]

/-- A name that no file named after the session has. -/
def IsOwnName (name : String) : Prop :=
  ∀ ending ∈ finalEndings, ¬ ending.toList <:+ name.toList

theorem isEnding_of_mem {ending : String} (h : ending ∈ finalEndings) : IsEnding ending := by
  simp only [finalEndings, List.mem_cons, List.not_mem_nil, or_false] at h
  rcases h with rfl | rfl | rfl | rfl | rfl <;> exact ⟨by decide, '-', by decide, by decide⟩

theorem documentFile_endsWith (activeDir : Path) (slug : String) {kind ending : String}
    (h : ending ∈ finalEndings) (hkind : "-" ++ kind ++ ".md" = ending) :
    (documentFile activeDir slug kind).EndsWith ending := by
  have hname : slug ++ "-" ++ kind ++ ".md" = slug ++ ending := by
    rw [← hkind, String.append_assoc, String.append_assoc, String.append_assoc]
  rw [documentFile, hname]
  exact Path.endsWith_child (isEnding_of_mem h) _ slug

theorem finalFile_endsWith (a : Artifacts) : a.finalFile.EndsWith "-final.json" :=
  Path.endsWith_child (isEnding_of_mem (by decide)) _ a.slug

theorem endsWith_of_mem_finalParts {a : Artifacts} {p : Plan} {status : FinalStatus}
    {score : Option Float} {part : Path × String} (h : part ∈ a.finalParts p status score) :
    ∃ ending ∈ finalEndings, part.1.EndsWith ending := by
  unfold finalParts at h
  simp only [List.mem_append, List.mem_cons, List.not_mem_nil, or_false] at h
  rcases h with ((rfl | rfl | rfl) | h) | rfl
  · exact ⟨"-plan.md", by decide, documentFile_endsWith _ _ (by decide) (by decide)⟩
  · exact ⟨"-tasks.md", by decide, documentFile_endsWith _ _ (by decide) (by decide)⟩
  · exact ⟨"-context.md", by decide, documentFile_endsWith _ _ (by decide) (by decide)⟩
  · unfold graphPart at h
    split at h
    · exact absurd h List.not_mem_nil
    · rw [List.mem_singleton] at h
      rw [h]
      exact ⟨"-dag.json", by decide, Path.endsWith_child (isEnding_of_mem (by decide)) _ _⟩
  · exact ⟨"-final.json", by decide, finalFile_endsWith a⟩

/-- A file with a name of its own is none of those named after the session. -/
theorem ne_of_mem_finalParts {a : Artifacts} {p : Plan} {status : FinalStatus}
    {score : Option Float} {part : Path × String} (h : part ∈ a.finalParts p status score)
    {name : String} (hname : IsOwnName name) (cwd names : List String) :
    part.1.resolve cwd ≠ names ++ [name] := by
  obtain ⟨ending, hmem, hends⟩ := endsWith_of_mem_finalParts h
  exact Path.resolve_ne (isEnding_of_mem hmem) hends (hname ending hmem)

/-- The name of a JSON file with a number before its extension is a name of its own : there is a
digit where the others have none. -/
theorem isOwnName_numbered (start : String) (n : Int) :
    IsOwnName (start ++ toString n ++ ".json") := by
  have hne : Nat.toDigits 10 n.natAbs ≠ [] := Nat.toDigits_ne_nil
  have hdigit := Json.allDigits_toDigits n.natAbs _ (List.getLast_mem hne)
  have hdigits := List.dropLast_append_getLast hne
  generalize (Nat.toDigits 10 n.natAbs).getLast hne = d at hdigit hdigits
  have htext : (start ++ toString n ++ ".json").toList.reverse.take 6 =
      ['n', 'o', 's', 'j', '.', d] := by
    rw [String.toList_append, String.toList_append, Json.toList_toString, ← hdigits]
    simp
  intro ending hmem hsuffix
  have hbegins := (List.reverse_prefix.2 hsuffix).take 6
  rw [htext] at hbegins
  simp only [finalEndings, List.mem_cons, List.not_mem_nil, or_false] at hmem
  rcases hmem with rfl | rfl | rfl | rfl | rfl <;> simp at hbegins
  · exact absurd hdigit (by rw [← hbegins]; decide)
  · exact absurd hdigit (by rw [← hbegins]; decide)

theorem isOwnName_planName (n : Int) : IsOwnName (planName n) :=
  isOwnName_numbered _ n

theorem isOwnName_reviewName (n : Int) : IsOwnName (reviewName n) :=
  isOwnName_numbered _ n

/-- A name that begins otherwise is not one of those with a number. -/
theorem numbered_ne {start name : String} (h : ¬ start.toList <+: name.toList) (n : Int) :
    name ≠ start ++ toString n ++ ".json" := by
  rintro rfl
  rw [String.append_assoc, String.toList_append] at h
  exact h (List.prefix_append _ _)

theorem head?_numbered {start : String} {c : Char} (h : start.toList.head? = some c) (n : Int) :
    (start ++ toString n ++ ".json").toList.head? = some c := by
  rw [String.append_assoc, String.toList_append, List.head?_append, h, Option.some_or]

theorem planName_ne_reviewName (n m : Int) : planName n ≠ reviewName m := by
  have hplan : (planName n).toList.head? = some 'p' := head?_numbered (by decide) n
  have hreview : (reviewName m).toList.head? = some 'r' := head?_numbered (by decide) m
  intro heq
  rw [heq, hreview] at hplan
  exact absurd hplan (by decide)

/-- Different iterations have different files. -/
theorem numbered_inj {start : String} {n m : Int}
    (h : start ++ toString n ++ ".json" = start ++ toString m ++ ".json") : n = m := by
  have hlist := congrArg String.toList h
  rw [String.toList_append, String.toList_append, String.toList_append, String.toList_append,
    List.append_cancel_right_eq, List.append_cancel_left_eq] at hlist
  exact Json.toString_injective (String.toList_injective hlist)

/-- The name of a file with a number has neither a slash nor only dots. -/
theorem isEnding_numbered {start : String} (h : '/' ∉ start.toList) (n : Int) :
    IsEnding (start ++ toString n ++ ".json") := by
  refine ⟨?_, 'j', by simp, by decide⟩
  rw [String.toList_append, String.toList_append]
  simp only [List.mem_append, not_or]
  exact ⟨⟨h, Json.notMem_toString (by decide) (by decide) n⟩, by decide⟩

theorem resolve_planFile (a : Artifacts) (n : Int) (cwd : List String) :
    (a.planFile n).resolve cwd = a.sessionDir.resolve cwd ++ [planName n] :=
  Path.resolve_child (isEnding_numbered (by decide) n).isName _ _

theorem resolve_reviewFile (a : Artifacts) (n : Int) (cwd : List String) :
    (a.reviewFile n).resolve cwd = a.sessionDir.resolve cwd ++ [reviewName n] :=
  Path.resolve_child (isEnding_numbered (by decide) n).isName _ _

/-! ## Writing -/

theorem orUnwritable_ends (file : Path) (result : Except FileError Unit)
    {ok : Unit → Workspace → Prop} {bad : Failure → Workspace → Prop} :
    Ends (orUnwritable file result) w ok bad ↔ match result with
      | .ok () => ok () w
      | .error e => bad (.persistence (.unwritable file.text e)) w := by
  cases result <;> rfl

/-- Writing a file leaves alone what is there, apart from the file itself. -/
theorem writePart_ends (file : Path) (text : String) (hthere : w.files.node? key ≠ none)
    (h : key = file.resolve w.files.cwd → w.files.node? key = some .directory) :
    Ends (writePart file text) w
      (fun _ w' => w.Spares key w' ∧ w'.files.Holds (file.resolve w.files.cwd) (.text text))
      fun _ w' => w.Spares key w' := by
  unfold writePart
  refine Ends.bind (Act.makeDirectories_ends _ (.inl hthere)) (fun result w' hmade => ?_) nofun
  rw [ends_bind, orUnwritable_ends]
  cases result with
  | error e => exact hmade
  | ok _ =>
    have hwrite := @Act.writeText_ends key w' file text (by
      rw [hmade.cwd_eq, hmade.node_eq]
      exact h)
    refine Ends.bind hwrite (fun result w'' ⟨hspares, htext⟩ => ?_) nofun
    rw [orUnwritable_ends]
    rw [hmade.cwd_eq] at htext
    cases result with
    | error e => exact hmade.trans hspares
    | ok _ => exact ⟨hmade.trans hspares, htext rfl⟩

/-- Writing some files leaves alone what is there, apart from these files. -/
theorem writeParts_ends (parts : List (Path × String)) (hthere : w.files.node? key ≠ none)
    (h : ∀ part ∈ parts, key = part.1.resolve w.files.cwd →
      w.files.node? key = some .directory) :
    Ends (writeParts parts) w (fun _ w' => w.Spares key w') fun _ w' => w.Spares key w' := by
  induction parts generalizing w with
  | nil => exact Spares.refl key w
  | cons part parts ih =>
    obtain ⟨file, text⟩ := part
    have hpart := writePart_ends file text hthere (h _ List.mem_cons_self)
    refine Ends.bind hpart (fun _ w' ⟨hspares, _⟩ => ?_) fun _ _ => id
    refine (ih (w := w') ?_ ?_).mono (fun _ _ => hspares.trans) fun _ _ => hspares.trans
    · rwa [hspares.node_eq]
    · rw [hspares.cwd_eq, hspares.node_eq]
      exact fun part hmem => h part (List.mem_cons_of_mem _ hmem)

theorem allow_ends (a : Artifacts) (artifact : Artifact) :
    Ends (a.allow artifact) w (fun _ w' => w' = w) fun _ w' => w' = w := by
  unfold allow
  cases a.refuses artifact <;> rfl

/-- The plan of an iteration is written to its file, which then holds it. -/
theorem writePlan_ends (a : Artifacts) (p : Plan) (n : Int) (hthere : w.files.node? key ≠ none)
    (h : key = a.sessionDir.resolve w.files.cwd ++ [planName n] →
      w.files.node? key = some .directory) :
    Ends (a.writePlan p n) w
      (fun _ w' => w.Spares key w' ∧ w'.files.Holds
        (a.sessionDir.resolve w.files.cwd ++ [planName n]) (.text (jsonText p.toJson)))
      fun _ w' => w.Spares key w' := by
  rw [← resolve_planFile] at h ⊢
  refine Ends.bind (a.allow_ends _) ?_ ?_
  · rintro _ _ rfl
    exact writePart_ends _ _ hthere h
  · rintro _ _ rfl
    exact Spares.refl key _

/-- The review of an iteration is written to its file, which then holds it. -/
theorem writeReview_ends (a : Artifacts) (r : Review) (n : Int)
    (hthere : w.files.node? key ≠ none)
    (h : key = a.sessionDir.resolve w.files.cwd ++ [reviewName n] →
      w.files.node? key = some .directory) :
    Ends (a.writeReview r n) w
      (fun _ w' => w.Spares key w' ∧ w'.files.Holds
        (a.sessionDir.resolve w.files.cwd ++ [reviewName n]) (.text (jsonText r.toJson)))
      fun _ w' => w.Spares key w' := by
  rw [← resolve_reviewFile] at h ⊢
  refine Ends.bind (a.allow_ends _) ?_ ?_
  · rintro _ _ rfl
    exact writePart_ends _ _ hthere h
  · rintro _ _ rfl
    exact Spares.refl key _

/-- What the files named after the session leave alone : a name of its own, or a directory. -/
def IsApart (w : Workspace) (key : List String) : Prop :=
  (∃ names name, key = names ++ [name] ∧ IsOwnName name) ∨ w.files.node? key = some .directory

theorem writeParts_append (parts parts' : List (Path × String)) :
    writeParts (parts ++ parts') = writeParts parts >>= fun _ => writeParts parts' := by
  induction parts with
  | nil => rfl
  | cons part parts ih =>
    obtain ⟨file, text⟩ := part
    rw [List.cons_append, writeParts, writeParts, ih, bind_assoc]

/-- The files of a plan that ends or pauses a run are written, the plan itself last. -/
theorem writeFinal_ends (a : Artifacts) (p : Plan) (status : FinalStatus) (score : Option Float)
    (hthere : w.files.node? key ≠ none) (h : IsApart w key) :
    Ends (a.writeFinal p status score) w
      (fun _ w' => w.Spares key w' ∧
        w'.files.Holds (a.finalFile.resolve w.files.cwd) (.text (jsonText p.toJson)))
      fun _ w' => w.Spares key w' := by
  have hkey : ∀ part ∈ a.finalParts p status score, key = part.1.resolve w.files.cwd →
      w.files.node? key = some .directory := by
    rintro part hpart heq
    rcases h with ⟨names, name, hname, hown⟩ | hdir
    · exact absurd (heq.symm.trans hname) (ne_of_mem_finalParts hpart hown _ _)
    · exact hdir
  refine Ends.bind (a.allow_ends _) ?_ ?_
  · rintro _ _ rfl
    unfold finalParts at hkey ⊢
    rw [writeParts_append]
    have hfirst := writeParts_ends _ hthere fun part hmem =>
      hkey part (List.mem_append_left _ hmem)
    refine Ends.bind hfirst (fun _ w' hspares => ?_) fun _ _ => id
    have hlast := @writePart_ends key w' a.finalFile (jsonText p.toJson)
      (by rwa [hspares.node_eq]) (by
        rw [hspares.cwd_eq, hspares.node_eq]
        exact hkey _ (List.mem_append_right _ List.mem_cons_self))
    rw [hspares.cwd_eq] at hlast
    exact Ends.bind hlast (fun _ _ ⟨hspares', hholds⟩ => ⟨hspares.trans hspares', hholds⟩)
      fun _ _ => hspares.trans
  · rintro _ _ rfl
    exact Spares.refl key _

end PlanReview.Artifacts
