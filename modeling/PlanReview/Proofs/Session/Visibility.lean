import Mathlib.Data.List.Basic
import PlanReview.Session.Overview

/-!
# Sessions without an overview

An overview is derived from whatever the directory of a session holds. It fails on six kinds of
content (`Overview.Hidden`), and on no others : a file that is read and is not a text, and a score
or a reason that an overview cannot show. Which limits the session is measured against plays no part
in this (`Overview.hidden_or_shown`).

A stored state that cannot be loaded is shown as a hard stop with the cause as its message, with one
exception : bytes that are no text are the first kind of content above.
-/

namespace PlanReview.Overview

open Schema
open Json (ofOption)

variable {files : FileTree} {now : String} {dir file : Path} {limits : OverviewLimits}
  {f : Failure}

/-! ## Scores and reasons -/

/-- Why a value cannot be shown as a score. -/
def scoreFault? : Json → Option Fault
  | .int n => if Decimal.fitsFloat n then none else some .float
  | .str s => if (Decimal.readFloat? Decimal.asciiDigit? s.toList).isSome then none
    else some .floatText
  | .arr _ | .obj _ => some .float
  | .null | .bool _ | .float _ => none

/-- Why a value cannot be shown as a reason. -/
def reasonFault? : Json → Option Fault
  | .null | .str _ => none
  | _ => some .string

/-- What stands against a score and a reason in an overview. -/
def issues (score reason : Json) : List Issue :=
  (scoreFault? score).toList.map (⟨[.field "latest_score"], ·⟩) ++
    (reasonFault? reason).toList.map (⟨[.field "input_reason"], ·⟩)

theorem nullable_float_of_none {j : Json} (h : scoreFault? j = none) :
    ∃ x, nullable float j = .ok x := by
  cases j with
  | null => exact ⟨none, rfl⟩
  | bool b => exact ⟨some (if b then 1.0 else 0.0), rfl⟩
  | float x => exact ⟨some x, rfl⟩
  | int n =>
    have hfits : Decimal.fitsFloat n = true := by
      by_contra hfits
      rw [scoreFault?, if_neg hfits] at h
      cases h
    exact ⟨some (Float.ofInt n), by simp [nullable, float, hfits, Checked.map]⟩
  | str s =>
    cases hread : Decimal.readFloat? Decimal.asciiDigit? s.toList with
    | none => simp [scoreFault?, hread] at h
    | some x => exact ⟨some x, by simp [nullable, float, hread, Checked.map]⟩
  | arr _ => cases h
  | obj _ => cases h

theorem nullable_float_of_some {j : Json} {fault : Fault} (h : scoreFault? j = some fault) :
    nullable float j = .fault fault := by
  cases j with
  | null => cases h
  | bool _ => cases h
  | float _ => cases h
  | int n =>
    by_cases hfits : Decimal.fitsFloat n = true
    · simp [scoreFault?, hfits] at h
    · rw [scoreFault?, if_neg hfits] at h
      cases h
      simp [nullable, float, hfits, Checked.map, Checked.fault]
  | str s =>
    cases hread : Decimal.readFloat? Decimal.asciiDigit? s.toList with
    | none =>
      simp only [scoreFault?, hread, Option.isSome_none] at h
      cases h
      simp [nullable, float, hread, Checked.map, Checked.fault]
    | some x => simp [scoreFault?, hread] at h
  | arr _ =>
    cases h
    rfl
  | obj _ =>
    cases h
    rfl

theorem nullable_string_of_none {j : Json} (h : reasonFault? j = none) :
    ∃ x, nullable string j = .ok x := by
  cases j with
  | null => exact ⟨none, rfl⟩
  | str s => exact ⟨some s, rfl⟩
  | bool _ | int _ | float _ | arr _ | obj _ => cases h

theorem nullable_string_of_some {j : Json} {fault : Fault} (h : reasonFault? j = some fault) :
    nullable string j = .fault fault := by
  cases j with
  | null | str _ => cases h
  | bool _ | int _ | float _ | arr _ | obj _ =>
    cases h
    rfl

/-- A score and a reason are read unless one of them has a fault; then both faults are reported. -/
theorem readParts_cases (score reason : Json) :
    (issues score reason = [] ∧ ∃ parts, readParts score reason = .ok parts) ∨
    (issues score reason ≠ [] ∧
      readParts score reason = .error ⟨"SessionInfo", issues score reason⟩) := by
  unfold readParts issues
  cases hscore : scoreFault? score with
  | none =>
    obtain ⟨x, hx⟩ := nullable_float_of_none hscore
    cases hreason : reasonFault? reason with
    | none =>
      obtain ⟨y, hy⟩ := nullable_string_of_none hreason
      rw [hx, hy]
      exact .inl ⟨rfl, (x, y), rfl⟩
    | some fault =>
      rw [hx, nullable_string_of_some hreason]
      exact .inr ⟨nofun, rfl⟩
  | some fault =>
    rw [nullable_float_of_some hscore]
    cases hreason : reasonFault? reason with
    | none =>
      obtain ⟨y, hy⟩ := nullable_string_of_none hreason
      rw [hy]
      exact .inr ⟨nofun, rfl⟩
    | some fault' =>
      rw [nullable_string_of_some hreason]
      exact .inr ⟨nofun, rfl⟩

/-- Reading parts for an overview fails exactly for the issues that stand against them. -/
theorem readParts_bind_eq_error_iff {score reason : Json}
    {next : Option Float × Option String → Overview} :
    (((readParts score reason).mapError Failure.invalid >>= fun parts => .ok (next parts) :
      Except Failure Overview) = .error f) ↔
    issues score reason ≠ [] ∧ f = .invalid ⟨"SessionInfo", issues score reason⟩ := by
  rcases readParts_cases score reason with ⟨hnone, parts, hparts⟩ | ⟨hsome, hfails⟩
  · rw [hparts, hnone]
    exact ⟨nofun, fun h => absurd rfl h.1⟩
  · rw [hfails]
    constructor
    · rintro ⟨⟩
      exact ⟨hsome, rfl⟩
    · rintro ⟨-, rfl⟩
      rfl

/-! ## What hides a session -/

/-- A file that can be read, but whose content is not a text. -/
def Undecodable (files : FileTree) (file : Path) (content : Content) : Prop :=
  files.read file = .ok content ∧ content.readText? = none

/-- What hides a session, and the failure that is raised for it. -/
inductive Hidden (files : FileTree) (now : String) (dir : Path) : Failure → Prop where
  /-- The stored state is not a text. -/
  | state {content : Content}
      (hstate : Undecodable files (SessionState.filePath dir) content) :
    Hidden files now dir (.crash (.undecodable content))
  /-- The assessment in the last review of the stored state is not an object. -/
  | shapeless {s : SessionState} {review : Json.Fields} {assessment : Json}
      (hload : SessionState.load files now dir = .ok (some s))
      (hlast : s.reviews.getLast? = some review)
      (hpart : review.lookup "llm_review" = some assessment)
      (hshape : assessment.isObject = false) :
    Hidden files now dir (.crash (.noPart assessment.typeName "get"))
  /-- The score in the last review of the stored state is not one. -/
  | unscored {s : SessionState} {review fields : Json.Fields} {fault : Fault}
      (hload : SessionState.load files now dir = .ok (some s))
      (hlast : s.reviews.getLast? = some review)
      (hpart : review.lookup "llm_review" = some (.obj fields))
      (hfault : scoreFault? ((fields.lookup "score").getD .null) = some fault) :
    Hidden files now dir (.invalid ⟨"SessionInfo", [⟨[.field "latest_score"], fault⟩]⟩)
  /-- No state is stored, and the newest plan is not a text. -/
  | plan {number : Nat} {name : String} {content : Content}
      (hload : files.has (SessionState.filePath dir) = false)
      (hplan : latestArtifact files dir "plan-iteration-" = some (number, name))
      (htext : Undecodable files (dir.child name) content) :
    Hidden files now dir (.crash (.undecodable content))
  /-- No state is stored, and the newest review is not a text. -/
  | review {plan review : Nat × String} {content : Content}
      (hload : files.has (SessionState.filePath dir) = false)
      (hplan : latestArtifact files dir "plan-iteration-" = some plan)
      (htext : ∀ content, ¬ Undecodable files (dir.child plan.2) content)
      (hreview : latestArtifact files dir "review-iteration-" = some review)
      (htext' : Undecodable files (dir.child review.2) content) :
    Hidden files now dir (.crash (.undecodable content))
  /-- No state is stored, and the newest review has a score or a reason that cannot be shown. -/
  | unshown {plan review : Nat × String} {document : Option Json} {fields : Json.Fields}
      (hload : files.has (SessionState.filePath dir) = false)
      (hplan : latestArtifact files dir "plan-iteration-" = some plan)
      (htext : ∀ content, ¬ Undecodable files (dir.child plan.2) content)
      (hreview : latestArtifact files dir "review-iteration-" = some review)
      (hdocument : documentAt files (dir.child review.2) = .ok document)
      (hpart : assessmentOf document = some fields)
      (hissues : issues (numberOnly ((fields.lookup "score").getD .null)) (reasonAfter fields) ≠ []) :
    Hidden files now dir (.invalid ⟨"SessionInfo",
      issues (numberOnly ((fields.lookup "score").getD .null)) (reasonAfter fields)⟩)

/-! ## Reading files -/

/-- A file that is read is not a text, or it gives a text, or it cannot be read. -/
theorem read_cases (files : FileTree) (file : Path) :
    (∃ content, Undecodable files file content) ∨
    ((∀ content, ¬ Undecodable files file content) ∧
      ∃ content text, files.read file = .ok content ∧ content.readText? = some text) ∨
    ((∀ content, ¬ Undecodable files file content) ∧ ∃ e, files.read file = .error e) := by
  cases hread : files.read file with
  | error e =>
    refine .inr (.inr ⟨?_, e, rfl⟩)
    rintro content ⟨hcontent, -⟩
    cases hread.symm.trans hcontent
  | ok content =>
    cases htext : content.readText? with
    | none => exact .inl ⟨content, hread, htext⟩
    | some text =>
      refine .inr (.inl ⟨?_, content, text, rfl, htext⟩)
      rintro content' ⟨hcontent, hnone⟩
      cases hread.symm.trans hcontent
      cases htext.symm.trans hnone

theorem has_of_read {content : Content} (h : files.read file = .ok content) :
    files.has file = true := by
  unfold FileTree.read at h
  unfold FileTree.has
  split at h
  · cases h
  · cases hfind : files.find? file with
    | none =>
      rw [hfind] at h
      cases h
    | some node => rfl

theorem documentAt_cases (files : FileTree) (file : Path) :
    (∃ content, Undecodable files file content ∧
      documentAt files file = .error (.crash (.undecodable content))) ∨
    ((∀ content, ¬ Undecodable files file content) ∧
      ∃ document, documentAt files file = .ok document) := by
  unfold documentAt
  rcases read_cases files file with ⟨content, hread, htext⟩ |
    ⟨hdecodable, content, text, hread, htext⟩ | ⟨hdecodable, e, hread⟩
  · refine .inl ⟨content, ⟨hread, htext⟩, ?_⟩
    simp only [hread, htext]
  · refine .inr ⟨hdecodable, ?_⟩
    simp only [hread, htext]
    cases Json.parse text with
    | error e => exact ⟨none, rfl⟩
    | ok j => exact ⟨some j, rfl⟩
  · refine .inr ⟨hdecodable, none, ?_⟩
    simp only [hread]

/-- A state that is stored is loaded, or the fault is named, or it is not a text. -/
theorem load_cases (files : FileTree) (now : String) (dir : Path) :
    (files.has (SessionState.filePath dir) = false ∧
      SessionState.load files now dir = .ok none) ∨
    (∃ content, Undecodable files (SessionState.filePath dir) content ∧
      SessionState.load files now dir = .error (.crash (.undecodable content))) ∨
    ((∀ content, ¬ Undecodable files (SessionState.filePath dir) content) ∧
      ((∃ s, SessionState.load files now dir = .ok (some s)) ∨
        ∃ fault, SessionState.load files now dir = .error (.persistence fault))) := by
  unfold SessionState.load
  by_cases hhas : files.has (SessionState.filePath dir) = true
  · simp only [hhas, Bool.not_true, Bool.false_eq_true, if_false]
    rcases read_cases files (SessionState.filePath dir) with ⟨content, hread, htext⟩ |
      ⟨hdecodable, content, text, hread, htext⟩ | ⟨hdecodable, e, hread⟩
    · refine .inr (.inl ⟨content, ⟨hread, htext⟩, ?_⟩)
      simp only [hread, htext]
    · refine .inr (.inr ⟨hdecodable, ?_⟩)
      simp only [hread, htext]
      cases SessionState.ofText now (SessionState.filePath dir) text with
      | error fault => exact .inr ⟨fault, rfl⟩
      | ok s => exact .inl ⟨s, rfl⟩
    · refine .inr (.inr ⟨hdecodable, .inr ⟨.unreadable (SessionState.filePath dir).text e.message,
        ?_⟩⟩)
      simp only [hread]
  · have hhas : files.has (SessionState.filePath dir) = false := Bool.eq_false_iff.2 hhas
    refine .inl ⟨hhas, ?_⟩
    simp only [hhas, Bool.not_false, if_true]

/-! ## From the stored state -/

theorem scoreOf_cases (review : Json.Fields) :
    (∃ j, review.lookup "llm_review" = some j ∧ j.isObject = false ∧
      scoreOf review = .error (.crash (.noPart j.typeName "get"))) ∨
    (∃ fields, review.lookup "llm_review" = some (.obj fields) ∧
      scoreOf review = .ok ((fields.lookup "score").getD .null)) ∨
    scoreOf review = .ok .null := by
  unfold scoreOf
  cases hpart : review.lookup "llm_review" with
  | none => exact .inr (.inr rfl)
  | some j =>
    cases j with
    | obj fields => exact .inr (.inl ⟨fields, rfl, rfl⟩)
    | null | bool _ | int _ | float _ | str _ | arr _ => exact .inl ⟨_, rfl, rfl, rfl⟩

/-- With a score to show, the overview of a state fails exactly on that score. -/
theorem ofState_eq_error_iff {s : SessionState} {score : Json}
    (hscore : lastScoreOf s = .ok score) :
    ofState dir limits s = .error f ↔ ∃ fault, scoreFault? score = some fault ∧
      f = .invalid ⟨"SessionInfo", [⟨[.field "latest_score"], fault⟩]⟩ := by
  have hreason : reasonFault? (ofOption .str (reasonOf s)) = none := by
    cases reasonOf s <;> rfl
  unfold ofState
  rw [hscore]
  refine readParts_bind_eq_error_iff.trans ?_
  unfold issues
  rw [hreason]
  cases scoreFault? score with
  | none =>
    constructor
    · rintro ⟨h, -⟩
      exact absurd rfl h
    · rintro ⟨_, h, -⟩
      cases h
  | some fault =>
    constructor
    · rintro ⟨-, rfl⟩
      exact ⟨fault, rfl, rfl⟩
    · rintro ⟨_, ⟨⟩, rfl⟩
      exact ⟨nofun, rfl⟩

/-- If the overview of the stored state fails, its last review hides the session. -/
theorem hidden_of_ofState {s : SessionState}
    (hload : SessionState.load files now dir = .ok (some s))
    (h : ofState dir limits s = .error f) : Hidden files now dir f := by
  cases hlast : s.reviews.getLast? with
  | none =>
    have hscore : lastScoreOf s = .ok .null := by rw [lastScoreOf, hlast]
    obtain ⟨fault, hfault, -⟩ := (ofState_eq_error_iff hscore).1 h
    cases hfault
  | some review =>
    have hlastScore : lastScoreOf s = scoreOf review := by rw [lastScoreOf, hlast]
    rcases scoreOf_cases review with ⟨j, hpart, hshape, hscore⟩ | ⟨fields, hpart, hscore⟩ | hscore
    · have hfails : ofState dir limits s = .error (.crash (.noPart j.typeName "get")) := by
        rw [ofState, hlastScore, hscore]
        rfl
      cases hfails.symm.trans h
      exact .shapeless hload hlast hpart hshape
    · obtain ⟨fault, hfault, rfl⟩ := (ofState_eq_error_iff (hlastScore.trans hscore)).1 h
      exact .unscored hload hlast hpart hfault
    · obtain ⟨fault, hfault, -⟩ := (ofState_eq_error_iff (hlastScore.trans hscore)).1 h
      cases hfault

/-! ## From the artifacts -/

/-- With documents to read, the overview of the artifacts fails exactly on what the newest review
says of score and reason. -/
theorem ofArtifacts_eq_error_iff {plan review : Nat × String} {document document' : Option Json}
    (hplan : latestArtifact files dir "plan-iteration-" = some plan)
    (hread : documentAt files (dir.child plan.2) = .ok document)
    (hreview : latestArtifact files dir "review-iteration-" = some review)
    (hread' : documentAt files (dir.child review.2) = .ok document') :
    ofArtifacts files dir limits = .error f ↔ ∃ fields, assessmentOf document' = some fields ∧
      issues (numberOnly ((fields.lookup "score").getD .null)) (reasonAfter fields) ≠ [] ∧
      f = .invalid ⟨"SessionInfo",
        issues (numberOnly ((fields.lookup "score").getD .null)) (reasonAfter fields)⟩ := by
  unfold ofArtifacts
  rw [hplan, hreview]
  simp only [hread, hread']
  cases hpart : assessmentOf document' with
  | none =>
    constructor
    · intro h
      simp only [bind, Except.bind, hpart] at h
      cases h
    · rintro ⟨_, h, -⟩
      cases h
  | some fields =>
    simp only [bind, Except.bind, hpart]
    refine readParts_bind_eq_error_iff.trans ?_
    constructor
    · rintro ⟨hissues, rfl⟩
      exact ⟨fields, rfl, hissues, rfl⟩
    · rintro ⟨_, ⟨⟩, hissues, rfl⟩
      exact ⟨hissues, rfl⟩

/-- If the overview of the artifacts fails, the newest of them hide the session. -/
theorem hidden_of_ofArtifacts (hload : files.has (SessionState.filePath dir) = false)
    (h : ofArtifacts files dir limits = .error f) : Hidden files now dir f := by
  cases hplan : latestArtifact files dir "plan-iteration-" with
  | none =>
    simp only [ofArtifacts, hplan] at h
    cases h
  | some plan =>
    rcases documentAt_cases files (dir.child plan.2) with ⟨content, htext, hfails⟩ |
      ⟨htext, document, hread⟩
    · simp only [ofArtifacts, hplan, hfails] at h
      cases h
      exact .plan hload hplan htext
    · cases hreview : latestArtifact files dir "review-iteration-" with
      | none =>
        simp only [ofArtifacts, hplan, hread, hreview] at h
        cases h
      | some review =>
        rcases documentAt_cases files (dir.child review.2) with ⟨content, htext', hfails⟩ |
          ⟨-, document', hread'⟩
        · simp only [ofArtifacts, hplan, hread, hreview, hfails] at h
          cases h
          exact .review hload hplan htext hreview htext'
        · obtain ⟨fields, hpart, hissues, rfl⟩ :=
            (ofArtifacts_eq_error_iff hplan hread hreview hread').1 h
          exact .unshown hload hplan htext hreview hread' hpart hissues

/-! ## Either way -/

theorem load_of_undecodable {content : Content}
    (h : Undecodable files (SessionState.filePath dir) content) (now : String) :
    SessionState.load files now dir = .error (.crash (.undecodable content)) := by
  obtain ⟨hread, htext⟩ := h
  simp only [SessionState.load, has_of_read hread, hread, htext, Bool.not_true, Bool.false_eq_true,
    if_false]

theorem ofSession_of_absent (h : files.has (SessionState.filePath dir) = false) :
    ofSession files now dir limits = ofArtifacts files dir limits := by
  unfold ofSession SessionState.load
  simp only [h, Bool.not_false, if_true]

theorem documentAt_of_undecodable {content : Content} (h : Undecodable files file content) :
    documentAt files file = .error (.crash (.undecodable content)) := by
  obtain ⟨hread, htext⟩ := h
  simp only [documentAt, hread, htext]

theorem exists_documentAt (h : ∀ content, ¬ Undecodable files file content) :
    ∃ document, documentAt files file = .ok document := by
  rcases documentAt_cases files file with ⟨content, hundecodable, -⟩ | ⟨-, hread⟩
  · exact absurd hundecodable (h content)
  · exact hread

/-- What hides a session makes its overview fail, whatever the limits. -/
theorem Hidden.fails (h : Hidden files now dir f) (limits : OverviewLimits) :
    ofSession files now dir limits = .error f := by
  cases h with
  | state hstate => rw [ofSession, load_of_undecodable hstate]
  | shapeless hload hlast hpart hshape =>
    rw [ofSession, hload]
    simp only [ofState, lastScoreOf, hlast, scoreOf, hpart, Option.getD_some]
    split
    · cases hshape
    · rfl
  | unscored hload hlast hpart hfault =>
    rw [ofSession, hload]
    refine (ofState_eq_error_iff ?_).2 ⟨_, hfault, rfl⟩
    simp only [lastScoreOf, hlast, scoreOf, hpart, Option.getD_some]
  | plan hload hplan htext =>
    rw [ofSession_of_absent hload, ofArtifacts, hplan]
    simp only [documentAt_of_undecodable htext]
    rfl
  | review hload hplan htext hreview htext' =>
    obtain ⟨document, hread⟩ := exists_documentAt htext
    rw [ofSession_of_absent hload, ofArtifacts, hplan, hreview]
    simp only [documentAt_of_undecodable htext', hread]
    rfl
  | unshown hload hplan htext hreview hdocument hpart hissues =>
    obtain ⟨document, hread⟩ := exists_documentAt htext
    rw [ofSession_of_absent hload]
    exact (ofArtifacts_eq_error_iff hplan hread hreview hdocument).2 ⟨_, hpart, hissues, rfl⟩

/-- An overview fails only for what hides the session. -/
theorem hidden_of_ofSession (h : ofSession files now dir limits = .error f) :
    Hidden files now dir f := by
  rcases load_cases files now dir with ⟨hhas, -⟩ | ⟨content, hstate, hload⟩ |
    ⟨-, ⟨s, hload⟩ | ⟨fault, hload⟩⟩
  · rw [ofSession_of_absent hhas] at h
    exact hidden_of_ofArtifacts hhas h
  · rw [ofSession, hload] at h
    cases h
    exact .state hstate
  · rw [ofSession, hload] at h
    exact hidden_of_ofState hload h
  · rw [ofSession, hload] at h
    cases h

/-- A session has an overview unless its files hide it. A stored state that cannot be loaded hides
it only if it is not a text; otherwise the overview is a hard stop with the cause as its message. -/
theorem hidden_or_shown (files : FileTree) (now : String) (dir : Path) (limits : OverviewLimits) :
    (∀ f, ofSession files now dir limits = .error f ↔ Hidden files now dir f) ∧
    ∀ f, SessionState.load files now dir = .error f →
      (∃ content, Undecodable files (SessionState.filePath dir) content ∧
        ofSession files now dir limits = .error (.crash (.undecodable content))) ∨
      ∃ o, ofSession files now dir limits = .ok o ∧ o.status.kind = .hardStopped ∧
        o.status.hardStop = some (.ofError f.message) := by
  refine ⟨fun f => ⟨hidden_of_ofSession, fun h => h.fails limits⟩, fun f hf => ?_⟩
  rcases load_cases files now dir with ⟨-, hload⟩ | ⟨content, hstate, -⟩ |
    ⟨-, ⟨s, hload⟩ | ⟨fault, hload⟩⟩
  · cases hload.symm.trans hf
  · exact .inl ⟨content, hstate, (Hidden.state hstate).fails limits⟩
  · cases hload.symm.trans hf
  · cases hload.symm.trans hf
    refine .inr ⟨ofFault dir fault.message, ?_, rfl, rfl⟩
    rw [ofSession, hload]

/-- A session directory with nothing but a stored state. -/
def storing (content : Content) : FileTree :=
  { cwd := ["runs"] : FileTree }.applyAll [.makeDirectory ["runs"], .makeDirectory ["runs", "s"],
    .write ["runs", "s", SessionState.fileName] content]

theorem parse_empty : ∃ e, Json.parse "" = .error e := by
  have hvalue : Json.value [] = .error ⟨.value, []⟩ := by
    rw [Json.value]
    · rfl
    all_goals simp
  have hdocument : Json.document [] = .error ⟨.value, []⟩ := by
    rw [Json.document]
    · simp only [Json.skipGaps, List.dropWhile_nil, hvalue]
    · simp
  exact ⟨_, congrArg (Except.mapError (Json.Failed.locate [])) hdocument⟩

/-- An empty file in place of the state is shown as a hard stop. -/
theorem hidden_or_shown_empty :
    ∃ f, SessionState.load (storing (.text "")) "" (.ofString "s") = .error f ∧
      ∃ o, ofSession (storing (.text "")) "" (.ofString "s") {} = .ok o ∧
        o.status.kind = .hardStopped ∧ o.status.hardStop = some (.ofError f.message) := by
  have hread : (storing (.text "")).read (SessionState.filePath (.ofString "s")) = .ok (.text "") :=
    rfl
  obtain ⟨e, he⟩ := parse_empty
  have hload : SessionState.load (storing (.text "")) "" (.ofString "s") = .error (.persistence
      (.unreadable (SessionState.filePath (.ofString "s")).text e.message)) := by
    have htext : (Content.text "").readText? = some "" := rfl
    simp only [SessionState.load, has_of_read hread, hread, htext, SessionState.ofText, he,
      Bool.not_true, Bool.false_eq_true, if_false]
  refine ⟨_, hload, ?_⟩
  rcases (hidden_or_shown (storing (.text "")) "" (.ofString "s") {}).2 _ hload with
    ⟨content, ⟨hcontent, htext⟩, -⟩ | hshown
  · cases hread.symm.trans hcontent
    cases htext
  · exact hshown

/-- A stored state with a byte that no text has hides the session. -/
theorem ofSession_stray_byte :
    ofSession (storing (.binary ⟨#[0xff]⟩)) "" (.ofString "s") {} = .error (.crash (.decoding
      "'utf-8' codec can't decode byte 0xff in position 0: invalid start byte")) := by
  have hfault : (Content.binary ⟨#[0xff]⟩).encodingFault =
      "'utf-8' codec can't decode byte 0xff in position 0: invalid start byte" := by
    decide +kernel
  rw [← hfault]
  exact (Hidden.state ⟨rfl, rfl⟩).fails {}

end PlanReview.Overview
