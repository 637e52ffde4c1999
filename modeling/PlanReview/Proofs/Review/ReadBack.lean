import PlanReview.Proofs.Decimal.Order
import PlanReview.Proofs.Json.Kept
import PlanReview.Proofs.Schema.Laws
import PlanReview.Review.Basic

/-!
# Reading reviews back

A review whose score is one is read from its document as it was (`Review.decode_toJson`), and a file
keeps the whole document (`Review.keptFields_fields`); no other review can be read
(`Review.eq_of_decode`). The document determines the score, whatever it is
(`Review.score_of_fields`).
-/

namespace PlanReview

open Schema
open Json (ofOption keptFields kept_obj keptFields_of_nodup kept_float)
open Decimal (InUnit)

/-! ## The parts of a review -/

@[simp] theorem HardCheck.decode_toJson (c : HardCheck) : decode c.toJson = .ok c := by
  simp [decode, toJson, choice_word Severity.lookup_word]

@[simp] theorem HardCheck.kept_toJson (c : HardCheck) : c.toJson.kept = c.toJson := by
  simp [toJson, kept_obj]

@[simp] theorem Gap.decode_toJson (g : Gap) : decode g.toJson = .ok g := by
  simp [decode, toJson, choice_word Severity.lookup_word]

@[simp] theorem Gap.kept_toJson (g : Gap) : g.toJson.kept = g.toJson := by
  simp [toJson, kept_obj]

@[simp] theorem UnclearArea.decode_toJson (u : UnclearArea) : decode u.toJson = .ok u := by
  simp [decode, toJson]

@[simp] theorem UnclearArea.kept_toJson (u : UnclearArea) : u.toJson.kept = u.toJson := by
  simp [toJson, kept_obj]

@[simp] theorem Suggestion.decode_toJson (s : Suggestion) : decode s.toJson = .ok s := by
  simp [decode, toJson, choice_word Priority.lookup_word]

@[simp] theorem Suggestion.kept_toJson (s : Suggestion) : s.toJson.kept = s.toJson := by
  simp [toJson, kept_obj]

theorem unitInterval_float {x : Float} (h : InUnit x) :
    Schema.unitInterval (.float x) = .ok x := by
  simp [Schema.unitInterval, h.nonneg, h.le_one]

theorem inUnit_of_unitInterval {x y : Float} (h : Schema.unitInterval (.float x) = .ok y) :
    InUnit x := by
  unfold Schema.unitInterval Schema.float at h
  dsimp only at h
  split at h
  · cases h
  · split at h
    · cases h
    · rename_i hle hnonneg
      exact ⟨by simpa using hnonneg, by simpa using hle⟩

theorem Assessment.decode_toJson {a : Assessment} (h : InUnit a.score) :
    decode a.toJson = .ok a := by
  simp [decode, toJson, unitInterval_float h]

theorem Assessment.kept_toJson {a : Assessment} (h : InUnit a.score) :
    a.toJson.kept = a.toJson := by
  simp [toJson, kept_obj, kept_float, h.isFinite]

/-! ## Reviews -/

namespace Review

variable {r r' : Review}

theorem decode_toJson (h : InUnit r.score) : decode r.toJson = .ok r := by
  simp [decode, toJson, fields, Assessment.decode_toJson h]

/-- Only a review whose score is one can be read back. -/
theorem eq_of_decode (h : decode r.toJson = .ok r') : r' = r := by
  cases hread : Schema.unitInterval (.float r.score) with
  | ok x =>
    rw [decode_toJson (inUnit_of_unitInterval hread)] at h
    cases h
    rfl
  | bad e =>
    have hscore : Schema.unitInterval (.float r.assessment.score) = .bad e := hread
    simp [decode, toJson, fields, Assessment.decode, Assessment.toJson, hscore] at h
    cases h

theorem keptFields_fields (h : InUnit r.score) : keptFields r.fields = r.fields := by
  rw [keptFields_of_nodup (by simp [fields])]
  simp [fields, Assessment.kept_toJson h]

/-- Reviews with the same document have the same score. -/
theorem score_of_fields (h : r.fields = r'.fields) : r.score = r'.score := by
  have hassessment : some r.assessment.toJson = some r'.assessment.toJson :=
    congrArg (List.lookup "llm_review") h
  have hscore : some (Json.float r.score) = some (Json.float r'.score) :=
    congrArg (fun o => o.bind fun j : Json => j.get? "score") hassessment
  exact Json.float.inj (Option.some_inj.1 hscore)

end Review

end PlanReview
