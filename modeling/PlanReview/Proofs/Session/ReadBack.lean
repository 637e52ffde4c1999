import PlanReview.Proofs.Json.Kept
import PlanReview.Proofs.Json.Newline
import PlanReview.Proofs.Schema.Laws
import PlanReview.Session.Store

/-!
# States read back

A state that was saved is loaded as the same state (`ofText_storedText`), up to what a file does
not keep (`settled`) : it has the present version, doubles that are no numbers are absent, and the
plans and reviews are what a file holds of their documents. A state whose best score is no number
cannot be loaded at all (`ofText_storedText_of_not_isFinite`), because that score has to be there.
-/

namespace PlanReview

open Json Schema

/-! ## The parts of a state -/

@[simp] theorem TokenBreakdown.decode_toJson (b : TokenBreakdown) : decode b.toJson = .ok b := by
  simp [decode, toJson]

@[simp] theorem TokenBreakdown.kept_toJson (b : TokenBreakdown) : b.toJson.kept = b.toJson := by
  simp [toJson, kept_obj]

@[simp] theorem HumanInput.decode_toJson (now : String) (h : HumanInput) :
    decode now h.toJson = .ok h := by
  simp [decode, toJson]

@[simp] theorem HumanInput.kept_toJson (h : HumanInput) : h.toJson.kept = h.toJson := by
  simp [toJson, kept_obj]

/-- A hard stop as a file holds it. -/
def HardStop.settled (s : HardStop) : HardStop :=
  { s with limit := s.limit.filter Float.isFinite, elapsed := s.elapsed.filter Float.isFinite }

@[simp] theorem HardStop.decode_toJson (s : HardStop) : decode s.toJson = .ok s := by
  simp [decode, toJson, choice_word HardStopKind.lookup_word]

theorem HardStop.kept_toJson (s : HardStop) : s.toJson.kept = s.settled.toJson := by
  simp [toJson, settled, kept_obj]

/-- A status as a file holds it. -/
def Status.settled (s : Status) : Status :=
  { s with hardStop := s.hardStop.map HardStop.settled }

@[simp] theorem Status.decode_toJson (s : Status) : decode s.toJson = .ok s := by
  have hstop := nullable_ofOption_id (fun _ => Json.noConfusion) HardStop.decode_toJson s.hardStop
  simp [decode, toJson, choice_word StatusKind.lookup_word, hstop]

theorem Status.kept_toJson (s : Status) : s.toJson.kept = s.settled.toJson := by
  simp [toJson, settled, kept_obj, kept_ofOption HardStop.kept_toJson]

/-- What a file holds of a status, it holds whole. -/
theorem Status.settled_settled (s : Status) : s.settled.settled = s.settled := by
  obtain ⟨kind, reason, error, hardStop⟩ := s
  cases hardStop with
  | none => rfl
  | some stop => simp [settled, HardStop.settled, Option.filter_filter]

/-- A line of the history as a file holds it. -/
def IterationRecord.settled (r : IterationRecord) : IterationRecord :=
  { r with reviewScore := r.reviewScore.filter Float.isFinite }

@[simp] theorem IterationRecord.decode_toJson (now : String) (r : IterationRecord) :
    decode now r.toJson = .ok r := by
  simp [decode, toJson, choice_word IterationOutcome.lookup_word]

theorem IterationRecord.kept_toJson (r : IterationRecord) : r.toJson.kept = r.settled.toJson := by
  simp [toJson, settled, kept_obj]

theorem IterationRecord.settled_settled (r : IterationRecord) : r.settled.settled = r.settled := by
  simp [settled, Option.filter_filter]

namespace SessionState

/-- A state as a file holds it. -/
def settled (s : SessionState) : SessionState :=
  { s.versioned with
    status := s.status.settled
    currentPlan := s.currentPlan.map keptFields
    bestPlan := s.bestPlan.map keptFields
    reviews := s.reviews.map keptFields
    iterationHistory := s.iterationHistory.map IterationRecord.settled }

/-- What a file holds of a state, it holds whole. -/
theorem settled_settled (s : SessionState) : s.settled.settled = s.settled := by
  have hfields : Json.keptFields ∘ Json.keptFields = Json.keptFields :=
    funext keptFields_keptFields
  have hlines : IterationRecord.settled ∘ IterationRecord.settled = IterationRecord.settled :=
    funext IterationRecord.settled_settled
  simp only [settled, versioned, Status.settled_settled, Option.map_map, List.map_map, hfields,
    hlines]

/-- A state is read from its document. -/
theorem decode_toJson (now : String) (s : SessionState) : decode now s.toJson = .ok s := by
  have hpending := nullable_ofOption_id (fun _ => Json.noConfusion) (HumanInput.decode_toJson now)
    s.pendingHumanInput
  simp [decode, toJson, fields, hpending]

theorem nodup_fields (s : SessionState) : (s.fields.map Prod.fst).Nodup := by
  simp [fields]

/-- What a file holds of a state's document. -/
theorem kept_versioned_toJson (s : SessionState) : s.versioned.toJson.kept =
    .obj (setField s.settled.fields "best_score" (Json.float s.bestScore).kept) := by
  have hscore : (Json.float s.versioned.bestScore).kept = (Json.float s.bestScore).kept := rfl
  rw [toJson, kept_obj (nodup_fields _)]
  simp only [fields, List.map_cons, List.map_nil, hscore, Status.kept_toJson,
    kept_list IterationRecord.kept_toJson, kept_list kept_obj_fields,
    kept_ofOption kept_obj_fields, kept_int, kept_str, kept_bool, kept_strings, kept_list_id,
    kept_ofOption_str, kept_ofOption_id, TokenBreakdown.kept_toJson, HumanInput.kept_toJson,
    implies_true]
  rfl

/-- What a file holds of a state whose best score is a number. -/
theorem kept_toJson {s : SessionState} (h : s.bestScore.isFinite = true) :
    s.versioned.toJson.kept = s.settled.toJson := by
  rw [kept_versioned_toJson, kept_float, if_pos h]
  rfl

theorem parse_storedText (s : SessionState) :
    Json.parse s.storedText = .ok s.versioned.toJson.kept := by
  rw [storedText, parse_write isReadable_stored (.inl writesNull_stored), kept]

/-- A saved state is loaded as a file holds it. -/
theorem ofText_storedText {s : SessionState} (h : s.bestScore.isFinite = true) (now : String)
    (file : Path) : ofText now file s.storedText = .ok s.settled := by
  have hversion : s.settled.toJson.get? "schema_version" = some (.int PlanReview.schemaVersion) :=
    rfl
  have hsame : (Json.int PlanReview.schemaVersion).same (.int PlanReview.schemaVersion) = true :=
    rfl
  unfold ofText
  rw [parse_storedText, kept_toJson h]
  dsimp only
  rw [hversion, Option.getD_some, hsame, ofJson, decode_toJson]
  rfl

/-- A state whose best score is no number cannot be loaded. -/
theorem ofText_storedText_of_not_isFinite {s t : SessionState} (h : s.bestScore.isFinite = false)
    (now : String) (file : Path) : ofText now file s.storedText ≠ .ok t := by
  have hnull : (Json.float s.bestScore).kept = .null := by
    rw [kept_float, if_neg (by rw [h]; exact Bool.false_ne_true)]
  have hpending := nullable_ofOption_id (fun _ => Json.noConfusion) (HumanInput.decode_toJson now)
    s.settled.pendingHumanInput
  have hbad : ∃ e, decode now s.versioned.toJson.kept = .bad e := by
    rw [kept_versioned_toJson, hnull]
    simp [decode, fields, setField, hpending, Schema.float, Checked.fault, Checked.under]
    exact ⟨_, rfl⟩
  obtain ⟨e, he⟩ := hbad
  have hjson : ofJson now s.versioned.toJson.kept = .error ⟨"OrchestrationState", e⟩ := by
    rw [ofJson, he, Checked.report]
  unfold ofText
  rw [parse_storedText]
  dsimp only
  rw [hjson]
  split
  · intro hof
    cases hof
  · split
    · intro hof
      cases hof
    · intro hof
      cases hof

/-- The text of a state is the text of the file that it is saved to. -/
theorem readText?_storedText (s : SessionState) :
    (Content.text s.storedText).readText? = some s.storedText := by
  rw [Content.readText?, storedText, normalizeNewlines_write isClean_stored, String.ofList_toList]

end SessionState

end PlanReview
