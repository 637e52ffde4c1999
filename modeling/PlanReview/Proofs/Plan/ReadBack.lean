import PlanReview.Plan.Decode
import PlanReview.Proofs.Json.Kept
import PlanReview.Proofs.Schema.Laws

/-!
# Plans read back

A plan is read from its own document (`Plan.decode_toJson`), and what a file keeps of the document
is again the document of a plan (`Plan.kept_toJson`). Either way only the parameters of the
instructions can change, because they are the only part that may hold any value at all : the
document of a plan has null for a parameter that is no finite number, and a file besides merges
repeated keys.
-/

namespace PlanReview

open Json Schema

/-! ## The parts of a plan -/

@[simp] theorem PlanContext.decode_toJson (c : PlanContext) : decode c.toJson = .ok c := by
  simp [decode, toJson]

@[simp] theorem PlanContext.kept_toJson (c : PlanContext) : c.toJson.kept = c.toJson := by
  simp [toJson, kept_obj]

@[simp] theorem Task.decode_toJson (t : Task) : decode t.toJson = .ok t := by
  simp [decode, toJson]

@[simp] theorem Task.kept_toJson (t : Task) : t.toJson.kept = t.toJson := by
  simp [toJson, kept_obj]

@[simp] theorem Checkpoint.decode_toJson (c : Checkpoint) : decode c.toJson = .ok c := by
  simp [decode, toJson]

@[simp] theorem Checkpoint.kept_toJson (c : Checkpoint) : c.toJson.kept = c.toJson := by
  simp [toJson, kept_obj]

@[simp] theorem PlanPhase.decode_toJson (p : PlanPhase) : decode p.toJson = .ok p := by
  simp [decode, toJson, choice_word PhaseTier.lookup_word]

@[simp] theorem PlanPhase.kept_toJson (p : PlanPhase) : p.toJson.kept = p.toJson := by
  simp [toJson, kept_obj]

@[simp] theorem FileReference.decode_toJson (r : FileReference) : decode r.toJson = .ok r := by
  simp [decode, toJson, choice_word FileAction.lookup_word]

@[simp] theorem FileReference.kept_toJson (r : FileReference) : r.toJson.kept = r.toJson := by
  simp [toJson, kept_obj]

@[simp] theorem AcceptanceCriterion.decode_toJson (c : AcceptanceCriterion) :
    decode c.toJson = .ok c := by
  simp [decode, toJson, choice_word Priority.lookup_word]

@[simp] theorem AcceptanceCriterion.kept_toJson (c : AcceptanceCriterion) :
    c.toJson.kept = c.toJson := by
  simp [toJson, kept_obj]

@[simp] theorem Risk.decode_toJson (r : Risk) : decode r.toJson = .ok r := by
  simp [decode, toJson, choice_word Severity.lookup_word]

@[simp] theorem Risk.kept_toJson (r : Risk) : r.toJson.kept = r.toJson := by
  simp [toJson, kept_obj]

@[simp] theorem PlanMetadata.decode_toJson (now : String) (m : PlanMetadata) :
    decode now m.toJson = .ok m := by
  simp [decode, toJson]

@[simp] theorem PlanMetadata.kept_toJson (m : PlanMetadata) : m.toJson.kept = m.toJson := by
  simp [toJson, kept_obj]

@[simp] theorem VerifiedFile.decode_toJson (f : VerifiedFile) : decode f.toJson = .ok f := by
  simp [decode, toJson]

@[simp] theorem VerifiedFile.kept_toJson (f : VerifiedFile) : f.toJson.kept = f.toJson := by
  simp [toJson, kept_obj]

@[simp] theorem VerifiedTarget.decode_toJson (t : VerifiedTarget) : decode t.toJson = .ok t := by
  simp [decode, toJson]

@[simp] theorem VerifiedTarget.kept_toJson (t : VerifiedTarget) : t.toJson.kept = t.toJson := by
  simp [toJson, kept_obj]

@[simp] theorem ExistingPattern.decode_toJson (p : ExistingPattern) : decode p.toJson = .ok p := by
  simp [decode, toJson]

@[simp] theorem ExistingPattern.kept_toJson (p : ExistingPattern) : p.toJson.kept = p.toJson := by
  simp [toJson, kept_obj]

@[simp] theorem GroundingSnapshot.decode_toJson (s : GroundingSnapshot) :
    decode s.toJson = .ok s := by
  simp [decode, toJson]

@[simp] theorem GroundingSnapshot.kept_toJson (s : GroundingSnapshot) :
    s.toJson.kept = s.toJson := by
  simp [toJson, kept_obj]

@[simp] theorem GroundingGate.decode_toJson (g : GroundingGate) : decode g.toJson = .ok g := by
  simp [decode, toJson]

@[simp] theorem GroundingGate.kept_toJson (g : GroundingGate) : g.toJson.kept = g.toJson := by
  simp [toJson, kept_obj]

/-! ## Instructions and plans -/

/-- The instruction with other parameters. -/
def Instruction.mapParams (f : Json → Json) (i : Instruction) : Instruction :=
  { i with params := f i.params }

/-- The plan with other parameters in its instructions. -/
def Plan.mapParams (f : Json → Json) (p : Plan) : Plan :=
  { p with instructions := p.instructions.map (List.map (Instruction.mapParams f)) }

/-- The instruction that a document holds of it. -/
theorem Instruction.decode_toJson (i : Instruction) :
    decode i.toJson = .ok (i.mapParams finite) := by
  simp [decode, toJson, mapParams, member_word OpCode.lookup_word]

@[simp] theorem Instruction.toJson_mapParams_finite (i : Instruction) :
    (i.mapParams finite).toJson = i.toJson := by
  simp [toJson, mapParams, finite_finite]

theorem Instruction.kept_toJson (i : Instruction) : i.toJson.kept = (i.mapParams kept).toJson := by
  simp [toJson, mapParams, kept_obj, kept_finite, finite_kept]

theorem GroundingSnapshot.toJson_ne_null (s : GroundingSnapshot) : s.toJson ≠ .null :=
  Json.noConfusion

/-- The plan that a document holds of it. -/
theorem Plan.decode_toJson (now : String) (p : Plan) :
    decode now p.toJson = .ok (p.mapParams finite) := by
  have hsnapshot := nullable_ofOption_id GroundingSnapshot.toJson_ne_null
    GroundingSnapshot.decode_toJson p.groundingSnapshot
  have hinstructions : nullable (list Instruction.decode)
      (ofOption (Json.list Instruction.toJson) p.instructions) =
        .ok (p.instructions.map (List.map (Instruction.mapParams finite))) :=
    nullable_ofOption (fun _ => Json.noConfusion) _ fun _ _ =>
      list_list fun i _ => i.decode_toJson
  simp [decode, toJson, fields, mapParams, choice_word PlanTier.lookup_word, hsnapshot,
    hinstructions]

theorem Plan.fields_mapParams_finite (p : Plan) : (p.mapParams finite).fields = p.fields := by
  have hinstructions : ofOption (Json.list Instruction.toJson) (p.mapParams finite).instructions =
      ofOption (Json.list Instruction.toJson) p.instructions := by
    cases h : p.instructions <;> simp [mapParams, h, ofOption, Json.list]
  rw [fields, hinstructions]
  rfl

/-- The fields that a file holds of a plan are those of a plan. -/
theorem Plan.keptFields_fields (p : Plan) : keptFields p.fields = (p.mapParams kept).fields := by
  have hinstructions : (ofOption (Json.list Instruction.toJson) p.instructions).kept =
      ofOption (Json.list Instruction.toJson) (p.mapParams kept).instructions :=
    kept_ofOption (kept_list Instruction.kept_toJson) p.instructions
  rw [keptFields_of_nodup (by simp [fields])]
  simp only [fields, List.map_cons, List.map_nil, hinstructions, kept_str, kept_ofOption_str,
    kept_ofOption_id, kept_list_id, implies_true, PlanContext.kept_toJson, PlanPhase.kept_toJson,
    AcceptanceCriterion.kept_toJson, FileReference.kept_toJson, Risk.kept_toJson,
    PlanMetadata.kept_toJson, GroundingGate.kept_toJson, GroundingSnapshot.kept_toJson]
  rfl

/-- A plan in whose parameters no object repeats a key. -/
def Plan.IsPlain (p : Plan) : Prop :=
  ∀ i ∈ p.steps, i.params.merged = i.params

/-- A file keeps the whole document of a plan without repeated keys. -/
theorem Plan.IsPlain.keptFields_eq {p : Plan} (h : p.IsPlain) : keptFields p.fields = p.fields := by
  have hparams : p.mapParams kept = p.mapParams finite := by
    unfold mapParams
    cases hsteps : p.instructions with
    | none => rfl
    | some is =>
      have hmap : is.map (Instruction.mapParams kept) =
          is.map (Instruction.mapParams finite) := by
        refine List.map_congr_left fun i hi => ?_
        have hplain := h i (by rwa [Plan.steps, hsteps, Option.getD_some])
        rw [Instruction.mapParams, Instruction.mapParams, kept_of_merged hplain]
      rw [Option.map_some, hmap]
      rfl
  rw [p.keptFields_fields, hparams, p.fields_mapParams_finite]

end PlanReview
