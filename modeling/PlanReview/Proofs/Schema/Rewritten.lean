import PlanReview.Artifact.Store
import PlanReview.Proofs.Schema.Accepted

/-!
# Documents written again

What is accepted from a document is accepted again from the document that is written of it, and is
the same from then on (`documents_reread`). A review comes back as it was. A plan comes back but for
parameters that are no finite numbers, which its document has as null, and these stay null however
often the plan is written and read (`Plan.reread_eq`).
-/

namespace PlanReview

open Json (finite isFinite_finite finite_finite finite_kept finite_of_isFinite kept_obj_fields)
open Artifacts (jsonText)

/-- The plan once its document was written and read at each of these times. -/
def Plan.reread (times : List String) (p : Plan) : Except Schema.Invalid Plan :=
  times.foldlM (fun q now => Plan.ofJson now q.toJson) p

/-- The review once its document was written and read this many times. -/
def Review.reread : Nat → Review → Except Schema.Invalid Review
  | 0, r => .ok r
  | n + 1, r => Review.ofJson r.toJson >>= reread n

/-- A document of which a file keeps everything is read as it was written. -/
theorem Json.parse_jsonText_of_kept {document : Json} (h : document.kept = document) :
    Json.parse (jsonText document) = .ok document := by
  have hfinite : document.isFinite = true := by
    rw [← h, ← finite_kept]
    exact isFinite_finite _
  rw [jsonText, Json.parse_write Json.isReadable_indented (.inr hfinite)]
  exact congrArg _ h

/-! ## Plans -/

namespace Plan

variable {p : Plan}

theorem ofJson_toJson (now : String) (p : Plan) :
    Plan.ofJson now p.toJson = .ok (p.mapParams finite) := by
  rw [Plan.ofJson, decode_toJson]
  rfl

theorem toJson_mapParams_finite (p : Plan) : (p.mapParams finite).toJson = p.toJson :=
  congrArg Json.obj p.fields_mapParams_finite

/-- A change of the parameters that leaves those of this plan as they are. -/
theorem mapParams_eq_self {f : Json → Json} (h : ∀ i ∈ p.steps, f i.params = i.params) :
    p.mapParams f = p := by
  unfold mapParams
  cases hsteps : p.instructions with
  | none => rw [Option.map_none, ← hsteps]
  | some is =>
    have hmap : is.map (Instruction.mapParams f) = is := by
      refine (List.map_congr_left fun i hi => ?_).trans (List.map_id is)
      rw [Instruction.mapParams, h i (by rwa [steps, hsteps, Option.getD_some])]
      rfl
    rw [Option.map_some, hmap, ← hsteps]

theorem mapParams_finite_finite (p : Plan) :
    (p.mapParams finite).mapParams finite = p.mapParams finite := by
  refine mapParams_eq_self fun i hi => ?_
  unfold steps mapParams at hi
  cases hsteps : p.instructions with
  | none =>
    rw [hsteps] at hi
    cases hi
  | some is =>
    rw [hsteps] at hi
    obtain ⟨i, -, rfl⟩ := List.mem_map.1 hi
    exact finite_finite i.params

/-- After the first time nothing changes any more. -/
theorem reread_eq (times : List String) (p : Plan) :
    p.reread times = .ok (if times.isEmpty then p else p.mapParams finite) := by
  induction times generalizing p with
  | nil => rfl
  | cons now times ih =>
    have hstep : p.reread (now :: times) = Plan.ofJson now p.toJson >>= reread times := rfl
    rw [hstep, ofJson_toJson]
    change (p.mapParams finite).reread times = _
    rw [ih, mapParams_finite_finite, ite_self]
    rfl

/-- The text of its document is read as the document, if no key is repeated in it. -/
theorem IsPlain.parse_jsonText (h : p.IsPlain) :
    Json.parse (jsonText p.toJson) = .ok p.toJson :=
  Json.parse_jsonText_of_kept (congrArg Json.obj h.keptFields_eq)

end Plan

/-! ## Reviews -/

namespace Review

open Decimal (InUnit)

variable {r : Review}

theorem ofJson_toJson (h : InUnit r.score) : Review.ofJson r.toJson = .ok r := by
  have hwhole : (r.toJson.isObject && (r.toJson.get? "llm_review").isNone) = false := rfl
  rw [Review.ofJson, hwhole, decode_toJson h]
  rfl

theorem reread_eq (h : InUnit r.score) (cycles : Nat) : r.reread cycles = .ok r := by
  induction cycles with
  | zero => rfl
  | succ n ih =>
    rw [reread, ofJson_toJson h]
    exact ih

theorem parse_jsonText (h : InUnit r.score) :
    Json.parse (jsonText r.toJson) = .ok r.toJson :=
  Json.parse_jsonText_of_kept (congrArg Json.obj (keptFields_fields h))

end Review

/-! ## What is accepted -/

/-- A plan that is accepted is accepted again however often its document is written and read, its
document stays the same, and it is itself the same but for parameters that are no finite numbers; a
review stays the same. The texts of both documents are read as these documents, for a plan if the
accepted document repeats no key. -/
theorem documents_reread (document : Json) :
    (∀ now p, Plan.ofJson now document = .ok p →
      (∀ times, ∃ q, p.reread times = .ok q ∧ q.toJson = p.toJson ∧
        q.mapParams finite = p.mapParams finite ∧ (document.isFinite = true → q = p)) ∧
      (document.merged = document → Json.parse (jsonText p.toJson) = .ok p.toJson)) ∧
    ∀ r, Review.ofJson document = .ok r →
      (∀ cycles, r.reread cycles = .ok r) ∧ Json.parse (jsonText r.toJson) = .ok r.toJson := by
  refine ⟨fun now p hp => ⟨fun times => ⟨_, p.reread_eq times, ?_⟩, fun hplain => ?_⟩,
    fun r hr => ?_⟩
  · have hself (hdocument : document.isFinite = true) : p.mapParams finite = p :=
      Plan.mapParams_eq_self fun i hi => finite_of_isFinite
        (Plan.params_of_ofJson Json.isHereditary_isFinite hdocument hp i hi)
    split
    · exact ⟨rfl, rfl, fun _ => rfl⟩
    · exact ⟨p.toJson_mapParams_finite, p.mapParams_finite_finite, hself⟩
  · exact (Plan.isPlain_of_ofJson hplain hp).parse_jsonText
  · have hscore := Review.inUnit_of_ofJson hr
    exact ⟨Review.reread_eq hscore, Review.parse_jsonText hscore⟩

/-- A document that is accepted as a plan and as a reviewer's assessment : its version is a text,
its iteration has a point, and a parameter is no number. -/
def looseDocument : Json :=
  .obj [
    ("title", .str "Plan"),
    ("metadata", .obj [("version", .str "4"), ("iteration", .float 3.0)]),
    ("instructions", .arr [.obj [("id", .str "a"), ("op", .str "RUN_TEST"),
      ("params", .obj [("limit", .float (0.0 / 0.0))])]]),
    ("requires_human_input", .str "yes")]

theorem reread_of_loose :
    (∃ p, Plan.ofJson "2025-01-01" looseDocument = .ok p ∧
      p.metadata.version = 4 ∧ p.metadata.iteration = 3 ∧
      (∀ times, ∃ q, p.reread times = .ok q ∧ q.toJson = p.toJson) ∧
      Json.parse (jsonText p.toJson) = .ok p.toJson) ∧
    ∃ r, Review.ofJson looseDocument = .ok r ∧ r.assessment.requiresHumanInput = true ∧
      (∀ cycles, r.reread cycles = .ok r) ∧ Json.parse (jsonText r.toJson) = .ok r.toJson := by
  obtain ⟨hplan, hreview⟩ := documents_reread looseDocument
  refine ⟨⟨_, rfl, rfl, rfl, fun times => ?_, (hplan "2025-01-01" _ rfl).2 rfl⟩,
    _, rfl, rfl, hreview _ rfl⟩
  obtain ⟨q, hq, hdocument, -⟩ := (hplan "2025-01-01" _ rfl).1 times
  exact ⟨q, hq, hdocument⟩

end PlanReview
