import PlanReview.Proofs.Reference.Params
import PlanReview.Proofs.Viability.Acceptance

/-!
# What the rules on references see

The rule on dependencies finds nothing exactly if every instruction depends on the known
instructions that a string of its parameters refers to, as far as the pattern of the rule allows
the reference (`variableRefs_eq_nil_iff`). An id with any other character, a blank or a letter
beyond ASCII, is overlooked. The rule on field names reads the same references with another
pattern, which has those letters and no dashes (`mem_scan_field_iff`) ; so it speaks for all
references of the rule on dependencies but those with a dash in the id
(`resultField_or_dash_of_fieldNames`).
-/

namespace PlanReview.Viability

open Reference Pattern

variable {instructions : List Instruction} {i : Instruction} {r : Found}

/-! ## Dependencies -/

theorem unlisted_eq_nil_iff {known : List String} : unlisted known i = [] ↔
    ∀ id ∈ i.referencedIds, id ∈ known → id ∈ i.dependencies := by
  simp [unlisted, List.filter_eq_nil_iff]

/-- The rule on dependencies finds nothing exactly if every instruction depends on the known
instructions that its strings refer to, in a way that the rule can read. -/
theorem variableRefs_eq_nil_iff : variableRefs instructions = [] ↔
    ∀ i ∈ instructions, ∀ r : Found, dependency.Allows r → r.id ∈ Graph.ids instructions →
      (∃ text ∈ i.params.allTexts, r.written <:+: text.toList) → r.id ∈ i.dependencies := by
  simp only [variableRefs, List.flatMap_eq_nil_iff, unlisted_eq_nil_iff, Instruction.referencedIds,
    List.forall_mem_map, mem_scan_paramsText_iff isPlain_dependency]
  refine forall₂_congr fun i _ => forall_congr' fun r => ?_
  exact ⟨fun h hr hknown hwritten => h ⟨hr, hwritten⟩ hknown,
    fun h hr hknown => h hr.1 hknown hr.2⟩

/-- An instruction without dependencies that refers to a field of a result. -/
def reader (id field : String) : Instruction where
  id := "reader"
  op := .verifyExists
  params := .obj [("path", .str (String.ofList (Found.written ⟨id, field⟩)))]

/-- A known id with a letter beyond ASCII is overlooked. -/
theorem variableRefs_of_accent :
    variableRefs [{ id := "é", op := .searchCode }, reader "é" "output"] = [] ∧
      (∃ text ∈ (reader "é" "output").params.allTexts,
        Found.written ⟨"é", "output"⟩ <:+: text.toList) ∧
      "é" ∉ (reader "é" "output").dependencies := by
  refine ⟨by decide, ⟨String.ofList (Found.written ⟨"é", "output"⟩), by decide, ?_⟩, by decide⟩
  rw [String.toList_ofList]

/-! ## Field names -/

/-- The rule on field names finds nothing exactly if the references in the strings, as far as it
can read them, name fields that results have. -/
theorem fieldNames_eq_nil_iff : fieldNames instructions = [] ↔
    ∀ i ∈ instructions, ∀ r : Found, field.Allows r →
      (∃ text ∈ i.params.allTexts, r.written <:+: text.toList) → r.field ∈ resultFields := by
  simp [fieldNames, unknownFields, List.filter_eq_nil_iff, mem_scan_paramsText_iff isPlain_field]

/-- The rule on field names reads a reference of the rule on dependencies exactly if there is no
dash in its id. -/
theorem mem_scan_field_iff {text : List Char} (h : r ∈ dependency.scan text) :
    r ∈ field.scan text ↔ '-' ∉ r.id.toList := by
  obtain ⟨hr, hwritten⟩ := (mem_scan_iff isDelimited_dependency).1 h
  rw [mem_scan_iff isDelimited_field]
  constructor
  · rintro ⟨hfield, -⟩ hdash
    cases hfield.id_mem _ hdash
  · intro hdash
    refine ⟨⟨hr.id_ne, fun c hc => ?_, hr.field_ne, fun c hc => ?_⟩, hwritten⟩
    · refine (isWord_or_dash_of_inId (hr.id_mem c hc)).resolve_right ?_
      rintro rfl
      exact hdash hc
    · exact isWord_of_inField (hr.field_mem c hc)

/-- Where the rule on field names finds nothing, a reference of the rule on dependencies names a
field that results have, unless a dash in its id keeps it from being read. -/
theorem resultField_or_dash_of_fieldNames (h : fieldNames instructions = [])
    (hi : i ∈ instructions) (hr : r ∈ dependency.scan i.paramsText) :
    r.field ∈ resultFields ∨ ('-' ∈ r.id.toList ∧ r ∉ field.scan i.paramsText) := by
  by_cases hdash : '-' ∈ r.id.toList
  · exact .inr ⟨hdash, fun hmem => (mem_scan_field_iff hr).1 hmem hdash⟩
  · obtain ⟨hallows, hwritten⟩ :=
      (mem_scan_paramsText_iff isPlain_field).1 ((mem_scan_field_iff hr).2 hdash)
    exact .inl (fieldNames_eq_nil_iff.1 h i hi r hallows hwritten)

theorem resultField_or_dash_of_reader : fieldNames [reader "a" "output"] = [] ∧
    ⟨"a", "output"⟩ ∈ dependency.scan (reader "a" "output").paramsText ∧
    ("output" ∈ resultFields ∨ ('-' ∈ "a".toList ∧
      ⟨"a", "output"⟩ ∉ field.scan (reader "a" "output").paramsText)) := by
  have hclear : fieldNames [reader "a" "output"] = [] := by decide
  have hmem : ⟨"a", "output"⟩ ∈ dependency.scan (reader "a" "output").paramsText := by decide
  exact ⟨hclear, hmem, resultField_or_dash_of_fieldNames hclear List.mem_cons_self hmem⟩

/-- Behind an id with a dash, any field passes. -/
theorem fieldNames_of_dash : fieldNames [reader "a-b" "foo"] = [] ∧
    ⟨"a-b", "foo"⟩ ∈ dependency.scan (reader "a-b" "foo").paramsText ∧ "foo" ∉ resultFields := by
  decide

end PlanReview.Viability
