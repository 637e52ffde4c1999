import Mathlib.Data.List.Infix
import Mathlib.Data.List.TakeWhile
import PlanReview.Plan.Reference

/-!
# What a scan for references finds

A reference is written as a dollar sign, a brace, an id, a point, a field and a brace
(`Found.written`). A scan finds the references that a pattern allows and that stand somewhere in
the text, and no others (`Pattern.mem_scan_iff`) : since ids hold no point and fields no brace, a
reference is read in one way only.
-/

namespace PlanReview.Reference

/-- The text of a reference. -/
def Found.written (r : Found) : List Char :=
  '$' :: '{' :: (r.id.toList ++ '.' :: (r.field.toList ++ ['}']))

namespace Pattern

/-- Whether a pattern allows the id and the field of a reference. -/
structure Allows (p : Pattern) (r : Found) : Prop where
  id_ne : r.id.toList ≠ []
  id_mem : ∀ c ∈ r.id.toList, p.inId c = true
  field_ne : r.field.toList ≠ []
  field_mem : ∀ c ∈ r.field.toList, p.inField c = true

/-- The characters that end an id and a field stand in neither. -/
structure IsDelimited (p : Pattern) : Prop where
  id_end : p.inId '.' = false
  field_end : p.inField '}' = false

theorem isDelimited_dependency : dependency.IsDelimited :=
  ⟨by decide, by decide⟩

/-- A run of allowed characters is read up to the first that is not allowed. -/
theorem takeWhile_dropWhile_append {f : Char → Bool} {run : List Char}
    (hrun : ∀ c ∈ run, f c = true) {c : Char} (hc : f c = false) (rest : List Char) :
    (run ++ c :: rest).takeWhile f = run ∧ (run ++ c :: rest).dropWhile f = c :: rest := by
  rw [List.takeWhile_append_of_pos hrun, List.dropWhile_append_of_pos hrun,
    List.takeWhile_cons_of_neg (by simp [hc]), List.dropWhile_cons_of_neg (by simp [hc]),
    List.append_nil]
  exact ⟨rfl, rfl⟩

theorem matchHead?_eq_some_of_append {p : Pattern} (hp : p.IsDelimited) {r : Found}
    (hr : p.Allows r) {text : List Char} (h : r.written <+: text) :
    p.matchHead? text = some r := by
  obtain ⟨rest, rfl⟩ := h
  obtain ⟨hid, hid'⟩ := takeWhile_dropWhile_append hr.id_mem hp.id_end
    (r.field.toList ++ '}' :: rest)
  obtain ⟨hf, hf'⟩ := takeWhile_dropWhile_append hr.field_mem hp.field_end rest
  simp only [Found.written, List.cons_append, List.append_assoc, List.nil_append, matchHead?, hid,
    hid', hf, hf']
  have hne : (r.id.toList.isEmpty || r.field.toList.isEmpty) = false := by
    simpa using ⟨by simpa using hr.id_ne, by simpa using hr.field_ne⟩
  rw [if_neg (by simp [hne])]
  simp

theorem allows_and_prefix_of_matchHead? {p : Pattern} {r : Found} {text : List Char}
    (h : p.matchHead? text = some r) : p.Allows r ∧ r.written <+: text := by
  unfold matchHead? at h
  split at h
  · rename_i cs
    have hid := List.takeWhile_append_dropWhile (p := p.inId) (l := cs)
    have hid' := List.all_takeWhile (p := p.inId) (l := cs)
    generalize cs.takeWhile p.inId = id at h hid hid'
    split at h
    · rename_i rest heq
      rw [heq] at hid
      have hf := List.takeWhile_append_dropWhile (p := p.inField) (l := rest)
      have hf' := List.all_takeWhile (p := p.inField) (l := rest)
      generalize rest.takeWhile p.inField = field at h hf hf'
      split at h
      · rename_i rest' heq'
        rw [heq'] at hf
        simp only at h
        split at h
        · cases h
        · rename_i hne
          simp only [Bool.or_eq_true, List.isEmpty_iff, not_or] at hne
          rw [List.all_eq_true] at hid' hf'
          cases h
          refine ⟨⟨?_, ?_, ?_, ?_⟩, rest', ?_⟩
          · simpa using hne.1
          · simpa using hid'
          · simpa using hne.2
          · simpa using hf'
          · simp [Found.written, ← hid, ← hf]
      · cases h
    · cases h
  · cases h

/-- A scan finds what the pattern allows and the text holds. -/
theorem mem_scan_iff {p : Pattern} (hp : p.IsDelimited) {r : Found} {text : List Char} :
    r ∈ p.scan text ↔ p.Allows r ∧ r.written <:+: text := by
  induction text with
  | nil => simp [scan, Found.written]
  | cons c cs ih =>
    rw [scan, List.mem_append, ih, List.infix_cons_iff, Option.mem_toList]
    constructor
    · rintro (h | ⟨hr, h⟩)
      · obtain ⟨hr, h⟩ := allows_and_prefix_of_matchHead? h
        exact ⟨hr, .inl h⟩
      · exact ⟨hr, .inr h⟩
    · rintro ⟨hr, h | h⟩
      · exact .inl (matchHead?_eq_some_of_append hp hr h)
      · exact .inr ⟨hr, h⟩

end Pattern

end PlanReview.Reference

namespace PlanReview

/-- The parameters of an instruction write the reference `r`, as the dependency rule reads
references. -/
def Instruction.Writes (i : Instruction) (r : Reference.Found) : Prop :=
  Reference.Pattern.dependency.Allows r ∧ r.written <:+: i.paramsText

theorem Instruction.mem_referencedIds_iff {i : Instruction} {id : String} :
    id ∈ i.referencedIds ↔ ∃ field, i.Writes ⟨id, field⟩ := by
  simp only [referencedIds, List.mem_map,
    Reference.Pattern.mem_scan_iff Reference.Pattern.isDelimited_dependency]
  constructor
  · rintro ⟨⟨id', field⟩, h, rfl⟩
    exact ⟨field, h⟩
  · rintro ⟨field, h⟩
    exact ⟨⟨id, field⟩, h, rfl⟩

end PlanReview
