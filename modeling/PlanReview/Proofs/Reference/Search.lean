import PlanReview.Proofs.Reference.Params

/-!
# Searching for references from the left

A search goes through a text from the left and passes over every reference that it finds
(`Pattern.Finds`). A scan looks at every place instead, and the two agree as long as no dollar sign
stands in an id or a field (`Pattern.finds_iff`) : then nothing begins inside of a reference. Both
patterns are such. So what is found in the text of the parameters is what is found in their strings
(`Pattern.scan_paramsText_eq`), whichever way it is looked for.
-/

namespace PlanReview.Reference.Pattern

/-- What a search from the left finds in a text, where a reference that is found is passed over as a
whole. -/
inductive Finds (p : Pattern) : List Char → List Found → Prop
  /-- Nothing is left. -/
  | nil : p.Finds [] []
  /-- No reference begins here. -/
  | skip {c : Char} {cs : List Char} {rs : List Found}
      (hnone : ∀ r, p.Allows r → ¬ r.written <+: c :: cs) (hrest : p.Finds cs rs) :
      p.Finds (c :: cs) rs
  /-- A reference begins here. -/
  | hit {r : Found} {rest : List Char} {rs : List Found} (hr : p.Allows r)
      (hrest : p.Finds rest rs) : p.Finds (r.written ++ rest) (r :: rs)

/-- A dollar sign stands in no id and in no field. -/
structure IsAnchored (p : Pattern) : Prop extends p.IsDelimited where
  id_dollar : p.inId '$' = false
  field_dollar : p.inField '$' = false

theorem isAnchored_dependency : dependency.IsAnchored :=
  ⟨isDelimited_dependency, by decide, by decide⟩

theorem isAnchored_field : field.IsAnchored :=
  ⟨isDelimited_field, by decide, by decide⟩

variable {p : Pattern} {r : Found} {rs : List Found} {text : List Char}

/-- The dollar sign at its start is the only one in a reference. -/
theorem IsAnchored.written_eq (hp : p.IsAnchored) (hr : p.Allows r) :
    ∃ tail, r.written = '$' :: tail ∧ '$' ∉ tail := by
  refine ⟨_, rfl, ?_⟩
  have hid : '$' ∉ r.id.toList := fun h => Bool.false_ne_true (hp.id_dollar ▸ hr.id_mem _ h)
  have hfield : '$' ∉ r.field.toList := fun h =>
    Bool.false_ne_true (hp.field_dollar ▸ hr.field_mem _ h)
  simp [hid, hfield]

/-- A scan takes the reference at the head of a text and goes on behind it. -/
theorem scan_written_append (hp : p.IsAnchored) (hr : p.Allows r) (rest : List Char) :
    p.scan (r.written ++ rest) = r :: p.scan rest := by
  have hhead := matchHead?_eq_some_of_append hp.toIsDelimited hr (List.prefix_append r.written rest)
  obtain ⟨tail, hwritten, htail⟩ := hp.written_eq hr
  rw [hwritten, List.cons_append] at hhead ⊢
  rw [scan, hhead, scan_append_of_notMem htail, Option.toList_some, List.singleton_append]

/-- A search has a result for every text, and it is that of the scan. -/
theorem finds_scan (hp : p.IsAnchored) (text : List Char) : p.Finds text (p.scan text) := by
  -- a reference takes several characters, so the induction is on the length
  induction hlength : text.length using Nat.strong_induction_on generalizing text with
  | _ n ih =>
    cases text with
    | nil => exact .nil
    | cons c cs =>
      subst hlength
      cases hhead : p.matchHead? (c :: cs) with
      | none =>
        have hscan : p.scan (c :: cs) = p.scan cs := by
          rw [scan, hhead, Option.toList_none, List.nil_append]
        refine hscan ▸ .skip (fun r hr hprefix => ?_) (ih _ (Nat.lt_succ_self _) cs rfl)
        rw [matchHead?_eq_some_of_append hp.toIsDelimited hr hprefix] at hhead
        cases hhead
      | some r =>
        obtain ⟨hr, rest, htext⟩ := allows_and_prefix_of_matchHead? hhead
        have hshort : rest.length < (c :: cs).length := by
          rw [← htext, List.length_append]
          exact Nat.lt_add_of_pos_left (Nat.succ_pos _)
        rw [← htext, scan_written_append hp hr]
        exact .hit hr (ih _ hshort rest rfl)

/-- A search finds what a scan finds, and nothing else. -/
theorem finds_iff (hp : p.IsAnchored) : p.Finds text rs ↔ p.scan text = rs := by
  constructor
  · intro h
    induction h with
    | nil => rfl
    | @skip c cs rs hnone hrest ih =>
      have hhead : p.matchHead? (c :: cs) = none :=
        Option.eq_none_iff_forall_ne_some.2 fun r hr =>
          have ⟨hallows, hprefix⟩ := allows_and_prefix_of_matchHead? hr
          hnone r hallows hprefix
      rw [scan, hhead, Option.toList_none, List.nil_append, ih]
    | hit hr hrest ih => rw [scan_written_append hp hr, ih]
  · rintro rfl
    exact finds_scan hp text

/-- Either pattern finds in the text of the parameters what it finds in their strings, keys
included, in the order in which they are written; and what a scan finds is what a search from the
left finds. -/
theorem scan_paramsText_eq (i : Instruction) :
    (dependency.scan i.paramsText =
      i.params.allTexts.flatMap fun text => dependency.scan text.toList) ∧
    (field.scan i.paramsText = i.params.allTexts.flatMap fun text => field.scan text.toList) ∧
    ∀ text rs, (dependency.Finds text rs ↔ dependency.scan text = rs) ∧
      (field.Finds text rs ↔ field.scan text = rs) :=
  ⟨scan_paramsText isPlain_dependency i, scan_paramsText isPlain_field i, fun _ _ =>
    ⟨finds_iff isAnchored_dependency, finds_iff isAnchored_field⟩⟩

end PlanReview.Reference.Pattern
