import PlanReview.Proofs.Plan.ReadBack
import PlanReview.Proofs.Review.ReadBack

/-!
# What is accepted

Whatever is read from a document has the properties that its parts are read with. `Checked.Holds`
says so of one reading, and goes through the ways in which readings are put together. The parameters
of a plan are read as they are, so a property that passes from a value to what is in it passes from
the document to them (`Plan.params_of_ofJson`) : a document in which no object repeats a key is only
read as a plan in whose parameters none does (`Plan.isPlain_of_ofJson`). A review is only read with
a score from zero to one (`Review.inUnit_of_ofJson`).
-/

namespace PlanReview

/-! ## Values without repeated keys -/

namespace Json

variable {j : Json}

/-- The items of an array without repeated keys repeat none. -/
theorem merged_of_mem {xs : List Json} (h : (arr xs).merged = arr xs) (hj : j ∈ xs) :
    j.merged = j := by
  have hitems : xs.map merged = xs := by
    rw [← mergedItems_eq]
    exact Json.arr.inj h
  exact List.map_inj_left.1 (hitems.trans (List.map_id xs).symm) j hj

/-- Nor do the values of the fields of an object. -/
theorem merged_of_lookup {fs : Fields} {key : String} (h : (obj fs).merged = obj fs)
    (hj : fs.lookup key = some j) : j.merged = j := by
  have hfields : distinct (mergedFields fs) = fs := Json.obj.inj h
  have hnodup : ((mergedFields fs).map Prod.fst).Nodup := by
    have hkeys : (mergedFields fs).map Prod.fst = fs.map Prod.fst := by
      rw [mergedFields_eq, List.map_map]
      rfl
    rw [hkeys, ← hfields]
    exact nodup_distinct _
  rw [distinct_of_nodup hnodup, mergedFields_eq] at hfields
  obtain ⟨before, after, rfl, -⟩ := List.lookup_eq_some_iff.1 hj
  have hfield := List.map_inj_left.1 (hfields.trans (List.map_id _).symm) (key, j) (by simp)
  exact (Prod.mk.inj hfield).2

/-- A property that an empty object has, and that passes from a value to what is in it. -/
structure IsHereditary (P : Json → Prop) : Prop where
  empty : P (obj [])
  item : ∀ {xs : List Json} {j : Json}, P (arr xs) → j ∈ xs → P j
  field : ∀ {fs : Fields} {key : String} {j : Json}, P (obj fs) → fs.lookup key = some j → P j

theorem isHereditary_merged : IsHereditary fun j => j.merged = j :=
  ⟨rfl, merged_of_mem, merged_of_lookup⟩

theorem isFinite_of_mem {xs : List Json} (h : (arr xs).isFinite = true) (hj : j ∈ xs) :
    j.isFinite = true := by
  have hitems : isFiniteItems xs = true := h
  clear h
  induction xs with
  | nil => cases hj
  | cons x xs ih =>
    rw [isFiniteItems, Bool.and_eq_true] at hitems
    rcases List.mem_cons.1 hj with rfl | hj
    · exact hitems.1
    · exact ih hj hitems.2

theorem isFinite_of_lookup {fs : Fields} {key : String} (h : (obj fs).isFinite = true)
    (hj : fs.lookup key = some j) : j.isFinite = true := by
  have hfields : isFiniteFields fs = true := h
  clear h
  induction fs with
  | nil => cases hj
  | cons f fs ih =>
    rw [isFiniteFields, Bool.and_eq_true] at hfields
    rw [List.lookup_cons] at hj
    split at hj
    · cases hj
      exact hfields.1
    · exact ih hj hfields.2

theorem isHereditary_isFinite : IsHereditary fun j => j.isFinite = true :=
  ⟨rfl, isFinite_of_mem, isFinite_of_lookup⟩

end Json

/-! ## Readings -/

namespace Schema

namespace Checked

variable {α β : Type} {P : β → Prop} {f : Checked (α → β)} {x : Checked α}

/-- Whatever value a reading has, it has the property. -/
def Holds (P : α → Prop) (x : Checked α) : Prop :=
  ∀ a, x = .ok a → P a

theorem holds_map {g : α → β} (h : ∀ a, P (g a)) : Holds P (g <$> x) := by
  intro b hb
  cases x with
  | bad e => cases hb
  | ok a =>
    cases hb
    exact h a

/-- If it holds with every argument of the property `Q`, it holds with one that was read so. -/
theorem Holds.seq_of {Q : α → Prop} (h : Holds (fun g => ∀ a, Q a → P (g a)) f) (hx : Holds Q x) :
    Holds P (f <*> x) := by
  intro b hb
  cases f with
  | bad e => cases x <;> cases hb
  | ok g =>
    cases x with
    | bad e => cases hb
    | ok a =>
      cases hb
      exact h g rfl a (hx a rfl)

theorem Holds.seq (h : Holds (fun g => ∀ a, P (g a)) f) : Holds P (f <*> x) :=
  Holds.seq_of (fun g hg a _ => h g hg a) fun _ _ => trivial

theorem Holds.under {Q : α → Prop} (h : Holds Q x) (key : Key) : Holds Q (x.under key) := by
  intro a ha
  cases x with
  | bad e => cases ha
  | ok a' =>
    cases ha
    exact h a rfl

/-- It holds of what is reported for the whole document. -/
theorem Holds.of_report {Q : α → Prop} {shape : String} {a : α} (h : Holds Q x)
    (hreport : x.report shape = .ok a) : Q a := by
  cases x with
  | bad e => cases hreport
  | ok a' =>
    cases hreport
    exact h a rfl

end Checked

open Checked

variable {α : Type} {P : α → Prop} {d : Decoder α} {fs : Json.Fields}

theorem holds_record {name : String} {read : Json.Fields → Checked α} {j : Json}
    (h : ∀ fs, j = .obj fs → Holds P (read fs)) : Holds P (record name read j) := by
  intro a ha
  cases j with
  | obj fs => exact h fs rfl a ha
  | _ => cases ha

theorem holds_optional {name : String} {a : α} (ha : P a)
    (h : ∀ j, fs.lookup name = some j → Holds P (d j)) : Holds P (Schema.optional fs name a d) := by
  unfold Schema.optional
  split
  · rename_i j hj
    exact (h j hj).under _
  · rintro _ ⟨⟩
    exact ha

theorem holds_list {j : Json} (h : ∀ xs, j = .arr xs → ∀ x ∈ xs, Holds P (d x)) :
    Holds (fun as => ∀ a ∈ as, P a) (list d j) := by
  have hitems {xs : List Json} (h : ∀ x ∈ xs, Holds P (d x)) (i : Nat) :
      Holds (fun as => ∀ a ∈ as, P a) (itemsFrom d i xs) := by
    induction xs generalizing i with
    | nil =>
      rintro _ ⟨⟩
      exact List.forall_mem_nil _
    | cons x xs ih =>
      obtain ⟨hx, hxs⟩ := List.forall_mem_cons.1 h
      have hcons : Holds (fun g : List α → List α => ∀ as, (∀ a ∈ as, P a) → ∀ a ∈ g as, P a)
          (Checked.map List.cons ((d x).under (.index i))) := by
        intro g hg as has
        cases hread : (d x).under (.index i) with
        | bad e =>
          rw [hread] at hg
          cases hg
        | ok a =>
          rw [hread] at hg
          cases hg
          exact List.forall_mem_cons.2 ⟨(hx.under _) a hread, has⟩
      exact hcons.seq_of (ih hxs (i + 1))
  intro as has
  cases j with
  | arr xs => exact hitems (h xs rfl) 0 as has
  | _ => cases has

theorem holds_nullable {j : Json} (h : Holds P (d j)) :
    Holds (fun o => ∀ a ∈ o, P a) (nullable d j) := by
  intro o ho
  by_cases hnull : j = .null
  · subst hnull
    cases ho
    exact nofun
  · rw [nullable_of_ne_null hnull] at ho
    cases hread : d j with
    | bad e =>
      rw [hread] at ho
      cases ho
    | ok a =>
      rw [hread] at ho
      cases ho
      rintro _ ⟨⟩
      exact h a hread

/-- A score that is read is one. -/
theorem holds_unitInterval (j : Json) : Holds Decimal.InUnit (unitInterval j) := by
  intro x hx
  unfold unitInterval at hx
  split at hx
  · cases hx
  · split at hx
    · cases hx
    · split at hx
      · cases hx
      · cases hx
        rename_i hle hnonneg
        exact ⟨by simpa using hnonneg, by simpa using hle⟩

end Schema

open Schema Checked

/-! ## Plans -/

section

variable {P : Json → Prop} (hP : Json.IsHereditary P)

include hP

theorem Instruction.holds_decode {j : Json} (hj : P j) :
    Holds (fun i : Instruction => P i.params) (Instruction.decode j) := by
  refine holds_record fun fs hfs => ?_
  subst hfs
  have hparams : Holds P (Schema.optional fs "params" (.obj []) Schema.any) := by
    refine holds_optional hP.empty fun j hlookup => ?_
    rintro _ ⟨⟩
    exact hP.field hj hlookup
  refine .seq (.seq (.seq (.seq_of ?_ hparams)))
  exact .seq (holds_map fun _ _ _ hparams _ _ _ => hparams)

/-- The parameters of a plan that is accepted have what passes on from its document. -/
theorem Plan.params_of_ofJson {now : String} {payload : Json} {p : Plan} (hpayload : P payload)
    (h : Plan.ofJson now payload = .ok p) : ∀ i ∈ p.steps, P i.params := by
  have hread : Holds (fun p : Plan => ∀ i ∈ p.steps, P i.params) (Plan.decode now payload) := by
    refine holds_record fun fs hfs => ?_
    subst hfs
    have hinstructions : Holds (fun o : Option (List Instruction) => ∀ is ∈ o, ∀ i ∈ is,
        P i.params) (Schema.optional fs "instructions" none
          (nullable (list Instruction.decode))) := by
      refine holds_optional (fun _ his => ?_) fun j hj =>
        holds_nullable (holds_list fun xs hxs x hx => ?_)
      · cases his
      subst hxs
      exact Instruction.holds_decode hP (hP.item (hP.field hpayload hj) hx)
    refine Holds.seq_of ?_ hinstructions
    iterate 13 refine Holds.seq ?_
    refine holds_map fun _ _ _ _ _ _ _ _ _ _ _ _ _ _ is his => ?_
    cases is with
    | none =>
      intro i hi
      cases hi
    | some is => exact his is rfl
  exact hread.of_report h

end

/-- A plan that is accepted repeats no key in its parameters, if its document repeats none. -/
theorem Plan.isPlain_of_ofJson {now : String} {payload : Json} {p : Plan}
    (hpayload : payload.merged = payload) (h : Plan.ofJson now payload = .ok p) : p.IsPlain :=
  Plan.params_of_ofJson Json.isHereditary_merged hpayload h

/-! ## Reviews -/

theorem Assessment.holds_decode (j : Json) :
    Holds (fun a : Assessment => Decimal.InUnit a.score) (Assessment.decode j) := by
  refine holds_record fun fs _ => ?_
  have hscore : Holds Decimal.InUnit (Schema.optional fs "score" 0.0 unitInterval) :=
    holds_optional Decimal.inUnit_zero fun j _ => holds_unitInterval j
  refine .seq (.seq (.seq_of ?_ hscore))
  exact .seq (.seq (.seq (holds_map fun _ _ _ _ _ hscore _ _ => hscore)))

/-- A review that is accepted has a score. -/
theorem Review.inUnit_of_ofJson {payload : Json} {r : Review} (h : Review.ofJson payload = .ok r) :
    Decimal.InUnit r.score := by
  have hread : Holds (fun r : Review => Decimal.InUnit r.score) (Review.decode payload) := by
    refine holds_record fun fs _ => ?_
    have hassessment : Holds (fun a : Assessment => Decimal.InUnit a.score)
        (Schema.optional fs "llm_review" {} Assessment.decode) :=
      holds_optional Decimal.inUnit_zero fun j _ => Assessment.holds_decode j
    refine .seq (.seq_of ?_ hassessment)
    exact .seq (holds_map fun _ _ _ hscore _ => hscore)
  unfold Review.ofJson at h
  split at h
  · cases hassessment : (Assessment.decode payload).report "LlmReview" with
    | error e =>
      rw [hassessment] at h
      cases h
    | ok a =>
      rw [hassessment] at h
      cases h
      exact (Assessment.holds_decode payload).of_report hassessment
  · exact hread.of_report h

end PlanReview
