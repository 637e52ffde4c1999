import Mathlib.Data.List.TakeWhile
import PlanReview.Proofs.Json.RoundTrip
import PlanReview.Proofs.Json.Scalar
import PlanReview.Proofs.Json.StringBody

/-!
# The grammar of JSON

The texts of values, of the items of an array and of the fields of an object, as inductive
predicates (`IsText`, `IsItems`, `IsFields`), each together with what the text stands for. The
reader accepts exactly the texts of the grammar, with blanks around them (`document_eq_ok_iff`), so
what holds of every text of the grammar holds of every text that can be read.

One step of the reader is inverted once for each of its three parts (`value_cases`, `items_cases`,
`fields_cases`).
-/

namespace PlanReview.Json

variable {s t u v w g cs rest : List Char} {j x : Json} {xs : List Json} {f : String × Json}
  {fs : List (String × Json)}

/-! ## The grammar -/

/-- A run of the characters that JSON allows between tokens. -/
def AllGaps (g : List Char) : Prop :=
  ∀ c ∈ g, isGap c = true

instance (g : List Char) : Decidable (AllGaps g) :=
  decidable_of_iff (g.all isGap = true) List.all_eq_true

mutual
/-- The text of a value. -/
inductive IsText : List Char → Json → Prop
  | scalar {w : List Char} {j : Json} : IsScalar w j → IsText w j
  | string {w cs : List Char} : IsBody w cs →
      IsText ('"' :: (w ++ ['"'])) (.str (String.ofList cs))
  | emptyArray {g : List Char} : AllGaps g → IsText ('[' :: (g ++ [']'])) (.arr [])
  | array {g w : List Char} {xs : List Json} : AllGaps g → IsItems w xs →
      IsText ('[' :: (g ++ (w ++ [']']))) (.arr xs)
  | emptyObject {g : List Char} : AllGaps g → IsText ('{' :: (g ++ ['}'])) (.obj [])
  | object {g w : List Char} {fs : List (String × Json)} : AllGaps g → IsFields w fs →
      IsText ('{' :: (g ++ (w ++ ['}']))) (.ofFields fs)

/-- The text of the items of an array, with the blanks after the last one. -/
inductive IsItems : List Char → List Json → Prop
  | last {w g : List Char} {x : Json} : IsText w x → AllGaps g → IsItems (w ++ g) [x]
  | more {w g g' v : List Char} {x : Json} {xs : List Json} : IsText w x → AllGaps g →
      AllGaps g' → IsItems v xs → IsItems (w ++ (g ++ ',' :: (g' ++ v))) (x :: xs)

/-- The text of a field. -/
inductive IsField : List Char → String × Json → Prop
  | mk {k cs g g' w : List Char} {x : Json} : IsBody k cs → AllGaps g → AllGaps g' →
      IsText w x → IsField ('"' :: (k ++ '"' :: (g ++ ':' :: (g' ++ w)))) (String.ofList cs, x)

/-- The text of the fields of an object, with the blanks after the last one. -/
inductive IsFields : List Char → List (String × Json) → Prop
  | last {w g : List Char} {f : String × Json} : IsField w f → AllGaps g → IsFields (w ++ g) [f]
  | more {w g g' v : List Char} {f : String × Json} {fs : List (String × Json)} : IsField w f →
      AllGaps g → AllGaps g' → IsFields v fs →
      IsFields (w ++ (g ++ ',' :: (g' ++ v))) (f :: fs)
end

/-! ## Blanks -/

theorem exists_gaps (s : List Char) : ∃ g, AllGaps g ∧ s = g ++ skipGaps s :=
  ⟨s.takeWhile isGap, List.all_eq_true.1 List.all_takeWhile,
    List.takeWhile_append_dropWhile.symm⟩

theorem eq_of_isGap {c : Char} (h : isGap c = true) :
    c = ' ' ∨ c = '\t' ∨ c = '\n' ∨ c = '\r' := by
  simpa only [isGap, Bool.or_eq_true, decide_eq_true_eq, or_assoc] using h

theorem AllGaps.stops (hg : AllGaps g) (hrest : Stops rest) : Stops (g ++ rest) := by
  cases g with
  | nil => exact hrest
  | cons c cs =>
    rcases eq_of_isGap (hg c List.mem_cons_self) with rfl | rfl | rfl | rfl <;>
      exact stops_cons rfl (by decide) _

/-! ## The first character of a value -/

/-- A character that a value can begin with. -/
def isOpening (c : Char) : Bool :=
  isScalarChar c || c == '"' || c == '[' || c == '{'

theorem isGap_of_isOpening {c : Char} (h : isOpening c = true) : isGap c = false := by
  refine Bool.eq_false_iff.2 fun hgap => ?_
  rcases eq_of_isGap hgap with rfl | rfl | rfl | rfl <;> cases h

theorem IsText.head (h : IsText w j) : ∃ c cs, w = c :: cs ∧ isOpening c = true := by
  cases h with
  | scalar hscalar =>
    obtain ⟨c, cs, rfl⟩ := List.exists_cons_of_ne_nil hscalar.ne_nil
    exact ⟨c, cs, rfl, by simp [isOpening, hscalar.isScalarChar c List.mem_cons_self]⟩
  | string | emptyArray | array | emptyObject | object => exact ⟨_, _, rfl, rfl⟩

theorem IsItems.head (h : IsItems w xs) : ∃ c cs, w = c :: cs ∧ isOpening c = true := by
  cases h with
  | last hx | more hx =>
    obtain ⟨c, cs, rfl, hc⟩ := hx.head
    exact ⟨c, _, rfl, hc⟩

theorem IsField.head (h : IsField w f) : ∃ cs, w = '"' :: cs := by
  obtain ⟨-, -, -, -⟩ := h
  exact ⟨_, rfl⟩

theorem IsFields.head (h : IsFields w fs) : ∃ cs, w = '"' :: cs := by
  cases h with
  | last hf | more hf =>
    obtain ⟨cs, rfl⟩ := hf.head
    exact ⟨_, rfl⟩

/-- Blanks before what a value can begin with are passed over. -/
theorem skipGaps_of_head (hg : AllGaps g) (hw : ∃ c cs, w = c :: cs ∧ isOpening c = true)
    (rest : List Char) : skipGaps (g ++ (w ++ rest)) = w ++ rest := by
  obtain ⟨c, cs, rfl, hc⟩ := hw
  rw [skipGaps_append hg, List.cons_append, skipGaps_cons (isGap_of_isOpening hc)]

theorem skipGaps_of_quote (hg : AllGaps g) (hw : ∃ cs, w = '"' :: cs) (rest : List Char) :
    skipGaps (g ++ (w ++ rest)) = w ++ rest := by
  obtain ⟨cs, rfl⟩ := hw
  exact skipGaps_of_head hg ⟨_, _, rfl, rfl⟩ rest

/-! ## Properties of texts -/

/-- A property of texts that passes from the parts of the body of a string to the whole; of an
escape it asks only for the backslash and the next character together. -/
structure CompositionalInside (Q : List Char → Prop) : Prop where
  nil : Q []
  append {w v : List Char} : Q w → Q v → Q (w ++ v)
  plain {c : Char} : c ≠ '"' → c ≠ '\\' → Q [c]
  escaped (c : Char) : Q ['\\', c]

section Inside

variable {Q : List Char → Prop} (hQ : CompositionalInside Q)

include hQ

theorem CompositionalInside.unit {a b c d : Char} {n : Nat} (h : unitOf? a b c d = some n) :
    Q ['\\', 'u', a, b, c, d] := by
  have hdigit : ∀ x ∈ [a, b, c, d], Q [x] := by
    intro x hx
    have hscalar := isScalarChar_of_unitOf? h x hx
    refine hQ.plain ?_ ?_ <;>
      · rintro rfl
        cases hscalar
  simp only [List.forall_mem_cons] at hdigit
  obtain ⟨ha, hb, hc, hd, -⟩ := hdigit
  exact hQ.append (hQ.escaped 'u') (hQ.append ha (hQ.append hb (hQ.append hc hd)))

theorem CompositionalInside.isEscape {e : List Char} {c : Char} (h : IsEscape e c v) :
    Q ('\\' :: e) := by
  cases h with
  | letter _ => exact hQ.escaped _
  | unit hunit _ => exact hQ.unit hunit
  | pair hunit _ hunit' _ => exact hQ.append (hQ.unit hunit) (hQ.unit hunit')

/-- A property that passes from the parts to the whole holds of every body. -/
theorem CompositionalInside.isBody (h : IsBody w cs) : Q w := by
  induction h with
  | nil => exact hQ.nil
  | plain _ hquote hback _ ih => exact hQ.append (hQ.plain hquote hback) ih
  | escape he _ ih => exact hQ.append (hQ.isEscape he) ih

end Inside

/-- A blank or a character of a scalar : it neither brackets nor separates nor quotes. -/
def isBare (c : Char) : Bool :=
  isGap c || isScalarChar c

theorem ne_of_isBare {c d : Char} (hc : isBare c = true) (hd : isBare d = false) : c ≠ d :=
  fun h => Bool.false_ne_true (hd.symm.trans (h ▸ hc))

/-- A property of texts that passes from the parts of a text of the grammar to the whole. -/
structure Compositional (P : List Char → Prop) : Prop where
  nil : P []
  append {w v : List Char} : P w → P v → P (w ++ v)
  bare {c : Char} : isBare c = true → P [c]
  string {w cs : List Char} : IsBody w cs → P ('"' :: (w ++ ['"']))
  brackets {w : List Char} : P w → P ('[' :: (w ++ [']']))
  braces {w : List Char} : P w → P ('{' :: (w ++ ['}']))
  colon : P [':']
  comma {g v : List Char} : AllGaps g → (∃ c cs, v = c :: cs ∧ isOpening c = true) →
    P (g ++ v) → P (',' :: (g ++ v))

section Compositional

variable {P : List Char → Prop}

theorem Compositional.of_isBare (hP : Compositional P) (hw : ∀ c ∈ w, isBare c = true) : P w := by
  induction w with
  | nil => exact hP.nil
  | cons c cs ih =>
    obtain ⟨hc, hcs⟩ := List.forall_mem_cons.1 hw
    exact hP.append (hP.bare hc) (ih hcs)

theorem Compositional.gaps (hP : Compositional P) (hg : AllGaps g) : P g :=
  hP.of_isBare fun c hc => by simp [isBare, hg c hc]

theorem Compositional.scalar (hP : Compositional P) (h : IsScalar w j) : P w :=
  hP.of_isBare fun c hc => by simp [isBare, h.isScalarChar c hc]

mutual
/-- A property that passes from the parts to the whole holds of every text of a value. -/
theorem Compositional.isText (hP : Compositional P) :
    ∀ {w : List Char} {j : Json}, IsText w j → P w
  | _, _, .scalar h => hP.scalar h
  | _, _, .string h => hP.string h
  | _, _, .emptyArray hg => hP.brackets (hP.gaps hg)
  | _, _, .array hg h => by
    rw [← List.append_assoc]
    exact hP.brackets (hP.append (hP.gaps hg) (hP.isItems h))
  | _, _, .emptyObject hg => hP.braces (hP.gaps hg)
  | _, _, .object hg h => by
    rw [← List.append_assoc]
    exact hP.braces (hP.append (hP.gaps hg) (hP.isFields h))

theorem Compositional.isItems (hP : Compositional P) :
    ∀ {w : List Char} {xs : List Json}, IsItems w xs → P w
  | _, _, .last hx hg => hP.append (hP.isText hx) (hP.gaps hg)
  | _, _, .more hx hg hg' h =>
    hP.append (hP.isText hx) (hP.append (hP.gaps hg)
      (hP.comma hg' h.head (hP.append (hP.gaps hg') (hP.isItems h))))

theorem Compositional.isField (hP : Compositional P) :
    ∀ {w : List Char} {f : String × Json}, IsField w f → P w
  | _, _, .mk hk hg hg' hx => by
    have hvalue := hP.append hP.colon (hP.append (hP.gaps hg') (hP.isText hx))
    simpa using hP.append (hP.string hk) (hP.append (hP.gaps hg) hvalue)

theorem Compositional.isFields (hP : Compositional P) :
    ∀ {w : List Char} {fs : List (String × Json)}, IsFields w fs → P w
  | _, _, .last hf hg => hP.append (hP.isField hf) (hP.gaps hg)
  | _, _, .more hf hg hg' h => by
    have hhead : ∃ c cs, _ = c :: cs ∧ isOpening c = true :=
      h.head.elim fun cs hcs => ⟨'"', cs, hcs, rfl⟩
    exact hP.append (hP.isField hf) (hP.append (hP.gaps hg)
      (hP.comma hg' hhead (hP.append (hP.gaps hg') (hP.isFields h))))
end

end Compositional

/-! ## One step of the reader, inverted -/

theorem value_cases (h : Leaves (value s) j u) :
    (∃ r cs, s = '"' :: r ∧ stringBody ('"' :: r) r = .ok (cs, u) ∧ j = .str (String.ofList cs)) ∨
    (∃ r, s = '[' :: r ∧ ((skipGaps r = ']' :: u ∧ j = .arr []) ∨
      ∃ xs, Leaves (items (skipGaps r)) xs u ∧ j = .arr xs)) ∨
    (∃ r, s = '{' :: r ∧ ((skipGaps r = '}' :: u ∧ j = .obj []) ∨
      ∃ fs, Leaves (Json.fields (skipGaps r)) fs u ∧ j = .ofFields fs)) ∨
    scalar? s = some (j, u) := by
  obtain ⟨hu, h⟩ := h
  rw [value.eq_def] at h
  split at h
  · rename_i r
    split at h
    · cases h
    · rename_i hbody
      cases h
      exact .inl ⟨r, _, rfl, hbody, rfl⟩
  · rename_i r
    refine .inr (.inl ⟨r, rfl, ?_⟩)
    dsimp only at h
    split at h
    · rename_i hend
      cases h
      exact .inl ⟨hend, rfl⟩
    · split at h
      · cases h
      · rename_i hitems
        cases h
        exact .inr ⟨_, ⟨_, hitems⟩, rfl⟩
  · rename_i r
    refine .inr (.inr (.inl ⟨r, rfl, ?_⟩))
    dsimp only at h
    split at h
    · rename_i hend
      cases h
      exact .inl ⟨hend, rfl⟩
    · split at h
      · cases h
      · rename_i hfields
        cases h
        exact .inr ⟨_, ⟨_, hfields⟩, rfl⟩
  · split at h
    · rename_i hscalar
      cases h
      exact .inr (.inr (.inr hscalar))
    · cases h

theorem items_cases (h : Leaves (items s) xs u) :
    ∃ x r, Leaves (value s) x r ∧ ((skipGaps r = ']' :: u ∧ xs = [x]) ∨
      ∃ t ys, skipGaps r = ',' :: t ∧ Leaves (items (skipGaps t)) ys u ∧ xs = x :: ys) := by
  obtain ⟨hu, h⟩ := h
  rw [items.eq_def] at h
  split at h
  · cases h
  · rename_i x r hr hx
    refine ⟨x, r, ⟨hr, hx⟩, ?_⟩
    dsimp only at h
    split at h
    · rename_i hend
      cases h
      exact .inl ⟨hend, rfl⟩
    · rename_i hcomma
      split at h
      · cases h
      · rename_i hitems
        cases h
        exact .inr ⟨_, _, hcomma, ⟨_, hitems⟩, rfl⟩
    · cases h

theorem fields_cases (h : Leaves (Json.fields s) fs u) :
    ∃ r k r₁ r₂ x r₃, s = '"' :: r ∧ stringBody ('"' :: r) r = .ok (k, r₁) ∧
      skipGaps r₁ = ':' :: r₂ ∧ Leaves (value (skipGaps r₂)) x r₃ ∧
      ((skipGaps r₃ = '}' :: u ∧ fs = [(String.ofList k, x)]) ∨
        ∃ t gs, skipGaps r₃ = ',' :: t ∧ Leaves (Json.fields (skipGaps t)) gs u ∧
          fs = (String.ofList k, x) :: gs) := by
  obtain ⟨hu, h⟩ := h
  rw [Json.fields.eq_def] at h
  split at h
  · rename_i r
    split at h
    · cases h
    · rename_i k r₁ hk
      split at h
      · rename_i r₂ hcolon
        split at h
        · cases h
        · rename_i x r₃ hr₃ hx
          refine ⟨r, k, r₁, r₂, x, r₃, rfl, hk, hcolon, ⟨hr₃, hx⟩, ?_⟩
          dsimp only at h
          split at h
          · rename_i hend
            cases h
            exact .inl ⟨hend, rfl⟩
          · rename_i hcomma
            split at h
            · cases h
            · rename_i hfields
              cases h
              exact .inr ⟨_, _, hcomma, ⟨_, hfields⟩, rfl⟩
          · cases h
      · cases h
  · cases h

/-! ## What the reader takes off -/

mutual
/-- What is read as a value is the text of one. -/
theorem isText_of_value (s : List Char) {j : Json} {u : List Char} (h : Leaves (value s) j u) :
    ∃ w, s = w ++ u ∧ IsText w j := by
  obtain ⟨r, cs, rfl, hbody, rfl⟩ | ⟨r, rfl, hr⟩ | ⟨r, rfl, hr⟩ | hscalar := value_cases h
  · obtain ⟨w, rfl, hw⟩ := stringBody_eq_ok_iff.1 hbody
    exact ⟨'"' :: (w ++ ['"']), by simp, .string hw⟩
  · obtain ⟨g, hg, hgr⟩ := exists_gaps r
    rcases hr with ⟨hend, rfl⟩ | ⟨xs, hxs, rfl⟩
    · refine ⟨'[' :: (g ++ [']']), ?_, .emptyArray hg⟩
      rw [hend] at hgr
      simp [hgr]
    · have := length_skipGaps_le r
      obtain ⟨w, hw, hitems⟩ := isItems_of_items (skipGaps r) hxs
      refine ⟨'[' :: (g ++ (w ++ [']'])), ?_, .array hg hitems⟩
      rw [hw] at hgr
      simp [hgr]
  · obtain ⟨g, hg, hgr⟩ := exists_gaps r
    rcases hr with ⟨hend, rfl⟩ | ⟨fs, hfs, rfl⟩
    · refine ⟨'{' :: (g ++ ['}']), ?_, .emptyObject hg⟩
      rw [hend] at hgr
      simp [hgr]
    · have := length_skipGaps_le r
      obtain ⟨w, hw, hfields⟩ := isFields_of_fields (skipGaps r) hfs
      refine ⟨'{' :: (g ++ (w ++ ['}'])), ?_, .object hg hfields⟩
      rw [hw] at hgr
      simp [hgr]
  · obtain ⟨w, rfl, hw⟩ := isScalar_of_scalar? hscalar
    exact ⟨w, rfl, .scalar hw⟩
termination_by (s.length, 0)
decreasing_by
  all_goals
    subst_vars
    simp only [List.length_cons]
    exact Prod.Lex.left _ _ (by omega)

/-- What is read as the items of an array, up to the closing bracket. -/
theorem isItems_of_items (s : List Char) {xs : List Json} {u : List Char}
    (h : Leaves (items s) xs u) : ∃ w, s = w ++ ']' :: u ∧ IsItems w xs := by
  obtain ⟨x, r, hx, hr⟩ := items_cases h
  obtain ⟨w, rfl, hw⟩ := isText_of_value s hx
  obtain ⟨g, hg, hgr⟩ := exists_gaps r
  rcases hr with ⟨hend, rfl⟩ | ⟨t, ys, hcomma, hys, rfl⟩
  · rw [hend] at hgr
    exact ⟨w ++ g, by simp [hgr], .last hw hg⟩
  · have := hx.choose
    have := length_skipGaps_le r
    have := length_skipGaps_le t
    have := congrArg List.length hcomma
    obtain ⟨g', hg', hgt⟩ := exists_gaps t
    obtain ⟨v, hv, hitems⟩ := isItems_of_items (skipGaps t) hys
    refine ⟨w ++ (g ++ ',' :: (g' ++ v)), ?_, .more hw hg hg' hitems⟩
    rw [hcomma, hgt, hv] at hgr
    simp [hgr]
termination_by (s.length, 1)
decreasing_by
  -- the first item begins where the items begin
  · exact Prod.Lex.right _ (by decide)
  · subst_vars
    simp only [List.length_append, List.length_cons] at *
    exact Prod.Lex.left _ _ (by omega)

/-- What is read as the fields of an object, up to the closing brace. -/
theorem isFields_of_fields (s : List Char) {fs : List (String × Json)} {u : List Char}
    (h : Leaves (Json.fields s) fs u) : ∃ w, s = w ++ '}' :: u ∧ IsFields w fs := by
  obtain ⟨r, k, r₁, r₂, x, r₃, rfl, hk, hcolon, hx, hr⟩ := fields_cases h
  obtain ⟨b, rfl, hb⟩ := stringBody_eq_ok_iff.1 hk
  obtain ⟨g, hg, hgr⟩ := exists_gaps r₁
  obtain ⟨g', hg', hgr'⟩ := exists_gaps r₂
  have := length_skipGaps_le r₁
  have := length_skipGaps_le r₂
  have := congrArg List.length hcolon
  obtain ⟨w, hw, htext⟩ := isText_of_value (skipGaps r₂) hx
  obtain ⟨g₃, hg₃, hgr₃⟩ := exists_gaps r₃
  have hfield : IsField _ (String.ofList k, x) := .mk hb hg hg' htext
  rw [hcolon, hgr', hw] at hgr
  rcases hr with ⟨hend, rfl⟩ | ⟨t, gs, hcomma, hgs, rfl⟩
  · rw [hend] at hgr₃
    exact ⟨_, by simp [hgr, hgr₃], .last hfield hg₃⟩
  · have := hx.choose
    have := length_skipGaps_le r₃
    have := length_skipGaps_le t
    have := congrArg List.length hcomma
    obtain ⟨g₄, hg₄, hgt⟩ := exists_gaps t
    obtain ⟨v, hv, hfields⟩ := isFields_of_fields (skipGaps t) hgs
    rw [hcomma, hgt, hv] at hgr₃
    exact ⟨_, by simp [hgr, hgr₃], .more hfield hg₃ hg₄ hfields⟩
termination_by (s.length, 1)
decreasing_by
  all_goals
    subst_vars
    simp only [List.length_append, List.length_cons] at *
    exact Prod.Lex.left _ _ (by omega)
end

/-! ## What the grammar has is taken off -/

mutual
/-- The text of a value is taken off, unless it is a number that goes on. -/
theorem leaves_of_isText : ∀ {w : List Char} {j : Json}, IsText w j → ∀ {rest : List Char},
    Stops rest → Leaves (value (w ++ rest)) j rest
  | _, _, .scalar hscalar, _, hrest => value_scalar (scalar?_append hscalar hrest)
  | _, _, .string hbody, rest, _ => by
    rw [List.cons_append, List.append_assoc]
    exact value_string (stringBody_append hbody _ rest)
  | _, _, .emptyArray hg, rest, _ => by
    rw [List.cons_append, List.append_assoc]
    refine value_emptyArray ?_
    rw [skipGaps_append hg]
    rfl
  | _, _, .array hg hitems, rest, _ => by
    rw [List.cons_append, List.append_assoc, List.append_assoc]
    have hskip := skipGaps_of_head hg hitems.head ([']'] ++ rest)
    refine value_array (fun v hv => ?_) ?_
    · obtain ⟨c, cs, rfl, hc⟩ := hitems.head
      rw [hskip] at hv
      rw [List.head_eq_of_cons_eq hv] at hc
      cases hc
    · rw [hskip]
      exact leaves_of_isItems hitems
  | _, _, .emptyObject hg, rest, _ => by
    rw [List.cons_append, List.append_assoc]
    refine value_emptyObject ?_
    rw [skipGaps_append hg]
    rfl
  | _, _, .object hg hfields, rest, _ => by
    rw [List.cons_append, List.append_assoc, List.append_assoc]
    have hskip := skipGaps_of_quote hg hfields.head (['}'] ++ rest)
    refine value_object (fun v hv => ?_) ?_
    · obtain ⟨cs, rfl⟩ := hfields.head
      rw [hskip] at hv
      cases hv
    · rw [hskip]
      exact leaves_of_isFields hfields

/-- The text of the items of an array is taken off with the closing bracket. -/
theorem leaves_of_isItems : ∀ {w : List Char} {xs : List Json}, IsItems w xs →
    ∀ {rest : List Char}, Leaves (items (w ++ ']' :: rest)) xs rest
  | _, _, .last hx hg, rest => by
    rw [List.append_assoc]
    refine items_last (leaves_of_isText hx (hg.stops (stops_cons rfl (by decide) rest))) ?_
    rw [skipGaps_append hg]
    rfl
  | _, _, .more hx hg hg' hitems, rest => by
    rw [List.append_assoc, List.append_assoc, List.cons_append, List.append_assoc]
    refine items_more (leaves_of_isText hx (hg.stops (stops_cons rfl (by decide) _)))
      (skipGaps_append hg _) ?_
    rw [skipGaps_of_head hg' hitems.head]
    exact leaves_of_isItems hitems

/-- The key of a field is taken off, and after the colon its value. -/
theorem leaves_of_isField : ∀ {w : List Char} {f : String × Json}, IsField w f →
    ∀ {rest : List Char}, Stops rest → ∃ r k r₁ r₂, w ++ rest = '"' :: r ∧
      stringBody ('"' :: r) r = .ok (k, r₁) ∧ skipGaps r₁ = ':' :: r₂ ∧ f.1 = String.ofList k ∧
      Leaves (value (skipGaps r₂)) f.2 rest
  | _, _, @IsField.mk k _ g g' w _ hk hg hg' hx, rest, hrest => by
    refine ⟨k ++ '"' :: (g ++ ':' :: (g' ++ (w ++ rest))), _, g ++ ':' :: (g' ++ (w ++ rest)),
      g' ++ (w ++ rest), by simp, stringBody_append hk _ _, skipGaps_append hg _, rfl, ?_⟩
    rw [skipGaps_of_head hg' hx.head]
    exact leaves_of_isText hx hrest

/-- The text of the fields of an object is taken off with the closing brace. -/
theorem leaves_of_isFields : ∀ {w : List Char} {fs : List (String × Json)}, IsFields w fs →
    ∀ {rest : List Char}, Leaves (Json.fields (w ++ '}' :: rest)) fs rest
  | _, _, .last hf hg, rest => by
    obtain ⟨r, k, r₁, r₂, htext, hk, hcolon, hkey, hx⟩ :=
      leaves_of_isField hf (hg.stops (stops_cons (c := '}') rfl (by decide) rest))
    rw [List.append_assoc, htext]
    have h := leaves_field hk hcolon hx (.inl ⟨skipGaps_append hg ('}' :: rest), rfl⟩)
    rwa [← hkey] at h
  | _, _, @IsFields.more _ _ g' v _ fs hf hg hg' hfields, rest => by
    obtain ⟨r, k, r₁, r₂, htext, hk, hcolon, hkey, hx⟩ := leaves_of_isField hf
      (hg.stops (stops_cons (c := ',') rfl (by decide) (g' ++ (v ++ '}' :: rest))))
    rw [List.append_assoc, List.append_assoc, List.cons_append, List.append_assoc, htext]
    have hmore : Leaves (Json.fields (v ++ '}' :: rest)) fs rest := leaves_of_isFields hfields
    rw [← skipGaps_of_quote hg' hfields.head] at hmore
    have h := leaves_field hk hcolon hx (.inr ⟨_, skipGaps_append hg _, hmore⟩)
    rwa [← hkey] at h
end

/-! ## Whole texts -/

/-- Neither a blank nor the first character of a value is the mark of an encoding. -/
theorem ne_mark (hg : AllGaps g) (hw : ∃ c cs, w = c :: cs ∧ isOpening c = true) :
    g ++ (w ++ rest) ≠ '\uFEFF' :: t := by
  obtain ⟨c, cs, rfl, hc⟩ := hw
  intro h
  cases g with
  | nil =>
    rw [List.nil_append, List.cons_append] at h
    rw [List.head_eq_of_cons_eq h] at hc
    cases hc
  | cons d ds =>
    have hd := hg d List.mem_cons_self
    rw [List.cons_append] at h
    rw [List.head_eq_of_cons_eq h] at hd
    cases hd

/-- The reader accepts exactly the texts of values with blanks around them. -/
theorem document_eq_ok_iff : document s = .ok j ↔
    ∃ g w g', s = g ++ (w ++ g') ∧ AllGaps g ∧ AllGaps g' ∧ IsText w j := by
  constructor
  · intro h
    unfold document at h
    split at h
    · cases h
    · split at h
      · cases h
      · rename_i r hr hvalue
        split at h
        · rename_i hend
          cases h
          obtain ⟨g, hg, hgs⟩ := exists_gaps s
          obtain ⟨g', hg', hgr⟩ := exists_gaps r
          obtain ⟨w, hw, htext⟩ := isText_of_value _ ⟨_, hvalue⟩
          rw [hend, List.append_nil] at hgr
          rw [hw, hgr] at hgs
          exact ⟨g, w, g', hgs, hg, hg', htext⟩
        · cases h
  · rintro ⟨g, w, g', rfl, hg, hg', htext⟩
    have hstops : Stops g' := by simpa using hg'.stops stops_nil
    have hend : skipGaps g' = [] := List.dropWhile_eq_nil_iff.2 hg'
    have hleaves := leaves_of_isText htext hstops
    rw [← skipGaps_of_head hg htext.head] at hleaves
    obtain ⟨hlt, hvalue⟩ := hleaves
    unfold document
    split
    · rename_i heq
      exact absurd heq (ne_mark hg htext.head)
    · rw [hvalue]
      simp only [hend]

theorem parse_eq_ok_iff {text : String} :
    parse text = .ok j ↔ document text.toList = .ok j := by
  unfold parse
  cases document text.toList with
  | error f => simp [Except.mapError]
  | ok j => simp [Except.mapError]

/-- An escape by number for half a pair, on its own, is read as the replacement character. -/
theorem parse_half {a b c d : Char} {n : Nat} (hunit : unitOf? a b c d = some n)
    (hhalf : isHighUnit n = true ∨ isLowUnit n = true) :
    parse (String.ofList ['"', '\\', 'u', a, b, c, d, '"']) = .ok (.str "\uFFFD") := by
  have hbody : IsBody ['\\', 'u', a, b, c, d] [unitChar n] :=
    .escape (.unit hunit fun _ ⟨_, _, _, _, _, _, h, _⟩ => nomatch h) .nil
  have hchar : unitChar n = '\uFFFD' := by
    unfold unitChar
    rw [if_pos (by simpa using hhalf)]
  rw [hchar] at hbody
  rw [parse_eq_ok_iff, String.toList_ofList]
  exact document_eq_ok_iff.2 ⟨[], _, [], rfl, nofun, nofun, .string hbody⟩

end PlanReview.Json
