import PlanReview.Proofs.Json.Grammar
import PlanReview.Reply.Repair

/-!
# Commas before closing brackets

Dropping the commas before closing brackets goes by the characters alone. In a text of the grammar
of JSON no comma stands before a closing bracket, except inside a string; so the text is left as it
is exactly if no string of it holds such a comma (`dropCommas_eq_self_iff`).
-/

namespace PlanReview.Reply

open Json

variable {w v g cs rest : List Char} {c : Char} {inString : Bool}

/-- Whether inside some string of the text a comma is followed by a closing bracket or brace,
blanks aside. -/
def commaInString (inString escaped : Bool) : List Char → Bool
  | [] => false
  | c :: cs =>
    if inString then
      (c = ',' && closesNext cs) ||
        (if escaped then commaInString true false cs
         else if c = '\\' then commaInString true true cs
         else commaInString (c != '"') false cs)
    else commaInString (c == '"') false cs

/-! ## What follows a comma -/

theorem closesNext_iff : closesNext w = true ↔
    ∃ g d r, w = g ++ d :: r ∧ (∀ c ∈ g, Text.isBlank c = true) ∧ (d = ']' ∨ d = '}') := by
  constructor
  · intro h
    unfold closesNext at h
    have hw := List.takeWhile_append_dropWhile (p := Text.isBlank) (l := w)
    have hall := List.all_eq_true.1 (List.all_takeWhile (p := Text.isBlank) (l := w))
    split at h
    · rename_i r heq
      exact ⟨_, ']', r, by rw [← heq, hw], hall, .inl rfl⟩
    · rename_i r heq
      exact ⟨_, '}', r, by rw [← heq, hw], hall, .inr rfl⟩
    · cases h
  · rintro ⟨g, d, r, rfl, hg, hd⟩
    unfold closesNext
    rw [List.dropWhile_append_of_pos hg]
    rcases hd with rfl | rfl <;> rfl

theorem closesNext_append (h : closesNext w = true) (v : List Char) :
    closesNext (w ++ v) = true := by
  obtain ⟨g, d, r, rfl, hg, hd⟩ := closesNext_iff.1 h
  exact closesNext_iff.2 ⟨g, d, r ++ v, by simp, hg, hd⟩

theorem isBlank_of_isOpening (h : isOpening c = true) : Text.isBlank c = false := by
  have hrange : 0x21 ≤ c.toNat ∧ c.toNat ≤ 0x7E := by
    simp only [isOpening, isScalarChar, Bool.or_eq_true, beq_iff_eq] at h
    rcases h with (((((h | rfl) | rfl) | rfl) | rfl) | rfl) | rfl
    · have := Text.toNat_of_isAlphanum h
      omega
    all_goals decide
  simp only [Text.isBlank, Text.inRanges, Text.blankRanges, List.any_cons, List.any_nil]
  grind

theorem closesNext_of_head (hg : AllGaps g) (hv : ∃ c cs, v = c :: cs ∧ isOpening c = true)
    (rest : List Char) : closesNext (g ++ (v ++ rest)) = false := by
  obtain ⟨c, cs, rfl, hc⟩ := hv
  have hblank : ∀ d ∈ g, Text.isBlank d = true := by
    intro d hd
    rcases eq_of_isGap (hg d hd) with rfl | rfl | rfl | rfl <;> decide
  have hstop : (c :: cs ++ rest).dropWhile Text.isBlank = c :: (cs ++ rest) := by
    rw [List.cons_append, List.dropWhile_cons_of_neg (by simp [isBlank_of_isOpening hc])]
  unfold closesNext
  rw [List.dropWhile_append_of_pos hblank, hstop]
  split
  · rename_i heq
    rw [List.head_eq_of_cons_eq heq] at hc
    cases hc
  · rename_i heq
    rw [List.head_eq_of_cons_eq heq] at hc
    cases hc
  · rfl

/-- Cutting a text short brings no such comma into its strings. -/
theorem commaInString_append_left {escaped : Bool}
    (h : commaInString inString escaped (w ++ v) = false) :
    commaInString inString escaped w = false := by
  induction w generalizing inString escaped with
  | nil => rfl
  | cons c cs ih =>
    have hcloses : closesNext (cs ++ v) = false → closesNext cs = false := fun hcv =>
      Bool.eq_false_iff.2 fun hcs => Bool.eq_false_iff.1 hcv (closesNext_append hcs v)
    rw [List.cons_append, commaInString] at h
    rw [commaInString]
    split_ifs at h ⊢
    case pos | pos | neg =>
      simp only [Bool.or_eq_false_iff, Bool.and_eq_false_imp] at h ⊢
      exact ⟨fun hc => hcloses (h.1 hc), ih h.2⟩
    case neg => exact ih h

/-! ## One step -/

theorem dropCommas_cons (h : ¬(c = ',' ∧ closesNext rest = true)) :
    dropCommas false (c :: rest) = c :: dropCommas false rest := by
  rw [dropCommas, if_neg (by simp), if_neg (by simpa using h)]

theorem length_dropCommas_le (dropping : Bool) (w : List Char) :
    (dropCommas dropping w).length ≤ w.length := by
  induction w generalizing dropping with
  | nil => simp [dropCommas]
  | cons c cs ih =>
    have hdrop := ih true
    have hkeep := ih false
    rw [dropCommas]
    split_ifs <;> simp only [List.length_cons] <;> omega

/-! ## Keeping a text -/

/-- A text, outside of a string or inside, is kept where no string holds a comma before a closing
bracket. -/
def IsKept (inString : Bool) (w : List Char) : Prop :=
  ∀ rest, commaInString inString false (w ++ rest) = false →
    dropCommas false (w ++ rest) = w ++ dropCommas false rest ∧
      commaInString inString false rest = false

theorem isKept_nil (inString : Bool) : IsKept inString [] :=
  fun _ h => ⟨rfl, h⟩

theorem IsKept.append (hw : IsKept inString w) (hv : IsKept inString v) :
    IsKept inString (w ++ v) := by
  intro rest h
  rw [List.append_assoc] at h ⊢
  obtain ⟨hdrop, h⟩ := hw _ h
  obtain ⟨hdrop', h⟩ := hv _ h
  exact ⟨by rw [hdrop, hdrop', List.append_assoc], h⟩

theorem IsKept.cons (hc : IsKept inString [c]) (hw : IsKept inString w) :
    IsKept inString (c :: w) :=
  hc.append hw

theorem isKept_bare (hquote : c ≠ '"') (hcomma : c ≠ ',') : IsKept false [c] := by
  intro rest h
  rw [List.cons_append, List.nil_append, commaInString, if_neg Bool.false_ne_true,
    beq_eq_false_iff_ne.2 hquote] at h
  exact ⟨dropCommas_cons fun hc => hcomma hc.1, h⟩

theorem isKept_comma (hg : AllGaps g) (hhead : ∃ c cs, v = c :: cs ∧ isOpening c = true)
    (hv : IsKept false (g ++ v)) : IsKept false (',' :: (g ++ v)) := by
  intro rest h
  obtain ⟨hdrop, h⟩ := hv rest h
  refine ⟨?_, h⟩
  rw [List.cons_append, dropCommas_cons, hdrop, List.cons_append]
  rw [List.append_assoc, closesNext_of_head hg hhead]
  simp

theorem isKept_inside (hquote : c ≠ '"') (hback : c ≠ '\\') : IsKept true [c] := by
  intro rest h
  simp only [List.cons_append, List.nil_append, commaInString, if_true, Bool.or_eq_false_iff, hback,
    if_false, Bool.false_eq_true, bne_iff_ne.2 hquote] at h
  exact ⟨dropCommas_cons (by simpa using h.1), h.2⟩

theorem isKept_escaped (c : Char) : IsKept true ['\\', c] := by
  intro rest h
  simp only [List.cons_append, List.nil_append, commaInString, if_true, Bool.or_eq_false_iff,
    Bool.false_eq_true, if_false] at h
  refine ⟨?_, h.2.2⟩
  rw [List.cons_append, List.cons_append, List.nil_append, dropCommas_cons (by simp),
    dropCommas_cons (by simpa using h.2.1)]
  rfl

theorem IsKept.quotes (h : IsKept true w) : IsKept false ('"' :: (w ++ ['"'])) := by
  intro rest hrest
  rw [List.cons_append, commaInString, if_neg Bool.false_ne_true, beq_self_eq_true,
    List.append_assoc] at hrest
  obtain ⟨hdrop, hrest⟩ := h _ hrest
  refine ⟨?_, by simpa [commaInString] using hrest⟩
  rw [List.cons_append, dropCommas_cons (by simp), List.append_assoc, hdrop, List.cons_append,
    List.nil_append, dropCommas_cons (by simp)]
  simp

/-! ## Texts of the grammar -/

theorem compositionalInside_isKept : CompositionalInside (IsKept true) where
  nil := isKept_nil true
  append := IsKept.append
  plain := isKept_inside
  escaped := isKept_escaped

theorem compositional_isKept : Compositional (IsKept false) where
  nil := isKept_nil false
  append := IsKept.append
  bare h := isKept_bare (ne_of_isBare h rfl) (ne_of_isBare h rfl)
  string h := (compositionalInside_isKept.isBody h).quotes
  brackets h := (isKept_bare (by decide) (by decide)).cons
    (h.append (isKept_bare (by decide) (by decide)))
  braces h := (isKept_bare (by decide) (by decide)).cons
    (h.append (isKept_bare (by decide) (by decide)))
  colon := isKept_bare (by decide) (by decide)
  comma := isKept_comma

/-- A text that keeps all its commas has none before a closing bracket. -/
theorem commaInString_of_dropCommas (h : dropCommas false w = w) (inString escaped : Bool) :
    commaInString inString escaped w = false := by
  induction w generalizing inString escaped with
  | nil => rfl
  | cons c cs ih =>
    have hcomma : ¬(c = ',' ∧ closesNext cs = true) := by
      -- a text that loses a comma gets shorter
      rintro ⟨rfl, hcloses⟩
      rw [dropCommas, if_neg (by simp), if_pos (by simpa using hcloses)] at h
      have hle := length_dropCommas_le true cs
      rw [h, List.length_cons] at hle
      omega
    rw [dropCommas_cons hcomma] at h
    have hcs := ih (List.tail_eq_of_cons_eq h)
    rw [commaInString]
    split_ifs <;> simp [hcs] <;> simpa using hcomma

/-- The text of a value is left as it is exactly if no string of it holds a comma before a closing
bracket. -/
theorem dropCommas_eq_self_iff {j : Json} (h : IsText w j) :
    dropCommas false w = w ↔ commaInString false false w = false := by
  refine ⟨fun heq => commaInString_of_dropCommas heq false false, fun hcomma => ?_⟩
  have hkept := compositional_isKept.isText h []
  rw [List.append_nil] at hkept
  obtain ⟨hdrop, -⟩ := hkept hcomma
  rw [hdrop, dropCommas, List.append_nil]

end PlanReview.Reply
