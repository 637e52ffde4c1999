import PlanReview.Proofs.Json.Grammar
import PlanReview.Reply.Repair

/-!
# The block of an object

The reader of blocks counts braces and knows of the grammar of JSON only the quotes and backslashes
of strings. Yet it passes over every text of the grammar without being misled by what stands inside
a string (`compositional_isPassed`) : it goes on behind the text at the depth it had before it. So
the block it finds in a text that holds an object, and no brace before it, is the text of that
object (`firstBlock_append`).
-/

namespace PlanReview.Reply

open Json

variable {w v g cs rest : List Char} {c : Char} {inString : Bool}

/-! ## One step of the reader of blocks -/

theorem closeBlock?_bare (hquote : c ≠ '"') (hopen : c ≠ '{') (hclose : c ≠ '}') (depth : Nat)
    (rest : List Char) : closeBlock? depth false false (c :: rest) =
      (closeBlock? depth false false rest).map (c :: ·) := by
  rw [closeBlock?.eq_def]
  simp [hquote, hopen, hclose]

theorem closeBlock?_inside (hquote : c ≠ '"') (hback : c ≠ '\\') (depth : Nat)
    (rest : List Char) : closeBlock? depth true false (c :: rest) =
      (closeBlock? depth true false rest).map (c :: ·) := by
  rw [closeBlock?.eq_def]
  simp [bne_iff_ne.2 hquote, hback]

theorem closeBlock?_escaped (c : Char) (depth : Nat) (rest : List Char) :
    closeBlock? depth true false ('\\' :: c :: rest) =
      (closeBlock? depth true false rest).map fun r => '\\' :: c :: r := by
  rw [closeBlock?.eq_def]
  simp only [if_true, Bool.false_eq_true, if_false]
  rw [closeBlock?.eq_def]
  simp only [if_true, Option.map_map]
  rfl

theorem closeBlock?_quote (inString : Bool) (depth : Nat) (rest : List Char) :
    closeBlock? depth inString false ('"' :: rest) =
      (closeBlock? depth (!inString) false rest).map ('"' :: ·) := by
  rw [closeBlock?.eq_def]
  cases inString <;> simp

theorem closeBlock?_open (depth : Nat) (rest : List Char) :
    closeBlock? depth false false ('{' :: rest) =
      (closeBlock? (depth + 1) false false rest).map ('{' :: ·) := by
  rw [closeBlock?.eq_def]
  simp

theorem closeBlock?_close (depth : Nat) (rest : List Char) :
    closeBlock? (depth + 1) false false ('}' :: rest) =
      (closeBlock? depth false false rest).map ('}' :: ·) := by
  rw [closeBlock?.eq_def]
  simp

theorem closeBlock?_last (rest : List Char) :
    closeBlock? 0 false false ('}' :: rest) = some ['}'] := by
  rw [closeBlock?.eq_def]
  simp

/-! ## Passing over a text -/

/-- The reader of blocks passes over a text, outside of a string or inside : it goes on behind it
at the same depth. -/
def IsPassed (inString : Bool) (w : List Char) : Prop :=
  ∀ depth rest, closeBlock? depth inString false (w ++ rest) =
    (closeBlock? depth inString false rest).map (w ++ ·)

theorem isPassed_nil (inString : Bool) : IsPassed inString [] := by
  intro depth rest
  simp

theorem IsPassed.append (hw : IsPassed inString w) (hv : IsPassed inString v) :
    IsPassed inString (w ++ v) := by
  intro depth rest
  rw [List.append_assoc, hw, hv, Option.map_map]
  exact congrArg (Option.map · _) (funext fun r => (List.append_assoc w v r).symm)

theorem IsPassed.cons (hc : IsPassed inString [c]) (hw : IsPassed inString w) :
    IsPassed inString (c :: w) :=
  hc.append hw

theorem isPassed_bare (hquote : c ≠ '"') (hopen : c ≠ '{') (hclose : c ≠ '}') :
    IsPassed false [c] :=
  fun depth rest => closeBlock?_bare hquote hopen hclose depth rest

theorem isPassed_inside (hquote : c ≠ '"') (hback : c ≠ '\\') : IsPassed true [c] :=
  fun depth rest => closeBlock?_inside hquote hback depth rest

theorem isPassed_escaped (c : Char) : IsPassed true ['\\', c] :=
  fun depth rest => closeBlock?_escaped c depth rest

theorem IsPassed.braces (h : IsPassed false w) : IsPassed false ('{' :: (w ++ ['}'])) := by
  intro depth rest
  rw [List.cons_append, List.append_assoc, closeBlock?_open, h, List.cons_append,
    List.nil_append, closeBlock?_close]
  simp [Function.comp_def]

theorem IsPassed.quotes (h : IsPassed true w) : IsPassed false ('"' :: (w ++ ['"'])) := by
  intro depth rest
  rw [List.cons_append, List.append_assoc, closeBlock?_quote, Bool.not_false, h,
    List.cons_append, List.nil_append, closeBlock?_quote]
  simp [Function.comp_def]

/-! ## Texts of the grammar -/

theorem compositionalInside_isPassed : CompositionalInside (IsPassed true) where
  nil := isPassed_nil true
  append := IsPassed.append
  plain := isPassed_inside
  escaped := isPassed_escaped

theorem compositional_isPassed : Compositional (IsPassed false) where
  nil := isPassed_nil false
  append := IsPassed.append
  bare h := isPassed_bare (ne_of_isBare h rfl) (ne_of_isBare h rfl) (ne_of_isBare h rfl)
  string h := (compositionalInside_isPassed.isBody h).quotes
  brackets h := (isPassed_bare (by decide) (by decide) (by decide)).cons
    (h.append (isPassed_bare (by decide) (by decide) (by decide)))
  braces := IsPassed.braces
  colon := isPassed_bare (by decide) (by decide) (by decide)
  comma _ _ h := (isPassed_bare (by decide) (by decide) (by decide)).cons h

/-! ## The block -/

/-- The text of an object is what stands between two braces. -/
theorem exists_braces_of_isText {j : Json} (h : IsText w j) (hj : j.isObject = true) :
    ∃ v, w = '{' :: (v ++ ['}']) ∧ IsPassed false v := by
  cases h with
  | scalar hscalar =>
    rw [hscalar.isObject] at hj
    cases hj
  | string | emptyArray | array => cases hj
  | emptyObject hg => exact ⟨_, rfl, compositional_isPassed.gaps hg⟩
  | object hg hfields =>
    exact ⟨_, by rw [List.append_assoc],
      (compositional_isPassed.gaps hg).append (compositional_isPassed.isFields hfields)⟩

/-- The first block of a text that holds an object, and no brace before it, is the text of the
object. -/
theorem firstBlock_append {p : List Char} (hp : '{' ∉ p) {j : Json} (h : IsText w j)
    (hj : j.isObject = true) (s : List Char) : firstBlock (p ++ (w ++ s)) = .ok w := by
  obtain ⟨v, rfl, hv⟩ := exists_braces_of_isText h hj
  have hdrop : (p ++ ('{' :: (v ++ ['}']) ++ s)).dropWhile (· != '{') =
      '{' :: (v ++ '}' :: s) := by
    have hne : ∀ c ∈ p, (c != '{') = true := fun c hc => bne_iff_ne.2 (ne_of_mem_of_not_mem hc hp)
    rw [List.dropWhile_append_of_pos hne]
    simp
  unfold firstBlock
  rw [hdrop]
  simp only [hv 0 ('}' :: s), closeBlock?_last, Option.map_some]

/-- A text that begins and ends with a brace is read without blanks around it. -/
theorem isText_of_parse {t : String} {j : Json} (h : Json.parse t = .ok j)
    (hopen : t.toList.head? = some '{') (hclose : t.toList.getLast? = some '}') :
    IsText t.toList j := by
  obtain ⟨g, w, g', htext, hg, hg', hw⟩ := document_eq_ok_iff.1 (parse_eq_ok_iff.1 h)
  rw [htext] at hopen hclose ⊢
  have hstart : g = [] := by
    cases g with
    | nil => rfl
    | cons c cs =>
      have hc := hg c List.mem_cons_self
      obtain rfl : c = '{' := by simpa using hopen
      cases hc
  have hend : g' = [] := by
    rcases List.eq_nil_or_concat g' with rfl | ⟨cs, c, rfl⟩
    · rfl
    · have hc := hg' c (by simp)
      obtain rfl : c = '}' := by simpa [← List.append_assoc] using hclose
      cases hc
  rwa [hstart, hend, List.nil_append, List.append_nil]

/-- The text of an object is found in whatever stands around it, as long as no brace opens before
it. -/
theorem firstBlock_of_parse {t : String} {fields : List (String × Json)}
    (h : Json.parse t = .ok (.obj fields)) (hopen : t.toList.head? = some '{')
    (hclose : t.toList.getLast? = some '}') {p : List Char} (hp : '{' ∉ p) (s : List Char) :
    firstBlock (p ++ t.toList ++ s) = .ok t.toList := by
  rw [List.append_assoc]
  exact firstBlock_append hp (isText_of_parse h hopen hclose) rfl s

/-- An object with braces, a quote and a backslash in its strings. -/
def braced : Json :=
  .obj [("\x7d\x7b", .arr [.str "\"\x7d\\", .obj []])]

theorem firstBlock_of_braced : Json.parse (Json.write indented braced) = .ok braced ∧
    firstBlock ("Here : \x7d".toList ++ (Json.write indented braced).toList ++ "and \x7b".toList) =
      .ok (Json.write indented braced).toList := by
  have hread : Json.parse (Json.write indented braced) = .ok braced :=
    parse_write isReadable_indented (.inr rfl)
  refine ⟨hread, firstBlock_of_parse hread ?_ ?_ (by decide) _⟩
  · rw [Json.write, String.toList_ofList, braced, render]
    rfl
  · rw [Json.write, String.toList_ofList, braced, render]
    exact List.getLast?_concat (l := '{' :: _)

end PlanReview.Reply
