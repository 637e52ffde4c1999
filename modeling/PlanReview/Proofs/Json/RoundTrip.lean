import PlanReview.Proofs.Json.Number
import PlanReview.Proofs.Json.Text

/-!
# Written values read back

A text that a layout with blank gaps writes is read as the value it was written for
(`parse_write`), up to two things that a text cannot keep : repeated keys of an object are merged
(`merged`), and a layout without words for them turns doubles that are no numbers into null
(`Json.finite`).

The proof follows the three readers. Each of them takes off what was written and leaves the text
after it (`Leaves`); what follows a value never goes on with a number (`Stops`).
-/

namespace PlanReview.Json

/-! ## What a text keeps -/

mutual
/-- The value with the repeated keys of every object merged. -/
def merged : Json → Json
  | arr items => arr (mergedItems items)
  | obj fields => ofFields (mergedFields fields)
  | j => j

/-- The items of an array, merged. -/
def mergedItems : List Json → List Json
  | [] => []
  | x :: xs => merged x :: mergedItems xs

/-- The fields of an object with merged values. -/
def mergedFields : List (String × Json) → List (String × Json)
  | [] => []
  | (k, v) :: fs => (k, merged v) :: mergedFields fs
end

/-! ## One step of a reader -/

variable {α : Type} {s r t u : List Char}

/-- The reader gives `a` and leaves `u`. -/
def Leaves (read : Except Failed (α × Rest s)) (a : α) (u : List Char) : Prop :=
  ∃ h, read = .ok (a, ⟨u, h⟩)

theorem value_string {cs : List Char} (h : stringBody ('"' :: r) r = .ok (cs, u)) :
    Leaves (value ('"' :: r)) (.str (String.ofList cs)) u := by
  refine ⟨Nat.lt_succ_of_lt (length_of_stringBody _ _ h), ?_⟩
  rw [value]
  split
  · rename_i heq
    rw [h] at heq
    cases heq
  · rename_i heq
    rw [h] at heq
    cases heq
    rfl

theorem value_emptyArray (h : skipGaps r = ']' :: u) :
    Leaves (value ('[' :: r)) (.arr []) u := by
  have hr := length_skipGaps_le r
  refine ⟨by simp [h] at hr ⊢; omega, ?_⟩
  rw [value]
  split
  · rename_i heq
    rw [h] at heq
    cases heq
    rfl
  · rename_i hne
    exact (hne u h).elim

theorem value_array {xs : List Json} (hne : ∀ v, skipGaps r ≠ ']' :: v)
    (h : Leaves (items (skipGaps r)) xs u) : Leaves (value ('[' :: r)) (.arr xs) u := by
  have hr := length_skipGaps_le r
  obtain ⟨hu, h⟩ := h
  refine ⟨by simp only [List.length_cons]; omega, ?_⟩
  rw [value]
  split
  · rename_i heq
    exact (hne _ heq).elim
  · rw [h]

theorem value_emptyObject (h : skipGaps r = '}' :: u) :
    Leaves (value ('{' :: r)) (.obj []) u := by
  have hr := length_skipGaps_le r
  refine ⟨by simp [h] at hr ⊢; omega, ?_⟩
  rw [value]
  split
  · rename_i heq
    rw [h] at heq
    cases heq
    rfl
  · rename_i hne
    exact (hne u h).elim

theorem value_object {fs : List (String × Json)} (hne : ∀ v, skipGaps r ≠ '}' :: v)
    (h : Leaves (Json.fields (skipGaps r)) fs u) : Leaves (value ('{' :: r)) (.ofFields fs) u := by
  have hr := length_skipGaps_le r
  obtain ⟨hu, h⟩ := h
  refine ⟨by simp only [List.length_cons]; omega, ?_⟩
  rw [value]
  split
  · rename_i heq
    exact (hne _ heq).elim
  · rw [h]

theorem items_last {x : Json} (h : Leaves (value s) x r) (hr : skipGaps r = ']' :: u) :
    Leaves (items s) [x] u := by
  obtain ⟨hlt, h⟩ := h
  have hg := length_skipGaps_le r
  refine ⟨by simp [hr] at hg; omega, ?_⟩
  rw [items, h]
  dsimp only
  split
  · rename_i heq
    rw [hr] at heq
    cases heq
    rfl
  · rename_i heq
    rw [hr] at heq
    cases heq
  · rename_i hne _
    exact (hne u hr).elim

theorem items_more {x : Json} {xs : List Json} (h : Leaves (value s) x r)
    (hr : skipGaps r = ',' :: t) (hxs : Leaves (items (skipGaps t)) xs u) :
    Leaves (items s) (x :: xs) u := by
  obtain ⟨hlt, h⟩ := h
  obtain ⟨hlt', hxs⟩ := hxs
  have hg := length_skipGaps_le r
  have ht := length_skipGaps_le t
  refine ⟨by simp [hr] at hg; omega, ?_⟩
  rw [items, h]
  dsimp only
  split
  · rename_i heq
    rw [hr] at heq
    cases heq
  · rename_i heq
    rw [hr] at heq
    cases heq
    rw [hxs]
  · rename_i hne
    exact (hne t hr).elim

/-- A field is read, and what stands behind it says whether it was the last one. -/
theorem leaves_field {k r₁ r₂ r₃ : List Char} {x : Json} {fs : List (String × Json)}
    (hk : stringBody ('"' :: r) r = .ok (k, r₁)) (h₁ : skipGaps r₁ = ':' :: r₂)
    (hx : Leaves (value (skipGaps r₂)) x r₃)
    (h₃ : (skipGaps r₃ = '}' :: u ∧ fs = []) ∨
      ∃ r₄, skipGaps r₃ = ',' :: r₄ ∧ Leaves (Json.fields (skipGaps r₄)) fs u) :
    Leaves (Json.fields ('"' :: r)) ((String.ofList k, x) :: fs) u := by
  obtain ⟨hlt, hx⟩ := hx
  have g₀ := length_of_stringBody _ _ hk
  have g₁ := length_skipGaps_le r₁
  have g₂ := length_skipGaps_le r₂
  have g₃ := length_skipGaps_le r₃
  have hu : u.length < ('"' :: r).length := by
    rcases h₃ with ⟨hend, -⟩ | ⟨r₄, hcomma, hlt', -⟩
    · simp [h₁, hend] at g₁ g₃ ⊢
      omega
    · have g₄ := length_skipGaps_le r₄
      simp [h₁, hcomma] at g₁ g₃ ⊢
      omega
  refine ⟨hu, ?_⟩
  rw [Json.fields]
  split
  · rename_i heq
    cases hk.symm.trans heq
  · rename_i heq
    cases hk.symm.trans heq
    split
    · rename_i heq
      cases h₁.symm.trans heq
      rw [hx]
      dsimp only
      split
      · rename_i heq
        rcases h₃ with ⟨hend, rfl⟩ | ⟨r₄, hcomma, -⟩
        · cases hend.symm.trans heq
          rfl
        · cases hcomma.symm.trans heq
      · rename_i heq
        rcases h₃ with ⟨hend, -⟩ | ⟨r₄, hcomma, hlt', hfs⟩
        · cases hend.symm.trans heq
        · cases hcomma.symm.trans heq
          rw [hfs]
      · rename_i hnoEnd hnoComma
        rcases h₃ with ⟨hend, -⟩ | ⟨r₄, hcomma, -⟩
        · exact (hnoEnd u hend).elim
        · exact (hnoComma r₄ hcomma).elim
    · rename_i hne
      exact (hne r₂ h₁).elim

/-! ## Scalars -/

/-- The first character of a value that is neither a string nor has parts. -/
structure OpensScalar (c : Char) : Prop where
  notGap : isGap c = false
  notQuote : c ≠ '"'
  notBracket : c ≠ '['
  notBrace : c ≠ '{'
  notEnd : c ≠ ']'
  notMark : c ≠ '\uFEFF'

theorem opensScalar_of_isDigit {c : Char} (h : c.isDigit = true) : OpensScalar c := by
  constructor
  case notGap =>
    by_contra hgap
    simp only [isGap, Bool.not_eq_false, Bool.or_eq_true, decide_eq_true_eq] at hgap
    rcases hgap with ((rfl | rfl) | rfl) | rfl <;> cases h
  all_goals
    rintro rfl
    cases h

theorem opensScalar_of_word {w : String × Json} (h : w ∈ words) :
    ∃ c cs, w.1.toList = c :: cs ∧ OpensScalar c := by
  simp only [words, List.mem_cons, List.not_mem_nil, or_false] at h
  rcases h with rfl | rfl | rfl | rfl | rfl | rfl <;>
    exact ⟨_, _, by simp; exact ⟨rfl, rfl⟩, by constructor <;> decide⟩

theorem opensScalar_of_scalar? {p : Json × List Char} (h : scalar? s = some p) :
    ∃ c cs, s = c :: cs ∧ OpensScalar c := by
  unfold scalar? at h
  split at h
  · rename_i hfound
    obtain ⟨w, hw, hstart⟩ := List.exists_of_findSome?_eq_some hfound
    obtain ⟨rest, hrest, -⟩ := Option.map_eq_some_iff.1 hstart
    obtain ⟨c, cs, hc, hopens⟩ := opensScalar_of_word hw
    rw [Text.afterStart?_eq_some_iff, hc] at hrest
    exact ⟨c, cs ++ rest, hrest, hopens⟩
  · split at h
    · exact ⟨_, _, rfl, by constructor <;> decide⟩
    · obtain ⟨c, hc, hdigit⟩ := head_isDigit_of_magnitude? h
      cases s with
      | nil => cases hc
      | cons d cs =>
        obtain rfl : d = c := by simpa using hc
        exact ⟨d, cs, rfl, opensScalar_of_isDigit hdigit⟩

theorem value_scalar {j : Json} (h : scalar? s = some (j, u)) : Leaves (value s) j u := by
  refine ⟨length_of_scalar? h, ?_⟩
  obtain ⟨c, cs, rfl, hopens⟩ := opensScalar_of_scalar? h
  rw [value]
  · split
    · rename_i heq
      rw [h] at heq
      cases heq
      rfl
    · rename_i heq
      rw [h] at heq
      cases heq
  · exact fun _ heq => hopens.notQuote (List.head_eq_of_cons_eq heq)
  · exact fun _ heq => hopens.notBracket (List.head_eq_of_cons_eq heq)
  · exact fun _ heq => hopens.notBrace (List.head_eq_of_cons_eq heq)

theorem scalar?_word {w : String × Json} (h : w ∈ words.take 3) (rest : List Char) :
    scalar? (w.1.toList ++ rest) = some (w.2, rest) := by
  simp only [words, List.take, List.mem_cons, List.not_mem_nil, or_false] at h
  rcases h with rfl | rfl | rfl <;> rfl

/-! ## Layouts -/

/-- The layout has only blanks between tokens and writes doubles as JSON does. -/
structure Layout.IsReadable (l : Layout) : Prop where
  itemGap : ∀ c ∈ l.itemGap.toList, isGap c = true
  keyGap : ∀ c ∈ l.keyGap.toList, isGap c = true
  floats : IsJsonNotation l.floats

/-- The notation has null for all doubles that are no numbers. -/
structure WritesNull (style : Decimal.FloatNotation) : Prop where
  nan : style.nan = "null"
  infinity : style.infinity = "null"
  negativeInfinity : style.negativeInfinity = "null"

theorem isReadable_stored : stored.IsReadable :=
  ⟨List.all_eq_true.1 rfl, List.all_eq_true.1 rfl, ⟨by decide, by decide, rfl⟩⟩

theorem isReadable_indented : indented.IsReadable :=
  ⟨List.all_eq_true.1 rfl, List.all_eq_true.1 rfl, ⟨by decide, by decide, rfl⟩⟩

theorem isReadable_compact : compact.IsReadable :=
  ⟨List.all_eq_true.1 rfl, List.all_eq_true.1 rfl, ⟨by decide, by decide, rfl⟩⟩

theorem writesNull_stored : WritesNull stored.floats :=
  ⟨rfl, rfl, rfl⟩

theorem skipGaps_append {gaps : List Char} (h : ∀ c ∈ gaps, isGap c = true) (s : List Char) :
    skipGaps (gaps ++ s) = skipGaps s :=
  List.dropWhile_append_of_pos h

theorem skipGaps_cons {c : Char} (h : isGap c = false) (cs : List Char) :
    skipGaps (c :: cs) = c :: cs := by
  rw [skipGaps, List.dropWhile_cons, if_neg (by rw [h]; exact Bool.false_ne_true)]

variable {l : Layout} {rest : List Char}

theorem isGap_lineStart (l : Layout) (depth : Nat) : ∀ c ∈ l.lineStart depth, isGap c = true := by
  unfold Layout.lineStart
  split
  · exact fun _ h => absurd h List.not_mem_nil
  · intro c hc
    rcases List.mem_cons.1 hc with rfl | hc
    · rfl
    · rw [List.eq_of_mem_replicate hc]
      rfl

theorem skipGaps_lineStart (l : Layout) (depth : Nat) {c : Char} (h : isGap c = false)
    (cs : List Char) : skipGaps (l.lineStart depth ++ c :: cs) = c :: cs := by
  rw [skipGaps_append (isGap_lineStart l depth), skipGaps_cons h]

theorem skipGaps_stringText (asciiOnly : Bool) (text : String) (rest : List Char) :
    skipGaps (stringText asciiOnly text ++ rest) = stringText asciiOnly text ++ rest :=
  skipGaps_cons rfl _

theorem stops_cons {c : Char} (hdigit : c.isDigit = false) (hmark : c ≠ '.' ∧ c ≠ 'e' ∧ c ≠ 'E')
    (cs : List Char) : Stops (c :: cs) := by
  constructor <;>
    · intro d hd
      obtain rfl : c = d := by simpa using hd
      assumption

theorem stops_lineStart (l : Layout) (depth : Nat) (h : Stops rest) :
    Stops (l.lineStart depth ++ rest) := by
  unfold Layout.lineStart
  split
  · exact h
  · exact stops_cons rfl (by decide) _

theorem stops_itemBreak (l : Layout) (depth : Nat) (s : List Char) :
    Stops (l.itemBreak depth ++ s) := by
  unfold Layout.itemBreak
  split <;> exact stops_cons rfl (by decide) _

/-- What stands between two items is a comma and blanks. -/
theorem itemBreak_eq (hl : l.IsReadable) (depth : Nat) :
    ∃ gaps, l.itemBreak depth = ',' :: gaps ∧ ∀ c ∈ gaps, isGap c = true := by
  unfold Layout.itemBreak
  split
  · exact ⟨_, rfl, hl.itemGap⟩
  · exact ⟨_, rfl, isGap_lineStart l depth⟩

/-! ## Written values -/

/-- The layout has a text for every double in the value. -/
def Layout.Renders (l : Layout) (j : Json) : Prop :=
  WritesNull l.floats ∨ j.isFinite = true

theorem scalar?_render_float (hl : l.IsReadable) {x : Float} (hx : l.Renders (.float x))
    (hrest : Stops rest) :
    scalar? ((l.floats.write x).toList ++ rest) = some ((Json.float x).finite, rest) := by
  by_cases hfin : x.isFinite = true
  · rw [scalar?_float hl.floats hfin hrest, finite, if_pos hfin]
  · have hnull := hx.resolve_right hfin
    have htext : l.floats.write x = "null" := by
      unfold Decimal.FloatNotation.write
      split
      · exact hnull.nan
      · split
        · exact hnull.negativeInfinity
        · exact hnull.infinity
      · rename_i hread
        exact absurd (Decimal.isFinite_iff.2 ⟨_, hread⟩) hfin
    rw [htext, finite, if_neg hfin]
    exact scalar?_word (w := ("null", .null)) (by simp [words]) rest

/-- The first character of a written value. -/
theorem render_eq_cons (hl : l.IsReadable) {j : Json} (hj : l.Renders j) (depth : Nat) :
    ∃ c cs, render l depth j = c :: cs ∧ isGap c = false ∧ c ≠ ']' ∧ c ≠ '\uFEFF' := by
  have hstops : Stops [] := ⟨fun _ h => absurd h (by simp), fun _ h => absurd h (by simp)⟩
  have hscalar : ∀ {p}, scalar? (render l depth j ++ []) = some p →
      ∃ c cs, render l depth j = c :: cs ∧ isGap c = false ∧ c ≠ ']' ∧ c ≠ '\uFEFF' := by
    intro p h
    obtain ⟨c, cs, hc, hopens⟩ := opensScalar_of_scalar? h
    rw [List.append_nil] at hc
    exact ⟨c, cs, hc, hopens.notGap, hopens.notEnd, hopens.notMark⟩
  cases j with
  | null => exact ⟨_, _, by simp [render]; exact ⟨rfl, rfl⟩, by decide, by decide, by decide⟩
  | bool b =>
    cases b <;>
      exact ⟨_, _, by simp [render]; exact ⟨rfl, rfl⟩, by decide, by decide, by decide⟩
  | int n => exact hscalar (scalar?_int n hstops)
  | float x => exact hscalar (scalar?_render_float hl hj hstops)
  | str s => exact ⟨_, _, rfl, by decide, by decide, by decide⟩
  | arr xs =>
    cases xs <;>
      exact ⟨_, _, by simp [render]; exact ⟨rfl, rfl⟩, by decide, by decide, by decide⟩
  | obj fs =>
    cases fs <;>
      exact ⟨_, _, by simp [render]; exact ⟨rfl, rfl⟩, by decide, by decide, by decide⟩

theorem skipGaps_render (hl : l.IsReadable) {j : Json} (hj : l.Renders j) (depth : Nat)
    (rest : List Char) : skipGaps (render l depth j ++ rest) = render l depth j ++ rest := by
  obtain ⟨c, cs, hc, hgap, -⟩ := render_eq_cons hl hj depth
  rw [hc, List.cons_append, skipGaps_cons hgap]

theorem Layout.Renders.items {x : Json} {xs : List Json} (h : l.Renders (.arr (x :: xs))) :
    l.Renders x ∧ l.Renders (.arr xs) := by
  rcases h with h | h
  · exact ⟨.inl h, .inl h⟩
  · simp only [isFinite, isFiniteItems, Bool.and_eq_true] at h
    exact ⟨.inr h.1, .inr h.2⟩

theorem Layout.Renders.fields {k : String} {v : Json} {fs : List (String × Json)}
    (h : l.Renders (.obj ((k, v) :: fs))) : l.Renders v ∧ l.Renders (.obj fs) := by
  rcases h with h | h
  · exact ⟨.inl h, .inl h⟩
  · simp only [isFinite, isFiniteFields, Bool.and_eq_true] at h
    exact ⟨.inr h.1, .inr h.2⟩

theorem stops_renderItems (l : Layout) (depth : Nat) (xs : List Json) (h : Stops rest) :
    Stops (renderItems l depth xs ++ rest) := by
  cases xs with
  | nil => exact h
  | cons x xs =>
    rw [renderItems, List.append_assoc, List.append_assoc]
    exact stops_itemBreak l depth _

theorem stops_renderFields (l : Layout) (depth : Nat) (fs : List (String × Json))
    (h : Stops rest) : Stops (renderFields l depth fs ++ rest) := by
  cases fs with
  | nil => exact h
  | cons f fs =>
    rw [renderFields, List.append_assoc, List.append_assoc, List.append_assoc, List.append_assoc]
    exact stops_itemBreak l depth _

/-- A written string is taken off up to its closing quote. -/
theorem stringBody_stringText (asciiOnly : Bool) (text : String) (rest : List Char) :
    ∃ r, stringText asciiOnly text ++ rest = '"' :: r ∧
      stringBody ('"' :: r) r = .ok (text.toList, rest) := by
  refine ⟨text.toList.flatMap (escapeChar asciiOnly) ++ '"' :: rest, ?_, stringBody_flatMap _ _⟩
  rw [stringText, List.cons_append, List.append_assoc]
  rfl

/-- An array is read as its items are. -/
theorem leaves_render_arr (hl : l.IsReadable) {x : Json} (hx : l.Renders x) {xs ys : List Json}
    {depth : Nat} (h : Leaves (items (render l (depth + 1) x ++
      (renderItems l (depth + 1) xs ++ (l.lineStart depth ++ ']' :: rest)))) ys rest) :
    Leaves (value (render l depth (.arr (x :: xs)) ++ rest)) (.arr ys) rest := by
  have hskip := skipGaps_render hl hx (depth + 1)
    (renderItems l (depth + 1) xs ++ (l.lineStart depth ++ ']' :: rest))
  rw [← skipGaps_append (isGap_lineStart l (depth + 1))] at hskip
  rw [← hskip] at h
  have hne : ∀ v, skipGaps (l.lineStart (depth + 1) ++ (render l (depth + 1) x ++
      (renderItems l (depth + 1) xs ++ (l.lineStart depth ++ ']' :: rest)))) ≠ ']' :: v := by
    obtain ⟨c, cs, hc, -, hend, -⟩ := render_eq_cons hl hx (depth + 1)
    intro v hv
    rw [hskip, hc] at hv
    exact hend (List.head_eq_of_cons_eq hv)
  have htext : render l depth (.arr (x :: xs)) ++ rest = '[' :: (l.lineStart (depth + 1) ++
      (render l (depth + 1) x ++
        (renderItems l (depth + 1) xs ++ (l.lineStart depth ++ ']' :: rest)))) := by
    simp [render]
  rw [htext]
  exact value_array hne h

/-- An object is read as its fields are. -/
theorem leaves_render_obj {k : String} {v : Json} {fs gs : List (String × Json)} {depth : Nat}
    (h : Leaves (Json.fields (stringText l.asciiOnly k ++ (':' :: l.keyGap.toList ++
      (render l (depth + 1) v ++
        (renderFields l (depth + 1) fs ++ (l.lineStart depth ++ '}' :: rest)))))) gs rest) :
    Leaves (value (render l depth (.obj ((k, v) :: fs)) ++ rest)) (.ofFields gs) rest := by
  have hskip := skipGaps_stringText l.asciiOnly k (':' :: l.keyGap.toList ++
    (render l (depth + 1) v ++
      (renderFields l (depth + 1) fs ++ (l.lineStart depth ++ '}' :: rest))))
  rw [← skipGaps_append (isGap_lineStart l (depth + 1))] at hskip
  rw [← hskip] at h
  have htext : render l depth (.obj ((k, v) :: fs)) ++ rest = '{' :: (l.lineStart (depth + 1) ++
      (stringText l.asciiOnly k ++ (':' :: l.keyGap.toList ++ (render l (depth + 1) v ++
        (renderFields l (depth + 1) fs ++ (l.lineStart depth ++ '}' :: rest)))))) := by
    simp [render]
  rw [htext]
  refine value_object (fun u hu => ?_) h
  rw [hskip] at hu
  cases hu

mutual
/-- A written value is read back. -/
theorem value_render (hl : l.IsReadable) : ∀ (j : Json) (depth : Nat) (rest : List Char),
    l.Renders j → Stops rest → Leaves (value (render l depth j ++ rest)) j.finite.merged rest
  | .null, depth, rest, hj, hrest => by
    rw [render]
    exact value_scalar (scalar?_word (w := ("null", .null)) (by simp [words]) rest)
  | .bool true, depth, rest, hj, hrest => by
    rw [render]
    exact value_scalar (scalar?_word (w := ("true", .bool true)) (by simp [words]) rest)
  | .bool false, depth, rest, hj, hrest => by
    rw [render]
    exact value_scalar (scalar?_word (w := ("false", .bool false)) (by simp [words]) rest)
  | .int n, depth, rest, hj, hrest => by
    rw [render]
    exact value_scalar (scalar?_int n hrest)
  | .float x, depth, rest, hj, hrest => by
    have hmerged : (Json.float x).finite.merged = (Json.float x).finite := by
      unfold finite
      split <;> rfl
    rw [render, hmerged]
    exact value_scalar (scalar?_render_float hl hj hrest)
  | .str s, depth, rest, hj, hrest => by
    obtain ⟨r, hr, hbody⟩ := stringBody_stringText l.asciiOnly s rest
    rw [render, hr]
    have h := value_string hbody
    rwa [String.ofList_toList] at h
  | .arr [], depth, rest, hj, hrest => value_emptyArray rfl
  | .arr (x :: xs), depth, rest, hj, hrest =>
    leaves_render_arr hl hj.items.1 (items_render hl x xs (depth + 1) _ rest hj
      (stops_lineStart l depth (stops_cons rfl (by decide) rest))
      (skipGaps_lineStart l depth rfl rest))
  | .obj [], depth, rest, hj, hrest => value_emptyObject rfl
  | .obj ((k, v) :: fs), depth, rest, hj, hrest =>
    leaves_render_obj (fields_render hl k v fs (depth + 1) _ rest hj
      (stops_lineStart l depth (stops_cons rfl (by decide) rest))
      (skipGaps_lineStart l depth rfl rest))
termination_by j => (sizeOf j, 0)

/-- The items of a written array are read back; `tail` closes the array. -/
theorem items_render (hl : l.IsReadable) : ∀ (x : Json) (xs : List Json) (depth : Nat)
    (tail rest : List Char), l.Renders (.arr (x :: xs)) → Stops tail →
      skipGaps tail = ']' :: rest →
        Leaves (items (render l depth x ++ (renderItems l depth xs ++ tail)))
          (mergedItems (finiteItems (x :: xs))) rest
  | x, [], depth, tail, rest, hj, htail, hend =>
    items_last (value_render hl x depth tail hj.items.1 htail) hend
  | x, y :: ys, depth, tail, rest, hj, htail, hend => by
    obtain ⟨gaps, hbreak, hgaps⟩ := itemBreak_eq hl depth
    have hx := value_render hl x depth (renderItems l depth (y :: ys) ++ tail) hj.items.1
      (stops_renderItems l depth (y :: ys) htail)
    have hys := items_render hl y ys depth tail rest hj.items.2 htail hend
    rw [← skipGaps_render hl hj.items.2.items.1, ← skipGaps_append hgaps] at hys
    refine items_more hx ?_ hys
    have htext : renderItems l depth (y :: ys) ++ tail =
        ',' :: (gaps ++ (render l depth y ++ (renderItems l depth ys ++ tail))) := by
      simp [renderItems, hbreak]
    rw [htext, skipGaps_cons rfl]
termination_by x xs => (sizeOf x + sizeOf xs, 1)

/-- The fields of a written object are read back; `tail` closes the object. -/
theorem fields_render (hl : l.IsReadable) : ∀ (k : String) (v : Json) (fs : List (String × Json))
    (depth : Nat) (tail rest : List Char), l.Renders (.obj ((k, v) :: fs)) → Stops tail →
      skipGaps tail = '}' :: rest →
        Leaves (Json.fields (stringText l.asciiOnly k ++ (':' :: l.keyGap.toList ++
            (render l depth v ++ (renderFields l depth fs ++ tail)))))
          (mergedFields (finiteFields ((k, v) :: fs))) rest
  | k, v, [], depth, tail, rest, hj, htail, hend => by
    obtain ⟨r, hr, hk⟩ := stringBody_stringText l.asciiOnly k
      (':' :: l.keyGap.toList ++ (render l depth v ++ (renderFields l depth [] ++ tail)))
    have hv := value_render hl v depth tail hj.fields.1 htail
    rw [← skipGaps_render hl hj.fields.1, ← skipGaps_append hl.keyGap] at hv
    have h := leaves_field hk (skipGaps_cons rfl _) hv (.inl ⟨hend, rfl⟩)
    rw [hr]
    rwa [String.ofList_toList] at h
  | k, v, (k', v') :: fs, depth, tail, rest, hj, htail, hend => by
    obtain ⟨gaps, hbreak, hgaps⟩ := itemBreak_eq hl depth
    obtain ⟨r, hr, hk⟩ := stringBody_stringText l.asciiOnly k
      (':' :: l.keyGap.toList ++
        (render l depth v ++ (renderFields l depth ((k', v') :: fs) ++ tail)))
    have hv := value_render hl v depth (renderFields l depth ((k', v') :: fs) ++ tail) hj.fields.1
      (stops_renderFields l depth _ htail)
    rw [← skipGaps_render hl hj.fields.1, ← skipGaps_append hl.keyGap] at hv
    have hfs := fields_render hl k' v' fs depth tail rest hj.fields.2 htail hend
    rw [← skipGaps_stringText, ← skipGaps_append hgaps] at hfs
    have htext : renderFields l depth ((k', v') :: fs) ++ tail = ',' :: (gaps ++
        (stringText l.asciiOnly k' ++ (':' :: l.keyGap.toList ++
          (render l depth v' ++ (renderFields l depth fs ++ tail))))) := by
      simp [renderFields, hbreak]
    have h := leaves_field hk (skipGaps_cons rfl _) hv
      (.inr ⟨_, by rw [htext, skipGaps_cons rfl], hfs⟩)
    rw [hr]
    rwa [String.ofList_toList] at h
termination_by _ v fs => (sizeOf v + sizeOf fs, 1)
end

/-- A written text is read as its value. -/
theorem parse_write (hl : l.IsReadable) {j : Json} (hj : l.Renders j) :
    parse (write l j) = .ok j.finite.merged := by
  have hstops : Stops [] := ⟨fun _ h => absurd h (by simp), fun _ h => absurd h (by simp)⟩
  have hvalue := value_render hl j 0 [] hj hstops
  obtain ⟨c, cs, hc, hgap, -, hmark⟩ := render_eq_cons hl hj 0
  rw [List.append_nil] at hvalue
  have hdocument : document (render l 0 j) = .ok j.finite.merged := by
    rw [hc] at hvalue ⊢
    rw [← skipGaps_cons hgap] at hvalue
    obtain ⟨hlt, hvalue⟩ := hvalue
    unfold document
    split
    · exact absurd (List.head_eq_of_cons_eq ‹_›) hmark
    · rw [hvalue]
      rfl
  unfold parse write
  rw [String.toList_ofList, hdocument]
  rfl

end PlanReview.Json
