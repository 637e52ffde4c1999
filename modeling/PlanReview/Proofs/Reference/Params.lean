import PlanReview.Proofs.Json.RoundTrip
import PlanReview.Proofs.Json.Scalar
import PlanReview.Proofs.Reference.Scan
import PlanReview.Proofs.Text.Delimiter

/-!
# References in parameters

References are looked for in the compact text of the parameters, yet they stand in its strings. A
pattern that takes no quote, no backslash and no control character (`Pattern.IsPlain`) finds in a
written string what it finds in the string itself (`Pattern.scan_stringText`) : what is escaped
is in no reference, and the closing quote ends all of them. So a scan of the text finds what the
strings hold, keys included, one after the other (`Pattern.scan_paramsText`).
-/

namespace PlanReview

namespace Json

mutual
/-- The strings of a value, keys included, in the order in which they are written. -/
def allTexts : Json → List String
  | str s => [s]
  | arr xs => allTextsOfItems xs
  | obj fs => allTextsOfFields fs
  | _ => []

/-- The strings of the items of an array. -/
def allTextsOfItems : List Json → List String
  | [] => []
  | x :: xs => allTexts x ++ allTextsOfItems xs

/-- The keys of an object, each before the strings of its value. -/
def allTextsOfFields : List (String × Json) → List String
  | [] => []
  | (k, v) :: fs => k :: (allTexts v ++ allTextsOfFields fs)
end

/-! ## Escapes -/

theorem escapeChar_eq_self {c : Char} (hquote : c ≠ '"') (hback : c ≠ '\\')
    (hlow : 0x20 ≤ c.toNat) : escapeChar false c = [c] := by
  have hne {d : Char} (hd : d.toNat < 0x20) : c ≠ d := fun h => by
    rw [h] at hlow
    omega
  rw [escapeChar, if_neg hquote, if_neg hback, if_neg (hne (by decide)), if_neg (hne (by decide)),
    if_neg (hne (by decide)), if_neg (hne (by decide)), if_neg (hne (by decide)),
    if_neg (by omega), Bool.false_and, if_neg Bool.false_ne_true]

/-- A character is written as it is, or after a backslash without a dollar sign. -/
theorem escapeChar_cases (c : Char) :
    escapeChar false c = [c] ∨ ∃ e, escapeChar false c = '\\' :: e ∧ '$' ∉ e := by
  by_cases hlow : c.toNat < 0x20
  · have hunit : '$' ∉ 'u' :: Text.hexDigits 4 c.toNat := by
      rw [List.mem_cons, not_or]
      exact ⟨by decide, fun h => by cases isScalarChar_hexDigits _ _ _ h⟩
    unfold escapeChar
    split_ifs
    all_goals first
      | exact .inr ⟨_, rfl, by decide⟩
      | exact .inr ⟨_, rfl, hunit⟩
  · by_cases hquote : c = '"'
    · exact .inr ⟨['"'], by rw [hquote]; rfl, by decide⟩
    · by_cases hback : c = '\\'
      · exact .inr ⟨['\\'], by rw [hback]; rfl, by decide⟩
      · exact .inl (escapeChar_eq_self hquote hback (by omega))

/-- No double has a dollar sign in its compact text. -/
theorem notMem_float (x : Float) : '$' ∉ (compact.floats.write x).toList := by
  by_cases hx : x.isFinite = true
  · intro h
    cases isScalarChar_float isReadable_compact.floats hx _ h
  · unfold Decimal.FloatNotation.write
    split
    · decide
    · split <;> decide
    · rename_i hread
      exact absurd (Decimal.isFinite_iff.2 ⟨_, hread⟩) hx

end Json

open Json

namespace Reference

/-! ## Patterns of plain characters -/

namespace Pattern

/-- The characters that a pattern takes are written as they are. -/
structure IsPlain (p : Pattern) : Prop extends p.IsDelimited where
  id_plain : ∀ c, p.inId c = true → escapeChar false c = [c]
  field_plain : ∀ c, p.inField c = true → escapeChar false c = [c]

theorem isDelimited_field : field.IsDelimited :=
  ⟨by decide, by decide⟩

/-- A word character is no control character. -/
theorem le_toNat_of_isWord {c : Char} (h : Text.isWord c = true) : 0x20 ≤ c.toNat := by
  by_contra hlow
  have hall : ∀ n < 0x20, Text.isWord (Char.ofNat n) = false := by decide
  have hc := hall c.toNat (by omega)
  rw [Char.ofNat_toNat, h] at hc
  cases hc

theorem escapeChar_of_isWord {c : Char} (h : Text.isWord c = true) : escapeChar false c = [c] :=
  escapeChar_eq_self (fun hc => by cases hc ▸ h) (fun hc => by cases hc ▸ h) (le_toNat_of_isWord h)

theorem isPlain_field : field.IsPlain where
  toIsDelimited := isDelimited_field
  id_plain _ := escapeChar_of_isWord
  field_plain _ := escapeChar_of_isWord

theorem isWord_of_inField {c : Char} (h : dependency.inField c = true) : Text.isWord c = true := by
  rcases Bool.or_eq_true_iff.1 h with h | h
  · exact Text.isWord_of_isAlphanum h
  · rw [beq_iff_eq.1 h]
    rfl

/-- The ids of the dependency rule are words with dashes. -/
theorem isWord_or_dash_of_inId {c : Char} (h : dependency.inId c = true) :
    Text.isWord c = true ∨ c = '-' :=
  (Bool.or_eq_true_iff.1 h).imp isWord_of_inField beq_iff_eq.1

theorem isPlain_dependency : dependency.IsPlain where
  toIsDelimited := isDelimited_dependency
  id_plain c h := by
    rcases isWord_or_dash_of_inId h with h | rfl
    · exact escapeChar_of_isWord h
    · rfl
  field_plain _ h := escapeChar_of_isWord (isWord_of_inField h)

/-! ## One written string -/

variable {p : Pattern} {r : Found} {s t : List Char}

theorem matchHead?_eq_some_iff (hp : p.IsDelimited) :
    p.matchHead? t = some r ↔ p.Allows r ∧ r.written <+: t :=
  ⟨allows_and_prefix_of_matchHead?, fun h => matchHead?_eq_some_of_append hp h.1 h.2⟩

/-- Two texts begin with the same reference if they begin with the same allowed ones. -/
theorem matchHead?_congr (hp : p.IsDelimited)
    (h : ∀ r, p.Allows r → (r.written <+: s ↔ r.written <+: t)) :
    p.matchHead? s = p.matchHead? t :=
  Option.ext fun r => by
    rw [matchHead?_eq_some_iff hp, matchHead?_eq_some_iff hp, and_congr_right (h r)]

theorem IsPlain.written (hp : p.IsPlain) (hr : p.Allows r) :
    ∀ c ∈ r.written, escapeChar false c = [c] := by
  simp only [Found.written, List.forall_mem_cons, List.forall_mem_append]
  exact ⟨rfl, rfl, fun c hc => hp.id_plain c (hr.id_mem c hc), rfl,
    fun c hc => hp.field_plain c (hr.field_mem c hc), rfl, fun _ h => absurd h List.not_mem_nil⟩

/-- Plain characters stand at the head of a written string exactly if they stand at the head of
the string. -/
theorem prefix_flatMap_escapeChar_iff (hs : ∀ c ∈ s, escapeChar false c = [c]) :
    s <+: t.flatMap (escapeChar false) ↔ s <+: t := by
  induction t generalizing s with
  | nil => rfl
  | cons c cs ih =>
    cases s with
    | nil => simp
    | cons d ds =>
      obtain ⟨hd, hds⟩ := List.forall_mem_cons.1 hs
      rw [List.flatMap_cons]
      rcases escapeChar_cases c with hc | ⟨e, hc, -⟩
      · rw [hc, List.singleton_append, List.cons_prefix_cons, List.cons_prefix_cons, ih hds]
      · have hback : d ≠ '\\' := fun h => by cases h ▸ hd
        have hne : d ≠ c := by
          rintro rfl
          rw [hd] at hc
          exact hback (List.head_eq_of_cons_eq hc)
        rw [hc, List.cons_append, List.cons_prefix_cons, List.cons_prefix_cons]
        exact iff_of_false (fun h => hback h.1) fun h => hne h.1

/-- A written string begins with the reference that the string begins with. -/
theorem matchHead?_escaped (hp : p.IsPlain) (cs rest : List Char) :
    p.matchHead? (cs.flatMap (escapeChar false) ++ '"' :: rest) = p.matchHead? cs :=
  matchHead?_congr hp.toIsDelimited fun r hr => by
    have hplain := hp.written hr
    have hquote : '"' ∉ r.written := fun h => by cases hplain _ h
    rw [Text.prefix_append_cons_iff hquote, prefix_flatMap_escapeChar_iff hplain]

/-- What has no dollar sign has no reference. -/
theorem scan_append_of_notMem (hs : '$' ∉ s) (t : List Char) : p.scan (s ++ t) = p.scan t := by
  induction s with
  | nil => rfl
  | cons c cs ih =>
    rw [List.mem_cons, not_or] at hs
    have hnone : p.matchHead? (c :: (cs ++ t)) = none := by
      unfold matchHead?
      split
      · rename_i heq
        exact absurd (List.head_eq_of_cons_eq heq).symm hs.1
      · rfl
    rw [List.cons_append, scan, hnone, Option.toList_none, List.nil_append, ih hs.2]

theorem scan_cons_of_ne {c : Char} (hc : '$' ≠ c) (t : List Char) : p.scan (c :: t) = p.scan t :=
  scan_append_of_notMem (s := [c]) (by simpa using hc) t

theorem scan_escaped (hp : p.IsPlain) (cs rest : List Char) :
    p.scan (cs.flatMap (escapeChar false) ++ '"' :: rest) = p.scan cs ++ p.scan rest := by
  induction cs with
  | nil => exact scan_cons_of_ne (by decide) rest
  | cons c cs ih =>
    -- only a dollar sign begins a reference, and it is written as it is
    by_cases hc : '$' = c
    · have hhead := matchHead?_escaped hp (c :: cs) rest
      have hself : escapeChar false c = [c] := by
        rw [← hc]
        rfl
      rw [List.flatMap_cons, hself, List.singleton_append, List.cons_append] at hhead ⊢
      rw [scan, scan, hhead, ih, List.append_assoc]
    · have hskip : '$' ∉ escapeChar false c := by
        rcases escapeChar_cases c with h | ⟨e, h, he⟩ <;> rw [h]
        · simpa using hc
        · simpa using he
      rw [List.flatMap_cons, List.append_assoc, scan_append_of_notMem hskip, ih,
        scan_cons_of_ne hc]

/-- A written string has the references of the string. -/
theorem scan_stringText (hp : p.IsPlain) (text : String) (rest : List Char) :
    p.scan (stringText false text ++ rest) = p.scan text.toList ++ p.scan rest := by
  rw [stringText, List.cons_append, scan_cons_of_ne (by decide), List.append_assoc,
    List.singleton_append, scan_escaped hp]

/-! ## Written values -/

/-- What the compact layout has between the strings of a value is passed over. -/
theorem scan_itemBreak (depth : Nat) (t : List Char) :
    p.scan (compact.itemBreak depth ++ t) = p.scan t :=
  scan_append_of_notMem (by simp [Layout.itemBreak, compact]) t

theorem scan_lineStart (depth : Nat) (t : List Char) :
    p.scan (compact.lineStart depth ++ t) = p.scan t :=
  scan_append_of_notMem (by simp [Layout.lineStart, compact]) t

theorem scan_key (hp : p.IsPlain) (k : String) (t : List Char) :
    p.scan (stringText compact.asciiOnly k ++ ':' :: (compact.keyGap.toList ++ t)) =
      p.scan k.toList ++ p.scan t := by
  rw [show compact.asciiOnly = false from rfl, scan_stringText hp, scan_cons_of_ne (by decide)]
  rfl

mutual
/-- A written value has the references of its strings. -/
theorem scan_render (hp : p.IsPlain) : ∀ (depth : Nat) (j : Json) (rest : List Char),
    p.scan (render compact depth j ++ rest) =
      j.allTexts.flatMap (fun text => p.scan text.toList) ++ p.scan rest
  | _, .null, rest => scan_append_of_notMem (s := "null".toList) (by decide) rest
  | _, .bool b, rest => by
    rw [render]
    exact scan_append_of_notMem (by cases b <;> decide) rest
  | _, .int n, rest => scan_append_of_notMem (fun h => by cases isScalarChar_int n _ h) rest
  | _, .float x, rest => scan_append_of_notMem (notMem_float x) rest
  | _, .str s, rest => by
    rw [render, allTexts, List.flatMap_singleton]
    exact scan_stringText hp s rest
  | _, .arr [], rest => scan_append_of_notMem (s := "[]".toList) (by decide) rest
  | depth, .arr (x :: xs), rest => by
    simp (disch := decide) only [render, allTexts, allTextsOfItems, List.cons_append,
      List.append_assoc, List.nil_append, List.flatMap_append, scan_cons_of_ne, scan_lineStart,
      scan_render hp (depth + 1) x, scan_renderItems hp (depth + 1) xs]
  | _, .obj [], rest => scan_append_of_notMem (s := "{}".toList) (by decide) rest
  | depth, .obj ((k, v) :: fs), rest => by
    simp (disch := decide) only [render, allTexts, allTextsOfFields, List.cons_append,
      List.append_assoc, List.nil_append, List.flatMap_cons, List.flatMap_append, scan_cons_of_ne,
      scan_lineStart, scan_key hp k, scan_render hp (depth + 1) v,
      scan_renderFields hp (depth + 1) fs]

theorem scan_renderItems (hp : p.IsPlain) : ∀ (depth : Nat) (xs : List Json) (rest : List Char),
    p.scan (renderItems compact depth xs ++ rest) =
      (allTextsOfItems xs).flatMap (fun text => p.scan text.toList) ++ p.scan rest
  | _, [], rest => rfl
  | depth, x :: xs, rest => by
    simp only [renderItems, allTextsOfItems, List.append_assoc, List.flatMap_append,
      scan_itemBreak, scan_render hp depth x, scan_renderItems hp depth xs]

theorem scan_renderFields (hp : p.IsPlain) : ∀ (depth : Nat) (fs : List (String × Json))
    (rest : List Char), p.scan (renderFields compact depth fs ++ rest) =
      (allTextsOfFields fs).flatMap (fun text => p.scan text.toList) ++ p.scan rest
  | _, [], rest => rfl
  | depth, (k, v) :: fs, rest => by
    simp only [renderFields, allTextsOfFields, List.cons_append,
      List.append_assoc, List.flatMap_cons, List.flatMap_append, scan_itemBreak, scan_key hp k,
      scan_render hp depth v, scan_renderFields hp depth fs]
end

/-- The references in the text of the parameters are those in their strings, in the order in which
these are written. -/
theorem scan_paramsText (hp : p.IsPlain) (i : Instruction) :
    p.scan i.paramsText = i.params.allTexts.flatMap fun text => p.scan text.toList := by
  have hscan := scan_render hp 0 i.params []
  rwa [List.append_nil, scan, List.append_nil] at hscan

/-- Quotes, keys and neighbours neither bring references in nor take any away. -/
example : dependency.scan (render compact 0 (.obj [("$\x7ba.output\x7d",
    .arr [.str "\"$\x7bb-c.foo\x7d", .str "$\x7bd.", .str "foo\x7d"])])) =
    [⟨"a", "output"⟩, ⟨"b-c", "foo"⟩] := by
  decide

theorem mem_scan_paramsText_iff (hp : p.IsPlain) {i : Instruction} :
    r ∈ p.scan i.paramsText ↔
      p.Allows r ∧ ∃ text ∈ i.params.allTexts, r.written <:+: text.toList := by
  simp only [scan_paramsText hp, List.mem_flatMap, mem_scan_iff hp.toIsDelimited]
  constructor
  · rintro ⟨text, htext, hr, hwritten⟩
    exact ⟨hr, text, htext, hwritten⟩
  · rintro ⟨hr, text, htext, hwritten⟩
    exact ⟨text, htext, hr, hwritten⟩

end Pattern

end Reference

end PlanReview
