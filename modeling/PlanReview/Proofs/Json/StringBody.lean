import PlanReview.Proofs.Json.Text

/-!
# Texts of strings

The grammar of what stands between the quotes of a string : characters that stand for themselves,
and escapes by letter, by number, or by two numbers for a pair of units. The reader takes a body
off up to the closing quote exactly if the grammar has it (`stringBody_eq_ok_iff`). Whether the
first half of a pair is a character of its own depends on what follows it (`BeginsLow`), but never
on what follows the closing quote.
-/

namespace PlanReview.Json

variable {start s u w v e cs rest : List Char} {c : Char}

/-! ## The grammar -/

/-- The text begins with an escape for the second half of a pair. -/
def BeginsLow (w : List Char) : Prop :=
  ∃ a b c d v n, w = '\\' :: 'u' :: a :: b :: c :: d :: v ∧ unitOf? a b c d = some n ∧
    isLowUnit n = true

/-- What stands after a backslash, the character that it stands for, and the text after it. -/
inductive IsEscape : List Char → Char → List Char → Prop
  | letter {e c : Char} {w : List Char} : escaped? e = some c → IsEscape [e] c w
  | unit {a b c d : Char} {n : Nat} {w : List Char} : unitOf? a b c d = some n →
      (isHighUnit n = true → ¬BeginsLow w) → IsEscape ['u', a, b, c, d] (unitChar n) w
  | pair {a b c d a' b' c' d' : Char} {n m : Nat} {w : List Char} : unitOf? a b c d = some n →
      isHighUnit n = true → unitOf? a' b' c' d' = some m → isLowUnit m = true →
      IsEscape ['u', a, b, c, d, '\\', 'u', a', b', c', d']
        (Char.ofNat (0x10000 + (n - 0xD800) * 0x400 + (m - 0xDC00))) w

/-- What stands between the quotes of a string, and the characters of the string. -/
inductive IsBody : List Char → List Char → Prop
  | nil : IsBody [] []
  | plain {c : Char} {w cs : List Char} : 0x20 ≤ c.toNat → c ≠ '"' → c ≠ '\\' → IsBody w cs →
      IsBody (c :: w) (c :: cs)
  | escape {e : List Char} {c : Char} {w cs : List Char} : IsEscape e c w → IsBody w cs →
      IsBody ('\\' :: (e ++ w)) (c :: cs)

/-! ## What the reader takes off -/

theorem secondUnit?_of_beginsLow (h : BeginsLow w) (c : Char) (v : List Char) :
    ∃ n r, secondUnit? (w ++ c :: v) = .ok (some (n, r)) := by
  obtain ⟨a, b, c', d, w', n, rfl, hunit, hlow⟩ := h
  obtain ⟨x, xs, hx⟩ : ∃ x xs, w' ++ c :: v = x :: xs := by
    cases w' <;> exact ⟨_, _, rfl⟩
  refine ⟨n, x :: xs, ?_⟩
  simp only [List.cons_append, hx, secondUnit?, hunit, hlow, if_true]

theorem secondUnit?_some {n : Nat} (h : secondUnit? s = .ok (some (n, u))) :
    ∃ a b c d, s = '\\' :: 'u' :: a :: b :: c :: d :: u ∧ unitOf? a b c d = some n ∧
      isLowUnit n = true := by
  unfold secondUnit? at h
  split at h
  · split at h
    · cases h
    · split at h
      · cases h
        exact ⟨_, _, _, _, rfl, ‹_›, ‹_›⟩
      · cases h
  · cases h

/-- What the reader takes for an escape by number is one, if a quote comes later. -/
theorem isEscape_of_numberedChar (h : numberedChar s = .ok (c, w ++ '"' :: v)) :
    ∃ e, s = e ++ (w ++ '"' :: v) ∧ IsEscape ('u' :: e) c w := by
  unfold numberedChar at h
  split at h
  · rename_i a b c' d x xs
    split at h
    · cases h
    · rename_i n hunit
      split at h
      · rename_i hhigh
        split at h
        · cases h
        · rename_i m r hsecond
          obtain ⟨rfl, rfl⟩ := Prod.mk.inj (Except.ok.inj h)
          obtain ⟨a', b', c'', d', heq, hunit', hlow⟩ := secondUnit?_some hsecond
          exact ⟨[a, b, c', d, '\\', 'u', a', b', c'', d'], by rw [heq]; rfl,
            .pair hunit hhigh hunit' hlow⟩
        · rename_i hsecond
          obtain ⟨rfl, hrest⟩ := Prod.mk.inj (Except.ok.inj h)
          refine ⟨[a, b, c', d], by rw [← hrest]; rfl, .unit hunit fun _ hbegins => ?_⟩
          obtain ⟨k, r, hk⟩ := secondUnit?_of_beginsLow hbegins '"' v
          rw [hrest, hk] at hsecond
          cases hsecond
      · rename_i hhigh
        obtain ⟨rfl, hrest⟩ := Prod.mk.inj (Except.ok.inj h)
        exact ⟨[a, b, c', d], by rw [← hrest]; rfl, .unit hunit fun hh => absurd hh hhigh⟩
  · cases h

theorem isEscape_of_escapedChar (h : escapedChar start s = .ok (c, w ++ '"' :: v)) :
    ∃ e, s = e ++ (w ++ '"' :: v) ∧ IsEscape e c w := by
  unfold escapedChar at h
  split at h
  · cases h
  · obtain ⟨e, rfl, he⟩ := isEscape_of_numberedChar h
    exact ⟨'u' :: e, rfl, he⟩
  · split at h
    · obtain ⟨rfl, rfl⟩ := Prod.mk.inj (Except.ok.inj h)
      exact ⟨[_], rfl, .letter ‹_›⟩
    · cases h

theorem eq_ok_of_consChar {read : Except Failed (List Char × List Char)}
    (h : consChar c read = .ok (cs, u)) : ∃ ds, cs = c :: ds ∧ read = .ok (ds, u) := by
  cases read with
  | error f => cases h
  | ok p =>
    cases h
    exact ⟨_, rfl, rfl⟩

theorem isBody_of_stringBody (start s : List Char) :
    ∀ {cs u : List Char}, stringBody start s = .ok (cs, u) →
      ∃ w, s = w ++ '"' :: u ∧ IsBody w cs := by
  fun_induction stringBody start s with
  | case1 | case3 | case5 =>
    intro cs u h
    cases h
  | case2 rest =>
    intro cs u h
    cases h
    exact ⟨[], rfl, .nil⟩
  | case4 rest c rest' he ih =>
    intro cs u h
    obtain ⟨ds, rfl, hread⟩ := eq_ok_of_consChar h
    obtain ⟨w, rfl, hw⟩ := ih hread
    obtain ⟨e, rfl, hescape⟩ := isEscape_of_escapedChar he
    exact ⟨'\\' :: (e ++ w), by simp, .escape hescape hw⟩
  | case6 c rest hquote hback hcontrol ih =>
    intro cs u h
    obtain ⟨ds, rfl, hread⟩ := eq_ok_of_consChar h
    obtain ⟨w, rfl, hw⟩ := ih hread
    exact ⟨c :: w, rfl, .plain (Nat.le_of_not_lt hcontrol) hquote hback hw⟩

/-! ## What the grammar has is taken off -/

/-- Without a second half of a pair in the body, none is seen up to the quote. -/
theorem secondUnit?_of_isBody (hw : IsBody w cs) (hbegins : ¬BeginsLow w) (v : List Char) :
    secondUnit? (w ++ '"' :: v) = .ok none := by
  -- an escape by number that the body begins with is not one for a second half
  have hunit {a b c d : Char} {n : Nat} {x y : List Char} (h : unitOf? a b c d = some n)
      (hx : w = '\\' :: 'u' :: a :: b :: c :: d :: x) (hy : x ++ '"' :: v = y) :
      secondUnit? ('\\' :: 'u' :: a :: b :: c :: d :: y) = .ok none := by
    have hlow : isLowUnit n = false :=
      Bool.eq_false_iff.2 fun hlow => hbegins ⟨a, b, c, d, x, n, hx, h, hlow⟩
    cases y with
    | nil => simp at hy
    | cons z zs => simp only [secondUnit?, h, hlow, Bool.false_eq_true, if_false]
  cases hw with
  | nil => rfl
  | plain _ _ hback _ =>
    rw [List.cons_append]
    unfold secondUnit?
    split
    · rename_i heq
      exact absurd (List.head_eq_of_cons_eq heq) hback
    · rfl
  | escape he _ =>
    cases he with
    | letter he =>
      rw [List.cons_append, List.cons_append, List.cons_append]
      unfold secondUnit?
      split
      · rename_i heq
        rw [List.head_eq_of_cons_eq (List.tail_eq_of_cons_eq heq)] at he
        cases he
      · rfl
    | unit h _ => exact hunit h rfl (by simp)
    | pair h _ _ _ => exact hunit h rfl (by simp)

theorem escapedChar_append (he : IsEscape e c w) (hw : IsBody w cs) (start v : List Char) :
    escapedChar start (e ++ (w ++ '"' :: v)) = .ok (c, w ++ '"' :: v) := by
  obtain ⟨x, xs, hx⟩ : ∃ x xs, w ++ '"' :: v = x :: xs := by
    cases w <;> exact ⟨_, _, rfl⟩
  cases he with
  | letter he =>
    rw [List.cons_append, List.nil_append, escapedChar]
    · rw [he]
    · rintro rfl
      cases he
  | @unit a b c' d n w hunit hhigh =>
    have hsecond := secondUnit?_of_isBody hw (v := v)
    rw [hx] at hsecond ⊢
    simp only [List.cons_append, List.nil_append, escapedChar, numberedChar, hunit]
    split
    · rw [hsecond (hhigh ‹_›)]
    · rfl
  | pair hunit hhigh hunit' hlow =>
    rw [hx]
    simp only [List.cons_append, List.nil_append, escapedChar, numberedChar, secondUnit?, hunit,
      hhigh, hunit', hlow, if_true]

theorem stringBody_append (h : IsBody w cs) (start v : List Char) :
    stringBody start (w ++ '"' :: v) = .ok (cs, v) := by
  induction h with
  | nil => rw [List.nil_append, stringBody]
  | plain hcontrol hquote hback _ ih =>
    rw [List.cons_append, stringBody_plain hquote hback hcontrol, ih]
    rfl
  | escape he hw ih =>
    rw [List.cons_append, List.append_assoc,
      stringBody_backslash (escapedChar_append he hw start v), ih]
    rfl

/-- A body is taken off up to the closing quote exactly if the grammar has it. -/
theorem stringBody_eq_ok_iff :
    stringBody start s = .ok (cs, u) ↔ ∃ w, s = w ++ '"' :: u ∧ IsBody w cs := by
  constructor
  · exact isBody_of_stringBody start s
  · rintro ⟨w, rfl, hw⟩
    exact stringBody_append hw start u

end PlanReview.Json
