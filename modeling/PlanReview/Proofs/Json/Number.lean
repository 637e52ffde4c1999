import PlanReview.Json.Reader
import PlanReview.Json.Writer
import PlanReview.Proofs.Decimal.Shortest

/-!
# Numbers in JSON

A number is read back as it was written (`scalar?_int`, `scalar?_float`), whatever text follows
that does not go on with it (`Stops`). The text of a double is taken apart by the reader into a
whole part, a fraction and an exponent; together they are the shortest decimal of the double, with
zeros added at either end, and every decimal of that value is read as the double
(`ofDecimal_of_value`).
-/

namespace PlanReview.Json

open Decimal

/-! ## Digits -/

/-- The text does not begin with a digit. -/
def NoDigit (rest : List Char) : Prop :=
  ∀ c ∈ rest.head?, c.isDigit = false

/-- The text does not go on with a number. -/
structure Stops (rest : List Char) : Prop where
  noDigit : NoDigit rest
  noMark : ∀ c ∈ rest.head?, c ≠ '.' ∧ c ≠ 'e' ∧ c ≠ 'E'

/-- A list of digits. -/
def AllDigits (ds : List Char) : Prop :=
  ∀ c ∈ ds, c.isDigit = true

variable {ds ws fs es rest s t u : List Char}

theorem AllDigits.append (h : AllDigits ds) (h' : AllDigits fs) : AllDigits (ds ++ fs) := by
  intro c hc
  rcases List.mem_append.1 hc with hc | hc
  · exact h c hc
  · exact h' c hc

theorem allDigits_replicate (n : Nat) : AllDigits (List.replicate n '0') := by
  intro c hc
  rw [List.eq_of_mem_replicate hc]
  rfl

theorem allDigits_toDigits (n : Nat) : AllDigits (Nat.toDigits 10 n) :=
  fun _ hc => Nat.isDigit_of_mem_toDigits (by decide) (by decide) hc

theorem AllDigits.take (h : AllDigits ds) (n : Nat) : AllDigits (ds.take n) :=
  fun c hc => h c (List.mem_of_mem_take hc)

theorem AllDigits.drop (h : AllDigits ds) (n : Nat) : AllDigits (ds.drop n) :=
  fun c hc => h c (List.mem_of_mem_drop hc)

theorem digits_append (h : AllDigits ds) (hrest : NoDigit rest) :
    digits (ds ++ rest) = (ds, rest) := by
  have htail : rest.takeWhile Char.isDigit = [] ∧ rest.dropWhile Char.isDigit = rest := by
    cases rest with
    | nil => exact ⟨rfl, rfl⟩
    | cons c cs =>
      have := hrest c rfl
      simp [List.takeWhile, List.dropWhile, this]
  unfold digits
  rw [List.takeWhile_append_of_pos h, List.dropWhile_append_of_pos h, htail.1, htail.2,
    List.append_nil]

theorem natOfDigits_append (as bs : List Nat) :
    natOfDigits (as ++ bs) = natOfDigits as * 10 ^ bs.length + natOfDigits bs := by
  induction bs using List.reverseRecOn with
  | nil => simp [natOfDigits]
  | append_singleton bs b ih =>
    rw [← List.append_assoc]
    unfold natOfDigits at *
    rw [List.foldl_concat, List.foldl_concat, ih, List.length_append, List.length_singleton]
    ring

theorem length_filterMap_digits (h : AllDigits ds) :
    (ds.filterMap asciiDigit?).length = ds.length := by
  induction ds with
  | nil => rfl
  | cons c cs ih =>
    have hc : asciiDigit? c = some (c.toNat - '0'.toNat) := if_pos (h c List.mem_cons_self)
    rw [List.filterMap_cons_some hc, List.length_cons, List.length_cons,
      ih fun d hd => h d (List.mem_cons_of_mem _ hd)]

theorem digitsValue_append (as : List Char) (h : AllDigits ds) :
    digitsValue (as ++ ds) = digitsValue as * 10 ^ ds.length + digitsValue ds := by
  unfold digitsValue
  rw [List.filterMap_append, natOfDigits_append, length_filterMap_digits h]

theorem digitsValue_replicate (n : Nat) : digitsValue (List.replicate n '0') = 0 := by
  induction n with
  | zero => rfl
  | succ n ih =>
    rw [List.replicate_succ', ← List.replicate_one,
      digitsValue_append _ (allDigits_replicate 1), ih]
    rfl

theorem digitsValue_toDigits (n : Nat) : digitsValue (Nat.toDigits 10 n) = n := by
  induction n using Nat.strongRecOn with
  | ind n ih =>
    have hlast : ∀ d < 10, digitsValue [Nat.digitChar d] = d := by decide
    rw [Nat.toDigits_eq_if (by decide)]
    split
    · exact hlast n ‹_›
    · have hdigit : AllDigits [Nat.digitChar (n % 10)] := by
        intro c hc
        rw [List.mem_singleton.1 hc]
        have : ∀ d < 10, (Nat.digitChar d).isDigit = true := by decide
        exact this _ (Nat.mod_lt _ (by decide))
      rw [digitsValue_append _ hdigit, ih _ (by omega), hlast _ (Nat.mod_lt _ (by decide))]
      simp only [List.length_singleton, pow_one]
      omega

/-! ## The parts of a number -/

/-- A whole part as it is written : a single zero, or digits that start with another one. -/
structure IsWhole (ws : List Char) : Prop where
  digits : AllDigits ws
  ne_nil : ws ≠ []
  first : ws.head? = some '0' → ws = ['0']

theorem wholePart_append (h : IsWhole ws) (hrest : NoDigit rest) :
    wholePart (ws ++ rest) = (ws, rest) := by
  obtain ⟨hdigits, hne, hfirst⟩ := h
  cases ws with
  | nil => exact absurd rfl hne
  | cons c cs =>
    by_cases hc : c = '0'
    · subst hc
      obtain rfl : cs = [] := by simpa using hfirst rfl
      rfl
    · have : wholePart (c :: cs ++ rest) = Json.digits (c :: cs ++ rest) := by
        rw [List.cons_append, wholePart]
        exact fun _ h => hc (List.head_eq_of_cons_eq h)
      rw [this, digits_append hdigits hrest]

theorem fraction_point (h : AllDigits fs) (hne : fs ≠ []) (hrest : NoDigit rest) :
    fraction ('.' :: (fs ++ rest)) = (fs, rest) := by
  cases fs with
  | nil => exact absurd rfl hne
  | cons c cs =>
    rw [List.cons_append, fraction, if_pos (h c List.mem_cons_self), ← List.cons_append,
      digits_append h hrest]

theorem fraction_none (h : ∀ c ∈ rest.head?, c ≠ '.') : fraction rest = ([], rest) := by
  unfold fraction
  split
  · exact absurd rfl (h _ rfl)
  · rfl

theorem exponent_none (h : Stops rest) : exponent rest = (none, rest) := by
  unfold exponent
  split
  · rfl
  · rename_i c cs
    obtain ⟨-, he, hE⟩ := h.noMark c rfl
    rw [if_neg (by simp [he, hE])]

/-- The number that a sign and digits write. -/
def signedValue (negative : Bool) (es : List Char) : Int :=
  if negative then -(digitsValue es : Int) else digitsValue es

/-- The sign of an exponent as it is written; true for a minus. -/
inductive IsSign : List Char → Bool → Prop
  | none : IsSign [] false
  | plus : IsSign ['+'] false
  | minus : IsSign ['-'] true

theorem readSign_append {sign : List Char} {negative : Bool} (hsign : IsSign sign negative)
    (h : AllDigits es) (hne : es ≠ []) (rest : List Char) :
    readSign (sign ++ (es ++ rest)) = (negative, es ++ rest) := by
  cases hsign with
  | plus | minus => rfl
  | none =>
    obtain ⟨c, cs, rfl⟩ := List.exists_cons_of_ne_nil hne
    have hc := h c List.mem_cons_self
    rw [List.nil_append, List.cons_append]
    unfold readSign
    split
    · rename_i heq
      cases heq
      cases hc
    · rename_i heq
      cases heq
      cases hc
    · rfl

theorem exponent_some {mark : Char} {sign : List Char} {negative : Bool}
    (hmark : mark = 'e' ∨ mark = 'E') (hsign : IsSign sign negative) (h : AllDigits es)
    (hne : es ≠ []) (hrest : Stops rest) :
    exponent (mark :: (sign ++ (es ++ rest))) = (some (signedValue negative es), rest) := by
  unfold exponent
  dsimp only
  rw [if_pos (by simpa using hmark), readSign_append hsign h hne]
  simp only [digits_append h hrest.noDigit]
  cases es with
  | nil => exact absurd rfl hne
  | cons c cs => rfl

theorem magnitude?_eq {e? : Option Int} (hw : wholePart s = (ws, t)) (hws : ws ≠ [])
    (hf : fraction t = (fs, u)) (he : exponent u = (e?, rest)) (negative : Bool) :
    magnitude? negative s =
      if fs.isEmpty && e?.isNone then some (.int (signedValue negative ws), rest)
      else some (.float (ofDecimal negative (digitsValue (ws ++ fs)) (e?.getD 0 - fs.length)),
        rest) := by
  unfold magnitude?
  rw [hw]
  cases ws with
  | nil => exact absurd rfl hws
  | cons c cs => simp only [hf, he, signedValue]

/-! ## Doubles -/

/-- What a number that is written with a fraction or an exponent is read as. -/
structure ReadsAs (negative : Bool) (text : List Char) (v : ℚ) : Prop where
  read : ∀ rest, Stops rest → ∃ (n : Nat) (e : Int),
    magnitude? negative (text ++ rest) = some (.float (ofDecimal negative n e), rest) ∧
      (n : ℚ) * 10 ^ e = v

theorem noDigit_point (cs : List Char) : NoDigit ('.' :: cs) := by
  intro c hc
  obtain rfl : '.' = c := by simpa using hc
  rfl

/-- A whole part and a fraction. -/
theorem readsAs_fraction (hw : IsWhole ws) (hf : AllDigits fs) (hne : fs ≠ []) (negative : Bool) :
    ReadsAs negative (ws ++ '.' :: fs) (digitsValue (ws ++ fs) * 10 ^ (-(fs.length : ℤ))) := by
  refine ⟨fun rest hrest => ⟨digitsValue (ws ++ fs), 0 - fs.length, ?_, by rw [zero_sub]⟩⟩
  rw [List.append_assoc, List.cons_append,
    magnitude?_eq (wholePart_append hw (noDigit_point _)) hw.ne_nil
      (fraction_point hf hne hrest.noDigit) (exponent_none hrest), if_neg (by simp [hne])]
  rfl

theorem digitsValue_zeros_append (n : Nat) (h : AllDigits ds) :
    digitsValue (List.replicate n '0' ++ ds) = digitsValue ds := by
  rw [digitsValue_append _ h, digitsValue_replicate, Nat.zero_mul, Nat.zero_add]

theorem isWhole_zero : IsWhole ['0'] :=
  ⟨allDigits_replicate 1, by simp, fun _ => rfl⟩

/-- All digits stand behind the point, after `k` zeros. -/
theorem readsAs_placePoint_before (hds : IsWhole ds) (k : ℕ) (negative : Bool) :
    ReadsAs negative (placePoint ds (-k)).toList
      (digitsValue ds * 10 ^ (-(k : ℤ) - ds.length)) := by
  have hall : AllDigits (List.replicate k '0' ++ ds) := (allDigits_replicate k).append hds.digits
  have hne : List.replicate k '0' ++ ds ≠ [] := by simp [hds.ne_nil]
  have h := readsAs_fraction isWhole_zero hall hne negative
  have hvalue : digitsValue (['0'] ++ (List.replicate k '0' ++ ds)) = digitsValue ds := by
    rw [← List.replicate_one, ← List.append_assoc, ← List.replicate_add,
      digitsValue_zeros_append _ hds.digits]
  have hexp : -((List.replicate k '0' ++ ds).length : ℤ) = -(k : ℤ) - ds.length := by
    simp only [List.length_append, List.length_replicate]
    omega
  rw [hvalue, hexp] at h
  unfold placePoint
  simpa [hds.ne_nil] using h

/-- The point stands among the digits. -/
theorem readsAs_placePoint_within (hds : IsWhole ds) {k : ℕ} (hpos : k ≠ 0)
    (hlt : k < ds.length) (negative : Bool) :
    ReadsAs negative (placePoint ds k).toList (digitsValue ds * 10 ^ ((k : ℤ) - ds.length)) := by
  have hwhole : IsWhole (ds.take k) := by
    refine ⟨hds.digits.take k, by simp [hds.ne_nil]; omega, fun hfirst => ?_⟩
    have := hds.first (by rwa [List.head?_take, if_neg (by omega)] at hfirst)
    rw [this] at hlt ⊢
    simp only [List.length_singleton] at hlt
    omega
  have hne : ds.drop k ≠ [] := by simpa using hlt
  have h := readsAs_fraction hwhole (hds.digits.drop k) hne negative
  have hexp : -((ds.drop k).length : ℤ) = (k : ℤ) - ds.length := by
    rw [List.length_drop]
    omega
  rw [List.take_append_drop, hexp] at h
  have hgap : k - ds.length = 0 := by omega
  unfold placePoint
  simpa [hpos, hne, hgap] using h

/-- The point stands behind the digits, and the zeros that they are filled up with. -/
theorem readsAs_placePoint_behind (hds : IsWhole ds) {k : ℕ} (hpos : k ≠ 0)
    (hge : ds.length ≤ k) (hpoint : ds = ['0'] → k = 1) (negative : Bool) :
    ReadsAs negative (placePoint ds k).toList (digitsValue ds * 10 ^ ((k : ℤ) - ds.length)) := by
  have hwhole : IsWhole (ds ++ List.replicate (k - ds.length) '0') := by
    refine ⟨hds.digits.append (allDigits_replicate _), by simp [hds.ne_nil], fun hfirst => ?_⟩
    have hzero := hds.first (by rwa [List.head?_append_of_ne_nil _ hds.ne_nil] at hfirst)
    rw [hzero, hpoint hzero]
    rfl
  have h := readsAs_fraction hwhole (allDigits_replicate 1) (by simp) negative
  have hvalue : (digitsValue (ds ++ List.replicate (k - ds.length) '0' ++
      List.replicate 1 '0') : ℚ) * 10 ^ (-((List.replicate 1 '0').length : ℤ)) =
        digitsValue ds * 10 ^ ((k : ℤ) - ds.length) := by
    rw [List.append_assoc, ← List.replicate_add, digitsValue_append _ (allDigits_replicate _),
      digitsValue_replicate, show (k : ℤ) - ds.length = (k - ds.length : ℕ) by omega,
      zpow_natCast, List.length_replicate, List.length_replicate, pow_succ]
    push_cast
    ring
  rw [hvalue] at h
  have hdrop : ds.drop k = [] := List.drop_eq_nil_of_le hge
  unfold placePoint
  simpa [hpos, hdrop, List.take_of_length_le hge] using h

/-- Digits with a point placed among them. -/
theorem readsAs_placePoint (hds : IsWhole ds) {point : Int} (hpoint : ds = ['0'] → point = 1)
    (negative : Bool) :
    ReadsAs negative (placePoint ds point).toList (digitsValue ds * 10 ^ (point - ds.length)) := by
  rcases le_or_gt point 0 with hle | hgt
  · obtain ⟨k, rfl⟩ : ∃ k : ℕ, point = -(k : ℤ) := ⟨(-point).toNat, by omega⟩
    exact readsAs_placePoint_before hds k negative
  · obtain ⟨k, rfl⟩ : ∃ k : ℕ, point = k := ⟨point.toNat, by omega⟩
    have hpos : k ≠ 0 := by omega
    rcases Nat.lt_or_ge k ds.length with hlt | hge
    · exact readsAs_placePoint_within hds hpos hlt negative
    · exact readsAs_placePoint_behind hds hpos hge (fun h => by exact_mod_cast hpoint h) negative

/-- Digits with a point after the first of them, and an exponent. -/
theorem readsAs_exponent {c : Char} {cs : List Char} (hds : AllDigits (c :: cs))
    (he : AllDigits es) (hne : es ≠ []) (negative down : Bool) :
    ReadsAs negative ((if cs.isEmpty then [c] else c :: '.' :: cs) ++
        'e' :: (if down then '-' else '+') :: es)
      (digitsValue (c :: cs) * 10 ^ (signedValue down es - cs.length)) := by
  have hwhole : IsWhole [c] := by
    refine ⟨fun d hd => hds d (by simp_all), by simp, fun h => ?_⟩
    rw [Option.some.inj h]
  have hmark : ∀ rest, NoDigit ('e' :: rest) := by
    intro rest d hd
    obtain rfl : 'e' = d := by simpa using hd
    rfl
  refine ⟨fun rest hrest => ⟨digitsValue (c :: cs), signedValue down es - cs.length, ?_, rfl⟩⟩
  have hsign : IsSign [if down then '-' else '+'] down := by
    cases down
    · exact .plus
    · exact .minus
  have hexp : exponent ('e' :: (if down then '-' else '+') :: (es ++ rest)) =
      (some (signedValue down es), rest) := exponent_some (.inl rfl) hsign he hne hrest
  cases cs with
  | nil =>
    have hfrac : fraction ('e' :: (if down then '-' else '+') :: (es ++ rest)) =
        ([], 'e' :: (if down then '-' else '+') :: (es ++ rest)) :=
      fraction_none fun d hd => by
        obtain rfl : 'e' = d := by simpa using hd
        decide
    have h := magnitude?_eq (wholePart_append hwhole (hmark _)) hwhole.ne_nil hfrac hexp negative
    simpa using h
  | cons d ds =>
    have htail : AllDigits (d :: ds) := fun x hx => hds x (List.mem_cons_of_mem _ hx)
    have h := magnitude?_eq (wholePart_append hwhole (noDigit_point _)) hwhole.ne_nil
      (fraction_point htail (by simp) (hmark _)) hexp negative
    simpa using h

/-- The notation is one of JSON : zero is written with a point, and a positive exponent with a
plus. -/
structure IsJsonNotation (style : FloatNotation) : Prop where
  low : style.low ≤ 0
  high : 0 < style.high
  plus : style.plus = "+"

theorem exponentText_toList {style : FloatNotation} (h : IsJsonNotation style) (e : Int) :
    ∃ es, (style.exponentText e).toList = 'e' :: (if decide (e < 0) then '-' else '+') :: es ∧
      AllDigits es ∧ es ≠ [] ∧ signedValue (decide (e < 0)) es = e := by
  refine ⟨List.replicate (style.exponentWidth - (toString e.natAbs).length) '0' ++
    Nat.toDigits 10 e.natAbs, ?_, (allDigits_replicate _).append (allDigits_toDigits _),
    by simp, ?_⟩
  · unfold FloatNotation.exponentText
    rw [h.plus]
    by_cases he : e < 0 <;> simp [he]
  · unfold signedValue
    rw [digitsValue_zeros_append _ (allDigits_toDigits _), digitsValue_toDigits]
    by_cases he : e < 0
    · rw [decide_eq_true he, if_pos rfl]
      omega
    · rw [decide_eq_false he, if_neg Bool.false_ne_true]
      omega

theorem toDigits_head (n : Nat) (h : (Nat.toDigits 10 n).head? = some '0') :
    Nat.toDigits 10 n = ['0'] := by
  induction n using Nat.strongRecOn with
  | ind n ih =>
    rw [Nat.toDigits_eq_if (by decide)] at h ⊢
    split
    · rename_i hlt
      rw [if_pos hlt, List.head?_cons, Option.some_inj] at h
      rw [h]
    · rename_i hge
      rw [if_neg hge, List.head?_append_of_ne_nil _ Nat.toDigits_ne_nil] at h
      have hzero := congrArg digitsValue (ih (n / 10) (by omega) h)
      rw [digitsValue_toDigits] at hzero
      have : digitsValue ['0'] = 0 := rfl
      omega

theorem isWhole_toDigits (n : Nat) : IsWhole (Nat.toDigits 10 n) :=
  ⟨allDigits_toDigits n, Nat.toDigits_ne_nil, toDigits_head n⟩

theorem digits_eq_zero {n : Nat} (h : Nat.toDigits 10 n = ['0']) : n = 0 := by
  rw [← digitsValue_toDigits n, h]
  rfl

theorem shortest_eq_zero {x : Float} {b : Binary} (hb : Reading.ofFloat x = .finite b)
    (h : (shortest b).digits = 0) : shortest b = ⟨0, 0⟩ := by
  rcases Nat.eq_zero_or_pos b.mantissa with h0 | hpos
  · exact if_pos h0
  · have hcanonical := canonical_of_ofFloat hb
    have hlt := (shortest_covers hcanonical hpos).value_gt hcanonical hpos
    have hunit : (0 : ℚ) < 2 ^ (-1076 : ℤ) := by positivity
    rw [Scaled.value, h, Nat.cast_zero, zero_mul] at hlt
    exact absurd (hunit.trans hlt) (lt_irrefl 0)

/-- Digits with a point after the first one, where there are more. -/
theorem pointed_eq (c : Char) (cs : List Char) :
    (if cs.isEmpty then [c] else c :: '.' :: cs) =
      match c :: cs with
      | c :: [] => [c]
      | c :: cs => c :: '.' :: cs
      | [] => [] := by
  cases cs <;> rfl

/-- The digits of a finite double are read as its shortest decimal. -/
theorem exists_readsAs_write {style : FloatNotation} (h : IsJsonNotation style) {x : Float}
    {b : Binary} (hb : Reading.ofFloat x = .finite b) :
    ∃ body, (style.write x).toList = (if b.negative then ['-'] else []) ++ body ∧
      ReadsAs b.negative body (shortest b).value := by
  have hsign : (if b.negative then "-" else "").toList = if b.negative then ['-'] else [] := by
    cases b.negative <;> rfl
  have hdigits : (toString (shortest b).digits).toList = Nat.toDigits 10 (shortest b).digits :=
    Nat.toList_repr
  have hwhole := isWhole_toDigits (shortest b).digits
  have hvalue := digitsValue_toDigits (shortest b).digits
  have hzero : Nat.toDigits 10 (shortest b).digits = ['0'] → shortest b = ⟨0, 0⟩ :=
    fun hd => shortest_eq_zero hb (digits_eq_zero hd)
  have hscaled : (shortest b).value = (shortest b).digits * 10 ^ (shortest b).exponent := rfl
  unfold FloatNotation.write
  rw [hb]
  dsimp only
  rw [hdigits]
  generalize shortest b = d at *
  generalize Nat.toDigits 10 d.digits = ds at *
  split
  · refine ⟨_, by rw [String.toList_append, hsign], ?_⟩
    have hpoint : ds = ['0'] → d.exponent + (ds.length : ℤ) - 1 + 1 = 1 := by
      intro hd
      rw [hzero hd, hd]
      rfl
    have hread := readsAs_placePoint hwhole hpoint b.negative
    rw [hvalue] at hread
    have hlen : d.exponent + (ds.length : ℤ) - 1 + 1 - ds.length = d.exponent := by omega
    rwa [hlen] at hread
  · obtain ⟨es, htext, hall, hne, hexp⟩ := exponentText_toList h (d.exponent + ds.length - 1)
    cases ds with
    | nil => exact absurd rfl hwhole.ne_nil
    | cons c cs =>
      have hread := readsAs_exponent hwhole.digits hall hne b.negative
        (decide (d.exponent + (c :: cs).length - 1 < 0))
      rw [hexp, hvalue, pointed_eq, ← htext] at hread
      refine ⟨_, by rw [String.toList_append, String.toList_append, hsign, String.toList_ofList,
        List.append_assoc], ?_⟩
      rw [hscaled]
      have hlen : d.exponent = d.exponent + (c :: cs).length - 1 - cs.length := by
        simp only [List.length_cons, Nat.cast_add, Nat.cast_one]
        omega
      rwa [← hlen] at hread

theorem head_isDigit_of_magnitude? {negative : Bool} {r : Json × List Char}
    (h : magnitude? negative s = some r) : ∃ c ∈ s.head?, c.isDigit = true := by
  cases s with
  | nil => cases h
  | cons c cs =>
    refine ⟨c, rfl, ?_⟩
    by_contra hc
    have hwhole : wholePart (c :: cs) = ([], c :: cs) := by
      unfold wholePart
      split
      · rename_i heq
        cases heq
        exact absurd rfl hc
      · simp [Json.digits, hc]
    unfold magnitude? at h
    rw [hwhole] at h
    cases h

/-- A decimal with the value of a double's shortest one is read as the double. -/
theorem ofDecimal_of_value {x : Float} {b : Binary} (hb : Reading.ofFloat x = .finite b) {n : Nat}
    {e : Int} (h : (n : ℚ) * 10 ^ e = (shortest b).value) : ofDecimal b.negative n e = x := by
  have hcanonical := canonical_of_ofFloat hb
  unfold ofDecimal
  rcases Nat.eq_zero_or_pos b.mantissa with h0 | hpos
  · have hn : n = 0 := by
      have hten : (10 : ℚ) ^ e ≠ 0 := by positivity
      have hshort : shortest b = ⟨0, 0⟩ := if_pos h0
      rw [hshort] at h
      simpa [Scaled.value, hten] using h
    have hbits : b.bits = 0 := by
      have := hcanonical.normal
      have := hcanonical.low
      unfold Binary.bits
      omega
    have hzero : decimalBits n e = b.bits := by simp [hn, hbits, decimalBits]
    rw [hzero, signed_of_ofFloat hb]
  · have hcovers := shortest_covers hcanonical hpos
    rw [← h] at hcovers
    rw [Binary.decimalBits_of_covers hcanonical hpos hcovers, signed_of_ofFloat hb]

/-! ## Words and numbers -/

theorem afterStart?_eq_none {start text : List Char} (h : ∀ rest, text ≠ start ++ rest) :
    Text.afterStart? start text = none := by
  by_contra hne
  obtain ⟨rest, hrest⟩ := Option.ne_none_iff_exists'.1 hne
  exact h rest (Text.afterStart?_eq_some_iff.1 hrest)

/-- No word begins like a number. -/
theorem findSome?_words_eq_none {negative : Bool} {r : Json × List Char}
    (h : magnitude? negative s = some r) :
    (words.findSome? fun w =>
      (Text.afterStart? w.1.toList ((if negative then ['-'] else []) ++ s)).map
        fun rest => (w.2, rest)) = none := by
  obtain ⟨c, hc, hdigit⟩ := head_isDigit_of_magnitude? h
  cases s with
  | nil => cases hc
  | cons d cs =>
    obtain rfl : d = c := by simpa using hc
    have hne : ∀ e : Char, e.isDigit = false → d ≠ e := by
      rintro e he rfl
      rw [hdigit] at he
      cases he
    rw [List.findSome?_eq_none_iff]
    intro w hw
    rw [Option.map_eq_none_iff]
    refine afterStart?_eq_none fun rest hrest => ?_
    simp only [words, List.mem_cons, List.not_mem_nil, or_false] at hw
    rcases hw with rfl | rfl | rfl | rfl | rfl | rfl <;> cases negative <;>
      simp at hrest
    all_goals exact hne _ (by decide) hrest.1

/-- A number with its sign is read as its magnitude is. -/
theorem scalar?_of_magnitude? {negative : Bool} {r : Json × List Char}
    (h : magnitude? negative s = some r) :
    scalar? ((if negative then ['-'] else []) ++ s) = some r := by
  unfold scalar?
  rw [findSome?_words_eq_none h]
  cases negative with
  | true => exact h
  | false =>
    obtain ⟨c, hc, hdigit⟩ := head_isDigit_of_magnitude? h
    dsimp only
    split
    · rename_i heq
      rw [show s = _ from heq] at hc
      cases hc
      cases hdigit
    · exact h

theorem scalar?_float {style : FloatNotation} (h : IsJsonNotation style) {x : Float}
    (hx : x.isFinite = true) (hrest : Stops rest) :
    scalar? ((style.write x).toList ++ rest) = some (.float x, rest) := by
  obtain ⟨b, hb⟩ := isFinite_iff.1 hx
  obtain ⟨body, htext, hread⟩ := exists_readsAs_write h hb
  obtain ⟨n, e, hmagnitude, hvalue⟩ := hread.read rest hrest
  rw [htext, List.append_assoc, scalar?_of_magnitude? hmagnitude, ofDecimal_of_value hb hvalue]

/-- The text of an integer : a sign if it is negative, and digits. -/
theorem toList_toString (n : Int) : (toString n).toList =
    (if decide (n < 0) then ['-'] else []) ++ Nat.toDigits 10 n.natAbs := by
  cases n with
  | ofNat n => exact Nat.toList_repr
  | negSucc n =>
    change ("-" ++ Nat.repr (n + 1)).toList = _
    rw [String.toList_append, Nat.toList_repr, decide_eq_true (Int.negSucc_lt_zero n)]
    simp

/-- The text of an integer holds nothing but digits and a dash. -/
theorem notMem_toString {d : Char} (hdigit : d.isDigit = false) (hdash : d ≠ '-') (n : Int) :
    d ∉ (toString n).toList := by
  rw [toList_toString, List.mem_append, not_or]
  refine ⟨fun hmem => ?_, fun hmem => ?_⟩
  · split at hmem
    · exact hdash (List.mem_singleton.1 hmem)
    · cases hmem
  · exact absurd (allDigits_toDigits _ _ hmem) (Bool.eq_false_iff.1 hdigit)

theorem scalar?_int (n : Int) (hrest : Stops rest) :
    scalar? ((toString n).toList ++ rest) = some (.int n, rest) := by
  have hmagnitude : ∀ negative,
      magnitude? negative (Nat.toDigits 10 n.natAbs ++ rest) =
        some (.int (if negative then -n.natAbs else n.natAbs), rest) := by
    intro negative
    have hwhole := isWhole_toDigits n.natAbs
    have h := magnitude?_eq (wholePart_append hwhole hrest.noDigit) hwhole.ne_nil
      (fraction_none fun c hc => (hrest.noMark c hc).1) (exponent_none hrest) negative
    simpa [signedValue, digitsValue_toDigits] using h
  have hvalue : (if decide (n < 0) then -(n.natAbs : Int) else n.natAbs) = n := by
    by_cases h : n < 0
    · rw [decide_eq_true h, if_pos rfl]
      omega
    · rw [decide_eq_false h, if_neg Bool.false_ne_true]
      omega
  rw [toList_toString, List.append_assoc, scalar?_of_magnitude? (hmagnitude _), hvalue]

/-- Different integers have different texts. -/
theorem toString_injective : Function.Injective (toString : Int → String) := by
  intro n m h
  have hread (k : Int) : scalar? ((toString k).toList ++ []) = some (.int k, []) :=
    scalar?_int k ⟨nofun, nofun⟩
  have hboth := (hread n).symm.trans ((congrArg (fun t : String => scalar? (t.toList ++ [])) h).trans
    (hread m))
  exact Json.int.inj (Prod.mk.inj (Option.some_inj.1 hboth)).1

end PlanReview.Json
