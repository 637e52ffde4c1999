import PlanReview.Json.Value
import PlanReview.Decimal.Numeral
import PlanReview.Text.Search

/-!
# Reading JSON

A reader by recursive descent over the characters of a text. Each part returns its value
together with the rest of the text, which is shorter than what it was given; that is why the
reader ends. A fault carries the text that is left at the place it is about, so its position is
the number of characters before that.

The reader takes the JSON grammar with two additions : the words `NaN`, `Infinity` and
`-Infinity` are numbers, and a repeated key is allowed (`Json.ofFields`).
-/

namespace PlanReview.Json

open Decimal (asciiDigit? natOfDigits ofDecimal)

/-- What is wrong with a text that is not JSON. -/
inductive Fault where
  | byteOrderMark
  | value
  | name
  | colon
  | comma
  | controlCharacter
  | escape
  | unicodeEscape
  | unterminated
  | extraData
  deriving Repr, DecidableEq

/-- The wording of a fault. -/
def Fault.message : Fault → String
  | byteOrderMark => "Unexpected UTF-8 BOM (decode using utf-8-sig)"
  | value => "Expecting value"
  | name => "Expecting property name enclosed in double quotes"
  | colon => "Expecting ':' delimiter"
  | comma => "Expecting ',' delimiter"
  | controlCharacter => "Invalid control character at"
  | escape => "Invalid \\escape"
  | unicodeEscape => "Invalid \\uXXXX escape"
  | unterminated => "Unterminated string starting at"
  | extraData => "Extra data"

/-- A fault and the text left at its place. -/
structure Failed where
  fault : Fault
  left : List Char

/-- A text shorter than `s`. -/
abbrev Rest (s : List Char) := { r : List Char // r.length < s.length }

/-- The four characters JSON allows between tokens. -/
def isGap (c : Char) : Bool :=
  c = ' ' || c = '\t' || c = '\n' || c = '\r'

/-- The text without the blanks at its head. -/
def skipGaps (s : List Char) : List Char :=
  s.dropWhile isGap

theorem length_skipGaps_le (s : List Char) : (skipGaps s).length ≤ s.length :=
  (List.dropWhile_suffix _).length_le

/-! ## Strings -/

/-- The value of a hexadecimal digit. -/
def hexDigit? (c : Char) : Option Nat :=
  if c.isDigit then some (c.toNat - '0'.toNat)
  else if 'a' ≤ c && c ≤ 'f' then some (c.toNat - 'a'.toNat + 10)
  else if 'A' ≤ c && c ≤ 'F' then some (c.toNat - 'A'.toNat + 10)
  else none

/-- The UTF-16 unit that four hexadecimal digits write. -/
def unitOf? (a b c d : Char) : Option Nat :=
  match hexDigit? a, hexDigit? b, hexDigit? c, hexDigit? d with
  | some a, some b, some c, some d => some (((a * 16 + b) * 16 + c) * 16 + d)
  | _, _, _, _ => none

/-- Whether a UTF-16 unit is the first of a pair. -/
def isHighUnit (n : Nat) : Bool :=
  0xD800 ≤ n && n ≤ 0xDBFF

/-- Whether a UTF-16 unit is the second of a pair. -/
def isLowUnit (n : Nat) : Bool :=
  0xDC00 ≤ n && n ≤ 0xDFFF

/-- The character of a single unit. Half a pair is no character : the replacement character stands
for it in every text, as it does for itself. -/
def unitChar (n : Nat) : Char :=
  if isHighUnit n || isLowUnit n then '\uFFFD' else Char.ofNat n

/-- The character that `\` and a letter stand for. -/
def escaped? : Char → Option Char
  | '"' => some '"'
  | '\\' => some '\\'
  | '/' => some '/'
  | 'b' => some '\x08'
  | 'f' => some '\x0c'
  | 'n' => some '\n'
  | 'r' => some '\r'
  | 't' => some '\t'
  | _ => none

/-- Put a character in front of a string still being read. -/
def consChar (c : Char) (read : Except Failed (List Char × List Char)) :
    Except Failed (List Char × List Char) :=
  read.map fun (cs, rest) => (c :: cs, rest)

/-- The second half of a pair at the head of a text, with the rest. As everywhere in a string
the text has to go on after an escape. -/
def secondUnit? : List Char → Except Failed (Option (Nat × List Char))
  | '\\' :: 'u' :: a :: b :: c :: d :: e :: rest =>
    match unitOf? a b c d with
    | none => .error ⟨.unicodeEscape, 'u' :: a :: b :: c :: d :: e :: rest⟩
    | some n => .ok (if isLowUnit n then some (n, e :: rest) else none)
  | _ => .ok none

/-- The character that an escape by number writes, for the text after `\u`. -/
def numberedChar (s : List Char) : Except Failed (Char × List Char) :=
  match s with
  | a :: b :: c :: d :: e :: rest =>
    match unitOf? a b c d with
    | none => .error ⟨.unicodeEscape, 'u' :: s⟩
    | some n =>
      if isHighUnit n then
        match secondUnit? (e :: rest) with
        | .error f => .error f
        | .ok (some (m, rest)) =>
          .ok (Char.ofNat (0x10000 + (n - 0xD800) * 0x400 + (m - 0xDC00)), rest)
        | .ok none => .ok (unitChar n, e :: rest)
      else .ok (unitChar n, e :: rest)
  | _ => .error ⟨.unicodeEscape, 'u' :: s⟩

/-- The character that an escape writes, for the text after the backslash; `start` is the text
from the opening quote on. -/
def escapedChar (start : List Char) : List Char → Except Failed (Char × List Char)
  | [] => .error ⟨.unterminated, start⟩
  | 'u' :: rest => numberedChar rest
  | c :: rest =>
    match escaped? c with
    | some c => .ok (c, rest)
    | none => .error ⟨.escape, '\\' :: c :: rest⟩

theorem length_of_secondUnit? {s r : List Char} {n : Nat}
    (h : secondUnit? s = .ok (some (n, r))) : r.length < s.length := by
  unfold secondUnit? at h
  split at h
  · split at h
    · cases h
    · split at h
      · cases h
        simp only [List.length_cons]
        omega
      · cases h
  · cases h

theorem length_of_numberedChar {s r : List Char} {c : Char}
    (h : numberedChar s = .ok (c, r)) : r.length < s.length := by
  unfold numberedChar at h
  split at h
  · split at h
    · cases h
    · split at h
      · split at h
        · cases h
        · rename_i hs
          simp only [Except.ok.injEq, Prod.mk.injEq] at h
          obtain ⟨-, rfl⟩ := h
          have := length_of_secondUnit? hs
          simp only [List.length_cons] at this ⊢
          omega
        · cases h
          simp only [List.length_cons]
          omega
      · cases h
        simp only [List.length_cons]
        omega
  · cases h

theorem length_of_escapedChar {start s r : List Char} {c : Char}
    (h : escapedChar start s = .ok (c, r)) : r.length < s.length := by
  unfold escapedChar at h
  split at h
  · cases h
  · have := length_of_numberedChar h
    simp only [List.length_cons]
    omega
  · split at h
    · cases h
      simp
    · cases h

/-- The characters of a string up to the closing quote, and the text after it; `start` is the
text from the opening quote on. -/
def stringBody (start s : List Char) : Except Failed (List Char × List Char) :=
  match s with
  | [] => .error ⟨.unterminated, start⟩
  | '"' :: rest => .ok ([], rest)
  | '\\' :: rest =>
    match _h : escapedChar start rest with
    | .error f => .error f
    | .ok (c, rest) => consChar c (stringBody start rest)
  | c :: rest =>
    if c.toNat < 0x20 then .error ⟨.controlCharacter, c :: rest⟩
    else consChar c (stringBody start rest)
termination_by s.length
decreasing_by
  · have := length_of_escapedChar _h
    simp
    omega
  · simp

theorem length_of_stringBody (start s : List Char) :
    ∀ {cs r : List Char}, stringBody start s = .ok (cs, r) → r.length < s.length := by
  fun_induction stringBody start s with
  | case1 => intro cs r h; cases h
  | case2 rest => intro cs r h; cases h; simp
  | case3 => intro cs r h; cases h
  | case4 rest c rest' he ih =>
    intro cs r h
    rw [consChar] at h
    cases hb : stringBody start rest' with
    | error f => rw [hb] at h; cases h
    | ok p =>
      rw [hb] at h
      cases h
      have h1 := ih hb
      have h2 := length_of_escapedChar he
      simp
      omega
  | case5 => intro cs r h; cases h
  | case6 c rest _ _ _ ih =>
    intro cs r h
    rw [consChar] at h
    cases hb : stringBody start rest with
    | error f => rw [hb] at h; cases h
    | ok p =>
      rw [hb] at h
      cases h
      have h1 := ih hb
      simp
      omega

/-! ## Numbers -/

/-- The ASCII digits at the head of a text, and the rest. -/
def digits (s : List Char) : List Char × List Char :=
  (s.takeWhile Char.isDigit, s.dropWhile Char.isDigit)

/-- The number that ASCII digits write. -/
def digitsValue (ds : List Char) : Nat :=
  natOfDigits (ds.filterMap asciiDigit?)

/-- The fraction at the head of a text : a point and at least one digit. -/
def fraction : List Char → List Char × List Char
  | '.' :: c :: cs => if c.isDigit then digits (c :: cs) else ([], '.' :: c :: cs)
  | s => ([], s)

/-- The exponent at the head of a text, if there is one. -/
def exponent (s : List Char) : Option Int × List Char :=
  match s with
  | [] => (none, s)
  | c :: cs =>
    if c = 'e' || c = 'E' then
      let (negative, cs) := Decimal.readSign cs
      match digits cs with
      | ([], _) => (none, s)
      | (ds, rest) =>
        (some (if negative then -(digitsValue ds : Int) else digitsValue ds), rest)
    else (none, s)

/-- The whole part of a number : a single zero, or digits that start with another one. -/
def wholePart : List Char → List Char × List Char
  | '0' :: cs => (['0'], cs)
  | s => digits s

/-- A number without its sign : an integer unless a fraction or an exponent follows. -/
def magnitude? (negative : Bool) (s : List Char) : Option (Json × List Char) :=
  match wholePart s with
  | ([], _) => none
  | (ds, r₁) =>
    let (fs, r₂) := fraction r₁
    let (e?, r₃) := exponent r₂
    if fs.isEmpty && e?.isNone then
      let n : Nat := digitsValue ds
      some (.int (if negative then -n else n), r₃)
    else
      some (.float (ofDecimal negative (digitsValue (ds ++ fs)) (e?.getD 0 - fs.length)), r₃)

/-- The values that are written as words. -/
def words : List (String × Json) := [
  ("null", .null), ("true", .bool true), ("false", .bool false), ("NaN", .float (0.0 / 0.0)),
  ("Infinity", .float (1.0 / 0.0)), ("-Infinity", .float (-(1.0 / 0.0)))]

/-- A word or a number at the head of a text. -/
def scalar? (s : List Char) : Option (Json × List Char) :=
  match words.findSome? fun w => (Text.afterStart? w.1.toList s).map fun r => (w.2, r) with
  | some found => some found
  | none =>
    match s with
    | '-' :: cs => magnitude? true cs
    | _ => magnitude? false s

theorem length_of_digits (s : List Char) : (digits s).2.length + (digits s).1.length = s.length := by
  have h := congrArg List.length (List.takeWhile_append_dropWhile (p := Char.isDigit) (l := s))
  simp only [List.length_append] at h
  simp only [digits]
  omega

theorem length_fraction_le (s : List Char) : (fraction s).2.length ≤ s.length := by
  unfold fraction
  split
  · split
    · rename_i c cs _
      have := length_of_digits (c :: cs)
      simp only [List.length_cons] at *
      omega
    · simp
  · simp

theorem length_exponent_le (s : List Char) : (exponent s).2.length ≤ s.length := by
  unfold exponent
  split
  · simp
  · rename_i c cs
    split
    · have hsign : (Decimal.readSign cs).2.length ≤ cs.length := by
        unfold Decimal.readSign
        split <;> simp
      have hd := length_of_digits (Decimal.readSign cs).2
      cases hq : digits (Decimal.readSign cs).2 with
      | mk ds rest =>
        rw [hq] at hd
        simp only [hq]
        split
        · simp
        · rename_i heq
          cases heq
          simp only [List.length_cons] at *
          omega
    · simp

theorem length_of_magnitude? {negative : Bool} {s r : List Char} {j : Json}
    (h : magnitude? negative s = some (j, r)) : r.length < s.length := by
  unfold magnitude? at h
  have hw : (wholePart s).2.length + (wholePart s).1.length = s.length := by
    unfold wholePart
    split
    · simp
    · exact length_of_digits s
  split at h
  · cases h
  · rename_i ds r₁ hne heq
    rw [heq] at hw
    have hds : 0 < ds.length := List.length_pos_iff.mpr hne
    have hf := length_fraction_le r₁
    have he := length_exponent_le (fraction r₁).2
    simp only at h hw
    split at h <;> cases h <;> omega

theorem length_of_afterStart? {start s r : List Char} (hw : 0 < start.length)
    (h : Text.afterStart? start s = some r) : r.length < s.length := by
  rw [Text.afterStart?_eq_some_iff] at h
  subst h
  rw [List.length_append]
  omega

theorem length_of_scalar? {s r : List Char} {j : Json} (h : scalar? s = some (j, r)) :
    r.length < s.length := by
  unfold scalar? at h
  split at h
  · rename_i found hf
    cases h
    obtain ⟨w, hmem, hw⟩ := List.exists_of_findSome?_eq_some hf
    obtain ⟨r', hr, heq⟩ := Option.map_eq_some_iff.mp hw
    cases heq
    refine length_of_afterStart? ?_ hr
    simp only [words, List.mem_cons, List.not_mem_nil, or_false] at hmem
    rcases hmem with rfl | rfl | rfl | rfl | rfl | rfl <;> decide
  · split at h
    · have := length_of_magnitude? h
      simp
      omega
    · exact length_of_magnitude? h

/-! ## Arrays, objects and whole texts -/

mutual
/-- The value at the head of a text, and the rest. -/
def value (s : List Char) : Except Failed (Json × Rest s) :=
  match s with
  | '"' :: r =>
    match h : stringBody ('"' :: r) r with
    | .error f => .error f
    | .ok (cs, u) =>
      .ok (.str (String.ofList cs), ⟨u, Nat.lt_succ_of_lt (length_of_stringBody _ _ h)⟩)
  | '[' :: r =>
    have hr := length_skipGaps_le r
    match h : skipGaps r with
    | ']' :: u => .ok (.arr [], ⟨u, by simp [h] at hr ⊢; omega⟩)
    | r' =>
      match items r' with
      | .error f => .error f
      | .ok (xs, ⟨u, hu⟩) => .ok (.arr xs, ⟨u, by simp [h] at hr hu ⊢; omega⟩)
  | '{' :: r =>
    have hr := length_skipGaps_le r
    match h : skipGaps r with
    | '}' :: u => .ok (.obj [], ⟨u, by simp [h] at hr ⊢; omega⟩)
    | r' =>
      match fields r' with
      | .error f => .error f
      | .ok (fs, ⟨u, hu⟩) => .ok (.ofFields fs, ⟨u, by simp [h] at hr hu ⊢; omega⟩)
  | s =>
    match h : scalar? s with
    | some (j, u) => .ok (j, ⟨u, length_of_scalar? h⟩)
    | none => .error ⟨.value, s⟩
termination_by (s.length, 0)
decreasing_by
  all_goals
    simp only [h, List.length_cons] at hr ⊢
    exact Prod.Lex.left _ _ (by omega)

/-- The items of an array from its first item on, up to the closing bracket. -/
def items (s : List Char) : Except Failed (List Json × Rest s) :=
  match value s with
  | .error f => .error f
  | .ok (x, ⟨r, hr⟩) =>
    have hg := length_skipGaps_le r
    match h : skipGaps r with
    | ']' :: u => .ok ([x], ⟨u, by simp [h] at hg ⊢; omega⟩)
    | ',' :: u =>
      have hu := length_skipGaps_le u
      match items (skipGaps u) with
      | .error f => .error f
      | .ok (xs, ⟨v, hv⟩) => .ok (x :: xs, ⟨v, by simp [h] at hg hv ⊢; omega⟩)
    | r' => .error ⟨.comma, r'⟩
termination_by (s.length, 1)
decreasing_by
  · exact Prod.Lex.right _ (by decide)
  · simp only [h, List.length_cons] at hg
    exact Prod.Lex.left _ _ (by omega)

/-- The fields of an object from its first key on, up to the closing brace. -/
def fields (s : List Char) : Except Failed (List (String × Json) × Rest s) :=
  match s with
  | '"' :: r =>
    match hk : stringBody ('"' :: r) r with
    | .error f => .error f
    | .ok (k, r₁) =>
      have h₀ := length_of_stringBody _ _ hk
      have h₁ := length_skipGaps_le r₁
      match h : skipGaps r₁ with
      | ':' :: r₂ =>
        have h₂ := length_skipGaps_le r₂
        match value (skipGaps r₂) with
        | .error f => .error f
        | .ok (x, ⟨r₃, h₃⟩) =>
          have h₄ := length_skipGaps_le r₃
          match h' : skipGaps r₃ with
          | '}' :: u =>
            .ok ([(String.ofList k, x)], ⟨u, by simp [h, h'] at h₁ h₄ ⊢; omega⟩)
          | ',' :: r₄ =>
            have h₅ := length_skipGaps_le r₄
            match fields (skipGaps r₄) with
            | .error f => .error f
            | .ok (fs, ⟨u, hu⟩) =>
              .ok ((String.ofList k, x) :: fs, ⟨u, by simp [h, h'] at h₁ h₄ hu ⊢; omega⟩)
          | r' => .error ⟨.comma, r'⟩
      | r' => .error ⟨.colon, r'⟩
  | s => .error ⟨.name, s⟩
termination_by (s.length, 0)
decreasing_by
  · simp only [h, List.length_cons] at h₁ ⊢
    exact Prod.Lex.left _ _ (by omega)
  · simp only [h, h', List.length_cons] at h₁ h₄ ⊢
    exact Prod.Lex.left _ _ (by omega)
end

/-- The value of a whole text, blanks around it aside. -/
def document (s : List Char) : Except Failed Json :=
  match s with
  | '\uFEFF' :: _ => .error ⟨.byteOrderMark, s⟩
  | _ =>
    match value (skipGaps s) with
    | .error f => .error f
    | .ok (j, ⟨r, _⟩) =>
      match skipGaps r with
      | [] => .ok j
      | r' => .error ⟨.extraData, r'⟩

/-! ## Positions -/

/-- A fault with the place it is about. -/
structure SyntaxError where
  fault : Fault
  line : Nat
  column : Nat
  offset : Nat
  deriving Repr, DecidableEq

/-- The fault's place in the text `s` : lines and columns count from one, characters from
zero. -/
def Failed.locate (s : List Char) (f : Failed) : SyntaxError :=
  let offset := s.length - f.left.length
  let before := s.take offset
  { fault := f.fault
    line := before.count '\n' + 1
    column := (before.reverse.takeWhile (· != '\n')).length + 1
    offset := offset }

/-- The wording of a syntax error. -/
def SyntaxError.message (e : SyntaxError) : String :=
  e.fault.message ++ ": line " ++ toString e.line ++ " column " ++ toString e.column ++
    " (char " ++ toString e.offset ++ ")"

/-- Read a JSON text. -/
def parse (text : String) : Except SyntaxError Json :=
  (document text.toList).mapError (Failed.locate text.toList)

end PlanReview.Json
