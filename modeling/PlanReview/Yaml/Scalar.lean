import PlanReview.Yaml.Value
import PlanReview.Json.Reader

/-!
# YAML scalars

A `Cursor` stands in a text and knows its line and column. The readers here take a scalar from it :
without quotes, in quotes of either kind, or as an indented block. A line break inside a scalar is
folded : a single one becomes a blank, and of several the first one is dropped.
-/

namespace PlanReview.Yaml

/-- A place in a text, with the anchors that have been set before it. -/
structure Cursor where
  rest : List Char
  column : Nat := 0
  line : Nat := 0
  anchors : List (String × Yaml) := []

/-- A reader; a text that is not well formed has no reading. -/
abbrev Reading (α : Type) := StateT Cursor Option α

/-- Whether a character ends a line. -/
def isBreak (c : Char) : Bool :=
  c == '\n' || c == '\r' || c == '\u0085' || c == '\u2028' || c == '\u2029'

/-- Whether a blank, the end of a line or the end of the text comes first. -/
def isGapAt : List Char → Bool
  | [] => true
  | c :: _ => c == ' ' || c == '\t' || isBreak c

/-- Whether a character may stand in a document at all. -/
def isAllowed (c : Char) : Bool :=
  let n := c.toNat
  n == 0x9 || n == 0xA || n == 0xD || (0x20 ≤ n && n ≤ 0x7E) || n == 0x85 ||
    (0xA0 ≤ n && n ≤ 0xD7FF) || (0xE000 ≤ n && n ≤ 0xFFFD) || 0x10000 ≤ n

/-- The cursor behind the next character. -/
def Cursor.next (c : Cursor) : Cursor :=
  match c.rest with
  | [] => c
  | '\r' :: '\n' :: rest => { c with rest := rest, column := 0, line := c.line + 1 }
  | ch :: rest =>
    if isBreak ch then { c with rest := rest, column := 0, line := c.line + 1 }
    else { c with rest := rest, column := c.column + 1 }

/-- The cursor behind the next `n` characters. -/
def Cursor.skip (c : Cursor) : Nat → Cursor
  | 0 => c
  | n + 1 => c.next.skip n

/-- The cursor behind the characters that satisfy `p`, which are none that end a line. -/
def Cursor.skipWhile (c : Cursor) (p : Char → Bool) : Cursor :=
  c.skip (c.rest.takeWhile fun ch => p ch && !isBreak ch).length

/-- Whether a line begins here that separates documents. -/
def Cursor.atMarker (c : Cursor) : Bool :=
  c.column == 0 && (c.rest.take 3 == ['-', '-', '-'] || c.rest.take 3 == ['.', '.', '.']) &&
    isGapAt (c.rest.drop 3)

/-- Whether the document ends here. -/
def Cursor.atEnd (c : Cursor) : Bool :=
  c.rest.isEmpty || c.atMarker

/-- The character that a line break stands for. -/
def breakChar (c : Char) : Char :=
  if c == '\u2028' || c == '\u2029' then c else '\n'

/-- What folded line breaks leave of themselves : the first one, and the ones after it. -/
def folded (first : Char) (more : List Char) : List Char :=
  (if first != '\n' then [first] else if more.isEmpty then [' '] else []) ++ more

/-! ## Without quotes -/

/-- Whether a scalar without quotes can begin here. -/
def startsPlain (flow : Bool) : List Char → Bool
  | [] => false
  | c :: rest =>
    !(isGapAt [c] || "-?:,[]{}#&*!|>'\"%@\x60".toList.contains c) ||
      (!isGapAt rest && (c == '-' || (!flow && (c == '?' || c == ':'))))

/-- Whether a scalar without quotes ends before these characters. -/
def endsPlain (flow : Bool) : List Char → Bool
  | [] => true
  | c :: rest =>
    isGapAt [c] ||
      (c == ':' && (isGapAt rest || (flow && ",[]\x7b\x7d".toList.contains (rest.head?.getD ' ')))) ||
      (flow && ",?[]\x7b\x7d".toList.contains c)

/-- The characters up to the end of a scalar without quotes or to the next blank. -/
def plainRun (flow : Bool) : List Char → List Char
  | [] => []
  | c :: rest => if endsPlain flow (c :: rest) then [] else c :: plainRun flow rest

/-- Pass over the blanks and line breaks of following lines; the breaks are collected. A line that
separates documents stops this. -/
def skipLines : Nat → Cursor → List Char × Cursor
  | 0, c => ([], c)
  | fuel + 1, c =>
    match c.rest with
    | ' ' :: _ => skipLines fuel c.next
    | ch :: _ =>
      if isBreak ch then
        if c.next.atMarker then ([], c.next)
        else
          let (more, c) := skipLines fuel c.next
          (breakChar ch :: more, c)
      else ([], c)
    | [] => ([], c)

/-- The blanks after a part of a scalar, and what they stand for if the scalar goes on. -/
def plainGap (c : Cursor) : Option (List Char) × Cursor :=
  let blanks := c.rest.takeWhile (· == ' ')
  let c := c.skipWhile (· == ' ')
  match c.rest with
  | ch :: _ =>
    if isBreak ch then
      if c.next.atMarker then (none, c.next)
      else
        let (more, c) := skipLines c.rest.length c.next
        (if c.atMarker then none else some (folded (breakChar ch) more), c)
    else if blanks.isEmpty then (none, c)
    else (some blanks, c)
  | [] => (none, c)

/-- The rest of a scalar without quotes, `acc` being read; `indent` is the least column in which it
goes on. -/
def plainFrom (flow : Bool) (indent : Int) : Nat → List Char → Cursor → List Char × Cursor
  | 0, acc, c => (acc, c)
  | fuel + 1, acc, c =>
    match plainGap c with
    | (none, c) => (acc, c)
    | (some gap, c) =>
      let run := plainRun flow c.rest
      if run.isEmpty || c.rest.head? == some '#' || (!flow && (c.column : Int) < indent) then (acc, c)
      else plainFrom flow indent fuel (acc ++ gap ++ run) (c.skip run.length)

/-- A scalar without quotes. -/
def plain (flow : Bool) (indent : Int) : Reading String := fun c =>
  if startsPlain flow c.rest then
    let run := plainRun flow c.rest
    let (chars, c) := plainFrom flow indent c.rest.length run (c.skip run.length)
    some (String.ofList chars, c)
  else none

/-! ## In quotes -/

/-- Pass over the line breaks, blanks and tabs of following lines; the breaks are collected. -/
def quotedLines : Nat → Cursor → Option (List Char × Cursor)
  | 0, _ => none
  | fuel + 1, c =>
    if c.atMarker then none
    else
      let c := c.skipWhile fun ch => ch == ' ' || ch == '\t'
      match c.rest with
      | ch :: _ =>
        if isBreak ch then do
          let (more, c) ← quotedLines fuel c.next
          return (breakChar ch :: more, c)
        else some ([], c)
      | [] => some ([], c)

/-- The blanks in a quoted scalar, and what they stand for. -/
def quotedGap (c : Cursor) : Option (List Char × Cursor) :=
  let blanks := c.rest.takeWhile fun ch => ch == ' ' || ch == '\t'
  let c := c.skip blanks.length
  match c.rest with
  | ch :: _ =>
    if isBreak ch then do
      let (more, c) ← quotedLines (c.rest.length + 1) c.next
      return (folded (breakChar ch) more, c)
    else some (blanks, c)
  | [] => none

/-- The letters behind a backslash that stand for one character. -/
def escapes : List (Char × Char) := [
  ('0', '\x00'), ('a', '\x07'), ('b', '\x08'), ('t', '\t'), ('\t', '\t'), ('n', '\n'),
  ('v', '\x0b'), ('f', '\x0c'), ('r', '\r'), ('e', '\x1b'), (' ', ' '), ('"', '"'), ('/', '/'),
  ('\\', '\\'), ('N', '\u0085'), ('_', '\u00a0'), ('L', '\u2028'), ('P', '\u2029')]

/-- The letters behind a backslash before which digits of base sixteen are counted. -/
def escapeWidths : List (Char × Nat) := [('x', 2), ('u', 4), ('U', 8)]

/-- What a backslash and the characters behind it stand for; the cursor stands behind the
backslash. -/
def escape (c : Cursor) : Option (List Char × Cursor) :=
  match c.rest with
  | [] => none
  | ch :: rest =>
    match escapes.lookup ch, escapeWidths.lookup ch with
    | some e, _ => some ([e], c.next)
    | none, some width =>
      let ds := rest.take width
      if ds.length == width && ds.all isHex then
        some ([Char.ofNat (numberIn 16 ds)], c.skip (width + 1))
      else none
    | none, none => if isBreak ch then quotedLines (c.rest.length + 1) c.next else none

/-- The rest of a quoted scalar up to its quote, `acc` being read. -/
def quotedFrom (quote : Char) : Nat → List Char → Cursor → Option (List Char × Cursor)
  | 0, _, _ => none
  | fuel + 1, acc, c =>
    match c.rest with
    | [] => none
    | ch :: rest =>
      if isGapAt [ch] then do
        let (gap, c) ← quotedGap c
        quotedFrom quote fuel (acc ++ gap) c
      else if ch == quote then
        if quote == '\'' && rest.head? == some '\'' then
          quotedFrom quote fuel (acc ++ ['\'']) (c.skip 2)
        else some (acc, c.next)
      else if quote == '"' && ch == '\\' then do
        let (e, c) ← escape c.next
        quotedFrom quote fuel (acc ++ e) c
      else quotedFrom quote fuel (acc ++ [ch]) c.next

/-- A scalar in quotes. -/
def quotedText (quote : Char) : Reading String := fun c => do
  let (chars, c) ← quotedFrom quote (c.rest.length + 1) [] c.next
  return (String.ofList chars, c)

/-! ## Blocks -/

/-- How the line breaks at the end of a block are treated. -/
inductive Chomping where
  | strip | clip | keep
  deriving Repr, DecidableEq

/-- The signs behind the indicator of a block : how its end is treated, and its indentation. -/
def blockHeader (c : Cursor) : Option (Chomping × Option Nat × Cursor) :=
  let sign (ch : Char) : Option Chomping :=
    if ch == '+' then some .keep else if ch == '-' then some .strip else none
  let width (ch : Char) : Option Nat :=
    if ch.isDigit && ch != '0' then some (ch.toNat - '0'.toNat) else none
  match c.rest with
  | a :: b :: _ =>
    match sign a, width b, width a, sign b with
    | some s, some w, _, _ => some (s, some w, c.skip 2)
    | _, _, some w, some s => some (s, some w, c.skip 2)
    | some s, none, _, _ => some (s, none, c.next)
    | _, _, some w, none => some (.clip, some w, c.next)
    | none, _, none, _ => if a.isDigit then none else some (.clip, none, c)
  | [a] =>
    match sign a, width a with
    | some s, _ => some (s, none, c.next)
    | none, some w => some (.clip, some w, c.next)
    | none, none => if a.isDigit then none else some (.clip, none, c)
  | [] => some (.clip, none, c)

/-- The rest of the header's line : blanks and perhaps a comment. -/
def headerLine (c : Cursor) : Option Cursor :=
  let c := c.skipWhile (· == ' ')
  let c := if c.rest.head? == some '#' then c.skipWhile fun _ => true else c
  match c.rest with
  | [] => some c
  | ch :: _ => if isBreak ch then some c.next else none

/-- Pass over the empty lines at the start of a block; the answer is their breaks and the largest
indentation seen. -/
def leadingLines : Nat → Nat → Cursor → List Char × Nat × Cursor
  | 0, widest, c => ([], widest, c)
  | fuel + 1, widest, c =>
    match c.rest with
    | ' ' :: _ => leadingLines fuel (max widest c.next.column) c.next
    | ch :: _ =>
      if isBreak ch then
        let (more, widest, c) := leadingLines fuel widest c.next
        (breakChar ch :: more, widest, c)
      else ([], widest, c)
    | [] => ([], widest, c)

/-- Pass over indentation, at most to a column. -/
def indented (indent : Nat) : Nat → Cursor → Cursor
  | 0, c => c
  | fuel + 1, c =>
    match c.rest with
    | ' ' :: _ => if c.column < indent then indented indent fuel c.next else c
    | _ => c

/-- Pass over the empty lines inside a block; the breaks are collected. -/
def blockBreaks (indent : Nat) : Nat → Cursor → List Char × Cursor
  | 0, c => ([], c)
  | fuel + 1, c =>
    let c := indented indent indent c
    match c.rest with
    | ch :: _ =>
      if isBreak ch then
        let (more, c) := blockBreaks indent fuel c.next
        (breakChar ch :: more, c)
      else ([], c)
    | [] => ([], c)

/-- Whether a line begins with a blank. -/
def startsBlank : List Char → Bool
  | c :: _ => c == ' ' || c == '\t'
  | [] => false

/-- The lines of a block from one on; `breaks` are the empty lines before it. -/
def blockLines (folding : Bool) (chomping : Chomping) (indent : Nat) :
    Nat → List Char → List Char → Cursor → List Char × Cursor
  | 0, acc, _, c => (acc, c)
  | fuel + 1, acc, breaks, c =>
    let line := c.rest.takeWhile fun ch => !isBreak ch
    let wasBlank := startsBlank c.rest
    let acc := acc ++ breaks ++ line
    let c := c.skip line.length
    let lineEnd := (c.rest.head?.map breakChar).toList
    let (breaks, c) := blockBreaks indent (c.rest.length + 1) c.next
    if c.column == indent && !c.rest.isEmpty then
      let joint :=
        if folding && lineEnd == ['\n'] && !wasBlank && !startsBlank c.rest then
          if breaks.isEmpty then [' '] else []
        else lineEnd
      blockLines folding chomping indent fuel (acc ++ joint) breaks c
    else
      (acc ++ (if chomping = .strip then [] else lineEnd) ++
        (if chomping = .keep then breaks else []), c)

/-- A block; the cursor stands behind its indicator, and `parent` is the column of what holds
it. -/
def block (folding : Bool) (parent : Int) : Reading String := fun c => do
  let (chomping, width, c) ← blockHeader c
  let c ← headerLine c
  let least := (max 1 (parent + 1)).toNat
  let (breaks, indent, c) :=
    match width with
    | none =>
      let (breaks, widest, c) := leadingLines (c.rest.length + 1) 0 c
      (breaks, max least widest, c)
    | some w =>
      let (breaks, c) := blockBreaks (least + w - 1) (c.rest.length + 1) c
      (breaks, least + w - 1, c)
  if c.column == indent && !c.rest.isEmpty then
    let (chars, c) := blockLines folding chomping indent (c.rest.length + 1) [] breaks c
    return (String.ofList chars, c)
  else return (String.ofList (if chomping = .keep then breaks else []), c)

end PlanReview.Yaml
