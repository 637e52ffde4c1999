import PlanReview.Yaml.Scalar

/-!
# Reading YAML

A reader by recursive descent for documents of block and flow collections, scalars, anchors,
aliases and the standard tags. The column in which a collection begins is its indentation : its
entries begin in that column, and what belongs to an entry stands further to the right. A key is a
scalar, alias or flow collection on one line with a colon behind it.

How a document that is not well formed fails is not told apart, so the readers are partial
functions. Each step takes something from the text, which is why its length is enough fuel.
-/

namespace PlanReview.Yaml

/-- Require a condition. -/
def ensure (b : Bool) : Reading Unit :=
  if b then pure () else failure

/-- The characters from here on. -/
def upcoming : Reading (List Char) := do
  return (← get).rest

/-- Pass over the next character. -/
def step : Reading Unit :=
  modify Cursor.next

/-- Pass over blanks, comments and the ends of lines. -/
def gapFrom : Nat → Cursor → Cursor
  | 0, c => c
  | fuel + 1, c =>
    let c := c.skipWhile (· == ' ')
    let c := if c.rest.head? == some '#' then c.skipWhile fun _ => true else c
    match c.rest with
    | ch :: _ => if isBreak ch then gapFrom fuel c.next else c
    | [] => c

/-- Pass over blanks, comments and the ends of lines; the answer says whether a line has ended. -/
def gap : Reading Bool := do
  let before ← get
  let after := gapFrom (before.rest.length + 1) before
  set after
  return before.line != after.line

/-! ## Anchors, aliases and tags -/

/-- A name behind an indicator. -/
def name : Reading String := do
  step
  let chars := (← upcoming).takeWhile fun c => Text.isAsciiAlnum c || c == '-' || c == '_'
  ensure !chars.isEmpty
  modify fun c => c.skip chars.length
  let rest ← upcoming
  ensure (isGapAt rest || "?:,]\x7d%@\x60".toList.contains (rest.head?.getD ' '))
  return String.ofList chars

/-- A tag, the indicator included. -/
def tag : Reading String := do
  let chars := (← upcoming).takeWhile fun c => !isGapAt [c]
  modify fun c => c.skip chars.length
  return String.ofList chars

/-- The value under an anchor that has been set. -/
def aliased (anchor : String) : Reading Yaml := do
  match (← get).anchors.lookup anchor with
  | some y => return y
  | none => failure

/-- What goes before a node : an anchor and a tag, either of which may be missing. -/
structure Properties where
  anchor : Option String := none
  tag : Option String := none

/-- Anchor and tag on one line, in any order, with the blanks behind them. -/
def properties : Nat → Properties → Reading Properties
  | 0, p => pure p
  | fuel + 1, p => do
    match (← upcoming).head? with
    | some '&' =>
      ensure p.anchor.isNone
      let a ← name
      modify fun c => c.skipWhile (· == ' ')
      properties fuel { p with anchor := some a }
    | some '!' =>
      ensure p.tag.isNone
      let t ← tag
      modify fun c => c.skipWhile (· == ' ')
      properties fuel { p with tag := some t }
    | _ => return p

/-- Whether there is an anchor or a tag. -/
def Properties.isGiven (p : Properties) : Bool :=
  p.anchor.isSome || p.tag.isSome

/-- A node before its tag is applied : a value, and the text of a scalar. -/
structure Raw where
  value : Yaml
  text : Option String := none

/-- What a scalar with a standard tag stands for. -/
def tagged? (tag spelling : String) : Option Yaml :=
  match tag, resolve spelling with
  | "!", y => some y
  | "!!str", _ => some (.text spelling)
  | "!!null", _ => some .null
  | "!!int", .int n => some (.int n)
  | "!!float", .float x => some (.float x)
  | "!!float", .int n => some (.float (Float.ofInt n))
  | "!!bool", .bool b => some (.bool b)
  | "!!timestamp", .moment m => some (.moment m)
  | _, _ => none

/-- The value of a node with its tag applied and its anchor set. -/
def Properties.apply (p : Properties) (r : Raw) : Reading Yaml := do
  let value ← match p.tag, r.text, r.value with
    | none, _, y => pure y
    | some t, some spelling, _ => (tagged? t spelling).elim failure pure
    | some "!!seq", none, .seq items | some "!", none, .seq items => pure (Yaml.seq items)
    | some "!!map", none, .map entries | some "!", none, .map entries => pure (Yaml.map entries)
    | _, _, _ => failure
  if let some a := p.anchor then
    modify fun c => { c with anchors := (a, value) :: c.anchors }
  return value

/-! ## Flow collections -/

/-- Whether a node that began at `start` can be a key here : on one line, and not too long. -/
def isKeyFrom (start : Cursor) : Reading Bool := do
  let here ← get
  return here.line == start.line && here.column - start.column ≤ 1024

/-- A scalar without quotes, with what it stands for. -/
def plainNode (flow : Bool) (indent : Int) : Reading Raw := do
  let spelling ← plain flow indent
  return ⟨resolve spelling, some spelling⟩

/-- A scalar in quotes; a quoted text is never anything else. -/
def quotedNode (quote : Char) : Reading Raw := do
  let spelling ← quotedText quote
  return ⟨.text spelling, some spelling⟩

/-- A scalar written as a block, which is never anything but a text. -/
def blockScalar (folding : Bool) (parent : Int) : Reading Raw := do
  let spelling ← block folding parent
  return ⟨.text spelling, some spelling⟩

/-- A gap inside a flow collection, in which no document may end. -/
def flowGap : Reading Unit := do
  let _ ← gap
  let c ← get
  ensure !c.atEnd

mutual
/-- A scalar, alias or flow collection; `indent` is the least column for the lines of a
scalar. -/
def inline (flow : Bool) (indent : Int) : Nat → Reading Raw
  | 0 => failure
  | fuel + 1 => do
    match (← upcoming).head? with
    | some '[' => step; flowGap; return ⟨← sequence indent fuel [], none⟩
    | some '{' => step; flowGap; return ⟨← mapping indent fuel [], none⟩
    | some '"' => quotedNode '"'
    | some '\'' => quotedNode '\''
    | some '*' => return ⟨← aliased (← name), none⟩
    | _ => plainNode flow indent

/-- A node inside a flow collection. -/
def flowNode (indent : Int) : Nat → Reading Yaml
  | 0 => failure
  | fuel + 1 => do
    let p ← properties 2 {}
    if p.isGiven then
      flowGap
      if ",]\x7d:".toList.contains ((← upcoming).head?.getD ' ') then
        return ← p.apply ⟨.null, some ""⟩
    p.apply (← inline true indent fuel)

/-- The value behind a key in a flow collection; null if none is given. -/
def flowValue (indent : Int) : Nat → Reading Yaml
  | 0 => failure
  | fuel + 1 => do
    step
    flowGap
    if ",]\x7d".toList.contains ((← upcoming).head?.getD ' ') then return .null
    flowNode indent fuel

/-- The items of a flow sequence from one on, `acc` being read. -/
def sequence (indent : Int) : Nat → List Yaml → Reading Yaml
  | 0, _ => failure
  | fuel + 1, acc => do
    if (← upcoming).head? == some ']' then
      step
      return ← (ofItems? acc).elim failure pure
    let start ← get
    let item ← flowNode indent fuel
    flowGap
    let item ← if (← upcoming).head? == some ':' then do
        ensure (← isKeyFrom start)
        let value ← flowValue indent fuel
        flowGap
        (ofPairs? [(item, value)]).elim failure pure
      else pure item
    match (← upcoming).head? with
    | some ',' => step; flowGap
    | some ']' => pure ()
    | _ => failure
    sequence indent fuel (acc ++ [item])

/-- The entries of a flow mapping from one on, `acc` being read. -/
def mapping (indent : Int) : Nat → List (Yaml × Yaml) → Reading Yaml
  | 0, _ => failure
  | fuel + 1, acc => do
    if (← upcoming).head? == some '}' then
      step
      return ← (ofPairs? acc).elim failure pure
    let start ← get
    let key ← flowNode indent fuel
    flowGap
    let value ← if (← upcoming).head? == some ':' then do
        ensure (← isKeyFrom start)
        let value ← flowValue indent fuel
        flowGap
        pure value
      else pure .null
    match (← upcoming).head? with
    | some ',' => step; flowGap
    | some '}' => pure ()
    | _ => failure
    mapping indent fuel (acc ++ [(key, value)])
end

/-! ## Block collections -/

/-- Whether an entry of a block sequence begins here. -/
def startsEntry : List Char → Bool
  | '-' :: rest => isGapAt rest
  | _ => false

/-- Whether a colon stands here that separates a key from its value. -/
def startsValue : List Char → Bool
  | ':' :: rest => isGapAt rest
  | _ => false

mutual
/-- A node of a block collection whose column is `parent`; `fresh` says that a collection may
begin here. -/
def blockNode (parent : Int) (fresh : Bool) : Nat → Reading Yaml
  | 0 => failure
  | fuel + 1 => do
    let start ← get
    if startsEntry start.rest then
      ensure fresh
      return ← blockSequence start.column fuel []
    let p ← properties 2 {}
    let rest ← upcoming
    if p.isGiven && (rest.isEmpty || rest.head? == some '#' || isGapAt rest) then
      let _ ← gap
      let c ← get
      if c.atEnd || (c.column : Int) ≤ parent then
        p.apply ⟨.null, some ""⟩
      else
        p.apply ⟨← blockNode parent true fuel, none⟩
    else
      match rest.head? with
      | some '|' => step; p.apply (← blockScalar false parent)
      | some '>' => step; p.apply (← blockScalar true parent)
      | _ =>
        let node ← p.apply (← inline false (parent + 1) fuel)
        let after ← get
        let here := after.skipWhile (· == ' ')
        if startsValue here.rest then
          ensure (fresh && (← isKeyFrom start))
          set here
          blockMapping start.column fuel node []
        else return node

/-- The node behind a colon or dash of a collection in column `column`; null if there is none.
`dashes` says that a sequence may begin in that column too, `fresh` that a collection may begin
on the same line. -/
def nested (column : Nat) (dashes fresh : Bool) : Nat → Reading Yaml
  | 0 => failure
  | fuel + 1 => do
    let newLine ← gap
    let c ← get
    if c.atEnd then return .null
    else if !newLine then blockNode column fresh fuel
    else if column < c.column then blockNode column true fuel
    else if dashes && c.column == column && startsEntry c.rest then
      blockSequence column fuel []
    else return .null

/-- The entries of a block sequence from one on, `acc` being read. -/
def blockSequence (column : Nat) : Nat → List Yaml → Reading Yaml
  | 0, _ => failure
  | fuel + 1, acc => do
    step
    let item ← nested column false true fuel
    let acc := acc ++ [item]
    let _ ← gap
    let c ← get
    if c.atEnd || c.column < column then (ofItems? acc).elim failure pure
    else
      ensure (c.column == column)
      if startsEntry c.rest then blockSequence column fuel acc
      else (ofItems? acc).elim failure pure

/-- The entries of a block mapping from the value of `key` on, `acc` being read; the cursor
stands on the colon. -/
def blockMapping (column : Nat) : Nat → Yaml → List (Yaml × Yaml) → Reading Yaml
  | 0, _, _ => failure
  | fuel + 1, key, acc => do
    step
    let value ← nested column true false fuel
    let acc := acc ++ [(key, value)]
    let _ ← gap
    let start ← get
    if start.atEnd || start.column < column then (ofPairs? acc).elim failure pure
    else
      ensure (start.column == column && !startsEntry start.rest)
      let p ← properties 2 {}
      let key ← p.apply (← inline false (column + 1) fuel)
      modify fun c => c.skipWhile (· == ' ')
      let c ← get
      ensure (startsValue c.rest && (← isKeyFrom start))
      blockMapping column fuel key acc
end

/-! ## Documents -/

/-- Pass over the directives before a document; the answer says whether there are any. -/
def directives : Nat → Reading Bool
  | 0 => pure false
  | fuel + 1 => do
    let c ← get
    if c.column == 0 && c.rest.head? == some '%' then
      modify fun c => c.skipWhile fun _ => true
      let _ ← gap
      let _ ← directives fuel
      return true
    else return false

/-- What follows the last node : nothing, or the end mark of a document. -/
def documentEnd : Reading Unit := do
  let _ ← gap
  let c ← get
  if c.rest.isEmpty then return
  ensure (c.atMarker && c.rest.head? == some '.')
  modify fun c => c.skip 3
  let _ ← gap
  ensure (← get).rest.isEmpty

/-- A text with at most one document. -/
def document (fuel : Nat) : Reading Yaml := do
  let _ ← gap
  let announced ← directives fuel
  let c ← get
  if c.rest.isEmpty then
    ensure !announced
    return .null
  let marked := c.atMarker && c.rest.head? == some '-'
  ensure (marked || !(announced || c.atMarker))
  let value ← if marked then do
      modify fun c => c.skip 3
      let newLine ← gap
      if (← get).atEnd then pure .null else blockNode (-1) newLine fuel
    else blockNode (-1) true fuel
  ensure !(value matches .special _)
  documentEnd
  return value

/-- The value of a YAML text; nothing if it is not well formed. -/
def parse (text : String) : Option Yaml :=
  let chars := match text.toList with
    | '\ufeff' :: rest => rest
    | cs => cs
  if chars.all isAllowed then
    ((document (4 * chars.length + 16)).run { rest := chars }).map Prod.fst
  else none

end PlanReview.Yaml
