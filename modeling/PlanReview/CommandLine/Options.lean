import PlanReview.Decimal.Numeral
import PlanReview.Text.Quoted
import PlanReview.Text.Search

/-!
# Options on a command line

A command line is read in two steps. `classify` says of each word whether it is an option, a
plain word or the two dashes after which everything is plain; an option may be shortened as long
as it stays clear which one is meant, and may carry its value behind an equals sign. `collect`
then gives every option its value, in order, and keeps the words that belong to none.
-/

namespace PlanReview.CommandLine

/-- What follows an option. -/
inductive ValueKind where
  | text
  | integer
  | number
  deriving Repr, DecidableEq

/-- The value of an option. -/
inductive Value where
  | set
  | text (value : String)
  | integer (value : Int)
  | number (value : Float)

/-- An option : its names, the first of them for messages about it, and what follows it. -/
structure Flag where
  name : String
  short : Option String := none
  value : Option ValueKind := none
  required : Bool := false

/-- Why a command line is not understood. -/
inductive Fault where
  | ambiguous (word : String) (names : List String)
  | noValue (flag : String)
  | unwantedValue (flag value : String)
  | badValue (flag kind value : String)
  | missing (names : List String)
  | unknownCommand (word : String) (commands : List String)
  | unknownWords (words : List String)
  deriving Repr, DecidableEq

/-- The wording of a fault. -/
def Fault.message : Fault → String
  | ambiguous word names =>
    "ambiguous option: " ++ word ++ " could match " ++ String.intercalate ", " names
  | noValue flag => "argument " ++ flag ++ ": expected one argument"
  | unwantedValue flag value =>
    "argument " ++ flag ++ ": ignored explicit argument " ++ Text.quoted value
  | badValue flag kind value =>
    "argument " ++ flag ++ ": invalid " ++ kind ++ " value: " ++ Text.quoted value
  | missing names =>
    "the following arguments are required: " ++ String.intercalate ", " names
  | unknownCommand word commands =>
    "argument command: invalid choice: " ++ Text.quoted word ++ " (choose from " ++
      String.intercalate ", " (commands.map Text.quoted) ++ ")"
  | unknownWords words => "unrecognized arguments: " ++ String.intercalate " " words

/-! ## Words -/

/-- What a word is. -/
inductive Word where
  | plain
  | dashes
  | unknown
  | flag (flag : Flag) (name : String) (value : Option String)

/-- The names of an option, the short one first. -/
def Flag.names (f : Flag) : List String :=
  f.short.toList ++ [f.name]

/-- An option as messages call it. -/
def Flag.title (f : Flag) : String :=
  String.intercalate "/" f.names

/-- The text before the first equals sign, and the text after it if there is one. -/
def splitValue (word : List Char) : List Char × Option (List Char) :=
  match word.dropWhile (· != '=') with
  | [] => (word, none)
  | _ :: value => (word.takeWhile (· != '='), some value)

/-- Every option under each of its names. -/
def named (flags : List Flag) : List (String × Flag) :=
  flags.flatMap fun f => f.names.map fun name => (name, f)

/-- The options that a word with two dashes may be short for. -/
def longMatches (flags : List Flag) (word : List Char) : List (String × Flag × Option String) :=
  let (start, value) := splitValue word
  (named flags).filterMap fun (name, f) =>
    if start.isPrefixOf name.toList then some (name, f, value.map String.ofList) else none

/-- The options that a word with one dash may mean : an option of one letter, with its value right
behind it. -/
def shortMatches (flags : List Flag) (word : List Char) : List (String × Flag × Option String) :=
  (named flags).filterMap fun (name, f) =>
    if name.toList == word.take 2 then some (name, f, some (String.ofList (word.drop 2)))
    else if word.isPrefixOf name.toList then some (name, f, none)
    else none

/-- Whether a word is a negative number, up to a line feed at its end. -/
def isNegativeNumber (word : List Char) : Bool :=
  match word with
  | '-' :: rest =>
    let rest := if rest.getLast? = some '\n' then rest.dropLast else rest
    let whole := rest.takeWhile Text.isDecimal
    match rest.dropWhile Text.isDecimal with
    | [] => !whole.isEmpty
    | '.' :: fraction => !fraction.isEmpty && fraction.all Text.isDecimal
    | _ => false
  | _ => false

/-- The option that a word is exactly, or is before its equals sign. -/
def exactly? (flags : List Flag) (word : List Char) : Option Word :=
  match (named flags).lookup (String.ofList word) with
  | some f => some (.flag f (String.ofList word) none)
  | none =>
    let (start, value) := splitValue word
    value.bind fun v => ((named flags).lookup (String.ofList start)).map fun f =>
      .flag f (String.ofList start) (some (String.ofList v))

/-- What a word is that is no option in full. -/
def guess (flags : List Flag) (word : List Char) : Except Fault Word :=
  let candidates :=
    if "--".toList.isPrefixOf word then longMatches flags word else shortMatches flags word
  match candidates with
  | [(name, f, value)] => .ok (.flag f name value)
  | _ :: _ :: _ => .error (.ambiguous (String.ofList word) (candidates.map fun c => c.1))
  | [] => .ok (if isNegativeNumber word || word.contains ' ' then .plain else .unknown)

/-- What a word is. -/
def classifyWord (flags : List Flag) (word : List Char) : Except Fault Word :=
  match word with
  | ['-', '-'] => .ok .dashes
  | '-' :: _ :: _ =>
    match exactly? flags word with
    | some w => .ok w
    | none => guess flags word
  | _ => .ok .plain

/-- What each word is; after two dashes every word is plain. -/
def classify (flags : List Flag) : List String → Except Fault (List (String × Word))
  | [] => .ok []
  | word :: words => do
    match ← classifyWord flags word.toList with
    | .dashes => return (word, .dashes) :: words.map fun w => (w, .plain)
    | w => return (word, w) :: (← classify flags words)

/-! ## Values -/

/-- A text as the value of an option. -/
def readValue (f : Flag) (kind : ValueKind) (text : String) : Except Fault Value :=
  match kind with
  | .text => .ok (.text text)
  | .integer =>
    match Decimal.readInt? Text.digitValue? text.toList with
    | some n => .ok (.integer n)
    | none => .error (.badValue f.title "int" text)
  | .number =>
    match Decimal.readFloat? Text.digitValue? text.toList with
    | some x => .ok (.number x)
    | none => .error (.badValue f.title "float" text)

/-- Options with their values, in order, and the words that belong to none. -/
structure Collected where
  values : List (String × Value) := []
  rest : List String := []

/-- A value before those that follow. -/
def Collected.withValue (c : Collected) (f : Flag) (v : Value) : Collected :=
  { c with values := (f.name, v) :: c.values }

/-- A word before those that follow. -/
def Collected.withWord (c : Collected) (word : String) : Collected :=
  { c with rest := word :: c.rest }

/-- A text without repetitions of the short name's letter at its start. -/
def afterRepeats (f : Flag) (text : List Char) : List Char :=
  match f.short.map String.toList with
  | some ['-', letter] => text.dropWhile (· == letter)
  | _ => text

/-- The value of an option that carries it. One that takes no value may only repeat its letter. -/
def carried (f : Flag) (name text : String) : Except Fault Value :=
  match f.value with
  | some kind => readValue f kind text
  | none =>
    if "--".toList.isPrefixOf name.toList || text.isEmpty then .error (.unwantedValue f.title text)
    else
      match afterRepeats f text.toList with
      | [] => .ok .set
      | rest => .error (.unwantedValue f.title (String.ofList rest))

/-- Give every option its value. An option without one takes the next word, which has to be
plain. An option in `last` ends the reading. -/
def collect (last : Flag → Bool) : List (String × Word) → Except Fault Collected
  | [] => .ok {}
  | (_, .flag f name (some text)) :: words => do
    let v ← carried f name text
    if last f then return Collected.withValue {} f v
    return (← collect last words).withValue f v
  | (_, .flag f _ none) :: (text, .plain) :: words =>
    match f.value with
    | some kind => do
      let v ← readValue f kind text
      return (← collect last words).withValue f v
    | none => do
      if last f then return Collected.withValue {} f .set
      return ((← collect last words).withWord text).withValue f .set
  | (_, .flag f _ none) :: words =>
    match f.value with
    | some _ => .error (.noValue f.title)
    | none => do
      if last f then return Collected.withValue {} f .set
      return (← collect last words).withValue f .set
  | (word, _) :: words => do
    return (← collect last words).withWord word

/-! ## Looking up -/

namespace Collected

/-- The value of an option : the last one given. -/
def value? (c : Collected) (name : String) : Option Value :=
  (c.values.reverse.lookup name)

/-- Whether an option is given. -/
def has (c : Collected) (name : String) : Bool :=
  (c.value? name).isSome

/-- The text that an option gives. -/
def text? (c : Collected) (name : String) : Option String :=
  match c.value? name with
  | some (.text s) => some s
  | _ => none

/-- The integer that an option gives. -/
def integer? (c : Collected) (name : String) : Option Int :=
  match c.value? name with
  | some (.integer n) => some n
  | _ => none

/-- The number that an option gives. -/
def number? (c : Collected) (name : String) : Option Float :=
  match c.value? name with
  | some (.number x) => some x
  | _ => none

end Collected

/-- Refuse a command line that lacks a required option. -/
def requireAll (flags : List Flag) (c : Collected) : Except Fault Unit :=
  let lacking := flags.filter fun f => f.required && !c.has f.name
  if lacking.isEmpty then .ok () else .error (.missing (lacking.map Flag.title))

end PlanReview.CommandLine
