/-!
# What is wrong with a document

A document that does not have the shape asked for gets an `Invalid` : the name of that shape and
every issue found, in order, each with the place inside the document. The wordings are part of
what the program prints.
-/

namespace PlanReview.Schema

/-- Why a value does not fit. -/
inductive Fault where
  | missing
  | string
  | list
  | dict
  | record (name : String)
  | choice (allowed : List String)
  | member (allowed : List String)
  | int
  | intText
  | intFraction
  | intSize
  | intFinite
  | bool
  | boolText
  | float
  | floatText
  | atMost (bound : Nat)
  | atLeast (bound : Nat)
  deriving Repr, DecidableEq

/-- One step into a document. -/
inductive Key where
  | field (name : String)
  | index (i : Nat)
  deriving Repr, DecidableEq

/-- A fault and its place. -/
structure Issue where
  path : List Key
  fault : Fault
  deriving Repr, DecidableEq

/-- The issues of a document that should have been a `shape`. -/
structure Invalid where
  shape : String
  issues : List Issue
  deriving Repr, DecidableEq

/-- The names in quotes, with commas and an `or` before the last. -/
def alternatives : List String → String
  | [] => ""
  | [a] => "'" ++ a ++ "'"
  | [a, b] => "'" ++ a ++ "' or '" ++ b ++ "'"
  | a :: rest => "'" ++ a ++ "', " ++ alternatives rest

/-- The short name of a fault. -/
def Fault.kind : Fault → String
  | missing => "missing"
  | string => "string_type"
  | list => "list_type"
  | dict => "dict_type"
  | record _ => "model_type"
  | choice _ => "literal_error"
  | member _ => "enum"
  | int => "int_type"
  | intText => "int_parsing"
  | intFraction => "int_from_float"
  | intSize => "int_parsing_size"
  | intFinite => "finite_number"
  | bool => "bool_type"
  | boolText => "bool_parsing"
  | float => "float_type"
  | floatText => "float_parsing"
  | atMost _ => "less_than_equal"
  | atLeast _ => "greater_than_equal"

/-- The wording of a fault. -/
def Fault.message : Fault → String
  | missing => "Field required"
  | string => "Input should be a valid string"
  | list => "Input should be a valid list"
  | dict => "Input should be a valid dictionary"
  | record name => "Input should be a valid dictionary or instance of " ++ name
  | choice allowed | member allowed => "Input should be " ++ alternatives allowed
  | int => "Input should be a valid integer"
  | intText => "Input should be a valid integer, unable to parse string as an integer"
  | intFraction => "Input should be a valid integer, got a number with a fractional part"
  | intSize => "Unable to parse input string as an integer, exceeded maximum size"
  | intFinite => "Input should be a finite number"
  | bool => "Input should be a valid boolean"
  | boolText => "Input should be a valid boolean, unable to interpret input"
  | float => "Input should be a valid number"
  | floatText => "Input should be a valid number, unable to parse string as a number"
  | atMost bound => "Input should be less than or equal to " ++ toString bound
  | atLeast bound => "Input should be greater than or equal to " ++ toString bound

/-- The text of one step. -/
def Key.text : Key → String
  | field name => name
  | index i => toString i

/-- The lines about one issue; at the root of the document there is no place to name. -/
def Issue.lines (i : Issue) : List String :=
  (if i.path.isEmpty then [] else [String.intercalate "." (i.path.map Key.text)]) ++
    ["  " ++ i.fault.message ++ " [type=" ++ i.fault.kind ++ "]"]

/-- The whole report. -/
def Invalid.message (e : Invalid) : String :=
  let noun := if e.issues.length = 1 then "error" else "errors"
  let head := toString e.issues.length ++ " validation " ++ noun ++ " for " ++ e.shape
  String.intercalate "\n" (head :: e.issues.flatMap Issue.lines)

end PlanReview.Schema
