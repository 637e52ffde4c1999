/-!
# JSON values

Plans, reviews and stored sessions travel as JSON. A number keeps the kind it was written with,
integer or double, and an object keeps its keys in the order they were first given, so that
writing a value and reading it back loses nothing.
-/

namespace PlanReview

/-- A JSON value. Integers have any size. -/
inductive Json where
  | null
  | bool (value : Bool)
  | int (value : Int)
  | float (value : Float)
  | str (value : String)
  | arr (items : List Json)
  | obj (fields : List (String × Json))
  deriving Inhabited

namespace Json

/-- The fields of an object, in order. -/
abbrev Fields := List (String × Json)

/-- The fields of an object with `key` set to `value` : in its place if the key is there, at
the end if not. -/
def setField (fields : Fields) (key : String) (value : Json) : Fields :=
  match fields with
  | [] => [(key, value)]
  | (k, v) :: rest => if k = key then (key, value) :: rest else (k, v) :: setField rest key value

/-- An object from its written fields : a repeated key keeps its first place and its last
value. -/
def ofFields (fields : Fields) : Json :=
  obj (fields.foldl (fun acc f => setField acc f.1 f.2) [])

/-- The value under `key`, for an object that has it. -/
def get? (key : String) : Json → Option Json
  | obj fields => fields.lookup key
  | _ => none

/-- Whether the value is an object. -/
def isObject : Json → Bool
  | obj _ => true
  | _ => false

/-- The string, for a string. -/
def str? : Json → Option String
  | str s => some s
  | _ => none

/-- A string, or null in its absence. -/
def ofOption {α : Type} (write : α → Json) : Option α → Json
  | none => null
  | some a => write a

/-- An array of strings. -/
def strings (items : List String) : Json :=
  arr (items.map str)

/-- A number that fits no smaller kind : a natural number. -/
def nat (n : Nat) : Json :=
  int n

/-- A number as a double, if the value is a number or a truth value; an integer too large for a
double is infinite. -/
def number? : Json → Option Float
  | int n => some (Float.ofInt n)
  | float x => some x
  | bool b => some (if b then 1.0 else 0.0)
  | _ => none

/-- The name of a value's kind. -/
def kindName : Json → String
  | null => "null"
  | bool _ => "boolean"
  | int _ | float _ => "number"
  | str _ => "string"
  | arr _ => "array"
  | obj _ => "object"

/-- The name of a value's type, as the messages about misused values have it. -/
def typeName : Json → String
  | null => "NoneType"
  | bool _ => "bool"
  | int _ => "int"
  | float _ => "float"
  | str _ => "str"
  | arr _ => "list"
  | obj _ => "dict"

/-- Whether a value counts as present : not null, false, zero or empty. -/
def truthy : Json → Bool
  | null => false
  | bool b => b
  | int n => n != 0
  | float x => !(x == 0.0)
  | str s => !s.isEmpty
  | arr items => !items.isEmpty
  | obj fields => !fields.isEmpty

mutual
/-- Equality of values : numbers by value, truth values as zero and one, objects whatever the
order of their keys. -/
def same : Json → Json → Bool
  | null, null => true
  | str s, str t => s == t
  | arr xs, arr ys => sameItems xs ys
  | obj fs, obj gs => fs.length == gs.length && sameFields fs gs
  | bool a, bool b => a == b
  | bool a, int n => (if a then 1 else 0) == n
  | int n, bool b => n == (if b then 1 else 0)
  | int n, int m => n == m
  | int n, float x => Float.ofInt n == x
  | float x, int n => x == Float.ofInt n
  | float x, float y => x == y
  | bool a, float x => (if a then 1.0 else 0.0) == x
  | float x, bool b => x == (if b then 1.0 else 0.0)
  | _, _ => false

/-- Equality of arrays, item by item. -/
def sameItems : List Json → List Json → Bool
  | [], [] => true
  | x :: xs, y :: ys => same x y && sameItems xs ys
  | _, _ => false

/-- Whether every field of the first object is in the second. -/
def sameFields : List (String × Json) → List (String × Json) → Bool
  | [], _ => true
  | (k, v) :: fs, gs =>
    (match gs.lookup k with
     | some w => same v w
     | none => false) && sameFields fs gs
end

mutual
/-- Every string value inside a value, in order; keys are not values. -/
def texts : Json → List String
  | str s => [s]
  | arr items => textsItems items
  | obj fields => textsFields fields
  | _ => []

/-- The string values inside the items of an array. -/
def textsItems : List Json → List String
  | [] => []
  | x :: xs => texts x ++ textsItems xs

/-- The string values inside the fields of an object. -/
def textsFields : List (String × Json) → List String
  | [] => []
  | (_, v) :: fs => texts v ++ textsFields fs
end

mutual
/-- Whether every double inside a value is a finite number. -/
def isFinite : Json → Bool
  | float x => x.isFinite
  | arr items => isFiniteItems items
  | obj fields => isFiniteFields fields
  | _ => true

/-- Whether every double inside the items of an array is a finite number. -/
def isFiniteItems : List Json → Bool
  | [] => true
  | x :: xs => isFinite x && isFiniteItems xs

/-- Whether every double inside the fields of an object is a finite number. -/
def isFiniteFields : List (String × Json) → Bool
  | [] => true
  | (_, v) :: fs => isFinite v && isFiniteFields fs
end

mutual
/-- The value with null in place of every double that is no finite number. -/
def finite : Json → Json
  | float x => if x.isFinite then float x else null
  | arr items => arr (finiteItems items)
  | obj fields => obj (finiteFields fields)
  | j => j

/-- The items of an array with null in place of what is no finite number. -/
def finiteItems : List Json → List Json
  | [] => []
  | x :: xs => finite x :: finiteItems xs

/-- The fields of an object with null in place of what is no finite number. -/
def finiteFields : List (String × Json) → List (String × Json)
  | [] => []
  | (k, v) :: fs => (k, finite v) :: finiteFields fs
end

end Json

end PlanReview
