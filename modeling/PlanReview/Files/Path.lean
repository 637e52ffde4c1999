import PlanReview.Text.Search

/-!
# Paths

A path is absolute or relative to a working directory, and a list of names. Empty names and
single dots are dropped when a path is read, double dots are kept until the path is resolved.
-/

namespace PlanReview

/-- A path in a tree of files. -/
structure Path where
  absolute : Bool := false
  parts : List String := []
  deriving Repr, DecidableEq

namespace Path

/-- Read a path. -/
def ofString (text : String) : Path where
  absolute := text.toList.head? == some '/'
  parts := ((Text.splitAt '/' text.toList).map String.ofList).filter fun p => p != "" && p != "."

/-- The text of a path. -/
def text (p : Path) : String :=
  if p.absolute then "/" ++ String.intercalate "/" p.parts
  else if p.parts.isEmpty then "."
  else String.intercalate "/" p.parts

/-- The last name of a path, empty if it has none. -/
def name (p : Path) : String :=
  p.parts.getLast?.getD ""

/-- The path `q` taken from `p` on; an absolute path stands for itself. -/
def join (p q : Path) : Path :=
  if q.absolute then q else { p with parts := p.parts ++ q.parts }

/-- The path of something inside `p`. -/
def child (p : Path) (name : String) : Path :=
  p.join (ofString name)

/-- The path of the directory that holds `p`. -/
def parent (p : Path) : Path :=
  { p with parts := p.parts.dropLast }

/-- One step along a path : double dots lead back. -/
def step (names : List String) (part : String) : List String :=
  if part = ".." then names.dropLast else names ++ [part]

/-- The names from the root to what the path means, seen from `cwd`. -/
def resolve (cwd : List String) (p : Path) : List String :=
  p.parts.foldl step (if p.absolute then [] else cwd)

/-- The absolute path of the names from the root. -/
def ofParts (parts : List String) : Path :=
  ⟨true, parts⟩

end Path

end PlanReview
