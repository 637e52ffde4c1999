import PlanReview.Files.Path
import PlanReview.Text.Lines
import PlanReview.Text.Quoted
import PlanReview.Text.Utf8

/-!
# Trees of files

A `FileTree` holds directories and files by the names that lead to them. It only changes by
`apply`, one `Change` at a time, so a series of writes is a list of changes and what a reader
sees between two of them is the tree after a part of that list (`applyAll`).

Every change gets a later time than the one before, and a directory is as old as the last entry
made in it or taken from it.
-/

namespace PlanReview

/-- The content of a file : text, or bytes that are not the encoding of any text. -/
inductive Content where
  | text (value : String)
  | binary (bytes : ByteArray)

/-- The text of a content, for one that is text; line ends become line feeds. -/
def Content.readText? : Content → Option String
  | .text s => some (String.ofList (Text.normalizeNewlines s.toList))
  | .binary _ => none

/-- What is wrong with the bytes of a content that is no text. -/
def Content.encodingFault : Content → String
  | .text _ => ""
  | .binary bytes => ((Text.Utf8.faultFrom? 0 0 bytes.toList).map Text.Utf8.Fault.message).getD ""

/-- A content with a text added at its end. -/
def Content.append : Content → String → Content
  | .text s, t => .text (s ++ t)
  | .binary b, t => .binary (b ++ t.toUTF8)

/-- What stands under a path. -/
inductive Node where
  | directory
  | file (content : Content)

/-- What stands under a path, and since when. -/
structure FileEntry where
  node : Node
  modified : Int

/-- Directories and files, by the names from the root on; `cwd` is where relative paths
start. -/
structure FileTree where
  cwd : List String
  entries : List (List String × FileEntry) := []
  /-- The time of the next change. -/
  clock : Int := 2000000000000000

/-- Why a path cannot be used. -/
inductive FileFault where
  | missing
  | notDirectory
  | isDirectory
  | alreadyThere
  deriving Repr, DecidableEq

/-- A path that cannot be used, in the words in which it was given. -/
structure FileError where
  fault : FileFault
  path : String
  target : Option String := none
  deriving Repr, DecidableEq

/-- The number of a fault. -/
def FileFault.code : FileFault → Nat
  | missing => 2
  | alreadyThere => 17
  | notDirectory => 20
  | isDirectory => 21

/-- The wording of a fault. -/
def FileFault.message : FileFault → String
  | missing => "No such file or directory"
  | alreadyThere => "File exists"
  | notDirectory => "Not a directory"
  | isDirectory => "Is a directory"

/-- The wording of an error. -/
def FileError.message (e : FileError) : String :=
  let paths :=
    match e.target with
    | some t => Text.quoted e.path ++ " -> " ++ Text.quoted t
    | none => Text.quoted e.path
  "[Errno " ++ toString e.fault.code ++ "] " ++ e.fault.message ++ ": " ++ paths

/-- One change to a tree of files; the paths are names from the root on. -/
inductive Change where
  | makeDirectory (path : List String)
  | write (path : List String) (content : Content)
  | rename (source target : List String)
  | remove (path : List String)
  | setTime (path : List String) (micros : Int)

namespace FileTree

/-- What stands under the names `names`. The root is always there. -/
def node? (t : FileTree) (names : List String) : Option Node :=
  if names.isEmpty then some .directory else (t.entries.lookup names).map (·.node)

/-- What a path leads to. -/
def find? (t : FileTree) (p : Path) : Option Node :=
  t.node? (p.resolve t.cwd)

/-- Whether something stands under a path. -/
def has (t : FileTree) (p : Path) : Bool :=
  (t.find? p).isSome

/-- Whether a path leads to a directory. -/
def isDirectory (t : FileTree) (p : Path) : Bool :=
  match t.find? p with
  | some .directory => true
  | _ => false

/-- Whether a path leads to a file. -/
def isFile (t : FileTree) (p : Path) : Bool :=
  match t.find? p with
  | some (.file _) => true
  | _ => false

/-! ## Changes -/

/-- The entries with the entry at `names` replaced, or added at the end. -/
def setEntry (entries : List (List String × FileEntry)) (names : List String) (e : FileEntry) :
    List (List String × FileEntry) :=
  match entries with
  | [] => [(names, e)]
  | (k, v) :: rest => if k = names then (names, e) :: rest else (k, v) :: setEntry rest names e

/-- The entries with the time of `names` set. -/
def setModified (entries : List (List String × FileEntry)) (names : List String) (micros : Int) :
    List (List String × FileEntry) :=
  entries.map fun (k, v) => if k = names then (k, { v with modified := micros }) else (k, v)

/-- Put a node under a path; a new entry also changes the directory that it is in. -/
def put (t : FileTree) (names : List String) (n : Node) : FileTree :=
  let isNew := (t.entries.lookup names).isNone
  let entries := setEntry t.entries names ⟨n, t.clock⟩
  { t with
    entries := if isNew then setModified entries names.dropLast t.clock else entries
    clock := t.clock + 1 }

/-- Take an entry, and everything inside it, out of the tree. -/
def take (t : FileTree) (names : List String) : FileTree :=
  { t with
    entries := setModified (t.entries.filter fun e => !names.isPrefixOf e.1) names.dropLast t.clock
    clock := t.clock + 1 }

/-- The tree after a change. -/
def apply (t : FileTree) : Change → FileTree
  | .makeDirectory path => t.put path .directory
  | .write path content => t.put path (.file content)
  | .rename source target =>
    match t.node? source with
    | some n => (t.take source).put target n
    | none => t
  | .remove path => t.take path
  | .setTime path micros => { t with entries := setModified t.entries path micros }

/-- The tree after some changes, the first of them first. -/
def applyAll (t : FileTree) (changes : List Change) : FileTree :=
  changes.foldl apply t

/-! ## Reading -/

/-- The names that lead to `names`, from the first on. -/
def ancestors (names : List String) : List (List String) :=
  (List.range names.length).map fun n => names.take n

/-- Why nothing can be done under `names` : some name on the way is missing or is a file. -/
def obstacle? (t : FileTree) (names : List String) : Option FileFault :=
  (ancestors names).findSome? fun a =>
    match t.node? a with
    | some .directory => none
    | some (.file _) => some .notDirectory
    | none => some .missing

/-- The content of the file that a path leads to. -/
def read (t : FileTree) (p : Path) : Except FileError Content :=
  match t.obstacle? (p.resolve t.cwd) with
  | some fault => .error { fault := fault, path := p.text }
  | none =>
    match t.find? p with
    | some (.file content) => .ok content
    | some .directory => .error { fault := .isDirectory, path := p.text }
    | none => .error { fault := .missing, path := p.text }

/-- The content of the file that a path leads to, empty if there is none. -/
def contentOf (t : FileTree) (p : Path) : Content :=
  match t.find? p with
  | some (.file content) => content
  | _ => .text ""

/-- The names inside a directory, in the order in which they were made. -/
def children (t : FileTree) (p : Path) : List String :=
  let names := p.resolve t.cwd
  t.entries.filterMap fun e =>
    if e.1.dropLast = names && !e.1.isEmpty then e.1.getLast? else none

/-- When the entry under a path was last modified. -/
def modified (t : FileTree) (p : Path) : Int :=
  ((t.entries.lookup (p.resolve t.cwd)).map (·.modified)).getD 0

/-- All paths below a directory, as texts relative to it, directories with a slash at the
end. -/
def listing (t : FileTree) (p : Path) : List String :=
  let names := p.resolve t.cwd
  let below := t.entries.filterMap fun e =>
    if names.isPrefixOf e.1 && names.length < e.1.length then
      let text := String.intercalate "/" (e.1.drop names.length)
      match e.2.node with
      | .directory => some (text ++ "/")
      | .file _ => some text
    else none
  below.mergeSort fun a b => a ≤ b

/-! ## Planning changes -/

/-- The changes that make a directory and all that lead to it. -/
def makeDirectories (t : FileTree) (p : Path) : Except FileError (List Change) :=
  let names := p.resolve t.cwd
  let steps := (List.range (names.length + 1)).map fun n => names.take n
  match t.node? names with
  | some .directory => .ok []
  | some (.file _) => .error { fault := .alreadyThere, path := p.text }
  | none =>
    if steps.any fun a => match t.node? a with | some (.file _) => true | _ => false then
      .error { fault := .notDirectory, path := p.text }
    else .ok ((steps.filter fun a => (t.node? a).isNone).map .makeDirectory)

/-- Whether a file can be opened for writing under a path. -/
def openForWriting (t : FileTree) (p : Path) : Except FileError Unit :=
  match t.obstacle? (p.resolve t.cwd) with
  | some fault => .error { fault := fault, path := p.text }
  | none =>
    if t.isDirectory p then .error { fault := .isDirectory, path := p.text } else .ok ()

end FileTree

end PlanReview
