import PlanReview.Failure
import PlanReview.Workspace.Locks

/-!
# The workspace

An operation on sessions sees files, a clock and locks. It is a function on the `Workspace` that
either answers or fails; what it has changed until then stays changed. Files change only by
`perform`, which also notes the change in a journal, so the files at any moment of a run are the
files at its start after a part of the journal (`Workspace.history`).
-/

namespace PlanReview

/-- What operations work on. -/
structure Workspace where
  files : FileTree
  /-- All changes to the files, the newest first. -/
  journal : List Change := []
  now : Instant
  /-- The instant from which durations are counted. -/
  started : Instant
  locks : Locks := {}

/-- An operation on the workspace. -/
abbrev Act (α : Type) := ExceptT Failure (StateM Workspace) α

namespace Workspace

/-- The seconds that the clock has moved. -/
def seconds (w : Workspace) : Float :=
  w.now.since w.started

/-- The workspace after a change to its files. -/
def after (w : Workspace) (c : Change) : Workspace :=
  { w with files := w.files.apply c, journal := c :: w.journal }

/-- The workspace some microseconds later. -/
def later (w : Workspace) (micros : Int) : Workspace :=
  { w with now := w.now.later micros }

/-- All changes to the files, the oldest first. -/
def history (w : Workspace) : List Change :=
  w.journal.reverse

end Workspace

namespace Act

variable {α : Type}

/-- Change the files. -/
def perform (c : Change) : Act Unit :=
  modify fun w => w.after c

/-- Change the files several times. -/
def performAll : List Change → Act Unit
  | [] => pure ()
  | c :: cs => do
    perform c
    performAll cs

/-- An answer read off the workspace. -/
def read (f : Workspace → Except Failure α) : Act α := do
  ofExcept (f (← get))

/-- The present, in words. -/
def now : Act String := do
  return (← get).now.text

/-- Whether an operation fails, as an answer. -/
def attempt (a : Act α) : Act (Except Failure α) :=
  ExceptT.mk (do return .ok (← a.run))

/-- `a`, and then `last` whether `a` has failed or not. -/
def ensuring (a : Act α) (last : Act Unit) : Act α := do
  let result ← attempt a
  last
  ofExcept result

/-- What can be done with a file, with its failure as a crash. -/
def crashing (r : Except FileError α) : Act α :=
  ofExcept (r.mapError fun e => .crash (.file e))

/-- Make a directory and all that lead to it. -/
def makeDirectories (dir : Path) : Act (Except FileError Unit) := do
  match (← get).files.makeDirectories dir with
  | .error e => return .error e
  | .ok changes =>
    performAll changes
    return .ok ()

/-- Write a text to a file, in place of what is there. -/
def writeText (file : Path) (text : String) : Act (Except FileError Unit) := do
  let w ← get
  match w.files.openForWriting file with
  | .error e => return .error e
  | .ok () =>
    perform (.write (file.resolve w.files.cwd) (.text text))
    return .ok ()

/-- Add a text at the end of a file. -/
def appendText (file : Path) (text : String) : Act (Except FileError Unit) := do
  let w ← get
  match w.files.openForWriting file with
  | .error e => return .error e
  | .ok () =>
    perform (.write (file.resolve w.files.cwd) ((w.files.contentOf file).append text))
    return .ok ()

end Act

end PlanReview
