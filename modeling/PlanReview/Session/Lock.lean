import PlanReview.Workspace.Basic

/-!
# Driving a session alone

`hold` runs an operation while a registry holds the lock of a session's directory. Entering either
gets the lock or fails and leaves all locks as they were; leaving gives the lock back, however the
operation ended. The lock file stays behind.
-/

namespace PlanReview.Lock

variable {α : Type}

/-- The name of the lock file in a session's directory. -/
def fileName : String := ".session.lock"

/-- Make sure that a lock file is there. -/
def touch (file : Path) : Act (Except FileError Unit) := do
  if (← get).files.isFile file then return .ok ()
  Act.writeText file ""

/-- Fail because a lock file cannot be made. -/
def requireFile (dir : Path) : Except FileError Unit → Act Unit
  | .ok () => pure ()
  | .error e => throw (.persistence (.noLock dir.text e))

/-- Get the lock of a directory, or fail at once if someone has it. -/
def acquire (registry : Registry) (dir : Path) : Act Unit := do
  let w ← get
  let key := dir.resolve w.files.cwd
  let place := Path.ofParts key
  if w.locks.holds registry key then
    throw (.locked (.sameProcess place.name))
  requireFile place (← Act.makeDirectories place)
  requireFile place (← touch (place.child fileName))
  if w.locks.isTaken key then
    throw (.locked (.otherWorker place.name))
  modify fun w => { w with locks := w.locks.take registry key }

/-- Give back the lock of a directory. -/
def release (registry : Registry) (dir : Path) : Act Unit :=
  modify fun w => { w with locks := w.locks.release registry (dir.resolve w.files.cwd) }

/-- Whether a registry holds the lock of a directory. -/
def isHeld (registry : Registry) (dir : Path) (w : Workspace) : Bool :=
  w.locks.holds registry (dir.resolve w.files.cwd)

/-- Run an operation under the lock of a directory. -/
def hold (registry : Registry) (dir : Path) (body : Act α) : Act α := do
  acquire registry dir
  Act.ensuring body (release registry dir)

end PlanReview.Lock
