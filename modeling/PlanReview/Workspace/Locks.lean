/-!
# Locks on directories

A session is driven by one worker at a time. Every worker keeps a `Registry` of the directories it
drives, and the machine knows which directories are taken at all. The two are kept apart, so that
"taken by no one twice" can be said : `held` lists who drives what, `taken` what is driven.
-/

namespace PlanReview

/-- The name of a worker's registry. -/
abbrev Registry := String

/-- Who drives which directories. A directory is given by its names from the root. -/
structure Locks where
  /-- The directories that registries hold, the oldest first. -/
  held : List (Registry × List String) := []
  /-- The directories whose lock file is taken. -/
  taken : List (List String) := []

namespace Locks

/-- Whether a registry holds a directory. -/
def holds (l : Locks) (r : Registry) (dir : List String) : Bool :=
  l.held.contains (r, dir)

/-- Whether the lock file of a directory is taken. -/
def isTaken (l : Locks) (dir : List String) : Bool :=
  l.taken.contains dir

/-- The locks once a registry has got a directory. -/
def take (l : Locks) (r : Registry) (dir : List String) : Locks where
  held := l.held ++ [(r, dir)]
  taken := l.taken ++ [dir]

/-- The locks once a registry has given back a directory; nothing happens to one that it does not
hold. -/
def release (l : Locks) (r : Registry) (dir : List String) : Locks :=
  if l.holds r dir then ⟨l.held.erase (r, dir), l.taken.erase dir⟩ else l

/-- The last names of the directories that a registry holds, sorted. -/
def active (l : Locks) (r : Registry) : List String :=
  ((l.held.filter fun e => e.1 == r).map fun e => e.2.getLast?.getD "").mergeSort fun a b => a ≤ b

end Locks

end PlanReview
