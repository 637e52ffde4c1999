import PlanReview.Schema.Issue

/-!
# Results that collect issues

A `Checked` value is a value or a non-empty report of issues. Unlike an exception it does not
stop at the first one : combining two results combines their issues, in order, so a document is
reported on as a whole.
-/

namespace PlanReview.Schema

/-- A value, or the issues that stand against it. -/
inductive Checked (α : Type) where
  | ok (value : α)
  | bad (issues : List Issue)

namespace Checked

variable {α β : Type}

/-- Apply a function to a result. -/
def map (f : α → β) : Checked α → Checked β
  | ok a => ok (f a)
  | bad e => bad e

/-- Apply a checked function to a checked argument; the issues of both are kept. -/
def ap (f : Checked (α → β)) (x : Checked α) : Checked β :=
  match f, x with
  | ok f, ok a => ok (f a)
  | ok _, bad e => bad e
  | bad e, ok _ => bad e
  | bad e, bad e' => bad (e ++ e')

instance : Functor Checked where
  map := map

instance : Applicative Checked where
  pure := ok
  seq f x := ap f (x ())

/-- A fault of the value itself. -/
def fault (f : Fault) : Checked α :=
  bad [⟨[], f⟩]

/-- The result for the part of a document under `key`. -/
def under (key : Key) : Checked α → Checked α
  | ok a => ok a
  | bad e => bad (e.map fun i => { i with path := key :: i.path })

/-- The outcome for a document that should be a `shape`. -/
def report (shape : String) : Checked α → Except Invalid α
  | ok a => .ok a
  | bad e => .error ⟨shape, e⟩

@[simp] theorem pure_eq (a : α) : (pure a : Checked α) = ok a := rfl

@[simp] theorem map_ok (f : α → β) (a : α) : f <$> (ok a : Checked α) = ok (f a) := rfl

@[simp] theorem seq_ok (f : α → β) (a : α) : (ok f : Checked (α → β)) <*> ok a = ok (f a) := rfl

@[simp] theorem under_ok (key : Key) (a : α) : under key (ok a) = ok a := rfl

end Checked

end PlanReview.Schema
