/-!
# Wildcards

In a pattern a star stands for any run of characters, also none; every other character stands
for itself.
-/

namespace PlanReview.Guardrail

/-- Whether a whole text matches a pattern. -/
def globMatches (pattern text : List Char) : Bool :=
  match pattern, text with
  | [], [] => true
  | [], _ :: _ => false
  | '*' :: '*' :: p, s => globMatches ('*' :: p) s
  | '*' :: p, [] => globMatches p []
  | '*' :: p, c :: s => globMatches p (c :: s) || globMatches ('*' :: p) s
  | _ :: _, [] => false
  | d :: p, c :: s => d == c && globMatches p s
termination_by pattern.length + text.length

end PlanReview.Guardrail
