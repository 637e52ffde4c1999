import PlanReview.Text.LowerCase
import PlanReview.Text.Lines

/-!
# Slugs

The name of a session's files : lower-case letters and digits of ASCII in runs joined by single
dashes, at most so many characters, and never empty.
-/

namespace PlanReview

/-- The characters that a slug keeps. -/
def isSlugChar (c : Char) : Bool :=
  c.isLower || c.isDigit

/-- Every run of characters that a slug does not keep becomes one dash; `inGap` says that the
text goes on inside such a run. -/
def dashed (inGap : Bool) : List Char → List Char
  | [] => []
  | c :: cs =>
    if isSlugChar c then c :: dashed false cs
    else if inGap then dashed true cs
    else '-' :: dashed true cs

/-- The first `limit` characters; a negative limit counts from the end. -/
def cut (limit : Int) (text : List Char) : List Char :=
  if limit < 0 then text.take (text.length - limit.natAbs) else text.take limit.toNat

/-- A slug cut at `limit`. -/
def slugChars (limit : Int) (text : List Char) : List Char :=
  let slug := Text.stripWhile (· == '-') (dashed false (Text.lower text))
  let slug := Text.dropEndWhile (· == '-') (cut limit slug)
  if slug.isEmpty then "plan".toList else slug

/-- The slug of a text. -/
def slugify (text : String) (limit : Int := 50) : String :=
  String.ofList (slugChars limit text.toList)

end PlanReview
