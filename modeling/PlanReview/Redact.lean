import PlanReview.Text.CharClass
import PlanReview.Text.Search

/-!
# Removing secrets from text

Three passes : bearer tokens, keys that start with `sk-`, and the secrets that are known. Each
pass reads from the left; an occurrence is replaced as a whole and not read again.
-/

namespace PlanReview.Redact

/-- What stands in the place of a secret. -/
def marker : List Char := "[REDACTED]".toList

/-- The characters of a bearer token. -/
def inToken (c : Char) : Bool :=
  c.isAlphanum || c == '-' || c == '_' || c == '.'

/-- The characters of a key. -/
def inKey (c : Char) : Bool :=
  c.isAlphanum || c == '-' || c == '_'

/-- The length of the bearer token at the head of a text, if there is one : the word, blanks,
and token characters. -/
def bearerLength? (s : List Char) : Option Nat :=
  if "Bearer".toList.isPrefixOf s then
    let rest := s.drop 6
    let blanks := rest.takeWhile Text.isBlank
    let token := (rest.dropWhile Text.isBlank).takeWhile inToken
    if blanks.isEmpty || token.isEmpty then none
    else some (6 + blanks.length + token.length)
  else none

/-- The length of the key at the head of a text, if there is one. -/
def keyLength? (s : List Char) : Option Nat :=
  if "sk-".toList.isPrefixOf s then
    let body := (s.drop 3).takeWhile inKey
    if body.isEmpty then none else some (3 + body.length)
  else none

/-- Replace every occurrence that `length?` finds by `new`, passing over the next `skip`
characters. -/
def replaceFrom (length? : List Char → Option Nat) (new : List Char) :
    Nat → List Char → List Char
  | _, [] => []
  | skip + 1, _ :: cs => replaceFrom length? new skip cs
  | 0, c :: cs =>
    match length? (c :: cs) with
    | some n => new ++ replaceFrom length? new (n - 1) cs
    | none => c :: replaceFrom length? new 0 cs

/-- Remove bearer tokens and keys. -/
def tokens (text : List Char) : List Char :=
  replaceFrom keyLength? marker 0
    (replaceFrom bearerLength? ("Bearer ".toList ++ marker) 0 text)

/-- Remove tokens, keys and the known secrets, the latter in the given order. -/
def redact (secrets : List String) (text : String) : String :=
  String.ofList (secrets.foldl
    (fun t s => if s.isEmpty then t else Text.replaceAll s.toList marker t)
    (tokens text.toList))

end PlanReview.Redact
