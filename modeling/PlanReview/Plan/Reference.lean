import PlanReview.Plan.Basic
import PlanReview.Json.Writer
import PlanReview.Text.Search

/-!
# References between instructions

An instruction uses the result of another by writing `${id.field}` anywhere in its parameters.
References are looked for in the compact JSON text of the parameters, with two patterns : one
allows dashes in ids and knows ASCII only (`Pattern.dependency`), the other takes word characters
of every script (`Pattern.field`).

A dollar sign can only stand at the start of a match, so matches never overlap, and looking for
one at every position finds what a scan from the left finds.
-/

namespace PlanReview

namespace Reference

/-- The fields of the result of a step. -/
def resultFields : List String :=
  ["output", "stdout", "stderr", "exit_code", "artifacts", "metadata"]

/-- Which characters a pattern allows in ids and in field names. -/
structure Pattern where
  inId : Char → Bool
  inField : Char → Bool

/-- Ids of ASCII letters, digits, underscores and dashes; used by the dependency rule. -/
def Pattern.dependency : Pattern where
  inId c := c.isAlphanum || c == '_' || c == '-'
  inField c := c.isAlphanum || c == '_'

/-- Word characters of every script; used by the rule on field names. -/
def Pattern.field : Pattern where
  inId := Text.isWord
  inField := Text.isWord

/-- A reference as it is written : an id and a field. -/
structure Found where
  id : String
  field : String
  deriving Repr, DecidableEq

/-- The reference that starts at the head of a text. -/
def Pattern.matchHead? (p : Pattern) : List Char → Option Found
  | '$' :: '{' :: cs =>
    let id := cs.takeWhile p.inId
    match cs.dropWhile p.inId with
    | '.' :: cs =>
      let field := cs.takeWhile p.inField
      match cs.dropWhile p.inField with
      | '}' :: _ =>
        if id.isEmpty || field.isEmpty then none
        else some ⟨String.ofList id, String.ofList field⟩
      | _ => none
    | _ => none
  | _ => none

/-- The references in a text, in order. -/
def Pattern.scan (p : Pattern) : List Char → List Found
  | [] => []
  | c :: cs => (p.matchHead? (c :: cs)).toList ++ p.scan cs

/-- Whether a text seems to use the result of a step. -/
def mayRefer (text : List Char) : Bool :=
  Text.occurs ['$', '{'] text && resultFields.any fun f => Text.occurs ('.' :: f.toList) text

/-- Whether a value as a whole is a reference. -/
def isReference : Json → Bool
  | .str s =>
    ['$', '{'].isPrefixOf s.toList && s.toList.contains '.' && s.toList.getLast? == some '}'
  | _ => false

end Reference

/-- The compact JSON text of the parameters, in which references are looked for. -/
def Instruction.paramsText (i : Instruction) : List Char :=
  Json.render Json.compact 0 i.params

/-- The ids that an instruction refers to, in order and with repetitions. -/
def Instruction.referencedIds (i : Instruction) : List String :=
  (Reference.Pattern.dependency.scan i.paramsText).map (·.id)

end PlanReview
