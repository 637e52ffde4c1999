/-!
# Finding and replacing text

Texts are lists of characters here, so each function is a recursion along its input.
`replaceAll` scans once from the left : an occurrence that starts inside a replaced one is
not seen, and the inserted text is not searched again.
-/

namespace PlanReview.Text

/-- Whether `needle` occurs in the text, as a run of adjacent characters. -/
def occurs (needle : List Char) : List Char → Bool
  | [] => needle.isEmpty
  | c :: cs => needle.isPrefixOf (c :: cs) || occurs needle cs

/-- Whether the text `needle` occurs in `text`. -/
def contains (text needle : String) : Bool :=
  occurs needle.toList text.toList

/-- Replace the occurrences of `needle` by `new`, passing over the next `skip` characters :
those that the occurrence just replaced still covers. -/
def replaceFrom (needle new : List Char) : Nat → List Char → List Char
  | _, [] => []
  | skip + 1, _ :: cs => replaceFrom needle new skip cs
  | 0, c :: cs =>
    if needle.isPrefixOf (c :: cs) then new ++ replaceFrom needle new (needle.length - 1) cs
    else c :: replaceFrom needle new 0 cs

/-- Replace the occurrences of a non-empty `needle`, from the left and without overlap. -/
def replaceAll (needle new text : List Char) : List Char :=
  replaceFrom needle new 0 text

/-- Split at every occurrence of the character `sep`; one more piece than separators. -/
def splitAt (sep : Char) : List Char → List (List Char)
  | [] => [[]]
  | c :: cs =>
    if c = sep then [] :: splitAt sep cs
    else
      match splitAt sep cs with
      | [] => [[c]]
      | piece :: pieces => (c :: piece) :: pieces

/-- What follows `start` in a text that begins with it. -/
def afterStart? (start text : List Char) : Option (List Char) :=
  if start.isPrefixOf text then some (text.drop start.length) else none

theorem afterStart?_eq_some_iff {start text rest : List Char} :
    afterStart? start text = some rest ↔ text = start ++ rest := by
  unfold afterStart?
  split
  · rename_i h
    obtain ⟨r, rfl⟩ := List.isPrefixOf_iff_prefix.mp h
    simp [List.append_cancel_left_eq]
  · rename_i h
    constructor
    · simp
    · rintro rfl
      exact absurd (List.isPrefixOf_iff_prefix.mpr (List.prefix_append start rest)) h

/-- The first `n` characters of a text. -/
def takeChars (n : Nat) (text : String) : String :=
  String.ofList (text.toList.take n)

end PlanReview.Text
