import PlanReview.Proofs.Json.RoundTrip
import PlanReview.Proofs.Reply.Block
import PlanReview.Proofs.Reply.Commas
import PlanReview.Proofs.Reply.Fences

/-!
# An object among words

A reply may hold the text of an object with words before and behind it. Read strictly, it gives an
object only if the words are blank, and then that object (`blank_of_document`). Read leniently, the
words do no harm : of a text without a fenced block, the reader finds the very text of the object
(`salvage_append`), and dropping commas changes it only where a string holds a comma before a
closing bracket. So the object comes back whatever the words are, as long as its strings hold
neither (`readObject_of_parse`). With either in a string, the object is lost, or another one comes
back (`readObject_of_holding`).
-/

namespace PlanReview.Reply

open Json

variable {p s t : List Char} {fields fs : List (String × Json)}

/-- Words that may stand beside an object : no opening brace and no fence. -/
def IsProse (w : List Char) : Prop :=
  '{' ∉ w ∧ ¬fence <:+: w

instance (w : List Char) : Decidable (IsProse w) :=
  inferInstanceAs (Decidable (_ ∧ _))

/-! ## Blanks -/

theorem notMem_of_allGaps {g : List Char} (hg : AllGaps g) : '{' ∉ g :=
  fun h => by cases hg _ h

/-- Blanks beside words are words. -/
theorem IsProse.append_gaps {g : List Char} (hp : IsProse p) (hg : AllGaps g) :
    IsProse (p ++ g) ∧ IsProse (g ++ p) := by
  have hfence : ∀ c ∈ g, c ∉ fence := fun c hc => notMem_fence fun heq => by
    cases heq ▸ hg c hc
  have hne : fence ≠ [] := by decide
  simp only [IsProse, List.mem_append, notMem_of_allGaps hg, or_false, false_or,
    Text.infix_append_right_iff hne hfence, Text.infix_append_left_iff hne hfence]
  exact ⟨hp, hp⟩

/-! ## Strict reading -/

theorem document_of_isText {w : List Char} {j : Json} (h : IsText w j) : document w = .ok j :=
  document_eq_ok_iff.2 ⟨[], w, [], by simp, nofun, nofun, h⟩

/-- Blanks around an object do not matter. -/
theorem document_of_blank (h : document t = .ok (.obj fields)) (hp : AllGaps p) (hs : AllGaps s) :
    document (p ++ (t ++ s)) = .ok (.obj fields) := by
  obtain ⟨g, w, g', rfl, hg, hg', hw⟩ := document_eq_ok_iff.1 h
  exact document_eq_ok_iff.2 ⟨p ++ g, w, g' ++ s, by simp, List.forall_mem_append.2 ⟨hp, hg⟩,
    List.forall_mem_append.2 ⟨hg', hs⟩, hw⟩

/-- If an object with words around it is read strictly, the words are blank and the object is the
same : the block of either text is that of the other. -/
theorem blank_of_document (h : document t = .ok (.obj fields)) (hp : '{' ∉ p)
    (hall : document (p ++ (t ++ s)) = .ok (.obj fs)) : AllGaps p ∧ AllGaps s ∧ fs = fields := by
  obtain ⟨g, w, g', rfl, hg, hg', hw⟩ := document_eq_ok_iff.1 h
  obtain ⟨b, u, b', htext, hb, hb', hu⟩ := document_eq_ok_iff.1 hall
  have htext' : (p ++ g) ++ (w ++ (g' ++ s)) = b ++ (u ++ b') := by
    rw [← htext]
    simp
  -- no brace opens before either object, so both are the first block
  have hpg : '{' ∉ p ++ g := by
    simp [hp, notMem_of_allGaps hg]
  obtain rfl : w = u := by
    have hblock := firstBlock_append hpg hw rfl (g' ++ s)
    rw [htext', firstBlock_append (notMem_of_allGaps hb) hu rfl] at hblock
    exact (Except.ok.inj hblock).symm
  obtain ⟨v, rfl, -⟩ := exists_braces_of_isText hw rfl
  simp only [List.cons_append] at htext'
  obtain ⟨rfl, hrest⟩ := Text.append_cons_inj hpg (notMem_of_allGaps hb) htext'
  obtain rfl := List.append_cancel_left hrest
  have hsame := (document_of_isText hu).symm.trans (document_of_isText hw)
  exact ⟨(List.forall_mem_append.1 hb).1, (List.forall_mem_append.1 hb').2, by simpa using hsame⟩

/-! ## Lenient reading -/

/-- An object among words is found by its own text. -/
theorem salvage_append (h : document t = .ok (.obj fields)) (hp : IsProse p) (hs : IsProse s)
    (hblock : HasNoBlock t) : ∃ g w g', t = g ++ (w ++ g') ∧ AllGaps g ∧
      IsText w (.obj fields) ∧ salvage (p ++ (t ++ s)) =
        (Json.parse (String.ofList (dropCommas false w))).mapError .syntaxError := by
  obtain ⟨g, w, g', rfl, hg, hg', hw⟩ := document_eq_ok_iff.1 h
  refine ⟨g, w, g', rfl, hg, hw, ?_⟩
  obtain ⟨v, rfl, -⟩ := exists_braces_of_isText hw rfl
  have hp' := (hp.append_gaps hg).1
  have hs' := (hs.append_gaps hg').2
  have hnone := HasNoBlock.append (hblock.of_infix ⟨g, g', List.append_assoc g _ g'⟩)
    (by decide) (by decide) hp'.2 hs'.2
  have hfirst : firstBlock (unwrap (p ++ (g ++ ('{' :: (v ++ ['}']) ++ g') ++ s))) =
      .ok ('{' :: (v ++ ['}'])) := by
    have hopen : '{' ∉ (p ++ g).dropWhile Text.isBlank := fun hmem =>
      hp'.1 ((List.dropWhile_suffix _).subset hmem)
    have htext : p ++ (g ++ ('{' :: (v ++ ['}']) ++ g') ++ s) =
        (p ++ g) ++ '{' :: (v ++ '}' :: (g' ++ s)) := by
      simp
    have hfound := firstBlock_append hopen hw rfl (Text.dropEndWhile Text.isBlank (g' ++ s))
    rw [htext, unwrap_append hnone rfl rfl]
    simpa using hfound
  rw [salvage, hfirst]

/-! ## Reading -/

section

variable {t p s : String} {fields : List (String × Json)}

theorem toList_append (p t s : String) :
    (p ++ t ++ s).toList = p.toList ++ (t.toList ++ s.toList) := by
  simp

theorem readObject_of_blank (h : Json.parse t = .ok (.obj fields)) (hp : AllGaps p.toList)
    (hs : AllGaps s.toList) : readObject (p ++ t ++ s) = .ok (.obj fields) := by
  have hread : Json.parse (p ++ t ++ s) = .ok (.obj fields) := by
    rw [parse_eq_ok_iff, toList_append]
    exact document_of_blank (parse_eq_ok_iff.1 h) hp hs
  rw [readObject, hread]

/-- Words that are not blank leave the object to the lenient reading. -/
theorem readObject_of_words (h : Json.parse t = .ok (.obj fields)) (hp : '{' ∉ p.toList)
    (hwords : ¬(AllGaps p.toList ∧ AllGaps s.toList)) :
    readObject (p ++ t ++ s) = salvage (p.toList ++ (t.toList ++ s.toList)) := by
  unfold readObject
  split
  · rename_i fs hall
    rw [parse_eq_ok_iff, toList_append] at hall
    obtain ⟨hpg, hsg, -⟩ := blank_of_document (parse_eq_ok_iff.1 h) hp hall
    exact absurd ⟨hpg, hsg⟩ hwords
  · rw [toList_append]

/-- An object comes back from among words, as long as no string of it holds a fenced block or a
comma before a closing bracket ; and from among blanks in any case. -/
theorem readObject_of_parse (h : Json.parse t = .ok (.obj fields)) (hp : IsProse p.toList)
    (hs : IsProse s.toList)
    (hspared : (fenced? t.toList = none ∧ commaInString false false t.toList = false) ∨
      (AllGaps p.toList ∧ AllGaps s.toList)) :
    readObject (p ++ t ++ s) = .ok (.obj fields) := by
  by_cases hblank : AllGaps p.toList ∧ AllGaps s.toList
  · exact readObject_of_blank h hblank.1 hblank.2
  · obtain ⟨hblock, hcommas⟩ := hspared.resolve_right hblank
    obtain ⟨g, w, g', hw, hg, hobj, hsalvage⟩ :=
      salvage_append (parse_eq_ok_iff.1 h) hp hs (fenced?_eq_none_iff.1 hblock)
    have hkept : commaInString false false w = false := by
      rw [hw] at hcommas
      exact commaInString_append_left ((compositional_isKept.gaps hg _ hcommas).2)
    have hread : Json.parse (String.ofList w) = .ok (.obj fields) := by
      rw [parse_eq_ok_iff, String.toList_ofList]
      exact document_of_isText hobj
    rw [readObject_of_words h hp.1 hblank, hsalvage, (dropCommas_eq_self_iff hobj).2 hkept, hread]
    rfl

end

/-- An object with braces, a fence and a comma in its strings. -/
def littered : Json :=
  .obj [("\x7d\x7b", .arr [.str "\"\x7d\\", .str "```", .str "a, b"])]

theorem readObject_of_littered : Json.parse (Json.write compact littered) = .ok littered ∧
    readObject ("Here : \x7d" ++ Json.write compact littered ++ " and [") = .ok littered := by
  have hread : Json.parse (Json.write compact littered) = .ok littered :=
    parse_write isReadable_compact (.inr rfl)
  exact ⟨hread, readObject_of_parse hread (by decide) (by decide) (.inl ⟨by decide, by decide⟩)⟩

/-- An object with one string. -/
def holding (text : String) : Json :=
  .obj [("a", .str text)]

/-- A comma in a string is dropped, and of a fenced block in a string no object is left. -/
theorem readObject_of_holding : IsProse "Here: ".toList ∧ IsProse "".toList ∧
    (Json.parse (Json.write compact (holding "x,]")) = .ok (holding "x,]") ∧
      readObject ("Here: " ++ Json.write compact (holding "x,]") ++ "") = .ok (holding "x]")) ∧
    (Json.parse (Json.write compact (holding "```x```")) = .ok (holding "```x```") ∧
      readObject ("Here: " ++ Json.write compact (holding "```x```") ++ "") =
        .error .noObject) := by
  have hcomma : Json.parse (Json.write compact (holding "x,]")) = .ok (holding "x,]") :=
    parse_write isReadable_compact (.inr rfl)
  have hfence : Json.parse (Json.write compact (holding "```x```")) = .ok (holding "```x```") :=
    parse_write isReadable_compact (.inr rfl)
  have hrest : Json.parse (Json.write compact (holding "x]")) = .ok (holding "x]") :=
    parse_write isReadable_compact (.inr rfl)
  refine ⟨by decide, by decide, ⟨hcomma, ?_⟩, ⟨hfence, ?_⟩⟩
  · rw [readObject_of_words hcomma (by decide) (by decide), salvage]
    have hblock : firstBlock (unwrap ("Here: ".toList ++
        ((Json.write compact (holding "x,]")).toList ++ "".toList))) =
          .ok (Json.write compact (holding "x,]")).toList := by
      decide
    have hdrop : String.ofList (dropCommas false (Json.write compact (holding "x,]")).toList) =
        Json.write compact (holding "x]") := by
      decide
    rw [hblock]
    simp only [hdrop, hrest]
    rfl
  · rw [readObject_of_words hfence (by decide) (by decide), salvage]
    have hblock : firstBlock (unwrap ("Here: ".toList ++
        ((Json.write compact (holding "```x```")).toList ++ "".toList))) = .error .noObject := by
      decide
    rw [hblock]

end PlanReview.Reply
