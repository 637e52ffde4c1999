import PlanReview.Proofs.Json.Scalar
import PlanReview.Text.Lines

/-!
# Line ends in written texts

A file that is read as text has its carriage returns made into line feeds. No layout without a
carriage return of its own writes one (`notMem_render`), because inside a string an escape stands
in its place. So a written text is read as it stands (`normalizeNewlines_write`).
-/

namespace PlanReview

open Decimal

theorem Text.normalizeNewlines_of_notMem {cs : List Char} (h : '\r' ∉ cs) :
    normalizeNewlines cs = cs := by
  fun_induction normalizeNewlines cs with
  | case1 => rfl
  | case2 cs ih => exact absurd List.mem_cons_self h
  | case3 c cs hne ih =>
    rw [List.mem_cons, not_or] at h
    rw [if_neg (Ne.symm h.1), ih h.2]

namespace Json

/-- The words of a notation have no carriage return. -/
structure IsClean (style : FloatNotation) : Prop where
  plus : '\r' ∉ style.plus.toList
  nan : '\r' ∉ style.nan.toList
  infinity : '\r' ∉ style.infinity.toList
  negativeInfinity : '\r' ∉ style.negativeInfinity.toList

/-- The blanks and the words of a layout have no carriage return. -/
structure Layout.IsClean (l : Layout) : Prop where
  itemGap : '\r' ∉ l.itemGap.toList
  keyGap : '\r' ∉ l.keyGap.toList
  floats : Json.IsClean l.floats

theorem isClean_stored : stored.IsClean :=
  ⟨by decide, by decide, by decide, by decide, by decide, by decide⟩

/-! ## Numbers -/

theorem AllDigits.notMem {ds : List Char} (h : AllDigits ds) : '\r' ∉ ds :=
  fun hmem => absurd (h _ hmem) (by decide)

theorem notMem_int (n : Int) : '\r' ∉ (toString n).toList :=
  fun h => by cases isScalarChar_int n _ h

theorem notMem_placePoint {ds : List Char} (h : AllDigits ds) (point : Int) :
    '\r' ∉ (placePoint ds point).toList := by
  have hzeros (n : Nat) := (allDigits_replicate n).notMem
  have htake := (h.take point.toNat).notMem
  have hdrop := (h.drop point.toNat).notMem
  unfold placePoint
  simp only [String.toList_ofList, List.mem_append, List.mem_cons, not_or]
  refine ⟨⟨?_, hzeros _⟩, by decide, ?_⟩
  · split
    · decide
    · exact htake
  · split
    · decide
    · simp only [List.mem_append, not_or]
      exact ⟨hzeros _, hdrop⟩

theorem notMem_exponentText {style : FloatNotation} (h : IsClean style) (e : Int) :
    '\r' ∉ (style.exponentText e).toList := by
  have hzeros (n : Nat) := (allDigits_replicate n).notMem
  have hdigits : '\r' ∉ (toString e.natAbs).toList := notMem_int e.natAbs
  unfold FloatNotation.exponentText
  simp only [String.toList_append, String.toList_ofList, List.mem_append, not_or]
  refine ⟨⟨⟨by decide, ?_⟩, hzeros _⟩, hdigits⟩
  split
  · decide
  · exact h.plus

theorem notMem_write_float {style : FloatNotation} (h : IsClean style) (x : Float) :
    '\r' ∉ (style.write x).toList := by
  unfold FloatNotation.write
  cases Reading.ofFloat x with
  | nan => exact h.nan
  | infinite negative =>
    cases negative
    · exact h.infinity
    · exact h.negativeInfinity
  | finite b =>
    have hsign : '\r' ∉ (if b.negative then "-" else "").toList := by
      split <;> decide
    have hds : AllDigits (toString (shortest b).digits).toList := by
      rw [show (toString (shortest b).digits).toList = _ from Nat.toList_repr]
      exact allDigits_toDigits _
    dsimp only
    split
    · rw [String.toList_append, List.mem_append, not_or]
      exact ⟨hsign, notMem_placePoint hds _⟩
    · have hmem := hds.notMem
      simp only [String.toList_append, String.toList_ofList, List.mem_append, not_or]
      refine ⟨⟨hsign, ?_⟩, notMem_exponentText h _⟩
      split <;> simp_all

/-! ## Values -/

theorem notMem_hexDigits (width n : Nat) : '\r' ∉ Text.hexDigits width n :=
  fun h => by cases isScalarChar_hexDigits width n _ h

theorem notMem_escapeChar (asciiOnly : Bool) (c : Char) : '\r' ∉ escapeChar asciiOnly c := by
  have hunit (n : Nat) : '\r' ∉ unitEscape n := by
    simp [unitEscape, notMem_hexDigits]
  unfold escapeChar
  split_ifs <;> simp_all [Ne.symm]

theorem notMem_stringText (asciiOnly : Bool) (s : String) : '\r' ∉ stringText asciiOnly s := by
  simp [stringText, notMem_escapeChar]

variable {l : Layout}

theorem notMem_lineStart (l : Layout) (depth : Nat) : '\r' ∉ l.lineStart depth := by
  unfold Layout.lineStart
  split
  · exact List.not_mem_nil
  · simp

theorem notMem_itemBreak (h : l.IsClean) (depth : Nat) : '\r' ∉ l.itemBreak depth := by
  unfold Layout.itemBreak
  split
  · simp [h.itemGap]
  · simp [notMem_lineStart]

mutual
theorem notMem_render (h : l.IsClean) : ∀ (depth : Nat) (j : Json), '\r' ∉ render l depth j
  | _, null => by simp [render]
  | _, bool b => by cases b <;> simp [render]
  | _, int n => notMem_int n
  | _, float x => notMem_write_float h.floats x
  | _, str s => notMem_stringText _ s
  | _, arr [] => by simp [render]
  | depth, arr (x :: xs) => by
    simp [render, notMem_lineStart, notMem_render h (depth + 1) x,
      notMem_renderItems h (depth + 1) xs]
  | _, obj [] => by simp [render]
  | depth, obj ((k, v) :: fs) => by
    simp [render, notMem_lineStart, notMem_stringText, h.keyGap, notMem_render h (depth + 1) v,
      notMem_renderFields h (depth + 1) fs]

theorem notMem_renderItems (h : l.IsClean) :
    ∀ (depth : Nat) (xs : List Json), '\r' ∉ renderItems l depth xs
  | _, [] => by simp [renderItems]
  | depth, x :: xs => by
    simp [renderItems, notMem_itemBreak h, notMem_render h depth x, notMem_renderItems h depth xs]

theorem notMem_renderFields (h : l.IsClean) :
    ∀ (depth : Nat) (fs : Fields), '\r' ∉ renderFields l depth fs
  | _, [] => by simp [renderFields]
  | depth, (k, v) :: fs => by
    simp [renderFields, notMem_itemBreak h, notMem_stringText, h.keyGap, notMem_render h depth v,
      notMem_renderFields h depth fs]
end

/-- A written text is read as it stands. -/
theorem normalizeNewlines_write (h : l.IsClean) (j : Json) :
    Text.normalizeNewlines (write l j).toList = (write l j).toList := by
  unfold write
  rw [String.toList_ofList, Text.normalizeNewlines_of_notMem (notMem_render h 0 j)]

end Json

end PlanReview
