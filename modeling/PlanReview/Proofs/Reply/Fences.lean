import Mathlib.Data.List.TakeWhile
import PlanReview.Proofs.Text.Delimiter
import PlanReview.Reply.Repair

/-!
# Fenced blocks

A text has a fenced block exactly if a fence occurs behind another one (`fenced?_eq_none_iff`). So
words around an object bring in none, unless they have a fence themselves
(`HasNoBlock.append`), and unwrapping such a text takes away no more than blanks at its ends
(`unwrap_append`).
-/

namespace PlanReview.Reply

variable {p s t v w : List Char} {c d : Char}

/-- No fence occurs behind another one. -/
def HasNoBlock (w : List Char) : Prop :=
  ∀ a b, w = a ++ (fence ++ b) → ¬fence <:+: b

theorem notMem_fence (h : c ≠ '\u0060') : c ∉ fence := by
  simpa [fence] using h

/-! ## What the reader of fences finds -/

theorem beforeFence?_eq_none_iff : beforeFence? w = none ↔ ¬fence <:+: w := by
  induction w with
  | nil => simp [beforeFence?, fence]
  | cons c cs ih =>
    rw [beforeFence?, List.infix_cons_iff, ← List.isPrefixOf_iff_prefix]
    split_ifs with h
    · simp [h]
    · simp [h, ih]

/-- The name of the language holds no fence. -/
theorem exists_language (w : List Char) :
    ∃ z, w = z ++ afterLanguage w ∧ ∀ c ∈ z, c ≠ '\u0060' := by
  unfold afterLanguage
  split
  · rename_i j ss o n rest
    split
    · rename_i h
      simp only [Bool.and_eq_true, Bool.or_eq_true, decide_eq_true_eq] at h
      obtain ⟨⟨⟨hj, hs⟩, ho⟩, hn⟩ := h
      refine ⟨[j, ss, o, n], rfl, ?_⟩
      simp only [List.forall_mem_cons]
      refine ⟨?_, ?_, ?_, ?_, nofun⟩
      · rcases hj with rfl | rfl <;> decide
      · rcases hs with (rfl | rfl) | rfl <;> decide
      · rcases ho with rfl | rfl <;> decide
      · rcases hn with rfl | rfl <;> decide
    · exact ⟨[], rfl, by simp⟩
  · exact ⟨[], rfl, by simp⟩

theorem exists_content (w : List Char) :
    ∃ z, w = z ++ (afterLanguage w).dropWhile Text.isBlank ∧ ∀ c ∈ z, c ≠ '\u0060' := by
  obtain ⟨z, hz, hmem⟩ := exists_language w
  refine ⟨z ++ (afterLanguage w).takeWhile Text.isBlank, ?_, List.forall_mem_append.2 ⟨hmem, ?_⟩⟩
  · rw [List.append_assoc, List.takeWhile_append_dropWhile]
    exact hz
  · intro c hc
    have hblank := List.all_eq_true.1 List.all_takeWhile c hc
    rintro rfl
    cases hblank

/-- A block is missed only if no second fence occurs. -/
theorem content_eq_none_iff :
    beforeFence? ((afterLanguage w).dropWhile Text.isBlank) = none ↔ ¬fence <:+: w := by
  obtain ⟨z, hz, hmem⟩ := exists_content w
  rw [beforeFence?_eq_none_iff]
  conv_rhs => rw [hz]
  rw [Text.infix_append_left_iff (by decide) fun c hc => notMem_fence (hmem c hc)]

theorem hasNoBlock_fence_iff (hw : fence ++ v = w) : HasNoBlock w ↔ ¬fence <:+: v := by
  constructor
  · exact fun h => h [] v hw.symm
  · intro h a b hab hb
    -- what stands behind any fence stands behind the first one
    have hlen := congrArg List.length (hw.trans hab)
    simp only [List.length_append] at hlen
    have hbw : b <:+ w := ⟨a ++ fence, by rw [hab, List.append_assoc]⟩
    have hvw : v <:+ w := ⟨fence, hw⟩
    exact h (hb.trans (List.suffix_of_suffix_length_le hbw hvw (by omega)).isInfix)

theorem hasNoBlock_cons_iff (h : ¬fence <+: c :: v) :
    HasNoBlock (c :: v) ↔ HasNoBlock v := by
  constructor
  · exact fun hcons a b hab => hcons (c :: a) b (by rw [hab, List.cons_append])
  · intro hv a b hab
    cases a with
    | nil => exact absurd ⟨b, hab.symm⟩ h
    | cons e es => exact hv es b (List.tail_eq_of_cons_eq hab)

/-- A text has no fenced block exactly if no fence occurs behind another one. -/
theorem fenced?_eq_none_iff : fenced? w = none ↔ HasNoBlock w := by
  induction w with
  | nil => simp [fenced?, HasNoBlock, fence]
  | cons c cs ih =>
    rw [fenced?]
    split_ifs with h
    · obtain ⟨v, hv⟩ := List.isPrefixOf_iff_prefix.1 h
      obtain rfl : cs.drop 2 = v := by
        rw [← List.tail_eq_of_cons_eq hv]
        rfl
      rw [hasNoBlock_fence_iff hv, content_eq_none_iff]
    · rw [hasNoBlock_cons_iff (by rwa [← List.isPrefixOf_iff_prefix]), ih]

/-! ## Words around a text -/

theorem HasNoBlock.of_infix (ht : HasNoBlock t) (h : w <:+: t) : HasNoBlock w := by
  obtain ⟨x, y, rfl⟩ := h
  rintro a b rfl hb
  exact ht (x ++ a) (b ++ y) (by simp) (hb.trans (List.prefix_append b y).isInfix)

/-- Words without a fence bring no block into a text that begins and ends with other characters. -/
theorem HasNoBlock.append (h : HasNoBlock (c :: (t ++ [d]))) (hc : c ≠ '\u0060')
    (hd : d ≠ '\u0060') (hp : ¬fence <:+: p) (hs : ¬fence <:+: s) :
    HasNoBlock (p ++ c :: (t ++ d :: s)) := by
  intro a b hab hb
  -- the first fence stands before `c`, between `c` and `d`, or behind `d`
  rcases Text.append_cons_eq_append (notMem_fence hc) hab with ⟨b', rfl, -⟩ | ⟨a', ht, -⟩
  · exact hp ⟨a, b', List.append_assoc ..⟩
  rcases Text.append_cons_eq_append (notMem_fence hd) ht with ⟨b', rfl, rfl⟩ | ⟨a'', rfl, -⟩
  · rcases (Text.infix_append_cons_iff (notMem_fence hd)).1 hb with hb | hb
    · refine h (c :: a') (b' ++ [d]) (by simp) (hb.trans (List.prefix_append ..).isInfix)
    · exact hs hb
  · exact hs ⟨a'', b, List.append_assoc ..⟩

theorem dropWhile_append_cons {q : Char → Bool} (hc : q c = false) (x y : List Char) :
    (x ++ c :: y).dropWhile q = x.dropWhile q ++ c :: y := by
  rw [List.dropWhile_append]
  split_ifs with h
  · rw [List.isEmpty_iff.1 h, List.dropWhile_cons_of_neg (by simp [hc]), List.nil_append]
  · rfl

theorem stripWhile_append_cons {q : Char → Bool} (hc : q c = false) (hd : q d = false)
    (x y z : List Char) : Text.stripWhile q (x ++ c :: (y ++ d :: z)) =
      x.dropWhile q ++ c :: (y ++ d :: Text.dropEndWhile q z) := by
  rw [Text.stripWhile, dropWhile_append_cons hc, Text.dropEndWhile, Text.dropEndWhile]
  have hrev : (x.dropWhile q ++ c :: (y ++ d :: z)).reverse =
      z.reverse ++ d :: (x.dropWhile q ++ c :: y).reverse := by
    simp
  rw [hrev, dropWhile_append_cons hd]
  simp

/-- Where no block is fenced, nothing between two characters other than blanks is lost. -/
theorem unwrap_append (h : HasNoBlock (p ++ c :: (t ++ d :: s))) (hc : Text.isBlank c = false)
    (hd : Text.isBlank d = false) : unwrap (p ++ c :: (t ++ d :: s)) =
      p.dropWhile Text.isBlank ++ c :: (t ++ d :: Text.dropEndWhile Text.isBlank s) := by
  rw [unwrap, fenced?_eq_none_iff.2 h, Option.getD_none, stripWhile_append_cons hc hd]

end PlanReview.Reply
