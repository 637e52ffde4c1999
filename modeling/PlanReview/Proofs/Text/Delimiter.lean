import Mathlib.Data.List.Infix
import PlanReview.Text.Search

/-!
# Occurrences beside a delimiter

A run of characters that does not hold a delimiter stands wholly before it or wholly after it
(`append_cons_eq_append`). So where it occurs can be said part by part (`infix_append_cons_iff`).
-/

namespace PlanReview.Text

/-- What the search for a text finds is an occurrence of it. -/
theorem occurs_eq_true_iff {needle text : List Char} :
    occurs needle text = true ↔ needle <:+: text := by
  induction text with
  | nil => simp [occurs]
  | cons c cs ih =>
    rw [occurs, Bool.or_eq_true, ih, List.isPrefixOf_iff_prefix, List.infix_cons_iff]

variable {α : Type*} {needle x y z a b : List α} {c : α}

/-- The first delimiter splits a text in one way only. -/
theorem append_cons_inj (hx : c ∉ x) (ha : c ∉ a) (h : x ++ c :: y = a ++ c :: b) :
    x = a ∧ y = b := by
  have hne {z : List α} (hz : c ∉ z) : ∀ d ∈ z, d ≠ c := fun d hd => ne_of_mem_of_not_mem hd hz
  rcases List.append_eq_append_iff.1 h with ⟨d, rfl, hd⟩ | ⟨d, rfl, hd⟩ <;> cases d with
  | nil => simpa [eq_comm] using hd
  | cons e es =>
    obtain ⟨rfl, -⟩ := List.cons_eq_cons.1 hd
    simp at hx ha

/-- An occurrence of what does not hold the delimiter stands before the delimiter or after it. -/
theorem append_cons_eq_append (hc : c ∉ needle) (h : x ++ c :: y = a ++ (needle ++ b)) :
    (∃ b', x = a ++ (needle ++ b') ∧ b = b' ++ c :: y) ∨
      ∃ a', y = a' ++ (needle ++ b) ∧ a = x ++ c :: a' := by
  rcases List.append_eq_append_iff.1 h with ⟨d, rfl, hd⟩ | ⟨d, rfl, hd⟩
  · cases d with
    | nil =>
      cases needle with
      | nil => exact .inl ⟨[], by simp, hd.symm⟩
      | cons e es => exact absurd (List.head_eq_of_cons_eq hd ▸ List.mem_cons_self) hc
    | cons e es =>
      obtain ⟨rfl, rfl⟩ := List.cons_eq_cons.1 hd
      exact .inr ⟨es, rfl, rfl⟩
  · rcases List.append_eq_append_iff.1 hd with ⟨e, rfl, he⟩ | ⟨e, rfl, he⟩
    · exact .inl ⟨e, rfl, he⟩
    · cases e with
      | nil => exact .inl ⟨[], by simp, he.symm⟩
      | cons e es =>
        obtain ⟨rfl, -⟩ := List.cons_eq_cons.1 he
        exact absurd (List.mem_append_right d List.mem_cons_self) hc

theorem infix_append_cons_iff (hc : c ∉ needle) :
    needle <:+: x ++ c :: y ↔ needle <:+: x ∨ needle <:+: y := by
  constructor
  · rintro ⟨a, b, h⟩
    rw [List.append_assoc] at h
    rcases append_cons_eq_append hc h.symm with ⟨b', hx, -⟩ | ⟨a', hy, -⟩
    · exact .inl ⟨a, b', by rw [hx, List.append_assoc]⟩
    · exact .inr ⟨a', b, by rw [hy, List.append_assoc]⟩
  · rintro (h | h)
    · exact h.trans (List.prefix_append x _).isInfix
    · exact h.trans (List.suffix_append_of_suffix (List.suffix_cons c y)).isInfix

theorem prefix_append_cons_iff (hc : c ∉ needle) : needle <+: x ++ c :: y ↔ needle <+: x := by
  constructor
  · rintro ⟨b, h⟩
    rcases append_cons_eq_append (a := []) hc h.symm with ⟨b', hx, -⟩ | ⟨a', -, ha⟩
    · exact ⟨b', hx.symm⟩
    · simp at ha
  · exact fun h => h.trans (List.prefix_append x _)

/-- What stands before is of no account if it does not hold the first character of the run. -/
theorem cons_infix_append_iff (hc : c ∉ z) : c :: needle <:+: z ++ y ↔ c :: needle <:+: y := by
  induction z with
  | nil => rfl
  | cons d ds ih =>
    rw [List.mem_cons, not_or] at hc
    rw [List.cons_append, List.infix_cons_iff, ih hc.2, or_iff_right]
    exact fun h => hc.1 (List.cons_prefix_cons.1 h).1

theorem infix_append_left_iff (hne : needle ≠ []) (hz : ∀ c ∈ z, c ∉ needle) :
    needle <:+: z ++ y ↔ needle <:+: y := by
  cases needle with
  | nil => exact absurd rfl hne
  | cons d ds => exact cons_infix_append_iff fun hd => hz d hd List.mem_cons_self

/-- What stands behind is of no account if it holds no character of the run. -/
theorem infix_append_right_iff (hne : needle ≠ []) (hz : ∀ c ∈ z, c ∉ needle) :
    needle <:+: y ++ z ↔ needle <:+: y := by
  rw [← List.reverse_infix, List.reverse_append, infix_append_left_iff (by simpa using hne)
    (by simpa using hz), List.reverse_infix]

end PlanReview.Text
