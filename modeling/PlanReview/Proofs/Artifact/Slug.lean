import Mathlib.Data.List.Chain
import Mathlib.Data.List.DropRight
import PlanReview.Artifact.Slug

/-!
# The shape of slugs

A slug consists of runs of lower-case letters and digits that are joined by single dashes
(`IsSlug`). Whatever a text is, its dashed form has nothing but dashes between the characters that
are kept, and no two in a row (`IsDashed`) ; that passes on to every part of it, so trimming and
cutting cannot break it, and once there is no dash at either end it is a slug (`IsDashed.isSlug`).
A slug is in lower case, dashed and trimmed already, so it is its own slug
(`IsSlug.slugChars_eq`), and making a slug of a slug changes nothing (`slugify_isSlug`).
-/

namespace PlanReview

variable {s t : List Char} {c : Char} {limit : Int}

/-- The small letters and the digits of ASCII. -/
def IsLetterOrDigit (c : Char) : Prop :=
  ('a' ≤ c ∧ c ≤ 'z') ∨ ('0' ≤ c ∧ c ≤ '9')

/-- Runs of lower-case letters and digits, joined by single dashes. -/
inductive IsSlug : List Char → Prop where
  | run {run : List Char} : run ≠ [] → (∀ c ∈ run, IsLetterOrDigit c) → IsSlug run
  | join {run rest : List Char} : run ≠ [] → (∀ c ∈ run, IsLetterOrDigit c) → IsSlug rest →
      IsSlug (run ++ '-' :: rest)

/-- Only dashes stand between the characters that a slug keeps, and no two in a row. -/
structure IsDashed (s : List Char) : Prop where
  chars : ∀ c ∈ s, IsLetterOrDigit c ∨ c = '-'
  apart : s.IsChain fun a b => a = '-' → b ≠ '-'

theorem isSlugChar_iff : isSlugChar c = true ↔ IsLetterOrDigit c := by
  unfold isSlugChar Char.isLower Char.isDigit
  simp only [Bool.or_eq_true, Bool.and_eq_true, decide_eq_true_eq]
  exact Iff.rfl

theorem isLetterOrDigit_of_all (h : s.all isSlugChar = true) : ∀ c ∈ s, IsLetterOrDigit c :=
  fun c hc => isSlugChar_iff.1 (List.all_eq_true.1 h c hc)

theorem IsLetterOrDigit.ne_dash (h : IsLetterOrDigit c) : c ≠ '-' := by
  rintro rfl
  exact absurd (isSlugChar_iff.2 h) (by decide)

theorem IsSlug.cons (hc : IsLetterOrDigit c) (h : IsSlug s) : IsSlug (c :: s) := by
  cases h with
  | run _ hrun => exact .run (List.cons_ne_nil _ _) (List.forall_mem_cons.2 ⟨hc, hrun⟩)
  | @join run rest _ hrun hrest =>
    have hfront : ∀ d ∈ c :: run, IsLetterOrDigit d := List.forall_mem_cons.2 ⟨hc, hrun⟩
    exact .join (List.cons_ne_nil _ _) hfront hrest

/-! ## From a text to a slug -/

namespace IsDashed

theorem of_infix (h : IsDashed s) (hts : t <:+: s) : IsDashed t :=
  ⟨fun c hc => h.chars c (hts.subset hc), h.apart.infix hts⟩

/-- Where the text goes on inside a gap, its dashed form does not begin with a dash. -/
theorem dashed_head (text : List Char) : ∀ inGap, IsDashed (dashed inGap text) ∧
    (inGap = true → (dashed inGap text).head? ≠ some '-') := by
  induction text with
  | nil => exact fun inGap => ⟨⟨List.forall_mem_nil _, .nil⟩, fun _ => nofun⟩
  | cons c cs ih =>
    intro inGap
    rw [dashed]
    split
    · rename_i hchar
      have hc := isSlugChar_iff.1 hchar
      obtain ⟨hrest, -⟩ := ih false
      refine ⟨⟨List.forall_mem_cons.2 ⟨.inl hc, hrest.chars⟩, ?_⟩, fun _ heq => ?_⟩
      · exact List.isChain_cons.2 ⟨fun _ _ heq => absurd heq hc.ne_dash, hrest.apart⟩
      · exact hc.ne_dash (Option.some_inj.1 heq)
    · obtain ⟨hrest, hhead⟩ := ih true
      split
      · exact ⟨hrest, fun _ => hhead rfl⟩
      · rename_i hgap
        refine ⟨⟨List.forall_mem_cons.2 ⟨.inr rfl, hrest.chars⟩, ?_⟩, fun heq => absurd heq hgap⟩
        refine List.isChain_cons.2 ⟨fun b hb _ heq => hhead rfl ?_, hrest.apart⟩
        exact heq ▸ hb

theorem isSlug : ∀ {s : List Char}, IsDashed s → s ≠ [] → s.head? ≠ some '-' →
    s.getLast? ≠ some '-' → IsSlug s
  | [], _, hne, _, _ => absurd rfl hne
  | [c], h, _, hhead, _ => by
    obtain hc | rfl := h.chars c (List.mem_singleton_self c)
    · exact .run (List.cons_ne_nil _ _) (List.forall_mem_singleton.2 hc)
    · exact absurd rfl hhead
  | c :: d :: rest, h, _, hhead, hlast => by
    have hc : IsLetterOrDigit c := by
      obtain hc | rfl := h.chars c List.mem_cons_self
      · exact hc
      · exact absurd rfl hhead
    have htail : IsDashed (d :: rest) := h.of_infix (List.suffix_cons _ _).isInfix
    rw [List.getLast?_cons_cons] at hlast
    obtain hd | rfl := h.chars d (List.mem_cons_of_mem _ List.mem_cons_self)
    · exact (htail.isSlug (List.cons_ne_nil _ _)
        (fun heq => hd.ne_dash (Option.some_inj.1 heq)) hlast).cons hc
    · have hne : rest ≠ [] := by
        rintro rfl
        exact hlast rfl
      obtain ⟨hnext, -⟩ := List.isChain_cons.1 htail.apart
      rw [List.getLast?_cons_of_ne_nil hne] at hlast
      have hslug := (htail.of_infix (List.suffix_cons _ _).isInfix).isSlug hne
        (fun heq => hnext '-' heq rfl rfl) hlast
      have hrun : ∀ d ∈ [c], IsLetterOrDigit d := List.forall_mem_singleton.2 hc
      exact .join (List.cons_ne_nil _ _) hrun hslug

end IsDashed

theorem cut_isPrefix : cut limit s <+: s := by
  unfold cut
  split <;> exact List.take_prefix _ _

theorem dropEndWhile_isPrefix {p : Char → Bool} : Text.dropEndWhile p s <+: s :=
  List.rdropWhile_prefix p s

/-- What is left after trimming, cutting and trimming again is a slug, unless nothing is left. -/
theorem IsDashed.isSlug_trimmed (h : IsDashed s)
    (hne : Text.dropEndWhile (· == '-') (cut limit (Text.stripWhile (· == '-') s)) ≠ []) :
    IsSlug (Text.dropEndWhile (· == '-') (cut limit (Text.stripWhile (· == '-') s))) := by
  have hstart : Text.dropEndWhile (· == '-') (cut limit (Text.stripWhile (· == '-') s)) <+:
      s.dropWhile (· == '-') := (dropEndWhile_isPrefix.trans cut_isPrefix).trans dropEndWhile_isPrefix
  refine (h.of_infix (hstart.isInfix.trans (List.dropWhile_suffix _).isInfix)).isSlug hne ?_ ?_
  · -- the first character is the first one that is not a dash
    intro heq
    obtain ⟨rest, hrest⟩ := hstart
    have hfirst := List.head?_dropWhile_not (· == '-') s
    rw [← hrest, List.head?_append_of_ne_nil _ hne, heq] at hfirst
    exact Bool.false_ne_true hfirst.symm
  · intro heq
    refine List.rdropWhile_last_not (· == '-') _ hne ?_
    exact beq_iff_eq.2 (List.getLast_of_getLast?_eq_some heq)

theorem isSlug_slugChars : IsSlug (slugChars limit s) := by
  simp only [slugChars]
  split
  · exact .run (by decide) (isLetterOrDigit_of_all (by decide))
  · rename_i hne
    exact (IsDashed.dashed_head _ false).1.isSlug_trimmed fun heq => hne (List.isEmpty_iff.2 heq)

theorem length_slugChars_le (hlimit : 4 ≤ limit) : ((slugChars limit s).length : Int) ≤ limit := by
  simp only [slugChars]
  split
  · exact hlimit -- the four characters of the slug of nothing
  · have hcut : ∀ t : List Char, ((cut limit t).length : Int) ≤ limit := by
      intro t
      rw [cut, if_neg (by omega), List.length_take]
      omega
    exact Int.le_trans (Int.ofNat_le.2 dropEndWhile_isPrefix.length_le) (hcut _)

/-! ## A slug is its own slug -/

theorem lowerChar_eq (h : IsLetterOrDigit c ∨ c = '-') :
    c.toNat < 128 ∧ Text.lowerChar c = c := by
  obtain h | rfl := h
  · have hrange : (97 ≤ c.toNat ∧ c.toNat ≤ 122) ∨ (48 ≤ c.toNat ∧ c.toNat ≤ 57) := h
    have hcapital : ¬(65 ≤ c.toNat ∧ c.toNat ≤ 90) := by omega
    have hascii : c.toNat < 128 := by omega
    rw [Text.lowerChar, if_pos hascii]
    unfold Char.toLower
    exact ⟨hascii, dif_neg hcapital⟩
  · decide

theorem IsDashed.lower_eq (h : IsDashed s) : Text.lower s = s := by
  have hall : ∀ before, Text.lowerAfter before s = s := by
    obtain ⟨hs, -⟩ := h
    induction s with
    | nil => exact fun _ => rfl
    | cons c cs ih =>
      intro before
      obtain ⟨hc, hcs⟩ := List.forall_mem_cons.1 hs
      obtain ⟨hascii, hchar⟩ := lowerChar_eq hc
      have hsigma : c ≠ 'Σ' := by
        rintro rfl
        exact absurd hascii (by decide)
      have hdotted : c ≠ 'İ' := by
        rintro rfl
        exact absurd hascii (by decide)
      rw [Text.lowerAfter, if_neg hsigma, if_neg hdotted, hchar, ih hcs]
      rfl
  exact hall []

theorem dashed_run {run rest : List Char} (hne : run ≠ []) (hrun : ∀ c ∈ run, IsLetterOrDigit c)
    (inGap : Bool) : dashed inGap (run ++ rest) = run ++ dashed false rest := by
  induction run generalizing inGap with
  | nil => exact absurd rfl hne
  | cons c cs ih =>
    obtain ⟨hc, hcs⟩ := List.forall_mem_cons.1 hrun
    rw [List.cons_append, dashed, if_pos (isSlugChar_iff.2 hc), List.cons_append]
    cases cs with
    | nil => rfl
    | cons d ds => rw [ih (List.cons_ne_nil _ _) hcs]

namespace IsSlug

theorem ne_nil (h : IsSlug s) : s ≠ [] := by
  cases h with
  | run hne _ => exact hne
  | join _ _ _ => exact List.append_ne_nil_of_right_ne_nil _ (List.cons_ne_nil _ _)

theorem dashed_eq (h : IsSlug s) (inGap : Bool) : dashed inGap s = s := by
  induction h generalizing inGap with
  | @run run hne hrun =>
    have h : dashed inGap (run ++ []) = run ++ dashed false [] := dashed_run hne hrun inGap
    rwa [List.append_nil, dashed, List.append_nil] at h
  | @join run rest hne hrun _ ih =>
    rw [dashed_run hne hrun, dashed, if_neg (by decide), if_neg Bool.false_ne_true, ih]

theorem isDashed (h : IsSlug s) : IsDashed s := by
  have hall := (IsDashed.dashed_head s false).1
  rwa [h.dashed_eq] at hall

theorem head?_ne (h : IsSlug s) : s.head? ≠ some '-' := by
  have hall := (IsDashed.dashed_head s true).2 rfl
  rwa [h.dashed_eq] at hall

theorem getLast?_ne (h : IsSlug s) : s.getLast? ≠ some '-' := by
  intro heq
  induction h with
  | run _ hrun => exact (hrun _ (List.mem_of_getLast? heq)).ne_dash rfl
  | join _ _ hrest ih =>
    rw [List.getLast?_append_of_ne_nil _ (List.cons_ne_nil _ _),
      List.getLast?_cons_of_ne_nil hrest.ne_nil] at heq
    exact ih heq

theorem slugChars_eq (h : IsSlug s) (hlimit : (s.length : Int) ≤ limit) :
    slugChars limit s = s := by
  have hstart : s.dropWhile (· == '-') = s := by
    refine List.dropWhile_eq_self_iff.2 fun hl heq => h.head?_ne ?_
    rw [List.head?_eq_getElem?, List.getElem?_eq_getElem hl, beq_iff_eq.1 heq]
  have hend : Text.dropEndWhile (· == '-') s = s := by
    refine List.rdropWhile_eq_self_iff.2 fun hl heq => h.getLast?_ne ?_
    rw [List.getLast?_eq_some_getLast hl, beq_iff_eq.1 heq]
  have hcut : cut limit s = s := by
    rw [cut, if_neg (by omega), List.take_of_length_le (by omega)]
  simp only [slugChars, h.isDashed.lower_eq, h.dashed_eq, Text.stripWhile, hstart, hend, hcut]
  rw [if_neg fun hnil => h.ne_nil (List.isEmpty_iff.1 hnil)]

end IsSlug

/-- The slug of a text is a slug within the limit, also where the limit cuts it, and its own slug ;
so is every slug within the limit, whichever text it comes from. -/
theorem slugify_isSlug (text : String) :
    (IsSlug (slugify text).toList ∧ (slugify text).length ≤ 50 ∧
      slugify (slugify text) = slugify text) ∧
    ∀ limit : Int, 4 ≤ limit → IsSlug (slugify text limit).toList ∧
      ((slugify text limit).length : Int) ≤ limit ∧
      slugify (slugify text limit) limit = slugify text limit ∧
      ∀ slug : String, IsSlug slug.toList → (slug.length : Int) ≤ limit →
        slugify slug limit = slug := by
  have hself : ∀ (limit : Int) (slug : String), IsSlug slug.toList → (slug.length : Int) ≤ limit →
      slugify slug limit = slug := by
    intro limit slug hslug hlength
    rw [slugify, hslug.slugChars_eq hlength, String.ofList_toList]
  have hall : ∀ limit : Int, 4 ≤ limit → IsSlug (slugify text limit).toList ∧
      ((slugify text limit).length : Int) ≤ limit ∧
      slugify (slugify text limit) limit = slugify text limit := by
    intro limit hlimit
    have hslug : IsSlug (slugify text limit).toList := by
      rw [slugify, String.toList_ofList]
      exact isSlug_slugChars
    have hlength : ((slugify text limit).length : Int) ≤ limit := by
      rw [slugify, String.length_ofList]
      exact length_slugChars_le hlimit
    exact ⟨hslug, hlength, hself limit _ hslug hlength⟩
  refine ⟨?_, fun limit hlimit => ?_⟩
  · obtain ⟨hslug, hlength, hfixed⟩ := hall 50 (by decide)
    exact ⟨hslug, Int.ofNat_le.1 hlength, hfixed⟩
  · obtain ⟨hslug, hlength, hfixed⟩ := hall limit hlimit
    exact ⟨hslug, hlength, hfixed, hself limit⟩

/-- The capital E with an accent is no letter of a slug, and the cut falls on the dash that stands
for the gap. -/
theorem slugify_isSlug_cut : slugify "Add É2E tests" 4 = "add" ∧
    slugify (slugify "Add É2E tests" 4) 4 = slugify "Add É2E tests" 4 ∧
    slugify "add-2e" 6 = "add-2e" := by
  have hcut : slugify "Add É2E tests" 4 = "add" := by decide +kernel
  have hslug : IsSlug (['a', 'd', 'd'] ++ '-' :: ['2', 'e']) :=
    .join (by decide) (isLetterOrDigit_of_all (by decide))
      (.run (by decide) (isLetterOrDigit_of_all (by decide)))
  obtain ⟨-, hall⟩ := slugify_isSlug "Add É2E tests"
  obtain ⟨-, -, hfixed, -⟩ := hall 4 (by decide)
  obtain ⟨-, -, -, hself⟩ := hall 6 (by decide)
  exact ⟨hcut, hfixed, hself "add-2e" hslug (by decide)⟩

end PlanReview
