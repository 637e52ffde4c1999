import Mathlib.Data.List.Chain
import PlanReview.Proofs.Redact.Passes

/-!
# Where the characters of a redacted text come from

In a placed text every character that comes from elsewhere carries its place there, and what was put
in carries none (`PlacedText`). The passes of a redaction are repeated on placed texts ; without the
places they give what they give otherwise (`text_tokens`).

What the passes for tokens make of a text is `Stitched` : pieces of the text in their order, with a
marker between any two, which stands for at least one character (`stitched_tokens`). Neighbours in
such a text fit together in few ways (`Meets`). So what reaches into no marker stands in one piece,
or lies within a marker (`eq_standing_or_inserted`).
-/

namespace PlanReview.Redact

/-- A text without brackets, that does not end in a blank either : it reaches into no marker. -/
structure IsApart (m : List Char) : Prop where
  noOpening : '[' ∉ m
  noClosing : ']' ∉ m
  noBlank : m.getLast? ≠ some ' '

theorem IsBearer.isApart {m : List Char} (hm : IsBearer m) : IsApart m := by
  refine ⟨hm.isForeign.noOpening, hm.isForeign.noClosing, fun hlast => ?_⟩
  obtain ⟨blanks, token, rfl, -, htoken, -, hmem⟩ := hm
  rw [← List.append_assoc, List.getLast?_append_of_ne_nil _ htoken] at hlast
  exact absurd (List.mem_of_getLast? hlast) (notMem_of_forall hmem (by decide))

theorem IsKey.isApart {m : List Char} (hm : IsKey m) : IsApart m := by
  refine ⟨hm.isForeign.noOpening, hm.isForeign.noClosing, fun hlast => ?_⟩
  obtain ⟨body, rfl, hbody, hmem⟩ := hm
  rw [List.getLast?_append_of_ne_nil _ hbody] at hlast
  exact absurd (List.mem_of_getLast? hlast) (notMem_of_forall hmem (by decide))

/-- A text whose characters carry the place at which they stand in another text; a character that
was put in has none. -/
abbrev PlacedText := List (Char × Option Nat)

namespace PlacedText

variable {find : List Char → Option Nat} {k new body s : List Char} {t u w : PlacedText}
  {a b i n skip : Nat}

/-- The text without the places. -/
def text (t : PlacedText) : List Char :=
  t.map Prod.fst

/-- The places of the characters that have one. -/
def places (t : PlacedText) : List Nat :=
  t.filterMap Prod.snd

/-- A text that stands at the place `a`. -/
def standing (a : Nat) : List Char → PlacedText
  | [] => []
  | c :: cs => (c, some a) :: standing (a + 1) cs

/-- A text that was put in. -/
def inserted (s : List Char) : PlacedText :=
  s.map (·, none)

/-- Replace every occurrence that `find` finds by its own beginning, as long as `k`, and `new`. -/
def replaceFrom (find : List Char → Option Nat) (k new : List Char) :
    Nat → PlacedText → PlacedText
  | _, [] => []
  | skip + 1, _ :: t => replaceFrom find k new skip t
  | 0, x :: t =>
    match find (text (x :: t)) with
    | some n => (x :: t).take k.length ++ (inserted new ++ replaceFrom find k new (n - 1) t)
    | none => x :: replaceFrom find k new 0 t

/-- Remove bearer tokens and keys. The word before a bearer token stays. -/
def tokens (t : PlacedText) : PlacedText :=
  replaceFrom keyLength? [] marker 0
    (replaceFrom bearerLength? "Bearer".toList (' ' :: marker) 0 t)

/-- Remove a secret. -/
def hide (secret : List Char) (t : PlacedText) : PlacedText :=
  if secret = [] then t else replaceFrom (needleLength? secret) [] marker 0 t

/-! ## Without the places -/

@[simp] theorem text_append (t u : PlacedText) : (t ++ u).text = t.text ++ u.text :=
  List.map_append

@[simp] theorem text_inserted (s : List Char) : (inserted s).text = s := by
  simp [text, inserted, Function.comp_def]

@[simp] theorem text_standing (a : Nat) (s : List Char) : (standing a s).text = s := by
  induction s generalizing a with
  | nil => rfl
  | cons c cs ih => exact congrArg (c :: ·) (ih (a + 1))

theorem length_text (t : PlacedText) : t.text.length = t.length :=
  List.length_map _

theorem length_standing (a : Nat) (s : List Char) : (standing a s).length = s.length := by
  rw [← length_text, text_standing]

theorem standing_append (a : Nat) (s s' : List Char) :
    standing a (s ++ s') = standing a s ++ standing (a + s.length) s' := by
  induction s generalizing a with
  | nil => rfl
  | cons c cs ih =>
    change (c, some a) :: standing (a + 1) (cs ++ s') =
      (c, some a) :: (standing (a + 1) cs ++ standing (a + (cs.length + 1)) s')
    rw [ih, Nat.add_right_comm, Nat.add_assoc]

theorem getElem?_standing (a : Nat) (s : List Char) (j : Nat) :
    (standing a s)[j]? = s[j]?.map (·, some (a + j)) := by
  induction s generalizing a j with
  | nil => rfl
  | cons c cs ih =>
    cases j with
    | zero => rfl
    | succ j =>
      rw [standing, List.getElem?_cons_succ, List.getElem?_cons_succ, ih, Nat.add_right_comm,
        Nat.add_assoc]

theorem text_take (t : PlacedText) (n : Nat) : text (t.take n) = t.text.take n :=
  List.map_take

theorem text_take_of_isPrefix (h : s <+: t.text) : text (t.take s.length) = s := by
  rw [text_take]
  exact (List.prefix_iff_eq_take.1 h).symm

theorem text_replaceFrom (hfind : ∀ s n, find s = some n → k <+: s) :
    (replaceFrom find k new skip t).text = Redact.replaceFrom find (k ++ new) skip t.text := by
  induction t generalizing skip with
  | nil => cases skip <;> rfl
  | cons x t ih =>
    cases skip with
    | succ skip => exact ih
    | zero =>
      have hcons (x : Char × Option Nat) (t : PlacedText) : text (x :: t) = x.1 :: text t := rfl
      rw [replaceFrom, hcons, Redact.replaceFrom]
      cases hn : find (x.1 :: text t) with
      | none => exact congrArg (x.1 :: ·) ih
      | some n =>
        have hkept : text ((x :: t).take k.length) = k := text_take_of_isPrefix (hfind _ _ hn)
        dsimp only
        rw [text_append, text_append, text_inserted, hkept, ih, List.append_assoc]

@[simp] theorem places_append (t u : PlacedText) : (t ++ u).places = t.places ++ u.places :=
  List.filterMap_append

@[simp] theorem places_inserted (s : List Char) : (inserted s).places = [] := by
  simp [places, inserted]

theorem notMem_inserted {c : Char} : (c, some i) ∉ inserted s := by
  simp [inserted]

theorem mem_places_iff : i ∈ t.places ↔ ∃ c, (c, some i) ∈ t := by
  simp [places]

theorem mem_places_of_subset (h : ∀ c j, (c, some j) ∈ t → (c, some j) ∈ u) (hi : i ∈ t.places) :
    i ∈ u.places := by
  obtain ⟨c, hc⟩ := mem_places_iff.1 hi
  exact mem_places_iff.2 ⟨c, h c i hc⟩

theorem mem_places_standing_iff :
    i ∈ (standing a s).places ↔ a ≤ i ∧ i < a + s.length := by
  induction s generalizing a with
  | nil => simp [standing, places]
  | cons c cs ih =>
    have hcons : (standing a (c :: cs)).places = a :: (standing (a + 1) cs).places := rfl
    rw [hcons, List.mem_cons, ih, List.length_cons]
    omega

/-! ## What stands side by side -/

/-- How two neighbours fit together in a text from which something was removed : after a place comes
the next one, or a marker, perhaps with a blank before it, and a place comes after a marker. -/
def Meets (x y : Char × Option Nat) : Prop :=
  match x.2, y.2 with
  | some i, some j => j = i + 1
  | some _, none => y.1 = '[' ∨ y.1 = ' '
  | none, some _ => x.1 = ']'
  | none, none => x.1 = ' ' → y.1 = '['

theorem eq_standing_or_inserted : ∀ {w : PlacedText}, w.IsChain Meets → IsApart w.text →
    (∃ a, w = standing a w.text) ∨ w = inserted w.text
  | [], _, _ => .inr rfl
  | [(_, some i)], _, _ => .inl ⟨i, rfl⟩
  | [(_, none)], _, _ => .inr rfl
  | (c, p) :: (d, q) :: w, hchain, hapart => by
    obtain ⟨hmeets, htail⟩ := List.isChain_cons_cons.1 hchain
    obtain ⟨hopening, hclosing, hblank⟩ := hapart
    have hlast : (text ((c, p) :: (d, q) :: w)).getLast? = (text ((d, q) :: w)).getLast? :=
      List.getLast?_cons_cons
    have hmem : text ((d, q) :: w) ⊆ text ((c, p) :: (d, q) :: w) := List.subset_cons_self _ _
    rcases eq_standing_or_inserted htail ⟨fun h => hopening (hmem h), fun h => hclosing (hmem h),
      hlast ▸ hblank⟩ with ⟨a, h⟩ | h
    · obtain ⟨hq, -⟩ := List.cons_eq_cons.1 h
      cases hq
      cases p with
      | none =>
        have hc : c = ']' := hmeets
        exact absurd (hc ▸ List.mem_cons_self) hclosing
      | some i =>
        have ha : a = i + 1 := hmeets
        exact .inl ⟨i, congrArg ((c, some i) :: ·) (ha ▸ h)⟩
    · obtain ⟨hq, hw⟩ := List.cons_eq_cons.1 h
      cases hq
      cases p with
      | none => exact .inr (congrArg ((c, none) :: ·) h)
      | some i =>
        rcases (hmeets : d = '[' ∨ d = ' ') with rfl | rfl
        · exact absurd (List.mem_cons_of_mem _ List.mem_cons_self) hopening
        · -- the blank is not the last character, and after it comes the opening bracket
          cases w with
          | nil => exact absurd rfl hblank
          | cons x w =>
            obtain ⟨e, r⟩ := x
            obtain ⟨hr, -⟩ := List.cons_eq_cons.1 hw
            cases hr
            have he : e = '[' := (List.isChain_cons_cons.1 htail).1 rfl
            refine absurd ?_ hopening
            exact he ▸ List.mem_cons_of_mem _ (List.mem_cons_of_mem _ List.mem_cons_self)

/-- An occurrence of what reaches into no marker stands there in one piece, or was put in. -/
theorem occurrence_cases (ht : t.IsChain Meets) (hs : IsApart s) (hw : w <:+: t)
    (htext : text w = s) : (∃ a, w = standing a s) ∨ w = inserted s := by
  have hpart : w.IsChain Meets := ht.infix hw
  subst htext
  exact eq_standing_or_inserted hpart hs

theorem meets_closing (y : Char × Option Nat) : Meets (']', none) y := by
  obtain ⟨d, q⟩ := y
  cases q with
  | none => exact fun h => absurd h (by decide)
  | some j => rfl

theorem meets_opening (x : Char × Option Nat) : Meets x ('[', none) := by
  obtain ⟨c, p⟩ := x
  cases p with
  | none => exact fun _ => rfl
  | some i => exact .inl rfl

theorem isChain_inserted_append {blank : List Char} (hblank : blank = [] ∨ blank = [' '])
    (h : t.IsChain Meets) : (inserted (blank ++ marker) ++ t).IsChain Meets := by
  have hmarker : (inserted (blank ++ marker)).IsChain Meets := by
    rw [inserted, List.isChain_map]
    change List.IsChain (fun c d => c = ' ' → d = '[') _
    rcases hblank with rfl | rfl <;> decide
  have hlast : (inserted (blank ++ marker)).getLast? = some (']', none) := by
    rcases hblank with rfl | rfl <;> rfl
  refine List.isChain_append.2 ⟨hmarker, h, fun x hx y _ => ?_⟩
  rw [hlast] at hx
  cases hx
  exact meets_closing y

/-- A part of `body` from the place `a` on, cut into pieces with a marker between any two : each
marker stands for at least one place. -/
inductive Stitched (body : List Char) : Nat → PlacedText → Prop where
  | nil {a : Nat} : Stitched body a []
  | char {a : Nat} {c : Char} {t : PlacedText} : body[a]? = some c → Stitched body (a + 1) t →
      Stitched body a ((c, some a) :: t)
  | gap {a b : Nat} {blank : List Char} {t : PlacedText} : blank = [] ∨ blank = [' '] → a < b →
      Stitched body b t → Stitched body a (inserted (blank ++ marker) ++ t)

namespace Stitched

theorem le (h : Stitched body a t) (hi : i ∈ t.places) : a ≤ i := by
  induction h with
  | nil => cases hi
  | char _ _ ih =>
    rcases List.mem_cons.1 hi with rfl | hi
    · exact Nat.le_refl _
    · exact Nat.le_of_succ_le (ih hi)
  | gap _ hab _ ih =>
    rw [places_append, places_inserted, List.nil_append] at hi
    exact hab.le.trans (ih hi)

theorem nodup (h : Stitched body a t) : t.places.Nodup := by
  induction h with
  | nil => exact List.nodup_nil
  | char _ ht ih => exact List.nodup_cons.2 ⟨fun hi => Nat.not_succ_le_self _ (ht.le hi), ih⟩
  | gap _ _ _ ih => rwa [places_append, places_inserted, List.nil_append]

/-- A character stands at its place. -/
theorem getElem?_eq (h : Stitched body a t) {c : Char} (hc : (c, some i) ∈ t) :
    body[i]? = some c := by
  induction h with
  | nil => cases hc
  | char hbody _ ih =>
    rcases List.mem_cons.1 hc with heq | hc
    · cases heq
      exact hbody
    · exact ih hc
  | gap _ _ _ ih =>
    exact ih ((List.mem_append.1 hc).resolve_left notMem_inserted)

theorem mem_marker (h : Stitched body a t) {c : Char} (hc : (c, none) ∈ t) :
    c ∈ ' ' :: marker := by
  induction h with
  | nil => cases hc
  | char _ _ ih => exact ih ((List.mem_cons.1 hc).resolve_left (fun heq => by cases heq))
  | gap hblank _ _ ih =>
    rcases List.mem_append.1 hc with hc | hc
    · rcases hblank with rfl | rfl
      · exact List.mem_cons_of_mem _ (by simpa [inserted] using hc)
      · simpa [inserted] using hc
    · exact ih hc

/-- A stitched text goes on with its place or with a marker. -/
theorem head_cases (h : Stitched body a t) {x : Char × Option Nat} (hx : x ∈ t.head?) :
    x.2 = some a ∨ x.2 = none ∧ (x.1 = '[' ∨ x.1 = ' ') := by
  cases h with
  | nil => cases hx
  | char _ _ =>
    cases hx
    exact .inl rfl
  | gap hblank _ _ =>
    rcases hblank with rfl | rfl
    · cases hx
      exact .inr ⟨rfl, .inl rfl⟩
    · cases hx
      exact .inr ⟨rfl, .inr rfl⟩

theorem isChain (h : Stitched body a t) : t.IsChain Meets := by
  induction h with
  | nil => exact .nil
  | @char a c t _ ht ih =>
    refine List.isChain_cons.2 ⟨fun x hx => ?_, ih⟩
    obtain ⟨d, p⟩ := x
    rcases ht.head_cases hx with hp | ⟨hp, hd⟩
    · cases hp
      rfl
    · cases hp
      exact hd
  | gap hblank _ _ ih => exact isChain_inserted_append hblank ih

theorem char_iff {c : Char} : Stitched body a ((c, some a) :: t) ↔
    body[a]? = some c ∧ Stitched body (a + 1) t := by
  constructor
  · intro h
    generalize hx : (c, some a) :: t = x at h
    cases h with
    | nil => cases hx
    | char hbody ht =>
      cases hx
      exact ⟨hbody, ht⟩
    | gap hblank _ _ => rcases hblank with rfl | rfl <;> cases hx
  · exact fun ⟨hbody, ht⟩ => .char hbody ht

theorem standing_append_iff : Stitched body a (standing a s ++ t) ↔
    s <+: body.drop a ∧ Stitched body (a + s.length) t := by
  induction s generalizing a with
  | nil => simp [standing]
  | cons c cs ih =>
    have hprefix : c :: cs <+: body.drop a ↔ body[a]? = some c ∧ cs <+: body.drop (a + 1) := by
      rw [← List.tail_drop, ← List.head?_drop]
      cases body.drop a with
      | nil => simp
      | cons d ds => simp [eq_comm]
    rw [standing, List.cons_append, char_iff, ih, hprefix, and_assoc, List.length_cons,
      Nat.add_right_comm, Nat.add_assoc]

theorem of_standing (h : s <+: body.drop a) : Stitched body a (standing a s) := by
  simpa using standing_append_iff.2 ⟨h, .nil⟩

/-- Places in a row stand side by side. -/
theorem eq_standing_append (h : Stitched body a t) (hall : ∀ j < n, a + j ∈ t.places) :
    ∃ s u, s.length = n ∧ t = standing a s ++ u := by
  induction n generalizing a t with
  | zero => exact ⟨[], t, rfl, rfl⟩
  | succ n ih =>
    have hfirst := hall 0 (Nat.succ_pos n)
    cases h with
    | nil => cases hfirst
    | @char a c t hbody ht =>
      have hrest : ∀ j < n, a + 1 + j ∈ t.places := fun j hj => by
        have hmem := hall (j + 1) (Nat.succ_lt_succ hj)
        refine (List.mem_cons.1 (show a + 1 + j ∈ a :: t.places from ?_)).resolve_left (by omega)
        rwa [Nat.add_assoc, Nat.add_comm 1 j]
      obtain ⟨s, u, hs, rfl⟩ := ih ht hrest
      exact ⟨c :: s, u, congrArg (· + 1) hs, rfl⟩
    | gap _ hab ht =>
      rw [places_append, places_inserted, List.nil_append] at hfirst
      exact absurd (ht.le hfirst) (by omega)

theorem exists_standing (h : Stitched body b t) (hn : 0 < n) (hall : ∀ j < n, a + j ∈ t.places) :
    ∃ s front back, s.length = n ∧ t = front ++ (standing a s ++ back) := by
  induction h with
  | nil => cases hall 0 hn
  | @char b c t hbody ht ih =>
    by_cases hab : a = b
    · subst hab
      obtain ⟨s, u, hs, heq⟩ := (Stitched.char hbody ht).eq_standing_append hall
      exact ⟨s, [], u, hs, heq⟩
    · have hlt : b < a := by
        have := (Stitched.char hbody ht).le (hall 0 hn)
        omega
      obtain ⟨s, front, back, hs, rfl⟩ := ih fun j hj =>
        (List.mem_cons.1 (hall j hj)).resolve_left (by omega)
      exact ⟨s, (c, some b) :: front, back, hs, rfl⟩
  | gap _ _ _ ih =>
    obtain ⟨s, front, back, hs, rfl⟩ := ih fun j hj => by
      simpa using hall j hj
    exact ⟨s, _ ++ front, back, hs, (List.append_assoc ..).symm⟩

end Stitched

/-! ## The passes for tokens -/

/-- A search that finds what begins with `k` and goes on, and reaches into no marker. -/
def IsTokenSearch (find : List Char → Option Nat) (k : List Char) : Prop :=
  ∀ s n, find s = some n → ∃ m, m <+: s ∧ m.length = n ∧ k <+: m ∧ k.length < n ∧ IsApart m ∧
    ∃ c ∈ m, c ∉ ' ' :: marker

theorem replaceFrom_skip :
    replaceFrom find k new skip t = replaceFrom find k new 0 (t.drop skip) := by
  induction t generalizing skip with
  | nil => cases skip <;> rfl
  | cons x t ih =>
    cases skip with
    | zero => rfl
    | succ skip => exact ih

/-- Where nothing is found, nothing changes. -/
theorem replaceFrom_append_of_none
    (h : ∀ v, v <:+ t → v ≠ [] → find (text (v ++ u)) = none) :
    replaceFrom find k new 0 (t ++ u) = t ++ replaceFrom find k new 0 u := by
  induction t with
  | nil => rfl
  | cons x t ih =>
    have hnone : find (text (x :: (t ++ u))) = none := h _ List.suffix_rfl (List.cons_ne_nil x t)
    rw [List.cons_append, replaceFrom, hnone]
    exact congrArg (x :: ·) (ih fun v hv => h v (hv.trans (List.suffix_cons x t)))

/-- What a search finds in a stitched text, at its head, stands there without a gap. -/
theorem IsTokenSearch.exists_standing (hfind : IsTokenSearch find k) (ht : t.IsChain Meets)
    (hmarker : ∀ c, (c, none) ∈ t → c ∈ ' ' :: marker) (hn : find t.text = some n) :
    ∃ b m u, t = standing b m ++ u ∧ m.length = n ∧ k <+: m ∧ k.length < n := by
  obtain ⟨m, hm, rfl, hk, hlt, hapart, c, hc, hout⟩ := hfind _ _ hn
  rcases occurrence_cases ht hapart (List.take_prefix _ _).isInfix (text_take_of_isPrefix hm) with
    ⟨b, hb⟩ | hb
  · exact ⟨b, m, t.drop m.length, by rw [← hb, List.take_append_drop], rfl, hk, hlt⟩
  · have hmem : (c, none) ∈ t.take m.length := by
      rw [hb]
      exact List.mem_map_of_mem hc
    exact absurd (hmarker c (List.mem_of_mem_take hmem)) hout

/-- What stands at the head of a stitched text, if something is found there. -/
theorem Stitched.of_found (hfind : IsTokenSearch find k) (ht : Stitched body a t)
    (hn : find t.text = some n) : t.take k.length = standing a k ∧ k <+: body.drop a ∧
      k.length < n ∧ Stitched body (a + n) (t.drop n) := by
  obtain ⟨b, m, u, rfl, rfl, ⟨k', rfl⟩, hlt⟩ :=
    hfind.exists_standing ht.isChain (fun c => ht.mem_marker) hn
  obtain ⟨d, ds, hm⟩ := List.exists_cons_of_length_pos (Nat.zero_lt_of_lt hlt)
  have hab : b = a := by
    rw [hm] at ht
    rcases ht.head_cases (x := (d, some b)) rfl with hb | ⟨hb, -⟩
    · exact Option.some_inj.1 hb
    · cases hb
  subst hab
  obtain ⟨hm', hu⟩ := standing_append_iff.1 ht
  refine ⟨?_, (List.prefix_append k k').trans hm', hlt, ?_⟩
  · rw [standing_append, List.append_assoc]
    exact List.take_left' (length_standing b k)
  · rwa [List.drop_left' (length_standing b _)]

/-- A pass for tokens goes over what was put in : nothing that is found begins there. -/
theorem Stitched.replaceFrom_inserted_append (hfind : IsTokenSearch find k)
    (ht : Stitched body a (inserted s ++ t)) :
    replaceFrom find k new 0 (inserted s ++ t) = inserted s ++ replaceFrom find k new 0 t := by
  refine replaceFrom_append_of_none fun v hv hne => ?_
  by_contra hsome
  obtain ⟨n, hn⟩ := Option.ne_none_iff_exists'.1 hsome
  have hsuffix : v ++ t <:+ inserted s ++ t := by
    obtain ⟨front, hfront⟩ := hv
    exact ⟨front, by rw [← hfront, List.append_assoc]⟩
  obtain ⟨b, m, u, heq, rfl, -, hlt⟩ := hfind.exists_standing
    (ht.isChain.suffix hsuffix) (fun c hc => ht.mem_marker (hsuffix.subset hc)) hn
  obtain ⟨x, xs, rfl⟩ := List.exists_cons_of_ne_nil hne
  obtain ⟨d, ds, rfl⟩ := List.exists_cons_of_length_pos (Nat.zero_lt_of_lt hlt)
  obtain ⟨rfl, -⟩ := List.cons_eq_cons.1 heq
  exact notMem_inserted (hv.subset List.mem_cons_self)

/-- A pass for tokens leaves a stitched text stitched. -/
theorem Stitched.replaceFrom {blank : List Char} (hblank : blank = [] ∨ blank = [' '])
    (hfind : IsTokenSearch find k) (ht : Stitched body a t) :
    Stitched body a (replaceFrom find k (blank ++ marker) 0 t) := by
  induction hlen : t.length using Nat.strong_induction_on generalizing a t with
  | _ length ih =>
    cases ht with
    | nil => exact .nil
    | @char a c t hbody hrest =>
      have htail : t.length < length := by
        rw [← hlen]
        exact Nat.lt_succ_self _
      rw [PlacedText.replaceFrom]
      cases hn : find (text ((c, some a) :: t)) with
      | none => exact .char hbody (ih _ htail hrest rfl)
      | some n =>
        obtain ⟨htake, hk, hlt, hdrop⟩ := (Stitched.char hbody hrest).of_found hfind hn
        cases n with
        | zero => cases hlt
        | succ n =>
          have hshort : (t.drop n).length < length :=
            (List.drop_suffix n t).length_le.trans_lt htail
          dsimp only
          rw [htake, replaceFrom_skip, Nat.add_sub_cancel]
          refine standing_append_iff.2 ⟨hk, .gap hblank (Nat.add_lt_add_left hlt a) ?_⟩
          exact ih _ hshort hdrop rfl
    | @gap a b put t hput hab hrest =>
      have htail : t.length < length := by
        rw [← hlen, List.length_append]
        exact Nat.lt_add_of_pos_left (by rcases hput with rfl | rfl <;> decide)
      rw [(Stitched.gap hput hab hrest).replaceFrom_inserted_append hfind]
      exact .gap hput hab (ih _ htail hrest rfl)

theorem isTokenSearch_bearer : IsTokenSearch bearerLength? "Bearer".toList := by
  intro s n hn
  obtain ⟨m, hm, hms, rfl⟩ := exists_isBearer hn
  have hapart := hm.isApart
  obtain ⟨blanks, token, rfl, hblanks, -⟩ := hm
  refine ⟨_, hms, rfl, List.prefix_append _ _, ?_, hapart, 'B', by simp, by decide⟩
  have hpos := List.length_pos_iff.2 hblanks
  simp only [List.length_append]
  omega

theorem isTokenSearch_key : IsTokenSearch keyLength? [] := by
  intro s n hn
  obtain ⟨m, hm, hms, rfl⟩ := exists_isKey hn
  have hapart := hm.isApart
  obtain ⟨body, rfl, -⟩ := hm
  exact ⟨_, hms, rfl, List.nil_prefix, Nat.succ_pos _, hapart, 's', by simp, by decide⟩

theorem IsTokenSearch.isPrefix (hfind : IsTokenSearch find k) :
    ∀ s n, find s = some n → k <+: s := fun s n hn => by
  obtain ⟨m, hm, -, hk, -⟩ := hfind s n hn
  exact hk.trans hm

theorem text_tokens (t : PlacedText) : (tokens t).text = Redact.tokens t.text := by
  rw [tokens, text_replaceFrom isTokenSearch_key.isPrefix,
    text_replaceFrom isTokenSearch_bearer.isPrefix]
  rfl

theorem stitched_tokens (ht : Stitched body a t) : Stitched body a (tokens t) :=
  .replaceFrom (.inl rfl) isTokenSearch_key (.replaceFrom (.inr rfl) isTokenSearch_bearer ht)

theorem replaceFrom_eq_self {W : List Char → Prop}
    (hsees : ∀ u, (find u).isSome = true → ∃ m, W m ∧ m <+: u)
    (h : ∀ m, W m → ¬m <:+: t.text) : replaceFrom find k new 0 t = t := by
  have happend : replaceFrom find k new 0 (t ++ []) = t ++ replaceFrom find k new 0 [] :=
    replaceFrom_append_of_none fun v hv _ => by
      rw [List.append_nil]
      exact eq_none_of_not_infix hsees h (hv.isInfix.map Prod.fst)
  rwa [List.append_nil, replaceFrom, List.append_nil] at happend

/-- A text without tokens and keys stays as it is. -/
theorem tokens_eq_self (h : ∀ m, IsBearer m ∨ IsKey m → ¬m <:+: t.text) : tokens t = t := by
  rw [tokens, replaceFrom_eq_self (fun u => isSome_bearerLength?_iff.1) fun m hm => h m (.inl hm),
    replaceFrom_eq_self (fun u => isSome_keyLength?_iff.1) fun m hm => h m (.inr hm)]

end PlacedText

end PlanReview.Redact
