import Mathlib.Data.List.Infix
import Mathlib.Data.List.TakeWhile
import PlanReview.Proofs.Reference.Scan
import PlanReview.Proofs.Text.Delimiter
import PlanReview.Redact

/-!
# What is left after redaction

A pass puts a marker in the place of every occurrence it finds. What is foreign to the marker
(`IsForeign`) cannot reach across one, so it stands between two markers, and there the text is as
it was before. So a pass brings in nothing foreign (`infix_of_infix_replaceFrom`), and nothing that
it looks for is left (`not_infix_replaceFrom`). Bearer tokens and keys are foreign to the marker,
and with that the passes after theirs bring none back (`redact_leaves_none`).
-/

namespace PlanReview.Redact

variable {find : List Char → Option Nat} {k m new s t v : List Char} {skip : Nat} {c : Char}

/-! ## Tokens and keys -/

/-- A bearer token : the word, blanks, and token characters. -/
def IsBearer (m : List Char) : Prop :=
  ∃ blanks token, m = "Bearer".toList ++ (blanks ++ token) ∧ blanks ≠ [] ∧ token ≠ [] ∧
    (∀ c ∈ blanks, Text.isBlank c = true) ∧ ∀ c ∈ token, inToken c = true

/-- A key : the three characters that keys start with, and key characters. -/
def IsKey (m : List Char) : Prop :=
  ∃ body, m = "sk-".toList ++ body ∧ body ≠ [] ∧ ∀ c ∈ body, inKey c = true

theorem isBlank_of_inToken (h : inToken c = true) : Text.isBlank c = false := by
  have hrange : 0x2D ≤ c.toNat ∧ c.toNat ≤ 0x7A := by
    simp only [inToken, Bool.or_eq_true, beq_iff_eq] at h
    rcases h with ((h | rfl) | rfl) | rfl
    · exact ⟨by have := (Text.toNat_of_isAlphanum h).1; omega, (Text.toNat_of_isAlphanum h).2⟩
    all_goals decide
  simp only [Text.isBlank, Text.inRanges, Text.blankRanges, List.any_cons, List.any_nil,
    Bool.or_false, Bool.or_eq_false_iff, Bool.and_eq_false_iff, decide_eq_false_iff_not]
  omega

/-- The search for bearer tokens finds one, as long as it is. -/
theorem exists_isBearer {n : Nat} (h : bearerLength? s = some n) :
    ∃ m, IsBearer m ∧ m <+: s ∧ m.length = n := by
  unfold bearerLength? at h
  split at h
  · rename_i hword
    obtain ⟨rest, rfl⟩ := List.isPrefixOf_iff_prefix.1 hword
    have hdrop : ("Bearer".toList ++ rest).drop 6 = rest := rfl
    simp only [hdrop] at h
    split at h
    · cases h
    · rename_i hne
      simp only [Bool.or_eq_true, List.isEmpty_iff, not_or] at hne
      refine ⟨_, ⟨_, _, rfl, hne.1, hne.2, fun c hc => List.mem_takeWhile_imp hc,
        fun c hc => List.mem_takeWhile_imp hc⟩, ?_, ?_⟩
      · rw [List.prefix_append_right_inj]
        conv_rhs => rw [← List.takeWhile_append_dropWhile (p := Text.isBlank) (l := rest)]
        rw [List.prefix_append_right_inj]
        exact List.takeWhile_prefix _
      · rw [List.length_append, List.length_append, ← Nat.add_assoc]
        exact Option.some_inj.1 h
  · cases h

/-- The search for keys finds one, as long as it is. -/
theorem exists_isKey {n : Nat} (h : keyLength? s = some n) :
    ∃ m, IsKey m ∧ m <+: s ∧ m.length = n := by
  unfold keyLength? at h
  split at h
  · rename_i hword
    obtain ⟨rest, rfl⟩ := List.isPrefixOf_iff_prefix.1 hword
    have hdrop : ("sk-".toList ++ rest).drop 3 = rest := rfl
    simp only [hdrop, List.isEmpty_iff] at h
    split at h
    · cases h
    · rename_i hne
      refine ⟨_, ⟨_, rfl, hne, fun c hc => List.mem_takeWhile_imp hc⟩, ?_, ?_⟩
      · rw [List.prefix_append_right_inj]
        exact List.takeWhile_prefix _
      · rw [List.length_append]
        exact Option.some_inj.1 h
  · cases h

/-- The search for bearer tokens sees one exactly if it is there. -/
theorem isSome_bearerLength?_iff : (bearerLength? s).isSome = true ↔ ∃ m, IsBearer m ∧ m <+: s := by
  constructor
  · intro h
    obtain ⟨n, hn⟩ := Option.isSome_iff_exists.1 h
    obtain ⟨m, hm, hms, -⟩ := exists_isBearer hn
    exact ⟨m, hm, hms⟩
  · rintro ⟨_, ⟨blanks, token, rfl, hblanks, htoken, hblank, hmem⟩, rest, rfl⟩
    obtain ⟨d, ds, rfl⟩ := List.exists_cons_of_ne_nil htoken
    obtain ⟨hd, -⟩ := List.forall_mem_cons.1 hmem
    obtain ⟨htake, hdrop⟩ := Reference.Pattern.takeWhile_dropWhile_append hblank
      (isBlank_of_inToken hd) (ds ++ rest)
    unfold bearerLength?
    simp [htake, hdrop, hblanks, hd]

/-- The search for keys sees one exactly if it is there. -/
theorem isSome_keyLength?_iff : (keyLength? s).isSome = true ↔ ∃ m, IsKey m ∧ m <+: s := by
  constructor
  · intro h
    obtain ⟨n, hn⟩ := Option.isSome_iff_exists.1 h
    obtain ⟨m, hm, hms, -⟩ := exists_isKey hn
    exact ⟨m, hm, hms⟩
  · rintro ⟨_, ⟨body, rfl, hbody, hmem⟩, rest, rfl⟩
    obtain ⟨d, ds, rfl⟩ := List.exists_cons_of_ne_nil hbody
    obtain ⟨hd, -⟩ := List.forall_mem_cons.1 hmem
    unfold keyLength?
    simp [hd]

/-! ## One pass -/

/-- The word between the brackets of the marker. -/
def label : List Char := "REDACTED".toList

theorem marker_eq : marker = '[' :: (label ++ [']']) := rfl

/-- A text of which no part can come from a marker. -/
structure IsForeign (m : List Char) : Prop where
  noOpening : '[' ∉ m
  noClosing : ']' ∉ m
  notWithin : ¬m <:+: label

theorem IsForeign.ne_nil (hm : IsForeign m) : m ≠ [] := by
  rintro rfl
  exact hm.notWithin List.nil_infix

/-- Where an end of `m` starts what a pass keeps of an occurrence, it starts the occurrence too. -/
def Spares (find : List Char → Option Nat) (k m : List Char) : Prop :=
  ∀ v, v <:+ m → v <+: k → ∀ s, (find s).isSome = true → v <+: s

theorem spares_nil : Spares find [] m := by
  intro v _ hv s _
  rw [List.prefix_nil.1 hv]
  exact List.nil_prefix

theorem Spares.of_suffix (h : Spares find k m) (hv : v <:+ m) : Spares find k v :=
  fun u hu => h u (hu.trans hv)

/-- What stands at the head of the new text stood at the head of the old one. -/
theorem prefix_of_prefix_replaceFrom (hm : '[' ∉ m) (hspares : Spares find k m)
    (h : m <+: replaceFrom find (k ++ marker) 0 s) : m <+: s := by
  induction s generalizing m with
  | nil => exact h
  | cons c cs ih =>
    rw [replaceFrom] at h
    split at h
    · rename_i n hfind
      rw [marker_eq, List.append_assoc, List.cons_append, Text.prefix_append_cons_iff hm] at h
      exact hspares m List.suffix_rfl h _ (Option.isSome_of_eq_some hfind)
    · cases m with
      | nil => exact List.nil_prefix
      | cons d ds =>
        obtain ⟨rfl, hds⟩ := List.cons_prefix_cons.1 h
        have htail : ds <:+ d :: ds := List.suffix_cons d ds
        exact List.cons_prefix_cons.2
          ⟨rfl, ih (fun hmem => hm (htail.subset hmem)) (hspares.of_suffix htail) hds⟩

/-- What is foreign to the marker and stands in the new text, starts somewhere in the old one where
nothing was found. -/
theorem exists_passed_of_infix (hm : IsForeign m) (hspares : Spares find k m)
    (hkept : ¬m <:+: k) (h : m <:+: replaceFrom find (k ++ marker) skip s) :
    ∃ t, t <:+ s ∧ m <+: t ∧ find t = none := by
  induction s generalizing skip with
  | nil =>
    rw [replaceFrom] at h
    exact absurd (List.infix_nil.1 h) hm.ne_nil
  | cons c cs ih =>
    have hstep {skip : Nat} (h : m <:+: replaceFrom find (k ++ marker) skip cs) :
        ∃ t, t <:+ c :: cs ∧ m <+: t ∧ find t = none := by
      obtain ⟨t, ht, hrest⟩ := ih h
      exact ⟨t, ht.trans (List.suffix_cons c cs), hrest⟩
    cases skip with
    | succ skip => exact hstep (by rwa [replaceFrom] at h)
    | zero =>
      have hhead := prefix_of_prefix_replaceFrom (s := c :: cs) hm.noOpening hspares
      rw [replaceFrom] at h hhead
      split at h
      · rw [marker_eq, List.append_assoc, List.cons_append, List.append_assoc,
          List.singleton_append, Text.infix_append_cons_iff hm.noOpening,
          Text.infix_append_cons_iff hm.noClosing] at h
        rcases h with h | h | h
        · exact absurd h hkept
        · exact absurd h hm.notWithin
        · exact hstep h
      · rename_i hnone
        rw [hnone] at hhead
        rcases List.infix_cons_iff.1 h with h | h
        · exact ⟨c :: cs, List.suffix_rfl, hhead h, hnone⟩
        · exact hstep h

/-- A pass brings in nothing that is foreign to the marker. -/
theorem infix_of_infix_replaceFrom (hm : IsForeign m)
    (h : m <:+: replaceFrom find marker skip s) : m <:+: s := by
  obtain ⟨t, hts, hmt, -⟩ := exists_passed_of_infix (k := []) hm spares_nil
    (fun hnil => hm.ne_nil (List.infix_nil.1 hnil)) h
  exact hmt.isInfix.trans hts.isInfix

/-- A pass leaves nothing that it looks for. -/
theorem not_infix_replaceFrom (hsees : ∀ t, m <+: t → (find t).isSome = true) (hm : IsForeign m)
    (hspares : Spares find k m) (hkept : ¬m <:+: k) :
    ¬m <:+: replaceFrom find (k ++ marker) skip s := by
  intro h
  obtain ⟨t, -, hmt, hnone⟩ := exists_passed_of_infix hm hspares hkept h
  simpa [hnone] using hsees t hmt

/-- Where nothing of its kind is, a search finds nothing. -/
theorem eq_none_of_not_infix {W : List Char → Prop}
    (hsees : ∀ u, (find u).isSome = true → ∃ m, W m ∧ m <+: u)
    (h : ∀ m, W m → ¬m <:+: s) (ht : t <:+: s) : find t = none := by
  rw [← Option.not_isSome_iff_eq_none]
  intro hsome
  obtain ⟨m, hm, hmt⟩ := hsees _ hsome
  exact h m hm (hmt.isInfix.trans ht)

/-- A pass leaves a text as it is that has nothing the pass looks for. -/
theorem replaceFrom_eq_self {W : List Char → Prop}
    (hsees : ∀ u, (find u).isSome = true → ∃ m, W m ∧ m <+: u)
    (h : ∀ m, W m → ¬m <:+: s) : replaceFrom find new 0 s = s := by
  induction s with
  | nil => rfl
  | cons c cs ih =>
    rw [replaceFrom, eq_none_of_not_infix hsees h List.infix_rfl]
    exact congrArg (c :: ·) (ih fun m hm hmc => h m hm (List.infix_cons hmc))

/-! ## The passes -/

theorem notMem_of_forall {p : Char → Bool} (h : ∀ d ∈ s, p d = true) (hc : p c = false) :
    c ∉ s :=
  fun hmem => Bool.false_ne_true (hc.symm.trans (h c hmem))

theorem IsBearer.isForeign (hm : IsBearer m) : IsForeign m := by
  obtain ⟨blanks, token, rfl, -, -, hblank, hmem⟩ := hm
  have hnot (c : Char) (hword : c ∉ "Bearer".toList) (hc : Text.isBlank c = false)
      (hc' : inToken c = false) : c ∉ "Bearer".toList ++ (blanks ++ token) := by
    simp only [List.mem_append, not_or]
    exact ⟨hword, notMem_of_forall hblank hc, notMem_of_forall hmem hc'⟩
  refine ⟨hnot _ (by decide) (by decide) (by decide), hnot _ (by decide) (by decide) (by decide),
    fun h => ?_⟩
  have hlower : 'e' ∈ label := h.subset (List.mem_append_left _ (by decide))
  exact absurd hlower (by decide)

theorem IsKey.isForeign (hm : IsKey m) : IsForeign m := by
  obtain ⟨body, rfl, -, hmem⟩ := hm
  have hnot (c : Char) (hword : c ∉ "sk-".toList) (hc : inKey c = false) :
      c ∉ "sk-".toList ++ body := by
    simp only [List.mem_append, not_or]
    exact ⟨hword, notMem_of_forall hmem hc⟩
  refine ⟨hnot _ (by decide) (by decide), hnot _ (by decide) (by decide), fun h => ?_⟩
  have hlower : 's' ∈ label := h.subset (List.mem_append_left _ (by decide))
  exact absurd hlower (by decide)

/-- A token does not end in the blank that stands before its marker. -/
theorem IsBearer.spares (hm : IsBearer m) : Spares bearerLength? "Bearer ".toList m := by
  intro v hv hkept s hs
  obtain ⟨blanks, token, rfl, -, htoken, -, hmem⟩ := hm
  obtain ⟨_, ⟨_, _, rfl, -⟩, hword⟩ := isSome_bearerLength?_iff.1 hs
  have hbearer : v <+: "Bearer".toList := by
    rcases List.prefix_concat_iff.1 (show v <+: "Bearer".toList ++ [' '] from hkept) with rfl | h
    · have hblank : [' '] <:+ token := by
        refine List.suffix_of_suffix_length_le ((List.suffix_append _ _).trans hv)
          ((List.suffix_append _ _).trans (List.suffix_append _ _)) ?_
        exact List.length_pos_iff.2 htoken
      exact absurd (hblank.subset List.mem_cons_self) (notMem_of_forall hmem (by decide))
    · exact h
  exact hbearer.trans ((List.prefix_append _ _).trans hword)

/-- A token is longer than what is kept of it. -/
theorem IsBearer.not_infix_kept (hm : IsBearer m) : ¬m <:+: "Bearer ".toList := by
  obtain ⟨blanks, token, rfl, hblanks, htoken, -, -⟩ := hm
  intro h
  have hlength := h.length_le
  have hpos := List.length_pos_iff.2 hblanks
  have hpos' := List.length_pos_iff.2 htoken
  simp only [List.length_append] at hlength
  have hword : "Bearer".toList.length = 6 := rfl
  have hword' : "Bearer ".toList.length = 7 := rfl
  omega

/-- After the first two passes there is neither a token nor a key. -/
theorem not_infix_tokens (hm : IsBearer m ∨ IsKey m) : ¬m <:+: tokens t := by
  rcases hm with hm | hm
  · refine fun h => not_infix_replaceFrom (fun u hu => ?_) hm.isForeign hm.spares
      hm.not_infix_kept (infix_of_infix_replaceFrom hm.isForeign h)
    exact isSome_bearerLength?_iff.2 ⟨m, hm, hu⟩
  · refine not_infix_replaceFrom (k := []) (fun u hu => ?_) hm.isForeign spares_nil
      fun hnil => hm.isForeign.ne_nil (List.infix_nil.1 hnil)
    exact isSome_keyLength?_iff.2 ⟨m, hm, hu⟩

theorem tokens_eq_self (h : ∀ m, IsBearer m ∨ IsKey m → ¬m <:+: t) : tokens t = t := by
  rw [tokens,
    replaceFrom_eq_self (fun u => isSome_bearerLength?_iff.1) fun m hm => h m (.inl hm),
    replaceFrom_eq_self (fun u => isSome_keyLength?_iff.1) fun m hm => h m (.inr hm)]

/-- The length of `needle`, where a text starts with it. -/
def needleLength? (needle s : List Char) : Option Nat :=
  if needle.isPrefixOf s then some needle.length else none

theorem isSome_needleLength?_iff : (needleLength? m s).isSome = true ↔ m <+: s := by
  unfold needleLength?
  split <;> simp_all [← List.isPrefixOf_iff_prefix]

theorem needleLength?_eq_some_iff {n : Nat} :
    needleLength? m s = some n ↔ m <+: s ∧ m.length = n := by
  unfold needleLength?
  split <;> simp_all [← List.isPrefixOf_iff_prefix]

theorem needleLength?_eq_none_iff : needleLength? m s = none ↔ ¬m <+: s := by
  rw [← Option.not_isSome_iff_eq_none, isSome_needleLength?_iff]

/-- To replace a text is a pass as well. -/
theorem textReplaceFrom_eq :
    Text.replaceFrom m new skip s = replaceFrom (needleLength? m) new skip s := by
  induction s generalizing skip with
  | nil => simp only [Text.replaceFrom, replaceFrom]
  | cons c cs ih =>
    cases skip with
    | succ skip => simp only [Text.replaceFrom, replaceFrom, ih]
    | zero =>
      rw [Text.replaceFrom, replaceFrom, needleLength?]
      split
      · simp only [ih]
      · simp only [ih]

/-- Remove one secret. -/
def hide (t : List Char) (secret : String) : List Char :=
  if secret.isEmpty then t else Text.replaceAll secret.toList marker t

theorem hide_eq {secret : String} (h : secret ≠ "") :
    hide t secret = replaceFrom (needleLength? secret.toList) marker 0 t := by
  rw [hide, if_neg (by simpa using h), Text.replaceAll, textReplaceFrom_eq]

theorem redact_eq (secrets : List String) (text : String) :
    (redact secrets text).toList = secrets.foldl hide (tokens text.toList) :=
  String.toList_ofList

theorem infix_of_infix_hide {secret : String} (hm : IsForeign m) (h : m <:+: hide t secret) :
    m <:+: t := by
  by_cases hempty : secret = ""
  · rwa [hempty] at h
  · rw [hide_eq hempty] at h
    exact infix_of_infix_replaceFrom hm h

theorem not_infix_hide {secret : String} (hm : IsForeign secret.toList) :
    ¬secret.toList <:+: hide t secret := by
  rw [hide_eq (by simpa using hm.ne_nil)]
  exact not_infix_replaceFrom (k := []) (fun u hu => isSome_needleLength?_iff.2 hu) hm spares_nil
    fun hnil => hm.ne_nil (List.infix_nil.1 hnil)

/-- What is gone stays gone, and every secret is gone after its own pass. -/
theorem not_infix_foldl_hide {secrets : List String} (hm : IsForeign m)
    (h : ¬m <:+: t ∨ ∃ s ∈ secrets, s.toList = m) : ¬m <:+: secrets.foldl hide t := by
  induction secrets generalizing t with
  | nil => exact h.resolve_right fun ⟨_, hs, _⟩ => nomatch hs
  | cons secret secrets ih =>
    refine ih ?_
    rcases h with h | ⟨s, hs, rfl⟩
    · exact .inl fun hhide => h (infix_of_infix_hide hm hhide)
    · rcases List.mem_cons.1 hs with rfl | hs
      · exact .inl (not_infix_hide hm)
      · exact .inr ⟨s, hs, rfl⟩

theorem foldl_hide_eq_self {secrets : List String}
    (h : ∀ s ∈ secrets, s ≠ "" → ¬s.toList <:+: t) : secrets.foldl hide t = t := by
  induction secrets with
  | nil => rfl
  | cons secret secrets ih =>
    obtain ⟨hsecret, hsecrets⟩ := List.forall_mem_cons.1 h
    have hhide : hide t secret = t := by
      by_cases hempty : secret = ""
      · rw [hempty]
        rfl
      · rw [hide_eq hempty]
        refine replaceFrom_eq_self (W := (· = secret.toList)) (fun u hu => ?_) fun m hm => ?_
        · exact ⟨_, rfl, isSome_needleLength?_iff.1 hu⟩
        · exact hm ▸ hsecret hempty
    rw [List.foldl_cons, hhide]
    exact ih hsecrets

/-! ## The whole -/

/-- Whatever the text and the secrets are : after redaction there is no bearer token in the text, no
key, and none of the secrets that are foreign to the marker. A text that has none of these to begin
with, and no other secret either, comes back as it is. -/
theorem redact_leaves_none (secrets : List String) (text : String) :
    (∀ m, IsBearer m → ¬m <:+: (redact secrets text).toList) ∧
    (∀ m, IsKey m → ¬m <:+: (redact secrets text).toList) ∧
    (∀ s ∈ secrets, IsForeign s.toList → ¬s.toList <:+: (redact secrets text).toList) ∧
    ((∀ m, IsBearer m ∨ IsKey m → ¬m <:+: text.toList) →
      (∀ s ∈ secrets, s ≠ "" → ¬s.toList <:+: text.toList) → redact secrets text = text) := by
  rw [redact_eq]
  refine ⟨fun m hm => ?_, fun m hm => ?_, fun s hs hforeign => ?_, fun htokens hsecrets => ?_⟩
  · exact not_infix_foldl_hide hm.isForeign (.inl (not_infix_tokens (.inl hm)))
  · exact not_infix_foldl_hide hm.isForeign (.inl (not_infix_tokens (.inr hm)))
  · exact not_infix_foldl_hide hforeign (.inr ⟨s, hs, rfl⟩)
  · rw [← String.toList_inj, redact_eq, tokens_eq_self htokens, foldl_hide_eq_self hsecrets]

/-- A text in which tokens, keys and a secret follow close on one another. -/
def crowded : String := "Bearer Bearer sk-1 pinpin sksk-1-pin"

/-- They are gone even if a secret is hidden that occurs in the marker. -/
theorem redact_crowded :
    IsBearer "Bearer sk-1".toList ∧ IsKey "sk-1-pin".toList ∧ IsForeign "pin".toList ∧
    "Bearer sk-1".toList <:+: crowded.toList ∧ "sk-1-pin".toList <:+: crowded.toList ∧
    ¬"Bearer sk-1".toList <:+: (redact ["D", "pin"] crowded).toList ∧
    ¬"sk-1-pin".toList <:+: (redact ["D", "pin"] crowded).toList ∧
    ¬"pin".toList <:+: (redact ["D", "pin"] crowded).toList ∧
    redact ["pin"] "quiet" = "quiet" := by
  have hbearer : IsBearer "Bearer sk-1".toList :=
    ⟨" ".toList, "sk-1".toList, by decide, by decide, by decide,
      List.all_eq_true.1 (by decide), List.all_eq_true.1 (by decide)⟩
  have hkey : IsKey "sk-1-pin".toList :=
    ⟨"1-pin".toList, by decide, by decide, List.all_eq_true.1 (by decide)⟩
  have hpin : IsForeign "pin".toList := ⟨by decide, by decide, by decide⟩
  obtain ⟨hnoBearer, hnoKey, hnoSecret, -⟩ := redact_leaves_none ["D", "pin"] crowded
  obtain ⟨-, -, -, hquiet⟩ := redact_leaves_none ["pin"] "quiet"
  refine ⟨hbearer, hkey, hpin, by decide, by decide, hnoBearer _ hbearer, hnoKey _ hkey,
    hnoSecret "pin" (by decide) hpin, hquiet ?_ (by decide)⟩
  rintro m (⟨_, _, rfl, -⟩ | ⟨_, rfl, -⟩) h
  · exact absurd (h.subset (List.mem_append_left _ (by decide : 'B' ∈ "Bearer".toList))) (by decide)
  · exact absurd (h.subset (List.mem_append_left _ (by decide : '-' ∈ "sk-".toList))) (by decide)

end PlanReview.Redact
