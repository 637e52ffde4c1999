import PlanReview.Guardrail.Condition
import PlanReview.Plan.Encode
import PlanReview.Proofs.Text.Delimiter

/-!
# Sensitive files

A path is sensitive if its lower-case form has one of a few endings or holds one of a few words
(`isSensitivePath_iff`). The condition goes through the strings of a document and passes over all
that have neither a slash, a backslash nor a point; so of the paths that a plan names it lists the
sensitive ones that have such a mark (`listed_iff_of_names`). All but two of the patterns ask for a
mark themselves : what is passed over is a bare name with "secret" or "credential" in it.
-/

namespace PlanReview

/-! ## Lower case -/

namespace Text

variable {c d : Char} {before text : List Char}

/-- No capital beyond ASCII has a small form below the digits. -/
theorem lowerRuns_above : ∀ r ∈ lowerRuns, 0x30 ≤ (r.first : Int) + r.distance := by
  decide +kernel

theorem toNat_ofNat_cases (n : Nat) : (Char.ofNat n).toNat = n ∨ (Char.ofNat n).toNat = 0 := by
  rw [Char.ofNat]
  by_cases h : n.isValidChar
  · rw [dif_pos h]
    exact .inl rfl
  · rw [dif_neg h]
    exact .inr rfl

/-- A sign of ASCII below the digits is the small form of itself alone. -/
theorem eq_of_lowerChar_eq (hpos : 0 < d.toNat) (hd : d.toNat < 0x30) (h : lowerChar c = d) :
    c = d := by
  unfold lowerChar at h
  split at h
  · unfold Char.toLower at h
    split at h
    · rename_i hcapital
      have hsmall : (c.val + ('a'.val - 'A'.val)).toNat = d.toNat := congrArg Char.toNat h
      rw [UInt32.toNat_add] at hsmall
      simp only [ge_iff_le, UInt32.le_iff_toNat_le] at hcapital
      change ('A'.val.toNat ≤ _ ∧ _ ≤ 'Z'.val.toNat) at hcapital
      have hA : 'A'.val.toNat = 65 := rfl
      have hZ : 'Z'.val.toNat = 90 := rfl
      have hstep : ('a'.val - 'A'.val).toNat = 32 := rfl
      omega
    · exact h
  · split at h
    · rename_i r hfind
      have habove := lowerRuns_above r (List.mem_of_find?_eq_some hfind)
      have hrange := List.find?_some hfind
      simp only [Bool.and_eq_true, decide_eq_true_eq] at hrange
      have hsmall := toNat_ofNat_cases (c.toNat + r.distance).toNat
      rw [h] at hsmall
      omega
    · exact h

/-- A sign of ASCII below the digits stands in the lower-case form only if it stands in the text. -/
theorem mem_of_mem_lowerAfter (hpos : 0 < d.toNat) (hd : d.toNat < 0x30)
    (h : d ∈ lowerAfter before text) : d ∈ text := by
  induction text generalizing before with
  | nil => exact absurd h List.not_mem_nil
  | cons c cs ih =>
    rw [lowerAfter, List.mem_append] at h
    rcases h with h | h
    · have hne {e : Char} (he : 0x30 ≤ e.toNat) : d ≠ e := by
        rintro rfl
        omega
      split_ifs at h
      · exact absurd (List.mem_singleton.1 h) (hne (by decide))
      · exact absurd (List.mem_singleton.1 h) (hne (by decide))
      · simp only [List.mem_cons, List.not_mem_nil, or_false] at h
        rcases h with h | h
        · exact absurd h (hne (by decide))
        · exact absurd h (hne (by decide))
      · rw [eq_of_lowerChar_eq hpos hd (List.mem_singleton.1 h).symm]
        exact List.mem_cons_self
    · exact List.mem_cons_of_mem c (ih h)

end Text

namespace Guardrail

variable {p s w : List Char} {c : Char}

/-! ## Wildcards -/

theorem globMatches_nil_iff : globMatches [] s = true ↔ s = [] := by
  cases s <;> simp [globMatches]

/-- A character of a pattern stands for itself. -/
theorem globMatches_cons_iff (hc : c ≠ '*') :
    globMatches (c :: p) s = true ↔ ∃ t, s = c :: t ∧ globMatches p t = true := by
  cases s with
  | nil => simp [globMatches.eq_6 c p (fun _ h => absurd h hc) hc]
  | cons d t =>
    rw [globMatches.eq_7 c p d t (fun _ h => absurd h hc) hc, Bool.and_eq_true, beq_iff_eq]
    constructor
    · rintro ⟨rfl, h⟩
      exact ⟨t, rfl, h⟩
    · rintro ⟨t', h, hp⟩
      obtain ⟨rfl, rfl⟩ := List.cons_eq_cons.1 h
      exact ⟨rfl, hp⟩

theorem globMatches_star_iff_of_ne (hp : ∀ q, p ≠ '*' :: q) :
    globMatches ('*' :: p) s = true ↔ ∃ t, t <:+ s ∧ globMatches p t = true := by
  induction s with
  | nil =>
    rw [globMatches.eq_4 p hp]
    simp
  | cons d s ih =>
    rw [globMatches.eq_5 p d s hp, Bool.or_eq_true, ih]
    simp only [List.suffix_cons_iff, or_and_right, exists_or, exists_eq_left]

/-- A star stands for any run of characters. -/
theorem globMatches_star_iff :
    globMatches ('*' :: p) s = true ↔ ∃ t, t <:+ s ∧ globMatches p t = true := by
  induction p generalizing s with
  | nil => exact globMatches_star_iff_of_ne fun _ h => nomatch h
  | cons d q ih =>
    by_cases hd : d = '*'
    · subst hd
      rw [globMatches.eq_3]
      constructor
      · exact fun h => ⟨s, List.suffix_rfl, h⟩
      · rintro ⟨t, hts, h⟩
        obtain ⟨u, hut, hu⟩ := ih.1 h
        exact ih.2 ⟨u, hut.trans hts, hu⟩
    · exact globMatches_star_iff_of_ne fun _ h => hd (List.head_eq_of_cons_eq h)

/-- So does a run of them. -/
theorem globMatches_append_iff (hw : '*' ∉ w) :
    globMatches (w ++ p) s = true ↔ ∃ t, s = w ++ t ∧ globMatches p t = true := by
  induction w generalizing s with
  | nil => simp
  | cons c cs ih =>
    rw [List.mem_cons, not_or] at hw
    obtain ⟨hc, hcs⟩ := hw
    simp only [List.cons_append, globMatches_cons_iff (Ne.symm hc), ih hcs]
    constructor
    · rintro ⟨_, rfl, t, rfl, h⟩
      exact ⟨t, rfl, h⟩
    · rintro ⟨t, rfl, h⟩
      exact ⟨_, rfl, t, rfl, h⟩

/-- A pattern that starts with a star matches the texts that end with the rest. -/
theorem globMatches_suffix_iff (hw : '*' ∉ w) :
    globMatches ('*' :: w) s = true ↔ w <:+ s := by
  have happend (t : List Char) : globMatches w t = true ↔ t = w := by
    simpa [globMatches_nil_iff] using globMatches_append_iff (p := []) (s := t) hw
  simp only [globMatches_star_iff, happend, exists_eq_right]

theorem globMatches_star : globMatches ['*'] s = true :=
  globMatches_star_iff.2 ⟨[], List.nil_suffix, globMatches_nil_iff.2 rfl⟩

/-- A pattern between stars matches the texts in which it occurs. -/
theorem globMatches_infix_iff (hw : '*' ∉ w) (hp : ∀ t, globMatches p t = true) :
    globMatches ('*' :: (w ++ p)) s = true ↔ w <:+: s := by
  simp only [globMatches_star_iff, globMatches_append_iff hw, hp, and_true]
  constructor
  · rintro ⟨_, ⟨a, rfl⟩, b, rfl⟩
    exact ⟨a, b, List.append_assoc a w b⟩
  · rintro ⟨a, b, rfl⟩
    exact ⟨w ++ b, ⟨a, (List.append_assoc a w b).symm⟩, b, rfl⟩

/-! ## Sensitive paths -/

/-- A path is sensitive if its lower-case form ends like a file of settings or keys, or holds a word
for a secret, or has a directory of secrets in it. -/
theorem isSensitivePath_iff {path : String} (hs : Text.lower path.toList = s) :
    isSensitivePath path = true ↔
      ".env".toList <:+ s ∨ ".env.".toList <:+: s ∨ "secret".toList <:+: s ∨
      "credential".toList <:+: s ∨ ".pem".toList <:+ s ∨ ".key".toList <:+ s ∨
      "/secrets/".toList <:+: '/' :: s := by
  have hword (w : List Char) (hw : '*' ∉ w) :
      globMatches ('*' :: (w ++ ['*'])) s = true ↔ w <:+: s :=
    globMatches_infix_iff hw fun _ => globMatches_star
  have hend (w : List Char) (hw : '*' ∉ w) : globMatches ('*' :: w) s = true ↔ w <:+ s :=
    globMatches_suffix_iff hw
  have hdirectory : globMatches "**/secrets/**".toList s = true ↔ "/secrets/".toList <:+: s := by
    change globMatches ('*' :: '*' :: ("/secrets/".toList ++ ['*', '*'])) s = true ↔ _
    rw [globMatches.eq_3]
    refine globMatches_infix_iff (by decide) fun t => ?_
    rw [globMatches.eq_3]
    exact globMatches_star
  simp only [isSensitivePath, hs, sensitivePatterns, List.any_cons, List.any_nil, Bool.or_false,
    Bool.or_eq_true, Text.occurs_eq_true_iff, or_assoc]
  rw [show globMatches "*.env".toList s = true ↔ _ from hend ".env".toList (by decide),
    show globMatches "*.env.*".toList s = true ↔ _ from hword ".env.".toList (by decide),
    show globMatches "*secret*".toList s = true ↔ _ from hword "secret".toList (by decide),
    show globMatches "*credential*".toList s = true ↔ _ from hword "credential".toList (by decide),
    show globMatches "*.pem".toList s = true ↔ _ from hend ".pem".toList (by decide),
    show globMatches "*.key".toList s = true ↔ _ from hend ".key".toList (by decide),
    hdirectory, or_iff_right_of_imp List.infix_cons]

/-- A sensitive path without a mark is a name with one of two words in it. -/
theorem holds_word_of_not_looksLikePath {path : String} (hsensitive : isSensitivePath path = true)
    (hmark : looksLikePath path = false) :
    "secret".toList <:+: Text.lower path.toList ∨
      "credential".toList <:+: Text.lower path.toList := by
  have hnone {d : Char} (hd : d = '/' ∨ d = '.') : d ∉ Text.lower path.toList := by
    intro hlower
    have hpath : d ∈ path.toList := by
      refine Text.mem_of_mem_lowerAfter ?_ ?_ hlower
      all_goals rcases hd with rfl | rfl <;> decide
    refine Bool.false_ne_true (hmark.symm.trans (List.any_eq_true.2 ⟨d, hpath, ?_⟩))
    rcases hd with rfl | rfl <;> rfl
  have hpoint : '.' ∉ Text.lower path.toList := hnone (.inr rfl)
  have hslash : '/' ∉ Text.lower path.toList := hnone (.inl rfl)
  rcases (isSensitivePath_iff rfl).1 hsensitive with h | h | h | h | h | h | h
  · exact absurd (h.subset (by decide)) hpoint
  · exact absurd (h.subset (by decide)) hpoint
  · exact .inl h
  · exact .inr h
  · exact absurd (h.subset (by decide)) hpoint
  · exact absurd (h.subset (by decide)) hpoint
  · -- the slash behind the directory stands in the path itself
    rcases List.infix_cons_iff.1 h with h | h
    · obtain ⟨-, h⟩ := List.cons_prefix_cons.1 h
      exact absurd (h.subset (by decide)) hslash
    · exact absurd (h.subset (by decide)) hslash

/-- The condition lists exactly the strings of a document that look like a path and are sensitive
as one. -/
theorem sensitiveFiles_lists_iff {plan : Json} {text : String} :
    (∃ found, sensitiveFiles plan = some found ∧ text ∈ found.details) ↔
      text ∈ plan.texts ∧ looksLikePath text = true ∧ isSensitivePath text = true := by
  unfold sensitiveFiles met
  split
  · rename_i hempty
    rw [List.isEmpty_iff] at hempty
    simp only [reduceCtorEq, false_and, exists_false, false_iff]
    intro h
    have hmem := List.mem_eraseDups.2 (List.mem_filter (p := fun t => looksLikePath t &&
      isSensitivePath t).2 ⟨h.1, Bool.and_eq_true_iff.2 h.2⟩)
    rw [hempty] at hmem
    exact List.not_mem_nil hmem
  · simp [List.mem_eraseDups]

end Guardrail

/-! ## The strings of a plan -/

namespace Json

variable {j : Json} {text : String}

theorem mem_texts_arr {items : List Json} (hj : j ∈ items) (h : text ∈ j.texts) :
    text ∈ (arr items).texts := by
  rw [texts]
  induction items with
  | nil => exact absurd hj List.not_mem_nil
  | cons x xs ih =>
    rw [textsItems, List.mem_append]
    rcases List.mem_cons.1 hj with rfl | hj
    · exact .inl h
    · exact .inr (ih hj)

theorem mem_texts_obj (key : String) {fields : Fields} (hj : (key, j) ∈ fields)
    (h : text ∈ j.texts) : text ∈ (obj fields).texts := by
  rw [texts]
  induction fields with
  | nil => exact absurd hj List.not_mem_nil
  | cons f fs ih =>
    rw [textsFields, List.mem_append]
    rcases List.mem_cons.1 hj with rfl | hj
    · exact .inl h
    · exact .inr (ih hj)

theorem mem_texts_list {α : Type} {write : α → Json} {items : List α} {x : α} (hx : x ∈ items)
    (h : text ∈ (write x).texts) : text ∈ (Json.list write items).texts :=
  mem_texts_arr (List.mem_map_of_mem hx) h

theorem mem_texts_strings {items : List String} (h : text ∈ items) :
    text ∈ (strings items).texts :=
  mem_texts_arr (List.mem_map_of_mem h) List.mem_cons_self

end Json

/-- A plan names a file, among its own references or in a task. -/
def Plan.Names (p : Plan) (path : String) : Prop :=
  (∃ r ∈ p.fileReferences, r.path = path) ∨
    ∃ phase ∈ p.phases, ∃ c ∈ phase.checkpoints, ∃ t ∈ c.tasks, path ∈ t.fileReferences

theorem Plan.mem_texts_of_names {p : Plan} {path : String} (h : p.Names path) :
    path ∈ p.toJson.texts := by
  rcases h with ⟨r, hr, rfl⟩ | ⟨phase, hphase, c, hc, t, ht, hpath⟩
  · have hfield :
        ("file_references", Json.list FileReference.toJson p.fileReferences) ∈ p.fields := by
      simp [fields]
    refine Json.mem_texts_obj _ hfield (Json.mem_texts_list hr ?_)
    exact Json.mem_texts_obj "path" List.mem_cons_self List.mem_cons_self
  · have hfield : ("phases", Json.list PlanPhase.toJson p.phases) ∈ p.fields := by simp [fields]
    refine Json.mem_texts_obj _ hfield (Json.mem_texts_list hphase ?_)
    refine Json.mem_texts_obj "checkpoints" (j := .list Checkpoint.toJson phase.checkpoints)
      (by simp) (Json.mem_texts_list hc ?_)
    refine Json.mem_texts_obj "tasks" (j := .list Task.toJson c.tasks) (by simp)
      (Json.mem_texts_list ht ?_)
    exact Json.mem_texts_obj "file_references" (j := .strings t.fileReferences) (by simp)
      (Json.mem_texts_strings hpath)

namespace Guardrail

/-- A sensitive path that a plan names is listed exactly if it has a slash, a backslash or a point
in it. One that is not listed is a bare name that holds one of two words. -/
theorem listed_iff_of_names {p : Plan} {path : String} (hnames : p.Names path)
    (hsensitive : isSensitivePath path = true) :
    ((∃ found, sensitiveFiles p.toJson = some found ∧ path ∈ found.details) ↔
      ∃ c ∈ path.toList, c = '/' ∨ c = '\\' ∨ c = '.') ∧
    ((¬∃ found, sensitiveFiles p.toJson = some found ∧ path ∈ found.details) →
      "secret".toList <:+: Text.lower path.toList ∨
        "credential".toList <:+: Text.lower path.toList) := by
  have hlisted : (∃ found, sensitiveFiles p.toJson = some found ∧ path ∈ found.details) ↔
      looksLikePath path = true := by
    rw [sensitiveFiles_lists_iff]
    exact ⟨fun h => h.2.1, fun h => ⟨Plan.mem_texts_of_names hnames, h, hsensitive⟩⟩
  rw [hlisted]
  refine ⟨?_, fun h => holds_word_of_not_looksLikePath hsensitive (Bool.eq_false_iff.2 h)⟩
  simp only [looksLikePath, List.any_eq_true, Bool.or_eq_true, decide_eq_true_eq, or_assoc]

/-- A plan that names one file. -/
def naming (path : String) : Plan where
  title := "Rotate keys"
  fileReferences := [{ path := path }]
  metadata := { createdAt := "", lastUpdated := "" }

theorem naming_names (path : String) : (naming path).Names path :=
  .inl ⟨_, List.mem_cons_self, rfl⟩

/-- The letters of the path do not matter. -/
theorem listed_of_capital :
    (naming "config/Secrets").Names "config/Secrets" ∧
    isSensitivePath "config/Secrets" = true ∧
    ∃ found, sensitiveFiles (naming "config/Secrets").toJson = some found ∧
      "config/Secrets" ∈ found.details := by
  have hsensitive : isSensitivePath "config/Secrets" = true := by decide +kernel
  exact ⟨naming_names _, hsensitive,
    (listed_iff_of_names (naming_names _) hsensitive).1.2 ⟨'/', by decide, by decide⟩⟩

/-- A bare name is passed over. -/
theorem not_listed_of_bare :
    (naming "client_secrets").Names "client_secrets" ∧
    isSensitivePath "client_secrets" = true ∧
    sensitiveFiles (naming "client_secrets").toJson = none :=
  ⟨naming_names _, by decide +kernel, by decide +kernel⟩

end Guardrail

end PlanReview
