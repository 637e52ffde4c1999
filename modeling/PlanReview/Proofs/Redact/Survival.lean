import PlanReview.Proofs.Redact.Places

/-!
# What survives of a secret

The pass for a secret takes away occurrences that it finds in the placed text. A character in none
of them stays (`mem_hide`), and an occurrence goes if no other one reaches into it from before
(`notMem_places_hide`). In a stitched text an occurrence either was put in, or it is one in the body
as well. So where the occurrences in the body do not overlap, those go that the passes for tokens
left as a whole, and of the others survives what these passes left of them (`mem_places_hide_iff`).
To redact the text once more changes nothing about that (`mem_places_redact_again`).
-/

namespace PlanReview.Redact.PlacedText

variable {find : List Char → Option Nat} {body k key new : List Char} {t u w : PlacedText}
  {x : Char × Option Nat} {a b i n skip : Nat}

/-! ## The pass for a secret -/

theorem text_hide (secret : String) (t : PlacedText) :
    (hide secret.toList t).text = Redact.hide t.text secret := by
  by_cases hempty : secret = ""
  · rw [hempty]
    rfl
  · rw [hide, if_neg (by simpa using hempty), hide_eq hempty]
    exact text_replaceFrom fun _ _ _ => List.nil_prefix

theorem mem_of_mem_replaceFrom (hx : x ∈ replaceFrom find k new skip t) :
    x ∈ t ∨ x ∈ inserted new := by
  induction t generalizing skip with
  | nil => cases skip <;> cases hx
  | cons y t ih =>
    cases skip with
    | succ skip => exact (ih hx).imp_left (List.mem_cons_of_mem y)
    | zero =>
      rw [replaceFrom] at hx
      split at hx
      · rcases List.mem_append.1 hx with hx | hx
        · exact .inl (List.mem_of_mem_take hx)
        · rcases List.mem_append.1 hx with hx | hx
          · exact .inr hx
          · exact (ih hx).imp_left (List.mem_cons_of_mem y)
      · rcases List.mem_cons.1 hx with rfl | hx
        · exact .inl List.mem_cons_self
        · exact (ih hx).imp_left (List.mem_cons_of_mem y)

/-- What has a place after the pass had it before. -/
theorem mem_of_mem_hide {c : Char} (h : (c, some i) ∈ hide key t) : (c, some i) ∈ t := by
  unfold hide at h
  split at h
  · exact h
  · exact (mem_of_mem_replaceFrom h).resolve_right notMem_inserted

theorem mem_places_of_mem_hide (h : i ∈ (hide key t).places) : i ∈ t.places :=
  mem_places_of_subset (fun _ _ => mem_of_mem_hide) h

theorem isChain_replaceFrom (h : t.IsChain Meets) :
    (replaceFrom find [] marker skip t).IsChain Meets := by
  induction t generalizing skip with
  | nil => cases skip <;> exact .nil
  | cons x t ih =>
    obtain ⟨hx, ht⟩ := List.isChain_cons.1 h
    cases skip with
    | succ skip => exact ih ht
    | zero =>
      rw [replaceFrom]
      cases find (text (x :: t)) with
      | some n => exact isChain_inserted_append (.inl rfl) (ih ht)
      | none =>
        refine List.isChain_cons.2 ⟨fun y hy => ?_, ih ht⟩
        -- after a character that stays comes the one that came before, or a marker
        cases t with
        | nil => cases hy
        | cons z t =>
          rw [replaceFrom] at hy
          cases hfound : find (text (z :: t)) with
          | none =>
            rw [hfound] at hy
            exact hx y hy
          | some n =>
            rw [hfound] at hy
            cases hy
            exact meets_opening x

theorem isChain_hide (h : t.IsChain Meets) : (hide key t).IsChain Meets := by
  unfold hide
  split
  · exact h
  · exact isChain_replaceFrom h

/-- A text is treated part by part where no occurrence reaches from one part into the next. -/
theorem hide_append (h : ∀ v, v <:+ t → key <+: text (v ++ u) → v = [] ∨ key <+: text v) :
    hide key (t ++ u) = hide key t ++ hide key u := by
  unfold hide
  split
  · rfl
  · have hskip : ∀ skip ≤ t.length, replaceFrom (needleLength? key) [] marker skip (t ++ u) =
        replaceFrom (needleLength? key) [] marker skip t ++
          replaceFrom (needleLength? key) [] marker 0 u := by
      induction t with
      | nil =>
        intro skip hskip
        rw [Nat.le_zero.1 hskip]
        rfl
      | cons x t ih =>
        have htail := ih fun v hv => h v (hv.trans (List.suffix_cons x t))
        intro skip hskip
        cases skip with
        | succ skip => exact htail skip (Nat.le_of_succ_le_succ hskip)
        | zero =>
          have hsame : needleLength? key (text (x :: (t ++ u))) =
              needleLength? key (text (x :: t)) := by
            have hiff : key <+: text (x :: (t ++ u)) ↔ key <+: text (x :: t) :=
              ⟨fun hkey => (h (x :: t) List.suffix_rfl hkey).resolve_left (List.cons_ne_nil x t),
                fun hkey => hkey.trans ((List.prefix_append (x :: t) u).map Prod.fst)⟩
            simp only [needleLength?, List.isPrefixOf_iff_prefix, hiff]
          rw [List.cons_append, replaceFrom, replaceFrom, hsame]
          cases hn : needleLength? key (text (x :: t)) with
          | none => exact congrArg (x :: ·) (htail 0 (Nat.zero_le _))
          | some n =>
            obtain ⟨hkey, rfl⟩ := needleLength?_eq_some_iff.1 hn
            have hle := hkey.length_le
            rw [length_text, List.length_cons] at hle
            dsimp only
            rw [htail (key.length - 1) (by omega)]
            simp only [List.length_nil, List.take_zero, List.nil_append, List.append_assoc]
    exact hskip 0 (Nat.zero_le _)

/-! ## Occurrences -/

/-- An occurrence that begins in an end of `t` and goes on behind it has the character that comes
next. -/
theorem exists_crossing {v : PlacedText} (hv : v <:+ t) (hoccurs : key <+: text (v ++ x :: u))
    (hnot : ¬key <+: text v) : ∃ w, w <:+: t ++ x :: u ∧ text w = key ∧ v.length < key.length ∧
      w[v.length]? = some x := by
  have hshort : v.length < key.length := by
    by_contra hle
    refine hnot (List.prefix_of_prefix_length_le hoccurs ?_ ?_)
    · exact (List.prefix_append v _).map Prod.fst
    · rw [length_text]
      exact Nat.not_lt.1 hle
  obtain ⟨front, rfl⟩ := hv
  refine ⟨(v ++ x :: u).take key.length, ?_, text_take_of_isPrefix hoccurs, hshort, ?_⟩
  · refine (List.take_prefix _ _).isInfix.trans ⟨front, [], ?_⟩
    rw [List.append_nil, List.append_assoc]
  · rw [List.getElem?_take_of_lt hshort, List.getElem?_append_right (Nat.le_refl _), Nat.sub_self]
    rfl

/-- A character that is in no occurrence stays. -/
theorem mem_hide (hx : x ∈ t) (h : ∀ w, w <:+: t → text w = key → x ∉ w) : x ∈ hide key t := by
  by_cases hkey : key = []
  · rwa [hide, if_pos hkey]
  · obtain ⟨front, back, rfl⟩ := List.append_of_mem hx
    rw [hide_append fun v hv hoccurs => ?_]
    · have hnone : needleLength? key (text (x :: back)) = none := by
        rw [needleLength?_eq_none_iff]
        intro hoccurs
        have hinfix : (x :: back).take key.length <:+: front ++ x :: back :=
          (List.take_prefix _ _).isInfix.trans (List.suffix_append _ _).isInfix
        refine h _ hinfix (text_take_of_isPrefix hoccurs) ?_
        rw [List.take_cons (List.length_pos_iff.2 hkey)]
        exact List.mem_cons_self
      refine List.mem_append_right _ ?_
      rw [hide, if_neg hkey, replaceFrom, hnone]
      exact List.mem_cons_self
    · by_contra hnot
      rw [not_or] at hnot
      obtain ⟨w, hw, htext, -, hmem⟩ := exists_crossing hv hoccurs hnot.2
      exact h w hw htext (List.mem_of_getElem? hmem)

theorem hide_occurrence (hkey : key ≠ []) (hw : text w = key) :
    hide key (w ++ u) = inserted marker ++ hide key u := by
  have hlength : w.length = key.length := by
    rw [← hw, length_text]
  have hfound : needleLength? key (text (w ++ u)) = some key.length := by
    rw [needleLength?_eq_some_iff, text_append, hw]
    exact ⟨List.prefix_append _ _, rfl⟩
  rw [hide, hide, if_neg hkey, if_neg hkey]
  cases w with
  | nil => exact absurd hw.symm hkey
  | cons x w =>
    rw [List.cons_append, replaceFrom]
    rw [List.cons_append] at hfound
    rw [hfound]
    dsimp only
    have hdrop : (w ++ u).drop (key.length - 1) = u :=
      List.drop_left' (by rw [← hlength]; rfl)
    rw [replaceFrom_skip, hdrop, List.length_nil, List.take_zero, List.nil_append]

/-- An occurrence goes if no other one reaches into it from before. -/
theorem notMem_places_hide (hkey : IsApart key) (hchain : t.IsChain Meets)
    (hnodup : t.places.Nodup) (hoccurs : standing a key <:+: t)
    (hbefore : ∀ b, standing b key <:+: t → b < a → b + key.length ≤ a)
    (hi : i ∈ (standing a key).places) : i ∉ (hide key t).places := by
  have hne : key ≠ [] := by
    rintro rfl
    cases hi
  obtain ⟨c, cs, hcons⟩ := List.exists_cons_of_ne_nil hne
  obtain ⟨front, back, heq⟩ := hoccurs
  rw [List.append_assoc] at heq
  subst heq
  have hhead : standing a key ++ back = (c, some a) :: (standing (a + 1) cs ++ back) := by
    rw [hcons]
    rfl
  rw [hide_append fun v hv hcross => ?_]
  · rw [places_append, places_append, List.nodup_append] at hnodup
    obtain ⟨-, hback, hfront⟩ := hnodup
    rw [List.nodup_append] at hback
    rw [hide_occurrence hne (text_standing a key)]
    simp only [places_append, places_inserted, List.nil_append, List.mem_append, not_or]
    exact ⟨fun h => hfront i (mem_places_of_mem_hide h) i (List.mem_append_left _ hi) rfl,
      fun h => hback.2.2 i hi i (mem_places_of_mem_hide h) rfl⟩
  · by_contra hnot
    rw [not_or] at hnot
    rw [hhead] at hcross
    obtain ⟨w, hw, htext, hshort, hget⟩ := exists_crossing hv hcross hnot.2
    rw [← hhead] at hw
    rcases occurrence_cases hchain hkey hw htext with ⟨b, rfl⟩ | rfl
    · rw [getElem?_standing] at hget
      obtain ⟨d, -, hd⟩ := Option.map_eq_some_iff.1 hget
      have hplace : b + v.length = a := Option.some_inj.1 (Prod.ext_iff.1 hd).2
      have hpos := List.length_pos_iff.2 hnot.1
      have := hbefore b hw (by omega)
      omega
    · exact notMem_inserted (List.mem_of_getElem? hget)

/-! ## What survives -/

/-- No two occurrences of the key overlap. -/
def OccursApart (key body : List Char) : Prop :=
  ∀ a b, key <+: body.drop a → key <+: body.drop b → a < b → a + key.length ≤ b

/-- Characters of a stitched text whose places are in a row stand in the body. -/
theorem Stitched.isPrefix_drop (ht : Stitched body n t)
    (h : ∀ c j, (c, some j) ∈ standing a key → (c, some j) ∈ t) : key <+: body.drop a := by
  rw [List.prefix_iff_getElem?]
  intro j hj
  rw [List.getElem?_drop]
  refine ht.getElem?_eq (h _ _ (List.mem_of_getElem? (i := j) ?_))
  rw [getElem?_standing, List.getElem?_eq_getElem hj]
  rfl

theorem Stitched.isPrefix_drop_of_isInfix (ht : Stitched body n t) (h : standing a key <:+: t) :
    key <+: body.drop a :=
  ht.isPrefix_drop fun _ _ hc => h.subset hc

/-- An occurrence of which all places are left stands without a gap. -/
theorem Stitched.standing_isInfix (ht : Stitched body n t) (hoccurs : key <+: body.drop a)
    (hkey : key ≠ []) (hall : ∀ j, a ≤ j → j < a + key.length → j ∈ t.places) :
    standing a key <:+: t := by
  obtain ⟨s, front, back, hs, heq⟩ := ht.exists_standing (List.length_pos_iff.2 hkey)
    fun j hj => hall (a + j) (Nat.le_add_right a j) (Nat.add_lt_add_left hj a)
  have hinfix : standing a s <:+: t := ⟨front, back, by rw [heq, List.append_assoc]⟩
  have hprefix : s <+: key :=
    List.prefix_of_prefix_length_le (ht.isPrefix_drop_of_isInfix hinfix) hoccurs hs.le
  exact hprefix.eq_of_length hs ▸ hinfix

/-- A place of an occurrence survives the pass exactly if it was left before, and another place of
the same occurrence was not. -/
theorem mem_places_hide_iff (ht : Stitched body n t) (hkey : IsApart key)
    (hapart : OccursApart key body) (hoccurs : key <+: body.drop a) (hi : a ≤ i)
    (hi' : i < a + key.length) : i ∈ (hide key t).places ↔
      i ∈ t.places ∧ ∃ j, a ≤ j ∧ j < a + key.length ∧ j ∉ t.places := by
  have hne : key ≠ [] := by
    rintro rfl
    exact absurd hi' (Nat.not_lt.2 hi)
  constructor
  · intro hmem
    refine ⟨mem_places_of_mem_hide hmem, ?_⟩
    by_contra hnone
    have hall : ∀ j, a ≤ j → j < a + key.length → j ∈ t.places := fun j hj hj' => by
      by_contra hout
      exact hnone ⟨j, hj, hj', hout⟩
    refine notMem_places_hide hkey ht.isChain ht.nodup (ht.standing_isInfix hoccurs hne hall)
      (fun b hb => hapart b a (ht.isPrefix_drop_of_isInfix hb) hoccurs)
      (mem_places_standing_iff.2 ⟨hi, hi'⟩) hmem
  · rintro ⟨hleft, j, hj, hj', hout⟩
    obtain ⟨c, hc⟩ := mem_places_iff.1 hleft
    refine mem_places_iff.2 ⟨c, mem_hide hc fun w hw htext hmem => hout ?_⟩
    -- an occurrence that has the place is this one, and it is there as a whole
    rcases occurrence_cases ht.isChain hkey hw htext with ⟨b, rfl⟩ | rfl
    · obtain ⟨hib, hib'⟩ := mem_places_standing_iff.1 (mem_places_iff.2 ⟨c, hmem⟩)
      have hsame : b = a := by
        rcases Nat.lt_trichotomy a b with hlt | heq | hlt
        · have := hapart a b hoccurs (ht.isPrefix_drop_of_isInfix hw) hlt
          omega
        · exact heq.symm
        · have := hapart b a (ht.isPrefix_drop_of_isInfix hw) hoccurs hlt
          omega
      exact mem_places_of_subset (fun _ _ hd => hw.subset hd)
        (mem_places_standing_iff.2 ⟨hsame ▸ hj, hsame ▸ hj'⟩)
    · exact absurd hmem notMem_inserted

/-- After the pass no character that has a place is in an occurrence. -/
theorem notMem_of_text_eq (ht : Stitched body n t) (hkey : IsApart key)
    (hapart : OccursApart key body) (hw : w <:+: hide key t) (htext : text w = key) {c : Char} :
    (c, some i) ∉ w := by
  intro hmem
  rcases occurrence_cases (isChain_hide ht.isChain) hkey hw htext with ⟨b, rfl⟩ | rfl
  · have hleft (d : Char) (j : Nat) (hd : (d, some j) ∈ standing b key) : (d, some j) ∈ t :=
      mem_of_mem_hide (hw.subset hd)
    obtain ⟨hib, hib'⟩ := mem_places_standing_iff.1 (mem_places_iff.2 ⟨c, hmem⟩)
    obtain ⟨-, j, hj, hj', hout⟩ := (mem_places_hide_iff ht hkey hapart (ht.isPrefix_drop hleft)
      hib hib').1 (mem_places_iff.2 ⟨c, hw.subset hmem⟩)
    exact hout (mem_places_of_subset hleft (mem_places_standing_iff.2 ⟨hj, hj'⟩))
  · exact notMem_inserted hmem

/-! ## Once more -/

/-- Remove tokens, keys and a secret. -/
def redact (secret : String) (t : PlacedText) : PlacedText :=
  hide secret.toList (tokens t)

theorem text_redact (secret : String) (t : PlacedText) :
    (redact secret t).text = (Redact.redact [secret] (String.ofList t.text)).toList := by
  rw [redact, text_hide, text_tokens, redact_eq, String.toList_ofList]
  rfl

/-- In front of a redacted text, what begins no token brings none about. -/
theorem tokens_inserted_append {secret : String} {s : List Char} (hB : 'B' ∉ s) (hs : 's' ∉ s) :
    tokens (inserted s ++ redact secret t) = inserted s ++ redact secret t := by
  refine tokens_eq_self fun m hm h => ?_
  have hforeign : IsForeign m := hm.elim IsBearer.isForeign IsKey.isForeign
  have hinfix : m <:+: (redact secret t).text := by
    rw [text_append, text_inserted] at h
    rcases hm with ⟨_, _, rfl, -⟩ | ⟨_, rfl, -⟩
    · exact (Text.cons_infix_append_iff hB).1 h
    · exact (Text.cons_infix_append_iff hs).1 h
  rw [redact, text_hide, text_tokens] at hinfix
  exact not_infix_tokens hm (infix_of_infix_hide hforeign hinfix)

/-- What survives in a text survives when the text is redacted once more, behind words that end in
a blank. -/
theorem mem_places_redact_again {secret : String} {s : List Char}
    (ht : Stitched body n (tokens t)) (hkey : IsApart secret.toList) (hblank : ' ' ∉ secret.toList)
    (hapart : OccursApart secret.toList body) (hB : 'B' ∉ s) (hs : 's' ∉ s) :
    i ∈ (redact secret (inserted (s ++ [' ']) ++ redact secret t)).places ↔
      i ∈ (redact secret t).places := by
  have hlast (c : Char) (hc : c ∉ s) (hne : c ≠ ' ') : c ∉ s ++ [' '] := by
    rw [List.mem_append, List.mem_singleton, not_or]
    exact ⟨hc, hne⟩
  have hagain : redact secret (inserted (s ++ [' ']) ++ redact secret t) =
      hide secret.toList (inserted (s ++ [' ']) ++ redact secret t) :=
    congrArg (hide secret.toList) (tokens_inserted_append (hlast _ hB (by decide))
      (hlast _ hs (by decide)))
  rw [hagain, hide_append fun v hv hoccurs => ?_, places_append, List.mem_append, or_iff_right]
  · refine ⟨mem_places_of_mem_hide, fun hi => ?_⟩
    obtain ⟨c, hc⟩ := mem_places_iff.1 hi
    exact mem_places_iff.2
      ⟨c, mem_hide hc fun w hw htext => notMem_of_text_eq ht hkey hapart hw htext⟩
  · intro hi
    have hmem := mem_places_of_mem_hide hi
    rw [places_inserted] at hmem
    cases hmem
  · -- the blank ends what begins in the words
    have hwords : inserted (s ++ [' ']) = inserted s ++ [(' ', none)] := List.map_append
    rw [hwords] at hv
    rcases List.suffix_concat_iff.1 hv with hnil | ⟨v', rfl, -⟩
    · exact .inl hnil
    · have hcross : secret.toList <+: text v' ++ ' ' :: text (redact secret t) := by
        simpa [text] using hoccurs
      refine .inr (((Text.prefix_append_cons_iff hblank).1 hcross).trans ?_)
      rw [text_append]
      exact List.prefix_append _ _

end PlanReview.Redact.PlacedText
