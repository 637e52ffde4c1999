import PlanReview.Proofs.Workspace.Stores

/-!
# Between two changes

An operation may be cut off after any of its changes. `Throughout I w w'` : on the way from the
workspace `w` to `w'` the property `I` holds of the files after each of the changes, and at both
ends. Such ways are put together end to end (`Throughout.trans`).

Whoever looks at a file in the middle of a way sees what stood there before, or one of the texts
that it is given on the way (`Stores.node?_cut`).
-/

namespace PlanReview.Workspace

variable {I J : FileTree → Prop} {key : List String} {w w' w'' : Workspace}

/-- From `w` to `w'` the property holds of the files at every moment. -/
structure Throughout (I : FileTree → Prop) (w w' : Workspace) : Prop where
  changes : ∃ cs, w'.journal = cs.reverse ++ w.journal ∧ w'.files = w.files.applyAll cs ∧
    ∀ ds es, cs = ds ++ es → I (w.files.applyAll ds)

theorem Throughout.refl (h : I w.files) : w.Throughout I w := by
  refine ⟨[], rfl, rfl, fun ds es heq => ?_⟩
  rw [(List.nil_eq_append_iff.1 heq).1]
  exact h

theorem Throughout.trans (h : w.Throughout I w') (h' : w'.Throughout I w'') :
    w.Throughout I w'' := by
  obtain ⟨cs, hjournal, hfiles, hcs⟩ := h
  obtain ⟨cs', hjournal', hfiles', hcs'⟩ := h'
  refine ⟨cs ++ cs', ?_, ?_, fun ds es heq => ?_⟩
  · rw [hjournal', hjournal, List.reverse_append, List.append_assoc]
  · rw [hfiles', hfiles, FileTree.applyAll_append]
  · rcases List.append_eq_append_iff.1 heq with ⟨bs, rfl, hrest⟩ | ⟨bs, hfirst, -⟩
    · rw [FileTree.applyAll_append, ← hfiles]
      exact hcs' bs es hrest
    · exact hcs ds bs hfirst

theorem Throughout.mono (h : w.Throughout I w') (hIJ : ∀ t, I t → J t) : w.Throughout J w' := by
  obtain ⟨cs, hjournal, hfiles, hcs⟩ := h
  exact ⟨cs, hjournal, hfiles, fun ds es heq => hIJ _ (hcs ds es heq)⟩

/-- The property holds in the end. -/
theorem Throughout.last (h : w.Throughout I w') : I w'.files := by
  obtain ⟨cs, -, hfiles, hcs⟩ := h
  rw [hfiles]
  exact hcs cs [] (List.append_nil cs).symm

/-- It holds wherever the way is cut off. -/
theorem Throughout.cut (h : w.Throughout I w') {ds es : List Change}
    (hjournal : w'.journal = (ds ++ es).reverse ++ w.journal) : I (w.files.applyAll ds) := by
  obtain ⟨cs, hjournal', -, hcs⟩ := h
  rw [hjournal] at hjournal'
  exact hcs ds es (List.reverse_injective (List.append_cancel_right hjournal').symm)

/-- In the middle of a way a file holds what it held before, or one of the texts of the way. -/
theorem Stores.node?_cut {texts : List String} (h : w.Stores key w' texts) {ds es : List Change}
    (hjournal : w'.journal = (ds ++ es).reverse ++ w.journal) :
    (w.files.applyAll ds).node? key = w.files.node? key ∨
      ∃ text ∈ texts, (w.files.applyAll ds).node? key = some (.file (.text text)) := by
  obtain ⟨cs, hjournal', -, hversions, honly⟩ := h
  rw [hjournal] at hjournal'
  obtain rfl := List.reverse_injective (List.append_cancel_right hjournal')
  rw [FileTree.versions_append] at hversions
  obtain ⟨before, after, rfl, hbefore, -⟩ := List.map_eq_append_iff.1 hversions.symm
  rw [((FileTree.onlyBrings_append_iff ..).1 honly).1.node?_applyAll, ← hbefore,
    List.getLast?_map]
  cases hlast : before.getLast? with
  | none => exact .inl rfl
  | some text =>
    exact .inr ⟨text, List.mem_append_left _ (List.mem_of_getLast? hlast), rfl⟩

theorem Spares.node?_cut (h : w.Spares key w') {ds es : List Change}
    (hjournal : w'.journal = (ds ++ es).reverse ++ w.journal) :
    (w.files.applyAll ds).node? key = w.files.node? key := by
  rcases Stores.node?_cut h hjournal with hsame | ⟨text, hmem, -⟩
  · exact hsame
  · cases hmem

end PlanReview.Workspace
