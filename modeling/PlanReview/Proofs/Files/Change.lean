import Mathlib.Data.List.Basic
import PlanReview.Files.Tree

/-!
# What changes do to a tree

A change concerns the node under its own path and leaves the others alone (`node?_put`,
`node?_take`). Of a whole list of changes a file sees its `versions` : the contents that came to
stand under its name, by a write or by a rename, the oldest first.
-/

namespace PlanReview.FileTree

variable {t : FileTree} {names key : List String}

/-! ## Entries -/

theorem lookup_setEntry (entries : List (List String × FileEntry)) (names key : List String)
    (e : FileEntry) :
    (setEntry entries names e).lookup key =
      if key = names then some e else entries.lookup key := by
  induction entries with
  | nil =>
    by_cases h : key = names
    · simp [setEntry, h]
    · simp [setEntry, List.lookup_cons, h, beq_false_of_ne h]
  | cons entry entries ih =>
    obtain ⟨k, v⟩ := entry
    rw [setEntry]
    by_cases hk : k = names
    · rw [if_pos hk, List.lookup_cons, List.lookup_cons, hk]
      by_cases h : key = names
      · simp [h]
      · simp [h, beq_false_of_ne h]
    · rw [if_neg hk, List.lookup_cons, List.lookup_cons, ih]
      by_cases h : key = k
      · simp [h, hk]
      · simp [beq_false_of_ne h]

theorem lookup_setModified (entries : List (List String × FileEntry)) (names key : List String)
    (micros : Int) :
    ((setModified entries names micros).lookup key).map (·.node) =
      (entries.lookup key).map (·.node) := by
  induction entries with
  | nil => rfl
  | cons entry entries ih =>
    obtain ⟨k, v⟩ := entry
    rw [setModified, List.map_cons, ← setModified]
    dsimp only
    by_cases h : key = k
    · by_cases hk : k = names <;> simp [h, hk]
    · split <;> simpa [List.lookup_cons, beq_false_of_ne h] using ih

theorem lookup_filter (entries : List (List String × FileEntry)) (p : List String → Bool)
    (key : List String) :
    (entries.filter fun e => p e.1).lookup key = if p key then entries.lookup key else none := by
  induction entries with
  | nil => simp
  | cons entry entries ih =>
    obtain ⟨k, v⟩ := entry
    rw [List.filter_cons, List.lookup_cons]
    by_cases h : key = k
    · by_cases hp : p k
      · simp [h, hp]
      · simp [h, hp, h ▸ ih]
    · by_cases hp : p k
      · simp [hp, List.lookup_cons, beq_false_of_ne h, ih]
      · simp [hp, beq_false_of_ne h, ih]

/-! ## Nodes -/

theorem node?_of_ne_nil (t : FileTree) (h : key ≠ []) :
    t.node? key = (t.entries.lookup key).map (·.node) := by
  rw [node?, if_neg (by simpa using h)]

theorem node?_put (hnames : names ≠ []) (n : Node) :
    (t.put names n).node? key = if key = names then some n else t.node? key := by
  by_cases hkey : key = []
  · rw [hkey, if_neg (Ne.symm hnames)]
    rfl
  rw [node?_of_ne_nil _ hkey, node?_of_ne_nil _ hkey]
  have hentry : ((t.put names n).entries.lookup key).map (·.node) =
      ((setEntry t.entries names ⟨n, t.clock⟩).lookup key).map (·.node) := by
    unfold put
    dsimp only
    split
    · rw [lookup_setModified]
    · rfl
  rw [hentry, lookup_setEntry]
  split <;> rfl

theorem node?_take (hkey : key ≠ []) :
    (t.take names).node? key = if names <+: key then none else t.node? key := by
  rw [node?_of_ne_nil _ hkey, node?_of_ne_nil _ hkey, take]
  dsimp only
  rw [lookup_setModified, lookup_filter t.entries fun k => !names.isPrefixOf k]
  by_cases h : names <+: key
  · rw [if_pos h, if_neg (by simpa using h)]
    rfl
  · rw [if_neg h, if_pos (by simpa [← List.isPrefixOf_iff_prefix] using h)]

@[simp] theorem cwd_apply (t : FileTree) (c : Change) : (t.apply c).cwd = t.cwd := by
  cases c <;> first | rfl | (unfold apply; dsimp only; split <;> rfl)

@[simp] theorem cwd_applyAll (t : FileTree) (cs : List Change) : (t.applyAll cs).cwd = t.cwd := by
  induction cs generalizing t with
  | nil => rfl
  | cons c cs ih =>
    rw [applyAll, List.foldl_cons]
    exact (ih _).trans (cwd_apply t c)

theorem applyAll_cons (t : FileTree) (c : Change) (cs : List Change) :
    t.applyAll (c :: cs) = (t.apply c).applyAll cs := rfl

theorem applyAll_append (t : FileTree) (cs ds : List Change) :
    t.applyAll (cs ++ ds) = (t.applyAll cs).applyAll ds :=
  List.foldl_append

/-! ## Versions -/

/-- The content that a change puts under `key`, if it puts one there. -/
def brings (t : FileTree) (key : List String) : Change → Option Content
  | .write path content => if path = key then some content else none
  | .rename source target =>
    match t.node? source with
    | some (.file content) => if target = key then some content else none
    | _ => none
  | _ => none

/-- The contents that come to stand under `key` in the course of some changes, the oldest
first. -/
def versions (key : List String) : FileTree → List Change → List Content
  | _, [] => []
  | t, c :: cs => (t.brings key c).toList ++ versions key (t.apply c) cs

theorem versions_append (key : List String) (t : FileTree) (cs ds : List Change) :
    versions key t (cs ++ ds) = versions key t cs ++ versions key (t.applyAll cs) ds := by
  induction cs generalizing t with
  | nil => rfl
  | cons c cs ih =>
    rw [List.cons_append, versions, versions, ih, List.append_assoc, applyAll_cons]

/-- The changes do nothing to what stands under `key` but bring contents there. -/
def OnlyBrings (key : List String) : FileTree → List Change → Prop
  | _, [] => True
  | t, c :: cs =>
    (t.apply c).node? key = ((t.brings key c).map Node.file).or (t.node? key) ∧
      OnlyBrings key (t.apply c) cs

theorem onlyBrings_append_iff (key : List String) (t : FileTree) (cs ds : List Change) :
    OnlyBrings key t (cs ++ ds) ↔
      OnlyBrings key t cs ∧ OnlyBrings key (t.applyAll cs) ds := by
  induction cs generalizing t with
  | nil => exact (and_iff_right trivial).symm
  | cons c cs ih => rw [List.cons_append, OnlyBrings, OnlyBrings, ih, and_assoc, applyAll_cons]

/-- After such changes the last content that they have brought stands under `key`. -/
theorem OnlyBrings.node?_applyAll {cs : List Change} (h : t.OnlyBrings key cs) :
    (t.applyAll cs).node? key =
      ((t.versions key cs).getLast?.map Node.file).or (t.node? key) := by
  induction cs generalizing t with
  | nil => rfl
  | cons c cs ih =>
    rw [applyAll_cons, ih h.2, versions, h.1, List.getLast?_append]
    cases (versions key (t.apply c) cs).getLast? with
    | some content => rfl
    | none => cases t.brings key c <;> rfl

/-! ## Directories -/

/-- The directories that are made lead to the path, and were not there; the path itself is among
them, unless it was there. -/
theorem exists_paths_of_makeDirectories {p : Path} {cs : List Change}
    (h : t.makeDirectories p = .ok cs) : ∃ paths : List (List String),
      cs = paths.map .makeDirectory ∧
        (∀ path ∈ paths, path <+: p.resolve t.cwd ∧ t.node? path = none) ∧
        (p.resolve t.cwd ∈ paths ∨ t.node? (p.resolve t.cwd) = some .directory) := by
  unfold makeDirectories at h
  dsimp only at h
  split at h
  · rename_i hdirectory
    cases h
    exact ⟨[], rfl, nofun, .inr hdirectory⟩
  · cases h
  · rename_i hnone
    split at h
    · cases h
    · cases h
      refine ⟨_, rfl, fun path hpath => ?_, .inl ?_⟩
      · rw [List.mem_filter, List.mem_map, Option.isNone_iff_eq_none] at hpath
        obtain ⟨⟨n, -, rfl⟩, hnone⟩ := hpath
        exact ⟨List.take_prefix n _, hnone⟩
      · rw [List.mem_filter, List.mem_map, Option.isNone_iff_eq_none]
        exact ⟨⟨_, List.mem_range.2 (Nat.lt_succ_self _), List.take_length⟩, hnone⟩

/-- For a directory that is there nothing is made. -/
theorem makeDirectories_of_directory {p : Path}
    (h : t.node? (p.resolve t.cwd) = some .directory) : t.makeDirectories p = .ok [] := by
  simp only [makeDirectories, h]

/-- Once directories have been made, they are there. -/
theorem node?_applyAll_makeDirectory {paths : List (List String)} (hne : [] ∉ paths)
    (h : key ∈ paths ∨ t.node? key = some .directory) :
    (t.applyAll (paths.map .makeDirectory)).node? key = some .directory := by
  induction paths generalizing t with
  | nil => exact h.resolve_left List.not_mem_nil
  | cons path paths ih =>
    rw [List.mem_cons, not_or] at hne
    rw [List.map_cons, applyAll_cons]
    refine ih hne.2 ?_
    rw [apply, node?_put (Ne.symm hne.1)]
    rcases h with h | h
    · rcases List.mem_cons.1 h with rfl | h
      · exact .inr (if_pos rfl)
      · exact .inl h
    · exact .inr (by rw [h, ite_self])

/-- The changes that make a directory do make it. -/
theorem node?_makeDirectories {p : Path} {cs : List Change} (h : t.makeDirectories p = .ok cs) :
    (t.applyAll cs).node? (p.resolve t.cwd) = some .directory := by
  obtain ⟨paths, rfl, hpaths, hthere⟩ := exists_paths_of_makeDirectories h
  exact node?_applyAll_makeDirectory (fun hmem => Option.some_ne_none _ (hpaths [] hmem).2) hthere

/-! ## Files that can be reached -/

theorem obstacle?_eq_none_iff :
    t.obstacle? names = none ↔ ∀ a, a <+: names → a ≠ names → t.node? a = some .directory := by
  have hancestors : ∀ a, a ∈ ancestors names ↔ a <+: names ∧ a ≠ names := by
    intro a
    rw [ancestors, List.mem_map]
    constructor
    · rintro ⟨n, hn, rfl⟩
      rw [List.mem_range] at hn
      refine ⟨List.take_prefix n names, fun heq => ?_⟩
      have hlength := congrArg List.length heq
      rw [List.length_take] at hlength
      omega
    · rintro ⟨hbegins, hne⟩
      refine ⟨a.length, ?_, (List.prefix_iff_eq_take.1 hbegins).symm⟩
      rw [List.mem_range]
      exact Nat.lt_of_le_of_ne hbegins.length_le fun hlength => hne (hbegins.eq_of_length hlength)
  rw [obstacle?, List.findSome?_eq_none_iff]
  constructor
  · intro h a hbegins hne
    have ha := h a ((hancestors a).2 ⟨hbegins, hne⟩)
    split at ha <;> first | assumption | cases ha
  · intro h a hmem
    rw [h a ((hancestors a).1 hmem).1 ((hancestors a).1 hmem).2]

/-- A file with a content that can be reached : only directories lead to it. -/
structure Holds (t : FileTree) (names : List String) (content : Content) : Prop where
  node : t.node? names = some (.file content)
  way : ∀ a, a <+: names → a ≠ names → t.node? a = some .directory

/-- What is held can be read. -/
theorem Holds.read_eq {p : Path} {content : Content} (h : t.Holds (p.resolve t.cwd) content) :
    t.read p = .ok content := by
  unfold read find?
  rw [obstacle?_eq_none_iff.2 h.way, h.node]

/-- What can be read is held. -/
theorem holds_of_read {p : Path} {content : Content} (h : t.read p = .ok content) :
    t.Holds (p.resolve t.cwd) content := by
  unfold read find? at h
  split at h
  · cases h
  · rename_i hway
    split at h
    · rename_i hnode
      cases h
      exact ⟨hnode, obstacle?_eq_none_iff.1 hway⟩
    · cases h
    · cases h

/-- A file stays as it is where its own node and those of the directories above it do. -/
theorem Holds.of_node_eq {t' : FileTree} {content : Content} (h : t.Holds names content)
    (hnode : ∀ a, a <+: names → t'.node? a = t.node? a) : t'.Holds names content :=
  ⟨(hnode names (List.prefix_refl names)).trans h.node,
    fun a hbegins hne => (hnode a hbegins).trans (h.way a hbegins hne)⟩

end PlanReview.FileTree
