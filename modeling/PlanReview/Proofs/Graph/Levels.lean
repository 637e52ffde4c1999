import Mathlib.Data.List.Nodup
import Mathlib.Data.List.Perm.Subperm
import PlanReview.Graph.Level
import PlanReview.Proofs.Graph.Acyclic
import PlanReview.Viability.Rules

/-!
# Levels and dependencies

The passes over the list only ever add levels, so what held of a level when it was settled holds
of it in the end : it tops the levels of the dependencies of the instruction it was settled for
(`Levels.Sound`). They stop when a pass adds nothing (`isStill_passes`), and by then every id is
settled whose dependencies are. In an acyclic graph without dangling dependencies that is every
id, by induction along the dependencies (`isSome_of_acc`).

The two readings of the list differ where an id occurs more than once. The rule that accepts a
graph looks at the last instruction with an id, the levels at the first that can be settled, and
an instruction without dependencies always can. So every id gets the level of one of its
instructions, not of each of them (`levels_of_logicalFlow`).
-/

namespace PlanReview.Graph

open Relation

theorem exists_lookup? {instructions : List Instruction} {id : String}
    (h : id ∈ ids instructions) : ∃ i, lookup? instructions id = some i := by
  obtain ⟨i, hi, rfl⟩ := List.mem_map.1 h
  exact Option.isSome_iff_exists.1 (List.find?_isSome.2 ⟨i, List.mem_reverse.2 hi, by simp⟩)

namespace Levels

variable {instructions : List Instruction} {levels next : Levels} {ds : List String} {n : Nat}

/-! ## One level -/

/-- `n` is one more than the deepest of the dependencies, and zero if there are none. -/
structure Tops (levels : Levels) (ds : List String) (n : Nat) : Prop where
  above : ∀ d ∈ ds, ∃ m, levels.lookup d = some m ∧ m < n
  least : n ≠ 0 → ∃ d ∈ ds, levels.lookup d = some (n - 1)

theorem tops_of_above? (h : levels.above? ds = some n) : levels.Tops ds n := by
  induction ds generalizing n with
  | nil =>
    cases h
    exact ⟨by simp, by simp⟩
  | cons d ds ih =>
    unfold above? at h
    split at h
    · rename_i k m hk hm
      cases h
      obtain ⟨habove, hleast⟩ := ih hm
      constructor
      · intro e he
        rcases List.mem_cons.1 he with rfl | he
        · exact ⟨k, hk, by omega⟩
        · obtain ⟨j, hj, hlt⟩ := habove e he
          exact ⟨j, hj, by omega⟩
      · intro _
        rcases Nat.le_total (k + 1) m with hle | hle
        · obtain ⟨e, he, hlookup⟩ := hleast (by omega)
          exact ⟨e, by simp [he], by rw [hlookup, Nat.max_eq_right hle]⟩
        · exact ⟨d, by simp, by rw [hk, Nat.max_eq_left hle, Nat.add_sub_cancel]⟩
    · cases h

theorem isSome_above? (h : ∀ d ∈ ds, (levels.lookup d).isSome) : (levels.above? ds).isSome := by
  induction ds with
  | nil => rfl
  | cons d ds ih =>
    obtain ⟨k, hk⟩ := Option.isSome_iff_exists.1 (h d (by simp))
    obtain ⟨m, hm⟩ := Option.isSome_iff_exists.1 (ih fun e he => h e (by simp [he]))
    simp [above?, hk, hm]

/-- Levels that are added later do not hide those that are there. -/
theorem lookup_mono {id : String} (hp : levels <+: next) (h : levels.lookup id = some n) :
    next.lookup id = some n := by
  obtain ⟨more, rfl⟩ := hp
  simp [List.lookup_append, h]

theorem Tops.mono (h : levels.Tops ds n) (hp : levels <+: next) : next.Tops ds n where
  above d hd := by
    obtain ⟨m, hm, hlt⟩ := h.above d hd
    exact ⟨m, lookup_mono hp hm, hlt⟩
  least hn := by
    obtain ⟨d, hd, hm⟩ := h.least hn
    exact ⟨d, hd, lookup_mono hp hm⟩

/-! ## What the passes preserve -/

theorem mem_of_lookup {id : String} (h : levels.lookup id = some n) : (id, n) ∈ levels := by
  obtain ⟨front, back, rfl, -⟩ := List.lookup_eq_some_iff.1 h
  simp

theorem notMem_of_lookup {id : String} (h : levels.lookup id = none) :
    id ∉ levels.map Prod.fst := by
  intro hmem
  obtain ⟨e, he, rfl⟩ := List.mem_map.1 hmem
  simpa using List.lookup_eq_none_iff.1 h e he

theorem mem_keys_iff {id : String} : id ∈ levels.map Prod.fst ↔ (levels.lookup id).isSome := by
  constructor
  · intro hmem
    by_contra hnone
    exact notMem_of_lookup (Option.not_isSome_iff_eq_none.1 hnone) hmem
  · intro h
    obtain ⟨n, hn⟩ := Option.isSome_iff_exists.1 h
    exact List.mem_map_of_mem (mem_of_lookup hn)

/-- Where every id occurs once, what is looked up is what is there. -/
theorem mem_iff_lookup (h : (levels.map Prod.fst).Nodup) {id : String} :
    (id, n) ∈ levels ↔ levels.lookup id = some n := by
  refine ⟨fun hmem => ?_, mem_of_lookup⟩
  obtain ⟨m, hm⟩ := Option.isSome_iff_exists.1 (mem_keys_iff.1 (List.mem_map_of_mem hmem))
  have hsame := List.inj_on_of_nodup_map h hmem (mem_of_lookup hm) rfl
  rwa [(Prod.mk.inj hsame).2]

theorem nodup_snoc {id : String} (h : (levels.map Prod.fst).Nodup) (hid : levels.lookup id = none) :
    ((levels ++ [(id, n)]).map Prod.fst).Nodup := by
  rw [List.map_append, List.nodup_append]
  refine ⟨h, by simp, fun a ha b hb => ?_⟩
  rintro rfl
  obtain rfl : a = id := by simpa using hb
  exact notMem_of_lookup hid ha

/-- Every id is settled once, for an instruction that has it and whose dependencies are settled. -/
structure Sound (instructions : List Instruction) (levels : Levels) : Prop where
  nodup : (levels.map Prod.fst).Nodup
  settled : ∀ e ∈ levels, ∃ i ∈ instructions, i.id = e.1 ∧ levels.Tops i.dependencies e.2

theorem Sound.keys_subset (h : Sound instructions levels) :
    levels.map Prod.fst ⊆ ids instructions := by
  intro id hid
  obtain ⟨e, he, rfl⟩ := List.mem_map.1 hid
  obtain ⟨i, hi, hid, -⟩ := h.settled e he
  exact hid ▸ List.mem_map_of_mem hi

theorem Sound.length_le (h : Sound instructions levels) : levels.length ≤ instructions.length := by
  simpa [ids] using (h.nodup.subperm h.keys_subset).length_le

theorem sound_roots (instructions : List Instruction) :
    Sound instructions (roots instructions) where
  nodup := by
    simpa [roots, Function.comp_def] using nodup_eraseDups _
  settled e he := by
    simp only [roots, List.mem_map, List.mem_eraseDups, ids, List.mem_filter] at he
    obtain ⟨id, ⟨i, ⟨hi, hempty⟩, rfl⟩, rfl⟩ := he
    refine ⟨i, hi, rfl, tops_of_above? ?_⟩
    rw [List.isEmpty_iff.1 hempty]
    rfl

/-- An instruction without dependencies puts its id at level zero. -/
theorem lookup_roots {i : Instruction} (hi : i ∈ instructions) (hempty : i.dependencies = []) :
    (roots instructions).lookup i.id = some 0 := by
  have hmem : i.id ∈ (ids (instructions.filter (·.dependencies.isEmpty))).eraseDups := by
    rw [List.mem_eraseDups]
    exact List.mem_map_of_mem (List.mem_filter.2 ⟨hi, by simp [hempty]⟩)
  have hsome : ((roots instructions).lookup i.id).isSome := by
    by_contra hnone
    refine notMem_of_lookup (Option.not_isSome_iff_eq_none.1 hnone) ?_
    simpa [roots, Function.comp_def] using hmem
  obtain ⟨n, hn⟩ := Option.isSome_iff_exists.1 hsome
  have := mem_of_lookup hn
  simp only [roots, List.mem_map, Prod.mk.injEq] at this
  obtain ⟨_, -, -, rfl⟩ := this
  exact hn

theorem isPrefix_settle (levels : Levels) (i : Instruction) : levels <+: levels.settle i := by
  unfold settle
  repeat' split
  all_goals simp

theorem Sound.settle {i : Instruction} (h : Sound instructions levels) (hi : i ∈ instructions) :
    Sound instructions (levels.settle i) := by
  have hprefix := isPrefix_settle levels i
  unfold Levels.settle at hprefix ⊢
  split
  · exact h
  · rename_i hnone
    split
    · rename_i n hn
      simp only [hnone, hn] at hprefix
      refine ⟨nodup_snoc h.nodup hnone, fun e he => ?_⟩
      rcases List.mem_append.1 he with he | he
      · obtain ⟨j, hj, hid, htops⟩ := h.settled e he
        exact ⟨j, hj, hid, htops.mono hprefix⟩
      · obtain rfl : e = (i.id, n) := by simpa using he
        exact ⟨i, hi, rfl, (tops_of_above? hn).mono hprefix⟩
    · exact h

theorem isPrefix_foldl_settle (l : List Instruction) (levels : Levels) :
    levels <+: l.foldl Levels.settle levels := by
  induction l generalizing levels with
  | nil => exact List.prefix_rfl
  | cons i rest ih => exact (isPrefix_settle levels i).trans (ih _)

theorem isPrefix_passes (instructions : List Instruction) (n : Nat) (levels : Levels) :
    levels <+: passes instructions n levels := by
  induction n generalizing levels with
  | zero => exact List.prefix_rfl
  | succ n ih =>
    unfold passes
    dsimp only
    split
    · exact List.prefix_rfl
    · exact (isPrefix_foldl_settle instructions levels).trans (ih _)

theorem Sound.foldl_settle {l : List Instruction} (h : Sound instructions levels)
    (hl : l ⊆ instructions) : Sound instructions (l.foldl Levels.settle levels) := by
  induction l generalizing levels with
  | nil => exact h
  | cons i rest ih =>
    exact ih (h.settle (hl (by simp))) fun j hj => hl (by simp [hj])

theorem Sound.pass (h : Sound instructions levels) :
    Sound instructions (levels.pass instructions) :=
  h.foldl_settle fun _ hi => hi

theorem Sound.passes (n : Nat) (h : Sound instructions levels) :
    Sound instructions (passes instructions n levels) := by
  induction n generalizing levels with
  | zero => exact h
  | succ n ih =>
    unfold Levels.passes
    dsimp only
    split
    · exact h
    · exact ih h.pass

/-! ## Where the passes stop -/

/-- A pass over the list settles nothing. -/
def IsStill (instructions : List Instruction) (levels : Levels) : Prop :=
  (levels.pass instructions).length = levels.length

/-- A pass that settles nothing leaves the levels as they are. -/
theorem IsStill.pass_eq (h : IsStill instructions levels) : levels.pass instructions = levels :=
  ((isPrefix_foldl_settle instructions levels).eq_of_length h.symm).symm

/-- The passes are passes one after the other, and no more than they may be. -/
theorem exists_passes_eq_iterate (instructions : List Instruction) (n : Nat) (levels : Levels) :
    ∃ m ≤ n, passes instructions n levels = (pass instructions)^[m] levels := by
  induction n generalizing levels with
  | zero => exact ⟨0, le_rfl, rfl⟩
  | succ n ih =>
    unfold passes
    dsimp only
    split
    · exact ⟨0, by omega, rfl⟩
    · obtain ⟨m, hm, heq⟩ := ih (levels.pass instructions)
      exact ⟨m + 1, by omega, heq⟩

/-- As many passes as there are ids to settle reach levels that a further pass leaves alone. -/
theorem isStill_passes (n : Nat) (h : Sound instructions levels)
    (hn : instructions.length ≤ levels.length + n) :
    IsStill instructions (passes instructions n levels) := by
  induction n generalizing levels with
  | zero =>
    have hle := h.pass.length_le
    have hge := (isPrefix_foldl_settle instructions levels).length_le
    exact Nat.le_antisymm (by simp only [passes]; omega) hge
  | succ n ih =>
    have hge := (isPrefix_foldl_settle instructions levels).length_le
    unfold passes
    dsimp only
    split
    · rename_i hstill
      exact hstill
    · rename_i hmoved
      refine ih h.pass ?_
      simp only [pass] at hmoved ⊢
      omega

theorem settle_eq_of_foldl {l : List Instruction}
    (h : (l.foldl Levels.settle levels).length = levels.length) :
    ∀ i ∈ l, levels.settle i = levels := by
  induction l with
  | nil => simp
  | cons i rest ih =>
    have hfirst := isPrefix_settle levels i
    have hrest := (isPrefix_foldl_settle rest (levels.settle i)).length_le
    have hi : levels.settle i = levels := by
      refine (hfirst.eq_of_length ?_).symm
      have := hfirst.length_le
      rw [List.foldl_cons] at h
      omega
    rw [List.foldl_cons, hi] at h
    intro j hj
    rcases List.mem_cons.1 hj with rfl | hj
    · exact hi
    · exact ih h j hj

/-- Where a pass settles nothing, an instruction with settled dependencies is settled. -/
theorem IsStill.isSome_lookup {i : Instruction} (h : IsStill instructions levels)
    (hi : i ∈ instructions) (hd : ∀ d ∈ i.dependencies, (levels.lookup d).isSome) :
    (levels.lookup i.id).isSome := by
  have hsame := settle_eq_of_foldl h i hi
  obtain ⟨n, hn⟩ := Option.isSome_iff_exists.1 (isSome_above? hd)
  cases hl : levels.lookup i.id with
  | some _ => rfl
  | none =>
    simp only [settle, hl, hn] at hsame
    simpa using congrArg List.length hsame

/-- Where a pass settles nothing, an id is settled from which nothing endless starts and that leads
to ids only. -/
theorem IsStill.isSome_of_acc_of_forall (h : IsStill instructions levels) {id : String}
    (hacc : Acc (fun b a => DependsOn instructions a b) id)
    (hknown : ∀ x, ReflTransGen (DependsOn instructions) id x → x ∈ ids instructions) :
    (levels.lookup id).isSome := by
  induction hacc with
  | intro id _ ih =>
    obtain ⟨i, hi⟩ := exists_lookup? (hknown id .refl)
    have hsucc : successors instructions id = i.dependencies := by simp [successors, hi]
    have hmem : i ∈ instructions := List.mem_reverse.1 (List.mem_of_find?_eq_some hi)
    obtain rfl : i.id = id := by simpa using List.find?_some hi
    refine h.isSome_lookup hmem fun d hd => ?_
    have hdepends : DependsOn instructions i.id d := (congrArg (d ∈ ·) hsucc).mpr hd
    exact ih d hdepends fun x hx => hknown x (.head hdepends hx)

/-- Where a pass settles nothing and no dependency is dangling, every id is settled from which
nothing endless starts. -/
theorem IsStill.isSome_of_acc (h : IsStill instructions levels)
    (hknown : ∀ i ∈ instructions, ∀ d ∈ i.dependencies, d ∈ ids instructions) {id : String}
    (hacc : Acc (fun b a => DependsOn instructions a b) id) (hid : id ∈ ids instructions) :
    (levels.lookup id).isSome := by
  refine h.isSome_of_acc_of_forall hacc fun x hx => ?_
  cases hx with
  | refl => exact hid
  | tail _ hdepends =>
    obtain ⟨front, i, back, hsplit, -, -, hx⟩ := dependsOn_iff.1 hdepends
    exact hknown i (by simp [hsplit]) x hx

/-! ## What is never settled -/

theorem complete_eq (h : ∀ id ∈ ids instructions, (levels.lookup id).isSome) :
    complete instructions levels = levels := by
  unfold complete
  generalize ids instructions = settled at h
  induction settled with
  | nil => rfl
  | cons id rest ih =>
    rw [List.foldl_cons, if_pos (h id (by simp))]
    exact ih fun e he => h e (by simp [he])

/-- What is settled stays, and every other id is put at zero. -/
theorem lookup_complete (instructions : List Instruction) (levels : Levels) (id : String) :
    (levels.complete instructions).lookup id =
      (levels.lookup id).or (if id ∈ ids instructions then some 0 else none) := by
  unfold complete
  generalize ids instructions = known
  induction known generalizing levels with
  | nil => simp
  | cons first rest ih =>
    rw [List.foldl_cons, ih]
    by_cases hfirst : (levels.lookup first).isSome
    · by_cases hid : id = first
      · obtain ⟨n, hn⟩ := Option.isSome_iff_exists.1 (hid ▸ hfirst)
        simp [hfirst, hn]
      · simp [hfirst, hid]
    · by_cases hid : id = first
      · simp [hid, Option.not_isSome_iff_eq_none.1 hfirst, List.lookup_append]
      · have hother : (id == first) = false := beq_false_of_ne hid
        simp [hfirst, hid, hother, List.lookup_append, List.lookup_cons]

theorem nodup_complete (instructions : List Instruction) (h : (levels.map Prod.fst).Nodup) :
    ((levels.complete instructions).map Prod.fst).Nodup := by
  unfold complete
  generalize ids instructions = known
  induction known generalizing levels with
  | nil => exact h
  | cons first rest ih =>
    rw [List.foldl_cons]
    split
    · exact ih h
    · rename_i hfirst
      exact ih (nodup_snoc h (Option.not_isSome_iff_eq_none.1 hfirst))

end Levels

/-- The levels where the passes stop. -/
abbrev settledLevels (instructions : List Instruction) : Levels :=
  Levels.passes instructions instructions.length (Levels.roots instructions)

theorem sound_settledLevels (instructions : List Instruction) :
    Levels.Sound instructions (settledLevels instructions) :=
  (Levels.sound_roots instructions).passes _

theorem isStill_settledLevels (instructions : List Instruction) :
    Levels.IsStill instructions (settledLevels instructions) :=
  Levels.isStill_passes _ (Levels.sound_roots instructions) (by omega)

/-- There are levels of the ids and of nothing else. -/
theorem isSome_lookup_levels_iff {instructions : List Instruction} {id : String} :
    ((levels instructions).lookup id).isSome ↔ id ∈ ids instructions := by
  rw [levels, Levels.lookup_complete]
  constructor
  · intro h
    by_contra hid
    rw [if_neg hid, Option.or_none] at h
    exact hid ((sound_settledLevels instructions).keys_subset (Levels.mem_keys_iff.2 h))
  · intro hid
    simp [hid]

end PlanReview.Graph

namespace PlanReview.Viability

variable {instructions : List Instruction}

/-- The rule on dependencies finds nothing exactly if they are all ids and the search for a cycle
finds none. -/
theorem logicalFlow_eq_nil_iff : logicalFlow instructions = [] ↔
    (∀ i ∈ instructions, ∀ d ∈ i.dependencies, d ∈ Graph.ids instructions) ∧
      Graph.findCycle instructions = none := by
  simp [logicalFlow, dangling, Option.toList_eq_nil_iff]

/-- Where the rule on dependencies finds nothing, every id gets the level of one of the
instructions that have it. So it lies above every dependency that they all share, and at zero if
one of them depends on nothing. -/
theorem levels_of_logicalFlow (h : logicalFlow instructions = []) :
    ∀ i ∈ instructions, ∃ n, (Graph.levels instructions).lookup i.id = some n ∧
      (∃ j ∈ instructions, j.id = i.id ∧ (Graph.levels instructions).Tops j.dependencies n) ∧
      (∀ d, (∀ j ∈ instructions, j.id = i.id → d ∈ j.dependencies) →
        ∃ m, (Graph.levels instructions).lookup d = some m ∧ m < n) ∧
      ((∃ j ∈ instructions, j.id = i.id ∧ j.dependencies = []) → n = 0) := by
  obtain ⟨hknown, hcycle⟩ := logicalFlow_eq_nil_iff.1 h
  have hsound := (Graph.Levels.sound_roots instructions).passes instructions.length
  have hstill := Graph.Levels.isStill_passes instructions.length
    (Graph.Levels.sound_roots instructions) (by omega)
  have hall : ∀ id ∈ Graph.ids instructions, ((Graph.Levels.passes instructions instructions.length
      (Graph.Levels.roots instructions)).lookup id).isSome :=
    fun id hid => hstill.isSome_of_acc hknown (Graph.acc_of_findCycle hcycle hid) hid
  rw [Graph.levels, Graph.Levels.complete_eq hall]
  intro i hi
  obtain ⟨n, hn⟩ := Option.isSome_iff_exists.1 (hall i.id (List.mem_map_of_mem hi))
  obtain ⟨j, hj, hid, htops⟩ := hsound.settled _ (Graph.Levels.mem_of_lookup hn)
  refine ⟨n, hn, ⟨j, hj, hid, htops⟩, fun d hd => htops.above d (hd j hj hid), ?_⟩
  rintro ⟨k, hk, hkid, hempty⟩
  have hroot := Graph.Levels.lookup_mono
    (Graph.Levels.isPrefix_passes instructions instructions.length _)
    (Graph.Levels.lookup_roots hk hempty)
  rw [hkid, hn] at hroot
  exact Option.some.inj hroot

/-- The id `c` occurs twice, once before what it depends on; both times it depends on `b`. -/
def shared : List Instruction :=
  [{ id := "c", op := .editCode, dependencies := ["a", "b"] }, { id := "a", op := .searchCode },
    { id := "b", op := .readFiles, dependencies := ["a"] },
    { id := "c", op := .runTest, dependencies := ["b"] }]

theorem levels_of_shared : logicalFlow shared = [] ∧
    ∃ n m, (Graph.levels shared).lookup "c" = some n ∧
      (Graph.levels shared).lookup "b" = some m ∧ m < n := by
  have h : logicalFlow shared = [] := logicalFlow_eq_nil_iff.2 ⟨by decide, by cbv⟩
  obtain ⟨n, hn, -, hshared, -⟩ := levels_of_logicalFlow h shared[0] (by simp [shared])
  obtain ⟨m, hm, hlt⟩ := hshared "b" (by decide)
  exact ⟨h, n, m, hn, hm, hlt⟩

/-- Two instructions share the id `a` : the first depends on nothing, the last on `b`. -/
def repeated : List Instruction :=
  [{ id := "a", op := .searchCode }, { id := "b", op := .searchCode },
    { id := "a", op := .readFiles, dependencies := ["b"] }]

/-- An instruction may end up level with what it depends on, if its id occurs more than once. -/
theorem level_eq_of_repeated : logicalFlow repeated = [] ∧
    ∃ i ∈ repeated, ∃ d ∈ i.dependencies, ∃ n, (Graph.levels repeated).lookup i.id = some n ∧
      (Graph.levels repeated).lookup d = some n := by
  refine ⟨logicalFlow_eq_nil_iff.2 ⟨by decide, by cbv⟩, ?_⟩
  exact ⟨repeated[2], by simp [repeated], "b", by simp [repeated], 0, by decide, by decide⟩

end PlanReview.Viability
