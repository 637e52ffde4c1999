import Mathlib.Algebra.Group.Action.Defs
import Mathlib.Algebra.Order.BigOperators.Group.Finset
import PlanReview.Graph.Metrics
import PlanReview.Proofs.Graph.Levels

/-!
# Depth and width of the levels

The levels of a graph have no gaps (`gapless_levels`) : what is settled above zero tops something
settled right below it, and all else is at zero. So they are the numbers up to the deepest, and
counting the ids level by level bounds the width by the depth and the other way round
(`IsGapless.length_le_mul`, `IsGapless.add_le_length`).

The figures of a graph are maxima and a quotient. `metrics_of_ne_nil` : as long as there are
instructions, whatever they depend on, each maximum is one of something and the divisor is not zero.
-/

namespace PlanReview.Graph

/-! ## The largest of some numbers -/

section Largest

variable {ns : List Nat}

theorem max?_eq_some_largest (h : ns ≠ []) : ns.max? = some (largest ns) := by
  cases ns with
  | nil => exact absurd rfl h
  | cons n rest => rw [List.max?_cons', largest, List.foldl_cons, Nat.zero_max]

theorem largest_mem (h : ns ≠ []) : largest ns ∈ ns :=
  (List.max?_eq_some_iff.1 (max?_eq_some_largest h)).1

theorem le_largest {n : Nat} (hn : n ∈ ns) : n ≤ largest ns :=
  (List.max?_eq_some_iff.1 (max?_eq_some_largest (List.ne_nil_of_mem hn))).2 n hn

/-- How often the number occurs that occurs most. -/
def largestCount (ns : List Nat) : Nat :=
  largest (ns.map fun n => ns.count n)

/-- With a number the one below it is there too. -/
def IsGapless (ns : List Nat) : Prop :=
  ∀ n, n + 1 ∈ ns → n ∈ ns

namespace IsGapless

theorem mem_of_le (h : IsGapless ns) {m n : Nat} (hn : n ∈ ns) (hle : m ≤ n) : m ∈ ns := by
  induction hle using Nat.decreasingInduction with
  | self => exact hn
  | of_succ k _ ih => exact h k ih

/-- Without gaps, the numbers are those up to the largest. -/
theorem mem_iff (h : IsGapless ns) (hne : ns ≠ []) {n : Nat} : n ∈ ns ↔ n < largest ns + 1 := by
  constructor
  · intro hn
    have := le_largest hn
    omega
  · intro hlt
    exact h.mem_of_le (largest_mem hne) (by omega)

theorem length_eq_sum (h : IsGapless ns) (hne : ns ≠ []) :
    ns.length = ∑ n ∈ Finset.range (largest ns + 1), ns.count n := by
  have hrange : ns.toFinset = Finset.range (largest ns + 1) := by
    ext n
    rw [List.mem_toFinset, Finset.mem_range, h.mem_iff hne]
  rw [← hrange, List.sum_toFinset_count_eq_length]

/-- No number occurs more often than the one that occurs most. -/
theorem length_le_mul (h : IsGapless ns) (hne : ns ≠ []) :
    ns.length ≤ largestCount ns * (largest ns + 1) := by
  have hcount : ∀ n ∈ Finset.range (largest ns + 1), ns.count n ≤ largestCount ns := by
    intro n hn
    rw [Finset.mem_range, ← h.mem_iff hne] at hn
    exact le_largest (List.mem_map_of_mem hn)
  calc ns.length = ∑ n ∈ Finset.range (largest ns + 1), ns.count n := h.length_eq_sum hne
    _ ≤ (Finset.range (largest ns + 1)).card • largestCount ns :=
      Finset.sum_le_card_nsmul _ _ _ hcount
    _ = largestCount ns * (largest ns + 1) := by
      rw [Finset.card_range, smul_eq_mul, mul_comm]

/-- Beside the number that occurs most, every other one occurs. -/
theorem add_le_length (h : IsGapless ns) (hne : ns ≠ []) :
    largestCount ns + (largest ns + 1) ≤ ns.length + 1 := by
  obtain ⟨widest, hwidest, hcount⟩ : ∃ n ∈ ns, ns.count n = largestCount ns :=
    List.mem_map.1 (largest_mem (by simpa using hne))
  have hrange := Finset.mem_range.2 ((h.mem_iff hne).1 hwidest)
  have hothers : ((Finset.range (largest ns + 1)).erase widest).card • 1 ≤
      ∑ n ∈ (Finset.range (largest ns + 1)).erase widest, ns.count n := by
    refine Finset.card_nsmul_le_sum _ _ _ fun n hn => ?_
    rw [Finset.mem_erase, Finset.mem_range, ← h.mem_iff hne] at hn
    exact List.count_pos_iff.2 hn.2
  rw [Finset.card_erase_of_mem hrange, Finset.card_range, smul_eq_mul, mul_one] at hothers
  have hsum := Finset.add_sum_erase _ (fun n => ns.count n) hrange
  rw [← h.length_eq_sum hne] at hsum
  omega

end IsGapless

end Largest

/-! ## The levels of a graph -/

variable {instructions : List Instruction}

theorem nodup_levels (instructions : List Instruction) :
    ((levels instructions).map Prod.fst).Nodup :=
  Levels.nodup_complete instructions (sound_settledLevels instructions).nodup

/-- There is one level for each id. -/
theorem length_levels (instructions : List Instruction) :
    (levels instructions).length = (ids instructions).toFinset.card := by
  have hkeys : ((levels instructions).map Prod.fst).toFinset = (ids instructions).toFinset := by
    ext id
    rw [List.mem_toFinset, List.mem_toFinset, Levels.mem_keys_iff, isSome_lookup_levels_iff]
  rw [← hkeys, List.toFinset_card_of_nodup (nodup_levels instructions), List.length_map]

theorem gapless_levels (instructions : List Instruction) :
    IsGapless ((levels instructions).map Prod.snd) := by
  intro n hn
  obtain ⟨⟨id, _⟩, hmem, rfl⟩ := List.mem_map.1 hn
  rw [Levels.mem_iff_lookup (nodup_levels instructions)] at hmem
  have hsettled : (settledLevels instructions).lookup id = some (n + 1) := by
    rw [levels, Levels.lookup_complete, Option.or_eq_some_iff] at hmem
    rcases hmem with hmem | ⟨-, hzero⟩
    · exact hmem
    · split at hzero <;> simp at hzero
  obtain ⟨i, -, -, htops⟩ :=
    (sound_settledLevels instructions).settled _ (Levels.mem_of_lookup hsettled)
  obtain ⟨d, -, hd⟩ := htops.least (by simp)
  have hlookup : (levels instructions).lookup d = some n := by
    rw [levels, Levels.lookup_complete, hd]
    rfl
  exact List.mem_map_of_mem (Levels.mem_of_lookup hlookup)

/-! ## Settling -/

namespace Levels

/-- The levels as pass `n` comes to what follows `before` in the list. -/
def during (instructions : List Instruction) (n : Nat) (before : List Instruction) : Levels :=
  before.foldl settle ((pass instructions)^[n] (roots instructions))

/-- If the instruction is settled next it depends on something, and goes right above the deepest of
what it depends on. -/
def SettlesAbove (levels : Levels) (i : Instruction) : Prop :=
  levels.lookup i.id = none → (∀ d ∈ i.dependencies, (levels.lookup d).isSome) →
    ∃ deepest, (i.dependencies.filterMap fun d => levels.lookup d).max? = some deepest ∧
      levels.settle i = levels ++ [(i.id, deepest + 1)]

theorem isPrefix_during (instructions : List Instruction) (n : Nat) (before : List Instruction) :
    roots instructions <+: during instructions n before := by
  refine List.IsPrefix.trans ?_ (isPrefix_foldl_settle before _)
  induction n with
  | zero => exact List.prefix_rfl
  | succ n ih =>
    rw [Function.iterate_succ_apply']
    exact ih.trans (isPrefix_foldl_settle instructions _)

/-- What depends on nothing was settled with the roots. -/
theorem settlesAbove {levels : Levels} (hroots : roots instructions <+: levels) {i : Instruction}
    (hi : i ∈ instructions) : levels.SettlesAbove i := by
  intro hnone hsome
  obtain ⟨n, hn⟩ := Option.isSome_iff_exists.1 (isSome_above? hsome)
  have htops := tops_of_above? hn
  -- Only an instruction without dependencies could go to zero.
  have hpos : n ≠ 0 := by
    intro hzero
    have hempty : i.dependencies = [] := List.eq_nil_iff_forall_not_mem.2 fun d hd => by
      obtain ⟨m, -, hlt⟩ := htops.above d hd
      omega
    simp [lookup_mono hroots (lookup_roots hi hempty)] at hnone
  obtain ⟨deepest, rfl⟩ := Nat.exists_eq_succ_of_ne_zero hpos
  refine ⟨deepest, List.max?_eq_some_iff.2 ⟨?_, fun m hm => ?_⟩, by simp [settle, hnone, hn]⟩
  · obtain ⟨d, hd, hlookup⟩ := htops.least hpos
    exact List.mem_filterMap.2 ⟨d, hd, hlookup⟩
  · obtain ⟨d, hd, hlookup⟩ := List.mem_filterMap.1 hm
    obtain ⟨k, hk, hlt⟩ := htops.above d hd
    rw [hlookup, Option.some.injEq] at hk
    omega

end Levels

/-! ## The figures -/

/-- The figures are defined, and fit a graph of `d` ids. -/
structure Metrics.Fits (m : Metrics) (d : Nat) : Prop where
  deepest : (m.levels.map Prod.snd).max? = some (m.criticalPathLength - 1)
  widest : ((m.levels.map Prod.snd).map fun n => (m.levels.map Prod.snd).count n).max? =
    some m.maxWidth
  ratio : m.criticalPathLength ≠ 0 ∧
    m.parallelizationRatio = Float.ofNat m.maxWidth / Float.ofNat m.criticalPathLength
  mem_levels_iff : ∀ n, n ∈ m.levels.map Prod.snd ↔ n < m.criticalPathLength
  ids_le : d ≤ m.maxWidth * m.criticalPathLength
  le_ids : m.maxWidth + m.criticalPathLength ≤ d + 1

theorem map_snd_levels_ne_nil (h : instructions ≠ []) :
    (levels instructions).map Prod.snd ≠ [] := by
  obtain ⟨i, hi⟩ := List.exists_mem_of_ne_nil _ h
  have hkey : i.id ∈ (levels instructions).map Prod.fst :=
    Levels.mem_keys_iff.2 (isSome_lookup_levels_iff.2 (List.mem_map_of_mem hi))
  intro hnil
  simp [List.map_eq_nil_iff.1 hnil] at hkey

/-- Where there are instructions, every figure is defined : in each pass a level is settled above
the deepest of some others, the deepest and the fullest level are found among some levels, and the
length of the critical path is not zero. The levels have no gaps, and depth and width fit the number
of ids. -/
theorem metrics_of_ne_nil (h : instructions ≠ []) :
    (∀ n before i after, instructions = before ++ i :: after →
        (Levels.during instructions n before).SettlesAbove i) ∧
      (Metrics.of instructions).levels = levels instructions ∧
      (Metrics.of instructions).Fits (ids instructions).toFinset.card := by
  have hne := map_snd_levels_ne_nil h
  have hgapless := gapless_levels instructions
  have hlevels : (Metrics.of instructions).levels = levels instructions := by
    simp [Metrics.of, h]
  have hdepth : (Metrics.of instructions).criticalPathLength =
      largest ((levels instructions).map Prod.snd) + 1 := by
    simp [Metrics.of, h]
  have hwidth : (Metrics.of instructions).maxWidth =
      largestCount ((levels instructions).map Prod.snd) := by
    simp [Metrics.of, h, largestCount]
  have hlength : (ids instructions).toFinset.card =
      ((levels instructions).map Prod.snd).length := by
    rw [← length_levels, List.length_map]
  refine ⟨fun n before i after hsplit => ?_, hlevels, ?_⟩
  · exact Levels.settlesAbove (Levels.isPrefix_during _ _ _) (by simp [hsplit])
  constructor
  case deepest => simpa [hlevels, hdepth] using max?_eq_some_largest hne
  case widest =>
    rw [hlevels, hwidth]
    exact max?_eq_some_largest (by simpa using hne)
  case ratio => exact ⟨by omega, by simp [Metrics.of, h]⟩
  case mem_levels_iff =>
    intro n
    rw [hlevels, hdepth, hgapless.mem_iff hne]
  case ids_le =>
    rw [hlength, hwidth, hdepth]
    exact hgapless.length_le_mul hne
  case le_ids =>
    rw [hlength, hwidth, hdepth]
    exact hgapless.add_le_length hne

/-- A loop that also depends on something missing, beside a chain in which an id comes twice. -/
def knotted : List Instruction :=
  [{ id := "top", op := .editCode, dependencies := ["mid"] },
    { id := "mid", op := .readFiles, dependencies := ["base", "base"] },
    { id := "loop", op := .defineTask, dependencies := ["loop", "gone"] },
    { id := "base", op := .searchCode }, { id := "mid", op := .runTest, dependencies := ["loop"] }]

/-- The four ids are as wide as their depth allows. -/
theorem metrics_of_knotted : knotted ≠ [] ∧ (Metrics.of knotted).Fits 4 ∧
    (Metrics.of knotted).maxWidth = 2 ∧ (Metrics.of knotted).criticalPathLength = 3 := by
  have hne : knotted ≠ [] := by simp [knotted]
  exact ⟨hne, (metrics_of_ne_nil hne).2.2, by decide, by decide⟩

end PlanReview.Graph
